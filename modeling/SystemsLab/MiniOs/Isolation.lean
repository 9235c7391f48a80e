import Mathlib.Tactic.FinCases
import SystemsLab.MiniOs.CopyOnWrite

/-!
# Copy-on-write keeps spaces apart

A clone copies, a write changes one byte of one page of one space, and nothing else is seen to change.
-/

namespace SystemsLab.MiniOs

open Function

def View.write : View → Nat → UInt8 → View
  | .owned bytes, offset, v => .owned (update bytes offset v)
  | w, _, _ => w

namespace Paging
variable {m u₀ h₀ : Nat} {s : Paging m} {n : Fin m} {x : UserPage} {f : Nat} (v : Fin m → UserPage → View)
variable {p : Pmm}

abbrev Shows (u₀ h₀ : Nat) (s : Paging m) (view : Fin m → UserPage → View)
    (pte : Fin m → UserPage → PageEntry) : Prop :=
  s.Inv u₀ h₀ ∧ s.view = view ∧ s.pte = pte

namespace Inv
variable {e : PageEntry}

theorem fresh (hs : s.Inv u₀ h₀) (ha : s.pmm.allocBlock = some (f, p)) :
    (∀ write, ({ s with pmm := p } : Paging m).kernelFrame write f = some f) ∧ s.pageRef f = 0 ∧
      ∀ {k y g}, (s.pte k y).target = some g → g ≠ f := by
  obtain ⟨-, -, -, hfree, -⟩ := Pmm.allocBlock_eq_some ha
  have hw : ¬ Window f := fun hw => by simp [hs.layout.window hw] at hfree
  exact ⟨hs.kernelFrame hw, hs.layout.ref_of_free hfree,
    fun {k y _} hy h => hs.layout.unheld hfree (y := (k, .inl y)) (h ▸ hy)⟩

theorem window_of_eq (hs : s.Inv u₀ h₀) (hu : (s.pte n x).usable = true) (i : Fin 1024) (h : x = .inl i) :
    Window i := by
  subst h
  exact hs.window_of_usable hu

theorem put (hs : s.Inv u₀ h₀) (s₁ : Paging m) (hn : (s.spaces n).isSome)
    (hx : ∀ i : Fin 1024, x = .inl i → Window i)
    (hsame : s₁.spaces = s.spaces ∧ s₁.activeSpace = s.activeSpace ∧ s₁.halted = s.halted)
    (hlayout : Layout u₀ h₀ s₁.pmm s₁.heap.pages s₁.pageRef (update s.holds (n, .inl x) e.target))
    (hentries : Entries (setAt s.pte n x e) s₁.pageRef)
    (hmem : ∀ {k y f}, (k, y) ≠ (n, x) → (s.pte k y).target = some f → (s.pte k y).shared = false →
      s₁.memory f = s.memory f) :
    Shows u₀ h₀ (s₁.setPte n x e) (setAt s.view n x (e.view s₁.memory)) (setAt s.pte n x e) := by
  obtain ⟨hspaces, hactive, hhalted⟩ := hsame
  have hn₁ : (s₁.spaces n).isSome := hspaces ▸ hn
  have hpte₁ : s₁.pte = s.pte := by funext k y; simp only [Paging.pte, hspaces]
  have hholds₁ : s₁.holds = s.holds := by
    funext p
    obtain ⟨k, t⟩ := p
    cases t <;> simp only [holds, hspaces, hpte₁]
  have hpte : (s₁.setPte n x e).pte = setAt s.pte n x e := by rw [pte_setPte x e hn₁, hpte₁]
  refine ⟨hs.of_set hpte (fun k => ?_) hactive (hhalted.trans hs.running) hx ?_ (hpte ▸ hentries),
    view_set hpte hmem, hpte⟩
  · rw [isSome_setPte, hspaces]
  · rw [holds_setPte x e hn₁, hholds₁]
    exact hlayout

/-! ## New pages -/

theorem newPage (hs : s.Inv u₀ h₀) (hn : (s.spaces n).isSome) (hu : (s.pte n x).usable = false)
    (hx : ∀ i : Fin 1024, x = .inl i → Window i) (shared : Bool) :
    s.pmm.allocBlock = none ∧ s.newPage n x shared = (false, s) ∨
      s.pmm.allocBlock.isSome ∧ ∃ s', s.newPage n x shared = (true, s') ∧ s'.Inv u₀ h₀ ∧
        s'.activeSpace = s.activeSpace ∧
        s'.view = setAt s.view n x (if shared then .shared else .owned fun _ => 0) := by
  cases ha : s.pmm.allocBlock with
  | none => exact .inl ⟨rfl, by simp [Paging.newPage, ha]⟩
  | some r =>
    obtain ⟨f, p⟩ := r
    obtain ⟨hk, href, hne⟩ := hs.fresh ha
    obtain ⟨e, he⟩ : ∃ e : PageEntry, e =
        { present := true, rw := true, user := true, shared := shared, frame := f } := ⟨_, rfl⟩
    have htarget : e.target = some f := by rw [he]; rfl
    obtain ⟨hi, hv, -⟩ := hs.put { s with pmm := p, memory := update s.memory f fun _ => 0 } hn hx ⟨rfl, rfl, rfl⟩
      (by rw [htarget]; exact hs.layout.fill (holds_of_not_usable hu) ha)
      (hs.entries.set (fun _ hg hy => absurd (Option.some.inj (htarget.symm.trans hg)).symm (hne hy)) (by simp [he])
        (fun _ _ _ => by rw [he]; exact href) fun _ => hs.entries.rw_owned)
      fun _ hy _ => update_of_ne (hne hy) _ _
    refine .inr ⟨rfl, _, by simp only [Paging.newPage, ha, memsetZero, hk, Option.map_some, ← he], hi, rfl,
      hv.trans ?_⟩
    congr 1
    rw [he]
    cases shared <;> simp [PageEntry.view, PageEntry.usable]

/-! ## Writes -/

section
variable (hs : s.Inv u₀ h₀) (hu : (s.pte n x).usable = true)
include hs hu

theorem setRw (hsh : (s.pte n x).shared = false) {b : Bool}
    (hb : b = true → s.pageRef (s.pte n x).frame = 0) :
    (s.setPte n x { s.pte n x with rw := b }).Inv u₀ h₀ ∧
      (s.setPte n x { s.pte n x with rw := b }).view = s.view := by
  obtain ⟨hi, hv, -⟩ := hs.put s (e := { s.pte n x with rw := b }) (isSome_of_usable hu) (hs.window_of_eq hu)
    ⟨rfl, rfl, rfl⟩ ((update_eq_self (n, .inl x) s.holds).symm ▸ hs.layout)
    (hs.entries.set (fun _ h₁ h₂ => hs.entries.same h₁ h₂) (by simp [hsh]) (fun _ hr _ => hb hr) fun _ =>
      hs.entries.rw_owned)
    fun _ _ _ => rfl
  refine ⟨hi, hv.trans ?_⟩
  rw [PageEntry.view_rw]
  exact setAt_eq_self s.view n x

theorem copyPage (hrw : (s.pte n x).rw = false) :
    (0 < s.pageRef (s.pte n x).frame ∧ s.pmm.allocBlock = none) ∧ s.copyPage n x = (false, s) ∨
      (0 < s.pageRef (s.pte n x).frame → s.pmm.allocBlock.isSome) ∧
        ∃ s', s.copyPage n x = (true, s') ∧ s'.Inv u₀ h₀ ∧
        s'.activeSpace = s.activeSpace ∧ s'.view = s.view ∧ (s'.pte n x).usable = true ∧
          (s'.pte n x).rw = true := by
  have hn := isSome_of_usable hu
  have hsh : (s.pte n x).shared = false := by
    by_contra h
    simp [hs.entries.rw_shared hu (by simpa using h)] at hrw
  unfold Paging.copyPage
  by_cases hpos : 0 < s.pageRef (s.pte n x).frame
  · simp only [if_pos hpos]
    cases ha : s.pmm.allocBlock with
    | none => exact .inl ⟨⟨hpos, rfl⟩, rfl⟩
    | some r =>
      obtain ⟨f, p⟩ := r
      obtain ⟨hk, href, hfresh⟩ := hs.fresh ha
      have hold := holds_of_usable hu
      have hk' : ({ s with pmm := p } : Paging m).kernelFrame false (s.pte n x).frame = some (s.pte n x).frame :=
        hs.kernelFrame (hs.layout.managed hold).2.2 false
      simp only [memcpyFrame, hk, hk', Option.bind_some, Option.map_some]
      obtain ⟨e, he⟩ : ∃ e : PageEntry, e = { s.pte n x with frame := f, rw := true } := ⟨_, rfl⟩
      rw [← he]
      have htarget : e.target = some f := PageEntry.target_eq_some.mpr (by rw [he]; exact ⟨hu, rfl⟩)
      -- The entry lets go of the frame it had and takes the fresh one.
      have hl := (hs.layout.drop hold hpos).fill (update_self (n, .inl x) none s.holds) ha
      rw [update_idem, ← htarget] at hl
      have hentries : Entries (setAt s.pte n x e)
          (update s.pageRef (s.pte n x).frame (s.pageRef (s.pte n x).frame - 1)) := by
        refine hs.entries.set (fun _ hg hy => absurd (Option.some.inj (htarget.symm.trans hg)).symm (hfresh hy))
          (by simp [he, hsh])
          (fun _ _ _ => ?_) fun {k y} _ h₁ h₂ h₃ => ?_
        · rw [he]
          simpa [(hfresh hold).symm] using href
        · have hzero := hs.entries.rw_owned h₁ h₂ h₃
          have hf : (s.pte k y).frame ≠ (s.pte n x).frame := fun h => by rw [h] at hzero; omega
          simpa [hf] using hzero
      obtain ⟨hi, hv, hpte⟩ := hs.put
        (cowRefDec { s with pmm := p, memory := update s.memory f (s.memory (s.pte n x).frame) }
        (s.pte n x).frame) hn (hs.window_of_eq hu) ⟨rfl, rfl, rfl⟩ hl hentries fun _ hy _ =>
          update_of_ne (hfresh hy) _ _
      refine .inr ⟨fun _ => rfl, _, rfl, hi, rfl, hv.trans ?_, ?_⟩
      · have : e.view (update s.memory f (s.memory (s.pte n x).frame)) = s.view n x := by
          rw [he]
          simp [view, PageEntry.view, PageEntry.usable]
        exact (congrArg (setAt s.view n x) this).trans (setAt_eq_self s.view n x)
      · rw [hpte, setAt_self, he]
        exact ⟨hu, rfl⟩
  · simp only [if_neg hpos]
    obtain ⟨hi, hv⟩ := hs.setRw hu hsh fun _ => Nat.eq_zero_of_not_pos hpos
    refine .inr ⟨fun h => absurd h hpos, _, rfl, hi, rfl, hv, ?_⟩
    rw [pte_setPte x _ hn, setAt_self]
    exact ⟨hu, rfl⟩

theorem store (hrw : (s.pte n x).rw = true) (offset : Nat) (v : UInt8) :
    (s.store (s.pte n x).frame offset v).Inv u₀ h₀ ∧
      (s.store (s.pte n x).frame offset v).view = setAt s.view n x ((s.view n x).write offset v) := by
  refine ⟨⟨hs.layout, hs.entries, hs.low, hs.active, hs.running⟩, ?_⟩
  have hpte : (s.store (s.pte n x).frame offset v).pte = setAt s.pte n x (s.pte n x) :=
    (setAt_eq_self s.pte n x).symm
  have hold := holds_of_usable hu
  rw [view_set hpte ?_]
  · congr 1
    unfold view PageEntry.view
    rw [if_pos hu, if_pos hu]
    split
    · rfl
    · simp [View.write, Paging.store]
  · intro k y g hky hg hsh
    by_cases hf : g = (s.pte n x).frame
    · subst hf
      -- Two holders of the frame: they are both shared pages.
      have hkind := (hs.entries.same hg hold).2
      have href := hs.entries.rw_owned hu hrw (hkind ▸ hsh)
      have hk : s.holds (k, .inl y) = some (s.pte n x).frame := hg
      exact absurd (hs.layout.backed.eq_of_extra hold hk href) (by simpa using hky)
    · exact update_of_ne hf _ _

end

/-! ## Letting go of pages -/

theorem release (hs : s.Inv u₀ h₀) (hu : (s.pte n x).usable = true) (he : e.usable = false) :
    Shows u₀ h₀ ((s.releaseFrame (s.pte n x).frame).setPte n x e) (setAt s.view n x .unmapped)
      (setAt s.pte n x e) := by
  have hold := holds_of_usable hu
  have hcount : (s.pte n x).frame < frameCount := (hs.layout.managed hold).2.1.trans_le hs.layout.max_le
  obtain ⟨s₁, hs₁⟩ : ∃ s₁, s₁ = s.releaseFrame (s.pte n x).frame := ⟨_, rfl⟩
  rw [← hs₁]
  unfold releaseFrame at hs₁
  have hsame : s₁.spaces = s.spaces ∧ s₁.activeSpace = s.activeSpace ∧ s₁.halted = s.halted ∧
      s₁.memory = s.memory := by
    rw [hs₁]
    split <;> exact ⟨rfl, rfl, rfl, rfl⟩
  obtain ⟨hspaces, hactive, hhalted, hmemory⟩ := hsame
  have hlayout : Layout u₀ h₀ s₁.pmm s₁.heap.pages s₁.pageRef (update s.holds (n, .inl x) e.target) := by
    rw [PageEntry.target_eq_none.mpr he, hs₁]
    by_cases hpos : 0 < s.pageRef (s.pte n x).frame
    · rw [if_pos ⟨hcount, hpos⟩]
      exact hs.layout.drop hold hpos
    · rw [if_neg fun h => hpos h.2]
      exact hs.layout.drop_last hold (Nat.eq_zero_of_not_pos hpos)
  have hzero : ∀ g, s.pageRef g = 0 → s₁.pageRef g = 0 := by
    intro g hg
    rw [hs₁]
    split
    · by_cases hgf : g = (s.pte n x).frame
      · subst hgf; simp [cowRefDec, hg]
      · simpa [cowRefDec, hgf] using hg
    · exact hg
  obtain ⟨hi, hv, hpte⟩ := hs.put _ (isSome_of_usable hu) (hs.window_of_eq hu) ⟨hspaces, hactive, hhalted⟩ hlayout
    (hs.entries.clear he hzero) fun _ _ _ => by rw [hmemory]
  exact ⟨hi, by rw [hv, PageEntry.view_of_not_usable he], hpte⟩

/-! ## Clones -/

theorem copyEntry (parent child : Fin m) (hs : s.Inv u₀ h₀) (hu : (s.pte parent x).usable = true)
    (hro : (s.pte parent x).shared = false → (s.pte parent x).rw = false) (hc : (s.spaces child).isSome)
    (hfree : (s.pte child x).usable = false) :
    Shows u₀ h₀ ((s.setPte child x (s.pte parent x)).cowRefInc (s.pte parent x).frame)
      (setAt s.view child x (s.view parent x))
      (setAt s.pte child x (s.pte parent x)) := by
  have hold := holds_of_usable hu
  obtain ⟨f, hf⟩ : ∃ f, f = (s.pte parent x).frame := ⟨_, rfl⟩
  rw [← hf] at hold ⊢
  have hcount : f < frameCount := (hs.layout.managed hold).2.1.trans_le hs.layout.max_le
  have hfits : (s.pageRef f + 1) % 2 ^ 16 = s.pageRef f + 1 := by
    refine Nat.mod_eq_of_lt (hs.layout.ref_lt (z := x) hold fun {k t} hk => ?_)
    cases t with
    | inl y =>
      have hk' := isSome_of_usable (PageEntry.target_eq_some.mp hk).1
      obtain ⟨a, ha⟩ := Option.isSome_iff_exists.mp hk'
      exact ⟨by rw [(hs.entries.same hk hold).1], by simp [holds, ha]⟩
    | inr j => exact absurd hold (hs.layout.table_ne hk)
  have hinc : (s.setPte child x (s.pte parent x)).cowRefInc f =
      Paging.setPte { s with pageRef := update s.pageRef f (s.pageRef f + 1) } child x (s.pte parent x) := by
    unfold cowRefInc
    rw [if_pos hcount]
    simp only [setPte, hfits]
  rw [hinc]
  have hl := hs.layout.share (holds_of_not_usable hfree) hold
  have htarget : (s.pte parent x).target = some f := hold
  rw [← htarget] at hl
  refine hs.put { s with pageRef := update s.pageRef f (s.pageRef f + 1) } hc (hs.window_of_eq hu)
    ⟨rfl, rfl, rfl⟩ hl (hs.entries.set (fun _ h₁ h₂ => hs.entries.same h₁ h₂) hs.entries.rw_shared ?_ ?_)
      fun _ _ _ => rfl
  · intro _ hrw hsh
    simp [hro hsh] at hrw
  · intro k y hky huy hrw hsh
    have hzero := hs.entries.rw_owned huy hrw hsh
    -- A writable holder of the frame would be the parent's entry itself.
    have hne : (s.pte k y).frame ≠ f := by
      intro h
      have hy := h ▸ holds_of_usable huy
      have heq := hs.layout.backed.eq_of_extra hold hy (h ▸ hzero)
      cases heq
      simp [hro hsh] at hrw
    simpa [hne] using hzero

end Inv

/-! ## Whole tables -/

structure Kept (s s' : Paging m) : Prop where
  active : s'.activeSpace = s.activeSpace
  tables : ∀ k j, s'.holds (k, .inr j) = s.holds (k, .inr j)

theorem Kept.refl (s : Paging m) : Kept s s := ⟨rfl, fun _ _ => rfl⟩

theorem Kept.trans {s₁ s₂ s₃ : Paging m} (a : Kept s₁ s₂) (b : Kept s₂ s₃) : Kept s₁ s₃ :=
  ⟨b.active.trans a.active, fun k j => (b.tables k j).trans (a.tables k j)⟩

theorem Kept.isSome {s' : Paging m} (h : Kept s s') (k : Fin m) : (s'.spaces k).isSome = (s.spaces k).isSome := by
  simpa [holds] using congrArg Option.isSome (h.tables k 0)

theorem kept_setPte (s : Paging m) (n : Fin m) (x : UserPage) (e : PageEntry) : Kept s (s.setPte n x e) := by
  refine ⟨rfl, fun k j => ?_⟩
  by_cases hk : k = n
  · subst hk
    simp only [holds, setPte, update_self, Option.map_map]
    rfl
  · simp [holds, setPte, hk]

theorem kept_cowRefInc (s : Paging m) (f : Nat) : Kept s (s.cowRefInc f) := by
  unfold cowRefInc
  split <;> exact ⟨rfl, fun _ _ => rfl⟩

theorem kept_releaseFrame (s : Paging m) (f : Nat) : Kept s (s.releaseFrame f) := by
  unfold releaseFrame
  split <;> exact ⟨rfl, fun _ _ => rfl⟩

theorem kept_cloneEntry (parent child : Fin m) (s : Paging m) (x : UserPage) :
    Kept s (cloneEntry parent child s x) := by
  simp only [cloneEntry]
  split
  · exact .refl s
  · split
    · exact (kept_setPte _ _ _ _).trans (kept_cowRefInc _ _)
    · exact ((kept_setPte _ _ _ _).trans (kept_setPte _ _ _ _)).trans (kept_cowRefInc _ _)

theorem kept_destroyEntry (n : Fin m) (s : Paging m) (x : UserPage) : Kept s (destroyEntry n s x) := by
  simp only [destroyEntry]
  split
  · exact (kept_releaseFrame _ _).trans (kept_setPte _ _ _ _)
  · exact .refl s

theorem view_eq_unmapped : s.view n x = .unmapped ↔ (s.pte n x).usable = false := by
  unfold view PageEntry.view
  split
  · split <;> simp [*]
  · simp [*]

namespace Inv

theorem cloneEntry {parent child : Fin m} (hs : s.Inv u₀ h₀) (hpc : parent ≠ child) (hc : (s.spaces child).isSome)
    (hfree : (s.pte child x).usable = false) :
    (Paging.cloneEntry parent child s x).Inv u₀ h₀ ∧
      (Paging.cloneEntry parent child s x).view = setAt s.view child x (s.view parent x) := by
  simp only [Paging.cloneEntry]
  by_cases hu : (s.pte parent x).usable = true
  · rw [if_neg (by simp [hu])]
    split
    · rename_i hsh
      obtain ⟨hi, hv, -⟩ := hs.copyEntry parent child hu (by simp [hsh]) hc hfree
      exact ⟨hi, hv⟩
    · rename_i hsh
      obtain ⟨hi, hv⟩ := hs.setRw hu (by simpa using hsh) (b := false) (by simp)
      have hpte := pte_setPte x { s.pte parent x with rw := false } (isSome_of_usable hu)
      obtain ⟨s₁, hs₁⟩ : ∃ s₁, s₁ = s.setPte parent x { s.pte parent x with rw := false } := ⟨_, rfl⟩
      rw [← hs₁] at hi hv hpte ⊢
      have hp : s₁.pte parent x = { s.pte parent x with rw := false } := by rw [hpte, setAt_self]
      have hch : s₁.pte child x = s.pte child x := by
        rw [hpte, setAt_of_ne]
        exact fun h => hpc (Prod.ext_iff.mp h).1.symm
      have hcopy := hi.copyEntry parent child (x := x) (by rw [hp]; exact hu) (by simp [hp])
        (by rw [hs₁, isSome_setPte]; exact hc) (by rw [hch]; exact hfree)
      rw [hp, hv] at hcopy
      exact ⟨hcopy.1, hcopy.2.1⟩
  · have hu : (s.pte parent x).usable = false := by simpa using hu
    rw [if_pos (by simp [hu])]
    refine ⟨hs, ?_⟩
    rw [view_eq_unmapped.mpr hu, ← view_eq_unmapped.mpr hfree, setAt_eq_self]

theorem destroyEntry (hs : s.Inv u₀ h₀) :
    (Paging.destroyEntry n s x).Inv u₀ h₀ ∧ (Paging.destroyEntry n s x).view = setAt s.view n x .unmapped := by
  simp only [Paging.destroyEntry]
  split
  · rename_i hu
    obtain ⟨hi, hv, -⟩ := hs.release hu (e := { s.pte n x with user := false }) (by simp [PageEntry.usable])
    exact ⟨hi, hv⟩
  · rename_i hu
    refine ⟨hs, ?_⟩
    rw [← view_eq_unmapped.mpr (by simpa using hu), setAt_eq_self]

end Inv

open Classical in
/-- The pages of `xs` are now seen as in `w`. -/
noncomputable def overlay (v : Fin m → UserPage → View) (n : Fin m) (xs : List UserPage) (w : UserPage → View) :
    Fin m → UserPage → View :=
  fun k y => if k = n ∧ y ∈ xs then w y else v k y

theorem overlay_nil (n : Fin m) (w : UserPage → View) : overlay v n [] w = v := by
  funext k y
  simp [overlay]

open Classical in
theorem overlay_setAt (n : Fin m) (x : UserPage) (xs : List UserPage) (w : UserPage → View) :
    overlay (setAt v n x (w x)) n xs w = overlay v n (x :: xs) w := by
  funext k y
  unfold overlay
  by_cases hk : (k, y) = (n, x)
  · cases hk
    simp [setAt_self]
  · rw [setAt_of_ne _ _ _ _ hk]
    have hx : (k = n ∧ y ∈ x :: xs) ↔ k = n ∧ y ∈ xs := by
      refine and_congr_right fun h => ?_
      have : y ≠ x := fun h' => hk (by rw [h, h'])
      simp [this]
    rw [if_congr hx rfl rfl]

theorem mem_userPages (x : UserPage) : x ∈ userPages := by cases x <;> simp [userPages]

theorem overlay_all (n : Fin m) (w : UserPage → View) : overlay v n userPages w = update v n w := by
  funext k y
  by_cases hk : k = n
  · subst hk
    rw [overlay, if_pos ⟨rfl, mem_userPages y⟩, update_self]
  · rw [overlay, if_neg fun h => hk h.1, update_of_ne hk]

theorem nodup_userPages : userPages.Nodup := by
  refine List.nodup_append.mpr ⟨?_, ?_, ?_⟩
  · exact (List.nodup_finRange _).map Sum.inl_injective
  · exact (List.nodup_finRange _).map Sum.inr_injective
  · simp

namespace Inv

theorem cloneEntries {parent child : Fin m} (hpc : parent ≠ child) :
    ∀ {xs : List UserPage} {s : Paging m}, xs.Nodup → s.Inv u₀ h₀ →
    (s.spaces child).isSome → (∀ x ∈ xs, (s.pte child x).usable = false) →
    (xs.foldl (Paging.cloneEntry parent child) s).Inv u₀ h₀ ∧ Kept s (xs.foldl (Paging.cloneEntry parent child) s) ∧
      (xs.foldl (Paging.cloneEntry parent child) s).view = overlay s.view child xs (s.view parent)
  | [], s, _, hs, _, _ => ⟨hs, .refl s, (overlay_nil _ _ _).symm⟩
  | x :: xs, s, hnd, hs, hc, hfree => by
    obtain ⟨hx, hxs⟩ := List.nodup_cons.mp hnd
    obtain ⟨hi, hv⟩ := hs.cloneEntry hpc hc (hfree x (by simp))
    have hk := kept_cloneEntry parent child s x
    have hrest : ∀ y ∈ xs, ((Paging.cloneEntry parent child s x).pte child y).usable = false := by
      intro y hy
      have hne : (child, y) ≠ (child, x) := by
        intro h
        cases h
        exact hx hy
      rw [← view_eq_unmapped, hv, setAt_of_ne _ _ _ _ hne, view_eq_unmapped]
      exact hfree y (by simp [hy])
    obtain ⟨hi', hk', hv'⟩ := cloneEntries hpc hxs hi (by rw [hk.isSome]; exact hc) hrest
    have hparent : (Paging.cloneEntry parent child s x).view parent = s.view parent := by
      funext y
      rw [hv, setAt_of_ne]
      exact fun h => hpc (Prod.ext_iff.mp h).1
    rw [List.foldl_cons, hv', hparent, hv, overlay_setAt]
    exact ⟨hi', hk.trans hk', rfl⟩

theorem destroyEntries : ∀ (xs : List UserPage) {s : Paging m}, s.Inv u₀ h₀ →
    (xs.foldl (Paging.destroyEntry n) s).Inv u₀ h₀ ∧ Kept s (xs.foldl (Paging.destroyEntry n) s) ∧
      (xs.foldl (Paging.destroyEntry n) s).view = overlay s.view n xs fun _ => .unmapped
  | [], s, hs => ⟨hs, .refl s, (overlay_nil _ _ _).symm⟩
  | x :: xs, s, hs => by
    obtain ⟨hi, hv⟩ := hs.destroyEntry (n := n) (x := x)
    obtain ⟨hi', hk', hv'⟩ := destroyEntries xs hi
    rw [List.foldl_cons, hv', hv]
    exact ⟨hi', (kept_destroyEntry n s x).trans hk', overlay_setAt s.view n x xs fun _ => .unmapped⟩

end Inv

/-! ## Creation and destruction -/

theorem createUserAddressSpace_cases (s : Paging m) (n : Fin m) :
    (∃ h p, Heap.Grown s.heap s.pmm h p ∧ s.createUserAddressSpace n = (false, { s with heap := h, pmm := p })) ∨
      ∃ h p p₁ p₂ p₃ object d f e, Heap.Grown s.heap s.pmm h p ∧ p.allocBlock = some (d, p₁) ∧
        p₁.allocBlock = some (f, p₂) ∧
        p₂.allocBlock = some (e, p₃) ∧ s.createUserAddressSpace n =
          (true, { s with
            heap := h, pmm := p₃, spaces := update s.spaces n (some ⟨object, d, f, e, identityEntry⟩) }) := by
  have hg := Heap.kmalloc_grown s.heap s.pmm addressSpaceSize
  unfold createUserAddressSpace
  generalize s.heap.kmalloc s.pmm addressSpaceSize = r at hg
  obtain ⟨object, h, p⟩ := r
  cases object with
  | none => exact .inl ⟨h, p, hg, rfl⟩
  | some object =>
    dsimp only at hg
    have hg' : Heap.Grown s.heap s.pmm (h.kfree object) p := hg.trans (.of_pages (h.kfree_pages object) p)
    cases hd : p.allocBlock with
    | none =>
      -- The later allocations fail as the first did.
      refine .inl ⟨_, p, hg', ?_⟩
      simp [allocTable, hd, freeTable]
    | some d =>
      obtain ⟨d, p₁⟩ := d
      obtain ⟨hd0, hdlt, -, hdfree, rfl⟩ := Pmm.allocBlock_eq_some hd
      cases hf : (p.take d).allocBlock with
      | none =>
        refine .inl ⟨_, p, hg', ?_⟩
        simp [allocTable, hd, hf, freeTable, Pmm.freeBlock_take hd0 hdlt hdfree]
      | some f =>
        obtain ⟨f, p₂⟩ := f
        obtain ⟨hf0, hflt, -, hffree, rfl⟩ := Pmm.allocBlock_eq_some hf
        cases he : ((p.take d).take f).allocBlock with
        | none =>
          have hfd : f ≠ d := by
            rintro rfl
            simp [Pmm.take] at hffree
          have hffree : p.memoryMap f = false := by simpa [Pmm.take, hfd] using hffree
          have hflt : f < p.maxBlocks := hflt
          refine .inl ⟨_, p, hg', ?_⟩
          simp [allocTable, hd, hf, he, freeTable, Pmm.freeBlock_take_take hd0 hdlt hdfree hfd,
            Pmm.freeBlock_take hf0 hflt hffree]
        | some e =>
          obtain ⟨e, p₃⟩ := e
          refine .inr ⟨h, p, _, _, p₃, object, d, f, e, hg, hd, hf, he, ?_⟩
          simp [allocTable, hd, hf, he]

namespace Inv
variable {a : AddressSpace}

section
variable (hs : s.Inv u₀ h₀)
include hs

theorem grown {h : Heap} (hg : Heap.Grown s.heap s.pmm h p) :
    ({ s with heap := h, pmm := p } : Paging m).Inv u₀ h₀ :=
  ⟨hs.layout.grown hg, hs.entries, hs.low, hs.active, hs.running⟩

theorem createUserAddressSpace (hn : s.spaces n = none) :
    (s.createUserAddressSpace n).2.Inv u₀ h₀ ∧ (s.createUserAddressSpace n).2.view = s.view ∧
      (s.createUserAddressSpace n).2.activeSpace = s.activeSpace ∧
      ((s.createUserAddressSpace n).1 = true → ((s.createUserAddressSpace n).2.spaces n).isSome) := by
  obtain ⟨h, p, hg, hc⟩ | ⟨h, p, p₁, p₂, p₃, object, d, f, e, hg, hd, hf, he, hc⟩ :=
    createUserAddressSpace_cases s n
  · rw [hc]
    exact ⟨hs.grown hg, rfl, rfl, by simp⟩
  · rw [hc]
    have hfree : ∀ j, s.holds (n, .inr j) = none := fun j => by simp [holds, hn]
    have hl := (((hs.layout.grown hg).fill (hfree 0) hd).fill (x := (n, .inr 1)) (by simpa using hfree 1) hf).fill
      (x := (n, .inr 2)) (by simpa using hfree 2) he
    obtain ⟨hi, hv⟩ := hs.of_replace
      { s with heap := h, pmm := p₃, spaces := update s.spaces n (some ⟨object, d, f, e, identityEntry⟩) } (n := n)
      (o := some ⟨object, d, f, e, identityEntry⟩)
      rfl (fun x => by rw [pte_of_none hn]; rfl) (by rintro a ⟨⟩; rfl) rfl (fun _ => rfl) rfl rfl
      hs.running (fun hsame => by
        refine Eq.subst (motive := fun o => Layout u₀ h₀ p₃ h.pages s.pageRef o) ?_ hl
        funext p
        obtain ⟨k, t⟩ := p
        cases t with
        | inl y => simpa using (hsame k y).symm
        | inr j =>
          by_cases hk : k = n
          · subst hk
            fin_cases j <;> simp [holds, AddressSpace.tables]
          · simp [holds, hk])
    exact ⟨hi, hv, rfl, by simp⟩

theorem leave (n : Fin m) :
    (s.leave n).Inv u₀ h₀ ∧ (s.leave n).view = s.view ∧ (s.leave n).holds = s.holds ∧
      (s.leave n).activeSpace = if s.activeSpace = some n then none else s.activeSpace := by
  unfold Paging.leave
  split
  · exact ⟨⟨hs.layout, hs.entries, hs.low, nofun, hs.running⟩, rfl, rfl, rfl⟩
  · exact ⟨hs, rfl, rfl, rfl⟩

theorem freeSpace (ha : ∀ j, s.holds (n, .inr j) = some (a.tables j))
    (hu : ∀ x, (s.pte n x).usable = false) (hactive : s.activeSpace ≠ some n) :
    (s.freeSpace n a).Inv u₀ h₀ ∧ (s.freeSpace n a).view = s.view := by
  have hl := ((hs.layout.drop_last (ha 1) (hs.layout.sole (ha 1))).drop_last (x := (n, .inr 2))
    (by simpa using ha 2) (hs.layout.sole (ha 2))).drop_last (x := (n, .inr 0)) (by simpa using ha 0)
      (hs.layout.sole (ha 0))
  refine hs.of_replace _ (n := n) (o := none) rfl hu nofun rfl (fun h => absurd h hactive) rfl rfl hs.running
    fun hsame => ?_
  refine Eq.subst (motive := fun o => Layout u₀ h₀ _ _ s.pageRef o) ?_ hl
  funext p
  obtain ⟨k, t⟩ := p
  cases t with
  | inl y => simpa using (hsame k y).symm
  | inr j =>
    by_cases hk : k = n
    · subst hk
      fin_cases j <;> simp [holds, Paging.freeSpace]
    · simp [holds, Paging.freeSpace, hk]

end

theorem destroyUserAddressSpace_of_some (ha : s.spaces n = some a) :
    s.destroyUserAddressSpace n = (userPages.foldl (Paging.destroyEntry n) (s.leave n)).freeSpace n a := by
  unfold Paging.destroyUserAddressSpace
  rw [ha]

theorem destroyUserAddressSpace (hs : s.Inv u₀ h₀) :
    (s.destroyUserAddressSpace n).Inv u₀ h₀ ∧
      (s.destroyUserAddressSpace n).view = update s.view n (fun _ => .unmapped) ∧
      (s.destroyUserAddressSpace n).activeSpace = if s.activeSpace = some n then none else s.activeSpace := by
  cases hn : s.spaces n with
  | none =>
    have hview : s.view n = fun _ => View.unmapped := by
      funext x
      rw [view_eq_unmapped, pte_of_none hn]
      rfl
    have hactive : s.activeSpace ≠ some n := fun h => by simpa [hn] using hs.active h
    rw [← hview, update_eq_self, if_neg hactive]
    simp only [Paging.destroyUserAddressSpace, hn]
    exact ⟨hs, trivial, trivial⟩
  | some a =>
    obtain ⟨hi₀, hv₀, hh₀, ha₀⟩ := hs.leave n
    obtain ⟨hi, hk, hv⟩ := destroyEntries (n := n) userPages hi₀
    rw [destroyUserAddressSpace_of_some hn]
    obtain ⟨s₁, hs₁⟩ : ∃ s₁, s₁ = userPages.foldl (Paging.destroyEntry n) (s.leave n) := ⟨_, rfl⟩
    rw [← hs₁] at hi hk hv ⊢
    have hview : s₁.view = update s.view n fun _ => .unmapped := by
      rw [hv, hv₀]
      exact overlay_all s.view n fun _ => .unmapped
    have hu : ∀ x, (s₁.pte n x).usable = false := fun x => by
      rw [← view_eq_unmapped, hview, update_self]
    have ha : ∀ j, s₁.holds (n, .inr j) = some (a.tables j) := fun j => by
      rw [hk.tables, hh₀]
      simp [holds, hn]
    have hactive := hk.active.trans ha₀
    obtain ⟨hi', hv'⟩ := hi.freeSpace ha hu (by rw [hactive]; split <;> simp_all)
    exact ⟨hi', hv'.trans hview, hactive⟩

end Inv

end Paging

/-! ## Private memories -/

structure Views (m : Nat) where
  view : Fin m → UserPage → View
  active : Option (Fin m)

def Views.start (m : Nat) : Views m := ⟨fun _ _ => .unmapped, none⟩

def Views.step {m : Nat} (v : Views m) : PagingOp m × Bool → Views m
  | (_, false) => v
  | (.create _, true) => v
  | (.clone parent child, true) =>
    { v with view := update v.view child (parent.elim (fun _ => .unmapped) v.view) }
  | (.destroy n, true) =>
    { view := update v.view n fun _ => .unmapped, active := if v.active = some n then none else v.active }
  | (.activate n, true) => { v with active := n }
  | (.map n vaddr, true) =>
    match userPage vaddr with
    | some x =>
      match v.view n x with
      | .unmapped => { v with view := setAt v.view n x (.owned fun _ => 0) }
      | _ => v
    | none => v
  | (.unmap n vaddr, true) =>
    match userPage vaddr with
    | some x => { v with view := setAt v.view n x .unmapped }
    | none => v
  | (.share vaddr, true) =>
    match v.active, userPage vaddr with
    | some n, some x =>
      match v.view n x with
      | .unmapped => { v with view := setAt v.view n x .shared }
      | _ => v
    | _, _ => v
  | (.write vaddr b, true) =>
    match v.active, userPage vaddr with
    | some n, some x => { v with view := setAt v.view n x ((v.view n x).write (vaddr % 4096) b) }
    | _, _ => v

def Views.run {m : Nat} (v : Views m) (l : List (PagingOp m × Bool)) : Views m := l.foldl Views.step v

def PagingOp.InWindow {m : Nat} : PagingOp m → Prop
  | .map _ vaddr | .share vaddr => vaddr < 0x400000 → userLoadBase ≤ vaddr
  | _ => True

namespace Paging
variable {m u₀ h₀ : Nat} {s : Paging m} {n : Fin m} {x : UserPage} {vaddr : Nat}

def views (s : Paging m) : Views m := ⟨s.view, s.activeSpace⟩

abbrev Simulates (u₀ h₀ : Nat) (s : Paging m) (op : PagingOp m) (r : Bool × Paging m) : Prop :=
  r.2.Inv u₀ h₀ ∧ r.2.views = s.views.step (op, r.1)

theorem window_of_userPage {i : Fin 1024} (hx : userPage vaddr = some (.inl i))
    (hw : vaddr < 0x400000 → userLoadBase ≤ vaddr) : Window i := by
  unfold userPage at hx
  split at hx
  · rename_i hlt
    have := hw hlt
    simp only [Option.some.injEq, Sum.inl.injEq] at hx
    subst hx
    simp only [Window, userLoadBase, pmmBlockSize] at this ⊢
    omega
  · split at hx <;> simp at hx

theorem userPage_of_low (h : vaddr < 0x400000) : userPage vaddr = some (.inl ⟨vaddr / 4096, lowPage_lt h⟩) := by
  simp [userPage, h]

theorem view_of_usable (hu : (s.pte n x).usable = true) : s.view n x ≠ .unmapped := by
  rw [Ne, view_eq_unmapped, hu]
  simp

namespace Inv

section
variable (hs : s.Inv u₀ h₀)
include hs

theorem create (hn : s.spaces n = none) : s.Simulates u₀ h₀ (.create n) (s.createUserAddressSpace n) := by
  obtain ⟨hi, hv, ha, -⟩ := hs.createUserAddressSpace hn
  refine ⟨hi, ?_⟩
  have : (s.createUserAddressSpace n).2.views = s.views := by rw [views, hv, ha]; rfl
  rw [this]
  cases (s.createUserAddressSpace n).1 <;> rfl

theorem clone {parent : Option (Fin m)} (hn : s.spaces n = none)
    (hp : ∀ k, parent = some k → (s.spaces k).isSome) :
    s.Simulates u₀ h₀ (.clone parent n) (s.cloneAddressSpace parent n) := by
  obtain ⟨hi, hv, ha, hsome⟩ := hs.createUserAddressSpace hn
  have hnone : ∀ y, s.view n y = .unmapped := fun y => by
    rw [view_eq_unmapped, pte_of_none hn]
    rfl
  unfold cloneAddressSpace
  generalize s.createUserAddressSpace n = r at hi hv ha hsome
  obtain ⟨ok, s₁⟩ := r
  have hsame : s₁.views = s.views := by rw [views, hv, ha]; rfl
  cases ok with
  | false => cases parent <;> exact ⟨hi, hsame⟩
  | true =>
    cases parent with
    | none =>
      refine ⟨hi, hsame.trans ?_⟩
      have : s.view n = fun _ => View.unmapped := funext hnone
      simp [Views.step, views, ← this]
    | some k =>
      have hkn : k ≠ n := by
        rintro rfl
        simpa [hn] using hp k rfl
      have hfree : ∀ x ∈ userPages, (s₁.pte n x).usable = false := fun x _ => by
        rw [← view_eq_unmapped, hv]
        exact hnone x
      obtain ⟨hi', hk', hv'⟩ := hi.cloneEntries hkn nodup_userPages (hsome rfl) hfree
      obtain ⟨s₂, hs₂⟩ : ∃ s₂, s₂ = userPages.foldl (Paging.cloneEntry k n) s₁ := ⟨_, rfl⟩
      dsimp only
      rw [← hs₂] at hi' hk' hv' ⊢
      refine ⟨hi', ?_⟩
      rw [views, hv', hk'.active, ha, overlay_all, hv]
      rfl

theorem map (hn : (s.spaces n).isSome) (hw : (PagingOp.map n vaddr).InWindow) :
    s.Simulates u₀ h₀ (.map n vaddr) (s.mapUserPage n vaddr) := by
  obtain ⟨a, ha⟩ := Option.isSome_iff_exists.mp hn
  unfold mapUserPage
  rw [ha]
  cases hx : userPage vaddr with
  | none => exact ⟨hs, rfl⟩
  | some x =>
    dsimp only
    rw [← pte_of_some ha]
    split
    · rename_i hu
      refine ⟨hs, ?_⟩
      have := view_of_usable hu
      simp only [Views.step, hx, views]
    · rename_i hu
      have hu : (s.pte n x).usable = false := by simpa using hu
      obtain ⟨-, hr⟩ | ⟨-, s', hr, hi, ha', hv⟩ :=
        hs.newPage hn hu (fun i hi => window_of_userPage (hi ▸ hx) hw) false
      · rw [hr]
        exact ⟨hs, rfl⟩
      · rw [hr]
        refine ⟨hi, ?_⟩
        simp [views, Views.step, hx, view_eq_unmapped.mpr hu, hv, ha']

theorem unmap (hn : (s.spaces n).isSome) : s.Simulates u₀ h₀ (.unmap n vaddr) (true, s.unmapUserPage n vaddr) := by
  obtain ⟨a, ha⟩ := Option.isSome_iff_exists.mp hn
  unfold unmapUserPage
  rw [ha]
  cases hx : userPage vaddr with
  | none => exact ⟨hs, by simp [Views.step, hx]⟩
  | some x =>
    dsimp only
    rw [← pte_of_some ha]
    split
    · rename_i hu
      obtain ⟨hi, hv, -⟩ := hs.release hu (e := {}) rfl
      refine ⟨hi, ?_⟩
      have hk := (kept_releaseFrame s (s.pte n x).frame).trans (kept_setPte _ n x {})
      rw [views, hv, hk.active]
      simp [Views.step, hx, views]
    · rename_i hu
      refine ⟨hs, ?_⟩
      have : s.view n x = .unmapped := view_eq_unmapped.mpr (by simpa using hu)
      simp [Views.step, hx, views, ← this, setAt_eq_self]

theorem share (hw : (PagingOp.share vaddr : PagingOp m).InWindow) :
    s.Simulates u₀ h₀ (.share vaddr) (s.sharePage vaddr) := by
  unfold sharePage
  cases ha : s.activeSpace with
  | none => exact ⟨hs, rfl⟩
  | some n =>
    dsimp only
    split
    · rename_i hlow
      have hx := userPage_of_low hlow
      split
      · rename_i hu
        refine ⟨hs, ?_⟩
        have := view_of_usable hu
        cases hsh : (s.pte n (.inl ⟨vaddr / 4096, by omega⟩)).shared with
        | false => rfl
        | true =>
          simp only [Views.step, hx, views, ha]
      · rename_i hu
        have hu : (s.pte n (.inl ⟨vaddr / 4096, by omega⟩)).usable = false := by simpa using hu
        obtain ⟨-, hr⟩ | ⟨-, s', hr, hi, ha', hv⟩ :=
          hs.newPage (hs.active ha) hu (fun i hi => window_of_userPage (hi ▸ hx) hw) true
        · rw [hr]
          exact ⟨hs, rfl⟩
        · rw [hr]
          refine ⟨hi, ?_⟩
          simp [views, Views.step, hx, view_eq_unmapped.mpr hu, hv, ha', ha]
    · exact ⟨hs, rfl⟩

theorem write {b : UInt8} : s.Simulates u₀ h₀ (.write vaddr b) (s.userWrite vaddr b) := by
  unfold userWrite
  cases ha : s.activeSpace with
  | none => exact ⟨hs, rfl⟩
  | some n =>
    cases hx : userPage vaddr with
    | none => exact ⟨hs, rfl⟩
    | some x =>
      dsimp only
      split
      · exact ⟨hs, rfl⟩
      · rename_i hu
        have hu : (s.pte n x).usable = true := by simpa using hu
        split
        · rename_i hrw
          obtain ⟨hi, hv⟩ := hs.store hu hrw (vaddr % 4096) b
          refine ⟨hi, ?_⟩
          simp only [views, Views.step, hv, hx, ha]
          simp [Paging.store, ha]
        · rename_i hrw
          have hrw : (s.pte n x).rw = false := by simpa using hrw
          have hcow : s.tryCow vaddr = s.copyPage n x := by simp [tryCow, ha, hx, hu, hrw]
          rw [hcow]
          obtain ⟨-, hr⟩ | ⟨-, s', hr, hi, ha', hv, hu', hrw'⟩ := hs.copyPage hu hrw
          · rw [hr]
            exact ⟨hs, rfl⟩
          · rw [hr]
            obtain ⟨hi', hv'⟩ := hi.store hu' hrw' (vaddr % 4096) b
            refine ⟨hi', ?_⟩
            simp only [views, Views.step, hv', hx, ha, hv]
            simp [Paging.store, ha', ha]

theorem step {op : PagingOp m} (hw : op.InWindow) : s.Simulates u₀ h₀ op (s.step op) := by
  unfold Paging.step
  split
  · rename_i hallowed
    obtain ⟨-, hallowed⟩ := hallowed
    cases op with
    | create child => exact hs.create hallowed
    | clone parent child => exact hs.clone hallowed.1 hallowed.2
    | destroy n =>
      obtain ⟨hi, hv, ha⟩ := hs.destroyUserAddressSpace (n := n)
      exact ⟨hi, congrArg₂ Views.mk hv ha⟩
    | activate n => exact ⟨⟨hs.layout, hs.entries, hs.low, fun h => hallowed _ h, hs.running⟩, rfl⟩
    | map n vaddr => exact hs.map hallowed hw
    | unmap n vaddr => exact hs.unmap hallowed
    | share vaddr => exact hs.share hw
    | write vaddr b => exact hs.write
  · exact ⟨hs, rfl⟩

end

theorem run : ∀ {ops : List (PagingOp m)} {s : Paging m}, s.Inv u₀ h₀ → (∀ op ∈ ops, op.InWindow) →
    (s.run ops).Inv u₀ h₀ ∧ (s.run ops).views = s.views.run (s.trace ops)
  | [], _, hs, _ => ⟨hs, rfl⟩
  | op :: ops, s, hs, hw => by
    obtain ⟨hi, hv⟩ := hs.step (hw op (by simp))
    have hrest : ∀ op' ∈ ops, op'.InWindow := fun op' h => hw op' (by simp [h])
    obtain ⟨hi', hv'⟩ := run hi hrest
    refine ⟨hi', ?_⟩
    have : s.views.run (s.trace (op :: ops)) = (s.step op).2.views.run ((s.step op).2.trace ops) := by rw [hv]; rfl
    rw [this]
    exact hv'

end Inv

end Paging
end SystemsLab.MiniOs
