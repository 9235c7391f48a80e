import SystemsLab.MiniOs.Frames

/-!
# What a space sees of its pages

A page is not mapped, shared on purpose, or the space's own, even while its frame is shared for copy-on-write.
-/

namespace SystemsLab.MiniOs

open Function

inductive View
  | unmapped
  | shared
  | owned (bytes : Nat → UInt8)

def PageEntry.view (e : PageEntry) (memory : Nat → Nat → UInt8) : View :=
  if e.usable then if e.shared then .shared else .owned (memory e.frame) else .unmapped

theorem PageEntry.view_of_not_usable {e : PageEntry} (he : e.usable = false) (memory : Nat → Nat → UInt8) :
    e.view memory = .unmapped := by simp [view, he]

theorem PageEntry.view_rw (e : PageEntry) (b : Bool) (memory : Nat → Nat → UInt8) :
    ({ e with rw := b } : PageEntry).view memory = e.view memory := rfl

theorem identityEntry_usable (x : UserPage) : (identityEntry x).usable = false := by cases x <;> rfl

def setAt {m : Nat} {α : Type} (v : Fin m → UserPage → α) (n : Fin m) (x : UserPage) (a : α) :
    Fin m → UserPage → α :=
  update v n (update (v n) x a)

section setAt
variable {m : Nat} {α : Type} (v : Fin m → UserPage → α) (n k : Fin m) (x y : UserPage) (a : α)

theorem setAt_self : setAt v n x a n x = a := by simp [setAt]

theorem setAt_of_ne {k : Fin m} {y : UserPage} (h : (k, y) ≠ (n, x)) : setAt v n x a k y = v k y := by
  unfold setAt
  by_cases hk : k = n
  · subst hk
    have hy : y ≠ x := fun hy => h (by rw [hy])
    simp [hy]
  · simp [hk]

theorem setAt_eq_self : setAt v n x (v n x) = v := by simp [setAt]

end setAt

/-! ## Entries -/

/-- Entries that name one frame are at the same page and of the same kind, and an owned page is writable only if its
frame has no further holder. -/
structure Entries {m : Nat} (pte : Fin m → UserPage → PageEntry) (ref : Nat → Nat) : Prop where
  same : ∀ {n k x y f}, (pte n x).target = some f → (pte k y).target = some f →
    x = y ∧ (pte n x).shared = (pte k y).shared
  rw_shared : ∀ {n x}, (pte n x).usable = true → (pte n x).shared = true → (pte n x).rw = true
  rw_owned : ∀ {n x}, (pte n x).usable = true → (pte n x).rw = true → (pte n x).shared = false →
    ref (pte n x).frame = 0

namespace Entries
variable {m : Nat} {pte : Fin m → UserPage → PageEntry} {ref ref' : Nat → Nat} {n : Fin m} {x : UserPage}
  {e : PageEntry}

theorem set (he : Entries pte ref)
    (hsame : ∀ {k y f}, (k, y) ≠ (n, x) → e.target = some f → (pte k y).target = some f →
      x = y ∧ e.shared = (pte k y).shared)
    (hshared : e.usable = true → e.shared = true → e.rw = true)
    (howned : e.usable = true → e.rw = true → e.shared = false → ref' e.frame = 0)
    (href : ∀ {k y}, (k, y) ≠ (n, x) → (pte k y).usable = true → (pte k y).rw = true → (pte k y).shared = false →
      ref' (pte k y).frame = 0) : Entries (setAt pte n x e) ref' := by
  refine ⟨?_, ?_, ?_⟩
  · intro n₁ n₂ x₁ x₂ f h₁ h₂
    by_cases e₁ : (n₁, x₁) = (n, x)
    · cases e₁
      rw [setAt_self] at h₁ ⊢
      by_cases e₂ : (n₂, x₂) = (n, x)
      · cases e₂
        rw [setAt_self]
        exact ⟨rfl, rfl⟩
      · rw [setAt_of_ne _ _ _ _ e₂] at h₂ ⊢
        exact hsame e₂ h₁ h₂
    · rw [setAt_of_ne _ _ _ _ e₁] at h₁ ⊢
      by_cases e₂ : (n₂, x₂) = (n, x)
      · cases e₂
        rw [setAt_self] at h₂ ⊢
        obtain ⟨hxy, hsh⟩ := hsame e₁ h₂ h₁
        exact ⟨hxy.symm, hsh.symm⟩
      · rw [setAt_of_ne _ _ _ _ e₂] at h₂ ⊢
        exact he.same h₁ h₂
  · intro k y
    by_cases hk : (k, y) = (n, x)
    · cases hk
      rw [setAt_self]
      exact hshared
    · rw [setAt_of_ne _ _ _ _ hk]
      exact he.rw_shared
  · intro k y
    by_cases hk : (k, y) = (n, x)
    · cases hk
      rw [setAt_self]
      exact howned
    · rw [setAt_of_ne _ _ _ _ hk]
      exact href hk

theorem clear (he : Entries pte ref) (hu : e.usable = false) (hle : ∀ f, ref f = 0 → ref' f = 0) :
    Entries (setAt pte n x e) ref' := by
  have hn := PageEntry.target_eq_none.mpr hu
  refine he.set (fun _ h => ?_) (by simp [hu]) (by simp [hu]) (fun _ h₁ h₂ h₃ => hle _ (he.rw_owned h₁ h₂ h₃))
  rw [hn] at h
  cases h

theorem of_usable {pte' : Fin m → UserPage → PageEntry} (he : Entries pte ref)
    (h : ∀ {k y}, (pte' k y).usable = true → pte' k y = pte k y) : Entries pte' ref := by
  refine ⟨?_, ?_, ?_⟩
  · intro k₁ k₂ y₁ y₂ g h₁ h₂
    have e₁ := h (PageEntry.target_eq_some.mp h₁).1
    have e₂ := h (PageEntry.target_eq_some.mp h₂).1
    rw [e₁] at h₁ ⊢
    rw [e₂] at h₂ ⊢
    exact he.same h₁ h₂
  · intro k y hy
    have e := h hy
    rw [e] at hy ⊢
    exact he.rw_shared hy
  · intro k y hy
    have e := h hy
    rw [e] at hy ⊢
    exact he.rw_owned hy

end Entries

/-! ## The invariant -/

namespace Paging
variable {m : Nat}

def view (s : Paging m) (n : Fin m) (x : UserPage) : View := (s.pte n x).view s.memory

structure Inv (u₀ h₀ : Nat) (s : Paging m) : Prop where
  layout : Layout u₀ h₀ s.pmm s.heap.pages s.pageRef s.holds
  entries : Entries s.pte s.pageRef
  /-- Outside the window for user pages the low table is the identity map. -/
  low : ∀ {n} {i : Fin 1024}, (s.spaces n).isSome → ¬ Window i → s.pte n (.inl i) = identityEntry (.inl i)
  active : ∀ {n}, s.activeSpace = some n → (s.spaces n).isSome
  running : s.halted = false

section setPte
variable (s : Paging m) (n : Fin m) (x : UserPage) (e : PageEntry)

theorem isSome_setPte (k : Fin m) : ((s.setPte n x e).spaces k).isSome = (s.spaces k).isSome := by
  by_cases hk : k = n
  · subst hk; simp [setPte]
  · simp [setPte, hk]

theorem pte_setPte {s : Paging m} {n : Fin m} (hn : (s.spaces n).isSome) :
    (s.setPte n x e).pte = setAt s.pte n x e := by
  obtain ⟨a, ha⟩ := Option.isSome_iff_exists.mp hn
  funext k y
  by_cases hk : k = n
  · subst hk
    by_cases hy : y = x
    · subst hy; simp [pte, setPte, setAt, ha]
    · simp [pte, setPte, setAt, ha, hy]
  · simp [pte, setPte, setAt, hk]

theorem holds_setPte {s : Paging m} {n : Fin m} (hn : (s.spaces n).isSome) :
    (s.setPte n x e).holds = update s.holds (n, .inl x) e.target := by
  funext p
  obtain ⟨k, t⟩ := p
  cases t with
  | inl y =>
    simp only [holds, pte_setPte x e hn]
    by_cases hk : (k, y) = (n, x)
    · cases hk
      rw [setAt_self, update_self]
    · have hne : ((k, .inl y) : Holder m) ≠ (n, .inl x) := by
        intro h
        exact hk (by simpa using h)
      rw [setAt_of_ne _ _ _ _ hk, update_of_ne hne, holds]
  | inr j =>
    rw [update_of_ne (by simp)]
    by_cases hk : k = n
    · subst hk
      simp only [holds, setPte, update_self, Option.map_map]
      rfl
    · simp [holds, setPte, hk]

end setPte

variable {u₀ h₀ : Nat} {s : Paging m} {n : Fin m} {x : UserPage} {f : Nat}

theorem pte_of_none (hn : s.spaces n = none) (x : UserPage) : s.pte n x = {} := by simp [pte, hn]

theorem pte_of_some {a : AddressSpace} (ha : s.spaces n = some a) (x : UserPage) : s.pte n x = a.pages x := by
  simp [pte, ha]

theorem holds_of_usable (hu : (s.pte n x).usable = true) : s.holds (n, .inl x) = some (s.pte n x).frame :=
  PageEntry.target_eq_some.mpr ⟨hu, rfl⟩

theorem holds_of_not_usable (hu : (s.pte n x).usable = false) : s.holds (n, .inl x) = none :=
  PageEntry.target_eq_none.mpr hu

theorem isSome_of_usable (hu : (s.pte n x).usable = true) : (s.spaces n).isSome := by
  cases hn : s.spaces n with
  | none =>
    rw [pte_of_none hn] at hu
    cases hu
  | some a => rfl

namespace Inv

theorem window_of_usable {i : Fin 1024} (hs : s.Inv u₀ h₀) (hu : (s.pte n (.inl i)).usable = true) : Window i := by
  by_contra hw
  rw [hs.low (isSome_of_usable hu) hw, identityEntry_usable] at hu
  cases hu

theorem kernelFrame (hs : s.Inv u₀ h₀) (hw : ¬ Window f) (write : Bool) : s.kernelFrame write f = some f := by
  unfold Paging.kernelFrame
  split
  · rfl
  · rename_i n ha
    split
    · rename_i hf
      rw [hs.low (hs.active ha) hw]
      rfl
    · rfl

theorem of_set {s' : Paging m} {e : PageEntry} (hs : s.Inv u₀ h₀)
    (hpte : s'.pte = setAt s.pte n x e) (hsome : ∀ k, (s'.spaces k).isSome = (s.spaces k).isSome)
    (hactive : s'.activeSpace = s.activeSpace) (hrun : s'.halted = false)
    (hx : ∀ i : Fin 1024, x = .inl i → Window i)
    (hlayout : Layout u₀ h₀ s'.pmm s'.heap.pages s'.pageRef s'.holds) (hentries : Entries s'.pte s'.pageRef) :
    s'.Inv u₀ h₀ where
  layout := hlayout
  entries := hentries
  low {k i} hk hw := by
    have hne : (k, (.inl i : UserPage)) ≠ (n, x) := by
      intro h
      cases h
      exact hw (hx i rfl)
    rw [hpte, setAt_of_ne _ _ _ _ hne]
    exact hs.low (hsome k ▸ hk) hw
  active hk := by
    rw [hsome]
    exact hs.active (hactive ▸ hk)
  running := hrun

theorem of_replace (s' : Paging m) {o : Option AddressSpace} (hs : s.Inv u₀ h₀)
    (hspaces : s'.spaces = update s.spaces n o) (hu : ∀ x, (s.pte n x).usable = false)
    (ho : ∀ {a}, o = some a → a.pages = identityEntry) (hactive : s'.activeSpace = s.activeSpace)
    (hlive : s.activeSpace = some n → o.isSome) (href : s'.pageRef = s.pageRef) (hmemory : s'.memory = s.memory)
    (hrun : s'.halted = false)
    (hlayout : (∀ k x, s'.holds (k, .inl x) = s.holds (k, .inl x)) →
      Layout u₀ h₀ s'.pmm s'.heap.pages s'.pageRef s'.holds) :
    s'.Inv u₀ h₀ ∧ s'.view = s.view := by
  have hother : ∀ {k} (x : UserPage), k ≠ n → s'.pte k x = s.pte k x := by
    intro k x hk
    simp [pte, hspaces, hk]
  have hself : ∀ x, (s'.pte n x).usable = false := by
    intro x
    cases o with
    | none => simp [pte, hspaces, PageEntry.usable]
    | some a => simp [pte, hspaces, ho rfl, identityEntry_usable]
  refine ⟨⟨hlayout ?_, ?_, ?_, ?_, hrun⟩, ?_⟩
  · intro k x
    by_cases hk : k = n
    · subst hk
      rw [holds_of_not_usable (hself x), holds_of_not_usable (hu x)]
    · simp only [holds, hother x hk]
  · rw [href]
    refine hs.entries.of_usable fun {k y} hy => hother y ?_
    rintro rfl
    simp [hself y] at hy
  · intro k i hk hw
    by_cases hkn : k = n
    · subst hkn
      obtain ⟨a, ha⟩ := Option.isSome_iff_exists.mp hk
      rw [pte_of_some ha, ho (by simpa [hspaces] using ha)]
    · rw [hother _ hkn]
      exact hs.low (by simpa [hspaces, hkn] using hk) hw
  · intro k hk
    rw [hactive] at hk
    by_cases hkn : k = n
    · subst hkn
      simpa [hspaces] using hlive hk
    · simpa [hspaces, hkn] using hs.active hk
  · funext k x
    unfold view
    rw [hmemory]
    by_cases hk : k = n
    · subst hk
      rw [PageEntry.view_of_not_usable (hself x), PageEntry.view_of_not_usable (hu x)]
    · rw [hother x hk]

end Inv

theorem view_set {s' : Paging m} {e : PageEntry} (hpte : s'.pte = setAt s.pte n x e)
    (hmem : ∀ {k y f}, (k, y) ≠ (n, x) → (s.pte k y).target = some f → (s.pte k y).shared = false →
      s'.memory f = s.memory f) :
    s'.view = setAt s.view n x (e.view s'.memory) := by
  funext k y
  simp only [view, hpte]
  by_cases hk : (k, y) = (n, x)
  · cases hk
    rw [setAt_self, setAt_self]
  · rw [setAt_of_ne _ _ _ _ hk, setAt_of_ne _ _ _ _ hk]
    unfold view PageEntry.view
    split
    · rename_i hu
      split
      · rfl
      · rename_i hsh
        rw [hmem hk (PageEntry.target_eq_some.mpr ⟨hu, rfl⟩) (by simpa using hsh)]
    · rfl

end Paging

end SystemsLab.MiniOs
