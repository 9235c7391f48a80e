import SystemsLab.MiniOs.UserMemory

/-!
# Faults on user pages

Which operations take a user page away, and when the page fault handler fills in
or copies the page an access of the kernel needs.
-/

namespace SystemsLab.MiniOs

open Function

/-! ## Pages that stay -/

def PagingOp.Loses {m : Nat} (n : Fin m) (x : UserPage) : PagingOp m → Prop
  | .destroy k => k = n
  | .unmap k vaddr => k = n ∧ userPage vaddr = some x
  | _ => False

namespace Paging
variable {m u₀ h₀ : Nat} {s s' : Paging m} {n k : Fin m} {x : UserPage} {addr : Nat} {op : PagingOp m}
variable {f : Paging m → UserPage → Paging m}

theorem usable_iff_view : (s.pte n x).usable = true ↔ s.view n x ≠ .unmapped := by
  rw [Ne, view_eq_unmapped]
  simp

theorem setAt_ne_unmapped {v : Fin m → UserPage → View} {w : View} (hv : v n x ≠ .unmapped) (k : Fin m)
    (y : UserPage)
    (hw : (n, x) = (k, y) → w ≠ .unmapped) : setAt v k y w n x ≠ .unmapped := by
  by_cases h : (n, x) = (k, y)
  · cases h
    rw [setAt_self]
    exact hw rfl
  · rwa [setAt_of_ne _ _ _ _ h]

theorem views_step_ne {v : Views m} {b : Bool} (hv : v.view n x ≠ .unmapped) (hl : ¬ op.Loses n x)
    (hc : ∀ parent, op ≠ .clone parent n) : (v.step (op, b)).view n x ≠ .unmapped := by
  cases b with
  | false => exact hv
  | true =>
    cases op with
    | create child | activate k => exact hv
    | clone parent child =>
      have hne : n ≠ child := fun h => hc parent (by rw [h])
      simpa [Views.step, update_of_ne hne] using hv
    | destroy k =>
      have hne : n ≠ k := fun h => hl h.symm
      simpa [Views.step, update_of_ne hne] using hv
    | map k vaddr =>
      simp only [Views.step]
      split
      · split
        · exact setAt_ne_unmapped hv _ _ (by simp)
        · exact hv
      · exact hv
    | unmap k vaddr =>
      simp only [Views.step]
      split
      · rename_i y hy
        refine setAt_ne_unmapped hv _ _ fun h => ?_
        cases h
        exact absurd ⟨rfl, hy⟩ hl
      · exact hv
    | share vaddr =>
      simp only [Views.step]
      split
      · split
        · exact setAt_ne_unmapped hv _ _ (by simp)
        · exact hv
      · exact hv
    | write vaddr c =>
      simp only [Views.step]
      split
      · rename_i k y _ _
        refine setAt_ne_unmapped hv _ _ fun h => ?_
        cases h
        cases hw : v.view n x with
        | unmapped => exact absurd hw hv
        | shared | owned bytes => simp [View.write]
      · exact hv

theorem perform_of_allowed (hs : s.Inv u₀ h₀) (ha : op.Allowed s) : s.step op = s.perform op := by
  rw [Paging.step, if_pos ⟨hs.running, ha⟩]

theorem Inv.usable_step (hs : s.Inv u₀ h₀) (hw : op.InWindow) (hl : ¬ op.Loses n x)
    (hu : (s.pte n x).usable = true) : ((s.step op).2.pte n x).usable = true := by
  by_cases ha : op.Allowed s
  · rw [usable_iff_view] at hu ⊢
    have hviews := congrArg (fun v => Views.view v n x) (hs.step hw).2
    rw [show (s.step op).2.view n x = ((s.step op).2.views).view n x from rfl]
    refine hviews ▸ views_step_ne hu hl fun parent h => ?_
    subst h
    exact hu (by rw [view_eq_unmapped, pte_of_none ha.1]; rfl)
  · rw [Paging.step, if_neg fun h => ha h.2]
    exact hu

/-! ### Spaces that stay -/

theorem spaces_memsetZero {f : Nat} (h : s.memsetZero f = some s') :
    s'.spaces = s.spaces ∧ s'.activeSpace = s.activeSpace := by
  obtain ⟨g, -, rfl⟩ := Option.map_eq_some_iff.mp h
  exact ⟨rfl, rfl⟩

section
variable (s)

theorem isSome_newPage (n : Fin m) (x : UserPage) (b : Bool) (k : Fin m) :
    ((s.newPage n x b).2.spaces k).isSome = (s.spaces k).isSome := by
  unfold newPage
  split
  · rfl
  · split
    · rfl
    · rename_i s' hs'
      rw [isSome_setPte, (spaces_memsetZero hs').1]

theorem isSome_mapUserPage (n : Fin m) (vaddr : Nat) (k : Fin m) :
    ((s.mapUserPage n vaddr).2.spaces k).isSome = (s.spaces k).isSome := by
  unfold mapUserPage
  split
  · split
    · rfl
    · exact isSome_newPage s n _ false k
  · rfl

theorem isSome_copyPage (n : Fin m) (x : UserPage) (k : Fin m) :
    ((s.copyPage n x).2.spaces k).isSome = (s.spaces k).isSome := by
  simp only [copyPage]
  split
  · split
    · rfl
    · split
      · rfl
      · rename_i s' hs'
        rw [isSome_setPte]
        simp only [memcpyFrame, Option.bind_eq_some_iff, Option.map_eq_some_iff] at hs'
        obtain ⟨g, -, f, -, rfl⟩ := hs'
        rfl
  · exact isSome_setPte s n x _ k

theorem isSome_unmapUserPage (n : Fin m) (vaddr : Nat) (k : Fin m) :
    ((s.unmapUserPage n vaddr).spaces k).isSome = (s.spaces k).isSome := by
  unfold unmapUserPage
  split
  · split
    · rw [isSome_setPte, (kept_releaseFrame s _).isSome]
    · rfl
  · rfl

theorem isSome_sharePage (vaddr : Nat) (k : Fin m) :
    ((s.sharePage vaddr).2.spaces k).isSome = (s.spaces k).isSome := by
  unfold sharePage
  split
  · rfl
  · split
    · dsimp only
      split
      · rfl
      · exact isSome_newPage s _ _ true k
    · rfl

theorem isSome_userWrite (vaddr : Nat) (v : UInt8) (k : Fin m) :
    ((s.userWrite vaddr v).2.spaces k).isSome = (s.spaces k).isSome := by
  have hcow : ((s.tryCow vaddr).2.spaces k).isSome = (s.spaces k).isSome := by
    unfold tryCow
    split
    · split
      · exact isSome_copyPage s _ _ k
      · rfl
    · rfl
  unfold userWrite
  split
  · split
    · rfl
    · split
      · rfl
      · split
        · rename_i h
          rw [h] at hcow
          exact hcow
        · rename_i h
          rw [h] at hcow
          exact hcow
  · rfl

end

theorem isSome_createUserAddressSpace (s : Paging m) (n : Fin m) (hk : (s.spaces k).isSome) :
    ((s.createUserAddressSpace n).2.spaces k).isSome := by
  obtain ⟨h, p, -, hc⟩ | ⟨h, p, p₁, p₂, p₃, object, d, f, e, -, -, -, -, hc⟩ := createUserAddressSpace_cases s n
  · rw [hc]
    exact hk
  · rw [hc]
    show (update s.spaces n _ k).isSome
    by_cases hkn : k = n
    · rw [hkn, update_self]
      rfl
    · rwa [update_of_ne hkn]

theorem kept_foldl (hf : ∀ s x, Kept s (f s x)) :
    ∀ (xs : List UserPage) (s : Paging m), Kept s (xs.foldl f s)
  | [], s => .refl s
  | x :: xs, s => (hf s x).trans (kept_foldl hf xs (f s x))

theorem isSome_foldl (hf : ∀ s x, Kept s (f s x)) (xs : List UserPage)
    (hk : (s.spaces k).isSome) : ((xs.foldl f s).spaces k).isSome := by
  rwa [(kept_foldl hf xs s).isSome]

theorem cloneAddressSpace_cases (s : Paging m) (parent : Option (Fin m)) (n : Fin m) :
    s.cloneAddressSpace parent n = s.createUserAddressSpace n ∨
      ∃ p s₁, s.createUserAddressSpace n = (true, s₁) ∧
        s.cloneAddressSpace parent n = (true, userPages.foldl (cloneEntry p n) s₁) := by
  unfold cloneAddressSpace
  split
  · rename_i s₁ p h
    exact .inr ⟨p, s₁, h, rfl⟩
  · exact .inl rfl

theorem isSome_cloneAddressSpace (s : Paging m) (parent : Option (Fin m)) (n : Fin m) (hk : (s.spaces k).isSome) :
    ((s.cloneAddressSpace parent n).2.spaces k).isSome := by
  have hc := isSome_createUserAddressSpace s n hk
  obtain h | ⟨p, s₁, h₁, h⟩ := cloneAddressSpace_cases s parent n
  · rw [h]
    exact hc
  · rw [h₁] at hc
    have hfold := isSome_foldl (f := cloneEntry p n) (s := s₁) (kept_cloneEntry p n) userPages hc
    obtain ⟨s₂, hs₂⟩ : ∃ s₂, s₂ = userPages.foldl (cloneEntry p n) s₁ := ⟨_, rfl⟩
    rw [← hs₂] at hfold h
    rw [h]
    exact hfold

theorem isSome_freeSpace {a : AddressSpace} (hkn : k ≠ n) (hk : (s.spaces k).isSome) :
    ((s.freeSpace n a).spaces k).isSome := by
  simpa [freeSpace, update_of_ne hkn] using hk

theorem isSome_destroyUserAddressSpace (s : Paging m) (hkn : k ≠ n) (hk : (s.spaces k).isSome) :
    ((s.destroyUserAddressSpace n).spaces k).isSome := by
  have hleave : ((s.leave n).spaces k).isSome := by
    unfold leave
    split <;> exact hk
  cases hn : s.spaces n with
  | none => simpa [destroyUserAddressSpace, hn] using hk
  | some a =>
    have hfold := isSome_foldl (f := destroyEntry n) (kept_destroyEntry n) userPages hleave
    rw [Inv.destroyUserAddressSpace_of_some hn]
    obtain ⟨s₁, hs₁⟩ : ∃ s₁, s₁ = userPages.foldl (destroyEntry n) (s.leave n) := ⟨_, rfl⟩
    rw [← hs₁] at hfold ⊢
    exact isSome_freeSpace hkn hfold

theorem isSome_step (hk : (s.spaces k).isSome) (hd : op ≠ .destroy k) : ((s.step op).2.spaces k).isSome := by
  unfold step
  split
  · cases op with
    | create child => exact isSome_createUserAddressSpace s child hk
    | clone parent child => exact isSome_cloneAddressSpace s parent child hk
    | destroy n => exact isSome_destroyUserAddressSpace s (fun h => hd (by rw [h])) hk
    | activate n => exact hk
    | map n vaddr => exact (isSome_mapUserPage s n vaddr k).trans hk
    | unmap n vaddr => exact (isSome_unmapUserPage s n vaddr k).trans hk
    | share vaddr => exact (isSome_sharePage s vaddr k).trans hk
    | write vaddr v => exact (isSome_userWrite s vaddr v k).trans hk
  · exact hk

/-! ## The page fault handler -/

structure Onward (u₀ h₀ : Nat) (s s' : Paging m) : Prop where
  inv : s'.Inv u₀ h₀
  spaces : ∀ k, (s'.spaces k).isSome = (s.spaces k).isSome
  active : s'.activeSpace = s.activeSpace
  usable : ∀ {k y}, (s.pte k y).usable = true → (s'.pte k y).usable = true

theorem Onward.refl (hs : s.Inv u₀ h₀) : Onward u₀ h₀ s s := ⟨hs, fun _ => rfl, rfl, fun h => h⟩

def NeedsFrame (s : Paging m) (n : Fin m) (x : UserPage) (write : Bool) : Prop :=
  (s.pte n x).usable = false ∨ write = true ∧ (s.pte n x).rw = false ∧ 0 < s.pageRef (s.pte n x).frame

theorem userPage_page (addr : Nat) : userPage (addr / 4096 * 4096) = userPage addr := by
  unfold userPage
  by_cases h : addr < 0x400000
  · rw [dif_pos (show addr / 4096 * 4096 < 0x400000 by omega), dif_pos h]
    exact congrArg some (congrArg Sum.inl (Fin.ext (by show addr / 4096 * 4096 / 4096 = addr / 4096; omega)))
  · rw [dif_neg (show ¬ addr / 4096 * 4096 < 0x400000 by omega), dif_neg h]
    by_cases h' : userExtBase ≤ addr ∧ addr < userExtTop
    · have h'' : userExtBase ≤ addr / 4096 * 4096 ∧ addr / 4096 * 4096 < userExtTop := by
        simp only [userExtBase, userExtTop] at h' ⊢
        omega
      rw [dif_pos h'', dif_pos h']
      refine congrArg some (congrArg Sum.inr (Fin.ext ?_))
      simp only [userExtBase] at h' ⊢
      omega
    · have h'' : ¬ (userExtBase ≤ addr / 4096 * 4096 ∧ addr / 4096 * 4096 < userExtTop) := by
        simp only [userExtBase, userExtTop] at h' ⊢
        omega
      rw [dif_neg h'', dif_neg h']

theorem demandPaged_window {p : MemoryMap} (hp : userLoadBase ≤ p.heapStart) (h : p.demandPaged addr = true)
    (hlow : addr < 0x400000) : userLoadBase ≤ addr := by
  simp only [MemoryMap.demandPaged, Bool.or_eq_true, decide_eq_true_eq] at h
  obtain (h | h) | h := h
  · unfold userStackBottom userStackTop at h
    unfold userLoadBase
    omega
  · omega
  · unfold MemoryMap.extReserved at h
    split at h
    · rename_i h'
      simp only [userExtBase] at h'
      omega
    · cases h

section Fault
variable {p : MemoryMap} {write : Bool} (hs : s.Inv u₀ h₀) (ha : s.activeSpace = some n)
  (hx : userPage addr = some x)
include ha hx

theorem mapped_eq : s.mapped addr = (s.pte n x).usable := by simp [mapped, ha, hx]

theorem demandMap_of_usable (hu : (s.pte n x).usable = true) : s.demandMap addr = (false, s) := by
  simp [demandMap, ha, hx, hu]

theorem tryCow_of_not_usable (hu : (s.pte n x).usable = false) : s.tryCow addr = (false, s) := by
  simp [tryCow, ha, hx, hu]

include hs

theorem demandMap_cases (hw : addr < 0x400000 → userLoadBase ≤ addr) (hu : (s.pte n x).usable = false) :
    s.pmm.allocBlock = none ∧ s.demandMap addr = (false, s) ∨
      s.pmm.allocBlock.isSome ∧ ∃ s', s.demandMap addr = (true, s') ∧ Onward u₀ h₀ s s' := by
  have hn := hs.active ha
  obtain ⟨a, hspace⟩ := Option.isSome_iff_exists.mp hn
  have he : s.demandMap addr = s.newPage n x false := by
    rw [demandMap, ha, hx]
    simp only [hu, mapUserPage, hspace, userPage_page, hx, ← pte_of_some hspace]
    simp
  have hwindow : ∀ i : Fin 1024, x = .inl i → Window i := fun i hi => window_of_userPage (hi ▸ hx) hw
  rw [he]
  refine (hs.newPage hn hu hwindow false).imp_right ?_
  rintro ⟨hal, s', hr, hi, hact, hv⟩
  refine ⟨hal, s', hr, hi, fun k => ?_, hact, fun {k y} hky => ?_⟩
  · rw [← isSome_newPage s n x false k, hr]
  · rw [usable_iff_view] at hky ⊢
    rw [hv]
    exact setAt_ne_unmapped hky _ _ (by simp)

omit ha hx in
theorem copyPage_cases (hu : (s.pte n x).usable = true) (hrw : (s.pte n x).rw = false) :
    (0 < s.pageRef (s.pte n x).frame ∧ s.pmm.allocBlock = none) ∧ s.copyPage n x = (false, s) ∨
      (0 < s.pageRef (s.pte n x).frame → s.pmm.allocBlock.isSome) ∧
        ∃ s', s.copyPage n x = (true, s') ∧ Onward u₀ h₀ s s' := by
  refine (hs.copyPage hu hrw).imp_right ?_
  rintro ⟨hal, s', hr, hi, hact, hv, -, -⟩
  refine ⟨hal, s', hr, hi, fun k => ?_, hact, fun {k y} hky => ?_⟩
  · rw [← isSome_copyPage s n x k, hr]
  · rwa [usable_iff_view, hv, ← usable_iff_view]

omit ha hx hs in
theorem pageFault_eq (hcow : (if write then s.tryCow addr else (false, s)) = (false, s))
    (hmap : s.demandMap addr = (false, s) ∨ ∃ s', s.demandMap addr = (true, s')) :
    s.pageFault p write addr = if p.demandPaged addr then s.demandMap addr else (false, s) := by
  unfold pageFault MemoryMap.demandPaged
  rw [hcow]
  generalize decide (userStackBottom ≤ addr ∧ addr < userStackTop) = stack
  generalize decide (p.heapStart ≤ addr ∧ addr < p.heapBreak) = heap
  generalize p.extReserved addr = ext
  obtain hmap | ⟨s', hmap⟩ := hmap <;> cases stack <;> cases heap <;> cases ext <;> simp [hmap]

theorem pageFault_copy (hu : (s.pte n x).usable = true) (hrw : (s.pte n x).rw = false) :
    s.pageFault p true addr = s.copyPage n x := by
  have hcow : s.tryCow addr = s.copyPage n x := by simp [tryCow, ha, hx, hu, hrw]
  obtain ⟨-, hc⟩ | ⟨-, s', hc, -⟩ := copyPage_cases hs hu hrw
  · have hmap := demandMap_of_usable ha hx hu
    rw [pageFault_eq (by rw [if_pos rfl, hcow, hc]) (.inl hmap), hmap, ite_self, hc]
  · rw [hc]
    simp [pageFault, hcow, hc]

section
variable (hp : userLoadBase ≤ p.heapStart)
include hp

theorem pageFault_fill (hu : (s.pte n x).usable = false) (write : Bool) :
    (p.demandPaged addr = true ∧ s.pmm.allocBlock.isSome) ∧
      (∃ s', s.pageFault p write addr = (true, s') ∧ Onward u₀ h₀ s s') ∨
      ¬ (p.demandPaged addr = true ∧ s.pmm.allocBlock.isSome) ∧ s.pageFault p write addr = (false, s) := by
  have hcow : (if write then s.tryCow addr else (false, s)) = (false, s) := by
    rw [tryCow_of_not_usable ha hx hu, ite_self]
  cases hd : p.demandPaged addr with
  | false =>
    refine .inr ⟨by simp, ?_⟩
    unfold MemoryMap.demandPaged at hd
    simp only [Bool.or_eq_false_iff] at hd
    simp [pageFault, hcow, hd.1.1, hd.1.2, hd.2]
  | true =>
    obtain ⟨hal, hmap⟩ | ⟨hal, s', hmap, ho⟩ := demandMap_cases hs ha hx (demandPaged_window hp hd) hu
    · refine .inr ⟨by simp [hal], ?_⟩
      rw [pageFault_eq hcow (.inl hmap), hmap, ite_self]
    · refine .inl ⟨⟨rfl, hal⟩, s', ?_, ho⟩
      rw [pageFault_eq hcow (.inr ⟨s', hmap⟩), hd, if_pos rfl, hmap]

theorem demandMap_fst (hu : (s.pte n x).usable = false) (hd : p.demandPaged addr = true) :
    (s.demandMap addr).1 = s.pmm.allocBlock.isSome := by
  obtain ⟨hal, hmap⟩ | ⟨hal, s', hmap, -⟩ := demandMap_cases hs ha hx (demandPaged_window hp hd) hu
  · rw [hmap, hal]
    rfl
  · rw [hmap, hal]

theorem kernelAccess_spec (write : Bool) :
    ((s.kernelAccess p write addr).halted = false → Onward u₀ h₀ s (s.kernelAccess p write addr)) ∧
      ((s.kernelAccess p write addr).halted = false ∧
          (s.mapped addr = true ∨ p.demandPaged addr = true ∧ (s.demandMap addr).1 = true) ↔
        (s.mapped addr = true ∨ p.demandPaged addr = true) ∧
          (s.NeedsFrame n x write → s.pmm.allocBlock.isSome)) := by
  rw [mapped_eq ha hx]
  cases hu : (s.pte n x).usable with
  | true =>
    have hreach : s.kernelReaches write addr = ((s.pte n x).rw || !write) := by
      have hpresent : (s.pte n x).present = true := by simp_all [PageEntry.usable]
      simp [kernelReaches, ha, hx, hpresent]
    unfold kernelAccess
    by_cases hr : write = true ∧ (s.pte n x).rw = false
    · obtain ⟨rfl, hrw⟩ := hr
      rw [if_neg (by simp [hreach, hrw]), pageFault_copy hs ha hx hu hrw]
      obtain ⟨⟨href, hal⟩, hc⟩ | ⟨hal, s', hc, ho⟩ := copyPage_cases hs hu hrw
      · rw [hc]
        simp [NeedsFrame, hu, hrw, href, hal]
      · rw [hc]
        refine ⟨fun _ => ho, iff_of_true ⟨ho.inv.running, .inl rfl⟩ ⟨.inl rfl, ?_⟩⟩
        rintro (h | ⟨-, -, href⟩)
        · simp [hu] at h
        · exact hal href
    · have hr' : s.kernelReaches write addr = true := by
        rw [hreach]
        cases write <;> simp_all
      rw [if_pos hr']
      refine ⟨fun _ => .refl hs, iff_of_true ⟨hs.running, .inl rfl⟩ ⟨.inl rfl, ?_⟩⟩
      rintro (h | ⟨h₁, h₂, -⟩)
      · simp [hu] at h
      · exact absurd ⟨h₁, h₂⟩ hr
  | false =>
    have hneeds : s.NeedsFrame n x write := .inl hu
    have hfst := demandMap_fst hs ha hx hp hu
    unfold kernelAccess
    by_cases hr : s.kernelReaches write addr = true
    · rw [if_pos hr]
      refine ⟨fun _ => .refl hs, ?_⟩
      simp only [hs.running, true_and, Bool.false_eq_true, false_or, hneeds, forall_const]
      constructor
      · rintro ⟨hd, hm⟩
        exact ⟨hd, (hfst hd) ▸ hm⟩
      · rintro ⟨hd, hal⟩
        exact ⟨hd, (hfst hd).trans hal⟩
    · rw [if_neg hr]
      obtain ⟨⟨hd, hal⟩, s', hf, ho⟩ | ⟨hno, hf⟩ := pageFault_fill hs ha hx hp hu write
      · rw [hf]
        refine ⟨fun _ => ho, iff_of_true ⟨ho.inv.running, .inr ⟨hd, (hfst hd).trans hal⟩⟩ ⟨.inr hd, fun _ => hal⟩⟩
      · rw [hf]
        refine ⟨(fun h => by cases h), iff_of_false (fun h => by cases h.1) ?_⟩
        rintro ⟨hd, hal⟩
        exact hno ⟨by simpa using hd, hal hneeds⟩

end

end Fault

end Paging
end SystemsLab.MiniOs
