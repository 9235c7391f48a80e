import SystemsLab.MiniOs.Isolation

/-!
# Forked spaces

Every run of the paging operations keeps the counts of shared frames exact and the spaces apart, as long as user
pages in the low 4 MB stay in the window reserved for them.
-/

namespace SystemsLab.MiniOs

def View.byte : View → Nat → Option UInt8
  | .owned bytes, offset => some (bytes offset)
  | _, _ => none

namespace Paging
variable {m : Nat}

structure Start (s : Paging m) : Prop where
  spaces : ∀ n, s.spaces n = none
  active : s.activeSpace = none
  pageRef : ∀ f, s.pageRef f = 0
  running : s.halted = false
  room : s.pmm.usedBlocks ≤ s.pmm.maxBlocks
  max_le : s.pmm.maxBlocks ≤ pmmMaxBlocks
  /-- The frames of the low user window are kept out of the memory manager. -/
  window : ∀ f, Window f → s.pmm.memoryMap f = true

def mappings (s : Paging m) (f : Nat) : Nat :=
  (Finset.univ.filter fun y : Fin m × UserPage => (s.pte y.1 y.2).target = some f).card

variable {u₀ h₀ : Nat} {s : Paging m}

theorem Start.inv (h : s.Start) : s.Inv s.pmm.usedBlocks s.heap.pages := by
  have hpte : ∀ n x, (s.pte n x).usable = false := fun n x => by
    rw [pte_of_none (h.spaces n)]
    rfl
  have hholds : ∀ y, s.holds y = none := by
    rintro ⟨n, x | j⟩
    · exact holds_of_not_usable (hpte n x)
    · simp [holds, h.spaces n]
  have hnone : heldObjects s.holds = ∅ := by
    ext r
    simp [mem_heldObjects, hholds]
  refine ⟨⟨⟨?_, ?_, ?_⟩, le_refl _, h.room, h.max_le, fun {f} hf => h.window f hf, ?_, ?_⟩, ⟨?_, ?_, ?_⟩, ?_,
    ?_, h.running⟩
  · intro f
    rw [h.pageRef, holders_eq_zero fun y => by simp [hholds]]
  · simp [hholds]
  · simp [hnone]
  · simp [hholds]
  · simp [hholds]
  · intro n k x y f hx
    simp [PageEntry.target_eq_none.mpr (hpte n x)] at hx
  · simp [hpte]
  · simp [hpte]
  · simp [h.spaces]
  · simp [h.active]

theorem Start.views (h : s.Start) : s.views = Views.start m := by
  unfold Paging.views Views.start
  rw [h.active]
  congr 1
  funext n x
  rw [view_eq_unmapped, pte_of_none (h.spaces n)]
  rfl

theorem Inv.mappings_eq (hs : s.Inv u₀ h₀) {n : Fin m} {x : UserPage} {f : Nat} (hx : (s.pte n x).target = some f) :
    s.mappings f = s.pageRef f + 1 := by
  have hx' : s.holds (n, .inl x) = some f := hx
  rw [← hs.layout.backed.holders_eq hx']
  refine Finset.card_bij (fun y _ => (y.1, .inl y.2)) ?_ ?_ ?_
  · intro y hy
    exact Finset.mem_filter.mpr ⟨Finset.mem_univ _, (Finset.mem_filter.mp hy).2⟩
  · intro y _ y' _ he
    simpa [Prod.ext_iff] using he
  · rintro ⟨k, t⟩ hk
    have hk := (Finset.mem_filter.mp hk).2
    cases t with
    | inl y => exact ⟨(k, y), Finset.mem_filter.mpr ⟨Finset.mem_univ _, hk⟩, rfl⟩
    | inr j => exact absurd hx' (hs.layout.table_ne hk)

/-- **Fork isolation.** Every mapped frame is mapped by one entry more than its count says, and each space sees
exactly what private memories would show it. -/
theorem forks_isolated (s : Paging m) (h : s.Start) (ops : List (PagingOp m)) (hw : ∀ op ∈ ops, op.InWindow) :
    (∀ n x f, ((s.run ops).pte n x).target = some f →
      (s.run ops).pmm.memoryMap f = true ∧ (s.run ops).mappings f = (s.run ops).pageRef f + 1) ∧
    (∀ n x, ((s.run ops).pte n x).usable = true → ((s.run ops).pte n x).rw = true →
      ((s.run ops).pte n x).shared = false →
      (s.run ops).pageRef ((s.run ops).pte n x).frame = 0) ∧
    (∀ n x, (s.run ops).view n x = ((Views.start m).run (s.trace ops)).view n x) ∧
    ((∀ n, (s.run ops).spaces n = none) → (s.run ops).pmm.usedBlocks + s.heap.pages = s.pmm.usedBlocks +
      (s.run ops).heap.pages) := by
  obtain ⟨hi, hv⟩ := h.inv.run hw
  rw [h.views] at hv
  refine ⟨fun n x f hx => ⟨?_, hi.mappings_eq hx⟩, fun n x => hi.entries.rw_owned, fun n x => ?_, fun hn => ?_⟩
  · have hx' : (s.run ops).holds (n, .inl x) = some f := hx
    exact hi.layout.backed.marked hx'
  · rw [← hv]
    rfl
  · refine hi.layout.used_of_none ?_
    rintro ⟨n, x | j⟩
    · refine holds_of_not_usable ?_
      rw [pte_of_none (hn n)]
      rfl
    · simp [holds, hn n]

def small (heap : Heap) : Paging 2 where
  pmm :=
    { memoryMap := fun f => !(decide (0x200 ≤ f) && decide (f < 0x240)), maxBlocks := 0x240, usedBlocks := 0x200 }
  heap := heap
  spaces := fun _ => none
  activeSpace := none
  pageRef := fun _ => 0
  memory := fun _ _ => 0
  halted := false

theorem small_start (heap : Heap) : (small heap).Start where
  spaces _ := rfl
  active := rfl
  pageRef _ := rfl
  running := rfl
  room := by simp [small]
  max_le := by simp [small, pmmMaxBlocks]
  window f hf := by
    simp only [Window, userLoadBase, pmmBlockSize] at hf
    have : ¬ f < 0x240 := by omega
    simp [small, this]

def fullHeap : Heap := ⟨[⟨0x100000, 4084, false⟩], 1⟩

def freeHeap : Heap := ⟨[⟨0x100000, 4084, true⟩], 1⟩

theorem forks_isolated_small : (small freeHeap).Start ∧
    ∀ n x,
      ((small freeHeap).run [.create 0, .map 0 0x300000, .activate (some 0), .write 0x300000 7, .clone (some 0) 1,
        .write 0x300000 8, .activate (some 1), .write 0x300001 9]).view n x =
      ((Views.start 2).run
        ((small freeHeap).trace [.create 0, .map 0 0x300000, .activate (some 0), .write 0x300000 7,
        .clone (some 0) 1, .write 0x300000 8, .activate (some 1), .write 0x300001 9])).view n x :=
  ⟨small_start freeHeap,
    (forks_isolated (small freeHeap) (small_start freeHeap) _ (by simp [PagingOp.InWindow, userLoadBase])).2.2.1⟩

theorem foldl_destroyEntry {n : Fin m} (hu : ∀ x, (s.pte n x).usable = false) :
    ∀ xs : List UserPage, xs.foldl (destroyEntry n) s = s
  | [] => rfl
  | x :: xs => by
    have : destroyEntry n s x = s := by simp [destroyEntry, hu]
    rw [List.foldl_cons, this]
    exact foldl_destroyEntry hu xs

theorem run_create_destroy :
    ∃ a, ((small fullHeap).run [.create 0]).spaces 0 = some a ∧
      (small fullHeap).run [.create 0, .destroy 0] = ((small fullHeap).run [.create 0]).freeSpace 0 a := by
  obtain ⟨s₁, hs₁⟩ : ∃ s₁, s₁ = (small fullHeap).run [.create 0] := ⟨_, rfl⟩
  have hsome : (s₁.spaces 0).isSome = true := by rw [hs₁]; decide +kernel
  have hidle : s₁.halted = false ∧ s₁.activeSpace = none := by rw [hs₁]; decide +kernel
  obtain ⟨a, ha⟩ := Option.isSome_iff_exists.mp hsome
  have hu : ∀ x, (s₁.pte 0 x).usable = false := by
    intro x
    have hw : ∀ op ∈ [PagingOp.create (0 : Fin 2)], op.InWindow := by simp [PagingOp.InWindow]
    have hcreate : ∀ b, (Views.start 2).run [(.create 0, b)] = Views.start 2 := by rintro (_ | _) <;> rfl
    have hv := ((small_start fullHeap).inv.run hw).2
    rw [(small_start fullHeap).views, trace, trace, hcreate, ← hs₁] at hv
    rw [← view_eq_unmapped]
    exact congrArg (fun v => v.view 0 x) hv
  refine ⟨a, hs₁ ▸ ha, ?_⟩
  have hstep : (small fullHeap).run [.create 0, .destroy 0] = (s₁.step (.destroy 0)).2 := by rw [hs₁]; rfl
  have hleave : s₁.leave 0 = s₁ := by simp [leave, hidle.2]
  rw [hstep, ← hs₁, step, if_pos ⟨hidle.1, hsome⟩, perform, Inv.destroyUserAddressSpace_of_some ha, hleave,
    foldl_destroyEntry hu]

/-- A space that comes and goes can leave a frame with the heap; and the kernel can overwrite a user page below the
window, when it clears a frame that has the page's own address. -/
theorem forks_not_isolated :
    ((∀ n, ((small fullHeap).run [.create 0, .destroy 0]).spaces n = none) ∧
      ((small fullHeap).run [.create 0, .destroy 0]).pmm.usedBlocks = (small fullHeap).pmm.usedBlocks + 1) ∧
    (((small freeHeap).run [.create 0, .map 0 0x205000, .activate (some 0), .write 0x205000 7, .map 0 0x300000,
        .map 0 0x301000]).view 0 (.inl 0x205)).byte 0 = some 0 ∧
      (((Views.start 2).run
        ((small freeHeap).trace [.create 0, .map 0 0x205000, .activate (some 0), .write 0x205000 7,
        .map 0 0x300000, .map 0 0x301000])).view 0 (.inl 0x205)).byte 0 = some 7 := by
  refine ⟨?_, by decide +kernel⟩
  obtain ⟨a, ha, hrun⟩ := run_create_destroy
  have hother : ((small fullHeap).run [.create 0]).spaces 1 = none := by decide +kernel
  have htables : (((small fullHeap).run [.create 0]).spaces 0).map
      (fun a => (a.directory, a.firstTable, a.extTable)) =
      some (0x201, 0x202, 0x203) := by decide +kernel
  simp only [ha, Option.map_some, Option.some.injEq, Prod.mk.injEq] at htables
  rw [hrun]
  refine ⟨fun n => ?_, ?_⟩
  · match n with
    | 0 => simp [freeSpace]
    | 1 => simpa [freeSpace] using hother
  · simp only [freeSpace, htables]
    decide +kernel

end Paging

end SystemsLab.MiniOs
