import SystemsLab.MiniOs.Forks
import SystemsLab.MiniOs.SystemCalls
import SystemsLab.MiniOs.UserFaults

/-!
# User pointers across blocking calls

A buffer that was checked stays mapped while a call sleeps, unless a thread of the same process unmaps it.
-/

namespace SystemsLab.MiniOs

/-! ## What a checked buffer is -/

namespace Paging
variable {m : Nat} {s : Paging m} {addr : Nat}

theorem mapped_page (s : Paging m) (addr : Nat) : s.mapped (addr / 4096 * 4096) = s.mapped addr := by
  unfold mapped
  rw [userPage_page]

theorem pagesMapped_spec :
    ∀ {first count page : Nat}, s.pagesMapped first count = true → first ≤ page → page < first + count →
    s.mapped (page * 4096) = true
  | _, 0, _, _, h₁, h₂ => by omega
  | first, count + 1, page, h, h₁, h₂ => by
    simp only [pagesMapped, Bool.and_eq_true] at h
    by_cases hp : page = first
    · rw [hp]
      exact h.1
    · exact pagesMapped_spec h.2 (by omega) (by omega)

theorem mapped_of_userBufferValid {start count : Nat} (h : s.userBufferValid start count = true) (h₁ : start ≤ addr)
    (h₂ : addr < start + count) : s.mapped addr = true := by
  unfold userBufferValid at h
  rw [if_neg (by omega)] at h
  split at h
  · cases h
  · rw [Bool.and_eq_true] at h
    obtain ⟨-, h⟩ := h
    unfold userRangeMapped at h
    rw [if_neg (by omega)] at h
    split at h
    · cases h
    · rw [← mapped_page]
      have hlo : start / 4096 ≤ addr / 4096 := Nat.div_le_div_right h₁
      have hhi : addr / 4096 ≤ (start + count - 1) / 4096 := Nat.div_le_div_right (by omega)
      exact pagesMapped_spec h hlo (by omega)

end Paging

def Job.Needs : Job → Nat → Prop
  | .pipeRead _ buffer len done, addr | .pipeWrite _ buffer len done, addr | .keyboardRead buffer len done, addr =>
    buffer + done ≤ addr ∧ addr < buffer + len
  | .copyOut buffer bytes, addr => buffer ≤ addr ∧ addr < buffer + bytes.length
  | .copyIn buffer count, addr => buffer ≤ addr ∧ addr < buffer + count
  | .waitpid status, addr => status ≠ 0 ∧ status ≤ addr ∧ addr < status + 4

theorem PagingOp.Avoids.not_loses {m : Nat} {active : Option (Fin m)} {n : Fin m} {op : PagingOp m}
    (h : op.Avoids active n)
    (x : UserPage) : ¬ op.Loses n x := by
  cases op with
  | destroy k => exact h
  | unmap k vaddr => exact fun hl => h hl.1
  | _ => exact id

namespace Calls
variable {m w u₀ h₀ : Nat} {k k' : Calls m w} {T : Fin w} {t : Thread} {job : Job} {addr : Nat} (p : MemoryMap)
variable {v : UInt8}

/-- The page at `addr` is a user page, or was unmapped while the thread was in its call. -/
def Covered (k : Calls m w) (t : Thread) (addr : Nat) : Prop :=
  ∃ x, userPage addr = some x ∧ ((k.paging.pte k.space x).usable = true ∨ ∃ i, x = .inr i ∧ i ∈ t.unmapped)

structure Inv (u₀ h₀ : Nat) (k : Calls m w) : Prop where
  paging : k.paging.Inv u₀ h₀
  space : (k.paging.spaces k.space).isSome
  heap : userLoadBase ≤ k.memory.heapStart
  flight : ∀ {T t job addr}, k.threads T = some t → t.job = some job → job.Needs addr → k.Covered t addr

def access (k : Calls m w) : CallEvent m w → Option (Thread × Bool × Nat)
  | .go T =>
    match k.threads T with
    | some t =>
      match t.job with
      | some job =>
        if t.asleep then none
        else
          match k.next job with
          | .store addr _ _ => some (t, true, addr)
          | .load addr _ => some (t, false, addr)
          | _ => none
      | none => none
    | none => none
  | _ => none

/-- The machine goes on, and the page accessed is a user page or one that the page fault handler fills in. -/
def Sound (k : Calls m w) (e : CallEvent m w) : Prop :=
  (k.step e).paging.halted = false ∧ ∀ t write addr, k.access e = some (t, write, addr) →
    k.enter.paging.mapped addr = true ∨ k.memory.demandPaged addr = true ∧ (k.enter.paging.demandMap addr).1 = true

theorem Covered.mono {t' : Thread} (h : k.Covered t addr) (hspace : k'.space = k.space)
    (hu : ∀ {x}, (k.paging.pte k.space x).usable = true →
      (k'.paging.pte k.space x).usable = true ∨ ∃ i, x = .inr i ∧ i ∈ t'.unmapped)
    (hgone : ∀ {i}, i ∈ t.unmapped → i ∈ t'.unmapped) : k'.Covered t' addr := by
  obtain ⟨x, hx, husable | ⟨i, rfl, hi⟩⟩ := h
  · rw [Covered, hspace]
    exact ⟨x, hx, hu husable⟩
  · exact ⟨_, hx, .inr ⟨i, rfl, hgone hi⟩⟩

theorem covered_of_mapped (ha : k.paging.activeSpace = some k.space) (h : k.paging.mapped addr = true)
    (t : Thread) :
    k.Covered t addr := by
  unfold Paging.mapped at h
  rw [ha] at h
  cases hx : userPage addr with
  | none => simp [hx] at h
  | some x =>
    rw [hx] at h
    exact ⟨x, hx, .inl h⟩

namespace Inv

section
variable (hk : k.Inv u₀ h₀)
include hk

theorem setThread {o : Option Thread}
    (h : ∀ {t job addr}, o = some t → t.job = some job → job.Needs addr → k.Covered t addr) :
    (k.setThread T o).Inv u₀ h₀ := by
  refine ⟨hk.paging, hk.space, hk.heap, fun {T' t job addr} ht hj hn => ?_⟩
  change Function.update k.threads T o T' = some t at ht
  show k.Covered t addr
  by_cases hT : T' = T
  · subst hT
    rw [Function.update_self] at ht
    exact h ht hj hn
  · rw [Function.update_of_ne hT] at ht
    exact hk.flight ht hj hn

theorem ret (T : Fin w) : (k.ret T).Inv u₀ h₀ :=
  hk.setThread fun {_ _ _} ht hj _ => by
    cases ht
    cases hj

theorem dropThread (T : Fin w) : (k.setThread T none).Inv u₀ h₀ :=
  hk.setThread fun {_ _ _} ht _ _ => by cases ht

theorem start (h : ∀ addr, job.Needs addr → k.Covered { job := some job } addr) : (k.start T job).Inv u₀ h₀ :=
  hk.setThread fun {t job' addr} ht hj hn => by
    cases ht
    cases hj
    exact h addr hn

theorem setPipe (p : PipeId) (pipe : Pipe) : (k.setPipe p pipe).Inv u₀ h₀ :=
  ⟨hk.paging, hk.space, hk.heap, hk.flight⟩

theorem enter : k.enter.Inv u₀ h₀ where
  paging :=
    ⟨hk.paging.layout, hk.paging.entries, hk.paging.low, fun h => by cases h; exact hk.space, hk.paging.running⟩
  space := hk.space
  heap := hk.heap
  flight := hk.flight

theorem onward {s : Paging m} (ho : Paging.Onward u₀ h₀ k.paging s) :
    ({ k with paging := s } : Calls m w).Inv u₀ h₀ where
  paging := ho.inv
  space := (ho.spaces k.space).trans hk.space
  heap := hk.heap
  flight ht hj hn := (hk.flight ht hj hn).mono rfl (fun hu => .inl (ho.usable hu)) fun h => h

theorem step_paging {op : PagingOp m} (hw : op.InWindow) (hl : ∀ x, ¬ op.Loses k.space x) :
    (k.onPaging fun s => (s.step op).2).Inv u₀ h₀ where
  paging := (hk.paging.step hw).1
  space := Paging.isSome_step hk.space fun h => hl (.inl 0) (h ▸ rfl)
  heap := hk.heap
  flight ht hj hn := (hk.flight ht hj hn).mono rfl (fun hu => .inl (hk.paging.usable_step hw (hl _) hu)) fun h => h

theorem perform_paging (op : PagingOp m) (hal : op.Allowed k.paging) (hw : op.InWindow)
    (hl : ∀ x, ¬ op.Loses k.space x) : (k.onPaging fun s => (s.perform op).2).Inv u₀ h₀ := by
  have h := hk.step_paging hw hl
  simp only [onPaging] at h ⊢
  rwa [Paging.perform_of_allowed hk.paging hal] at h

end

/-! ### Calls on buffers -/

section Buffers
variable (hk : k.Inv u₀ h₀) (ha : k.paging.activeSpace = some k.space) {buffer count : Nat}
  (hv : k.paging.userBufferValid buffer count = true)
include ha hv

theorem covered_of_valid (h₁ : buffer ≤ addr) (h₂ : addr < buffer + count) (t : Thread) : k.Covered t addr :=
  covered_of_mapped ha (Paging.mapped_of_userBufferValid hv h₁ h₂) t

include hk

theorem startPipeRead (T : Fin w) (p : PipeId) : (k.startPipeRead T p buffer count).Inv u₀ h₀ := by
  unfold Calls.startPipeRead
  split
  · exact hk
  · exact (hk.setPipe p _).start fun _ hn => covered_of_valid ha hv (by simpa using hn.1) hn.2 _

theorem startPipeWrite (T : Fin w) (p : PipeId) : (k.startPipeWrite T p buffer count).Inv u₀ h₀ := by
  unfold Calls.startPipeWrite
  split
  · exact hk
  · exact (hk.setPipe p _).start fun _ hn => covered_of_valid ha hv (by simpa using hn.1) hn.2 _

theorem startCopyOut (T : Fin w) {bytes : List UInt8} (hb : bytes.length ≤ count) :
    (k.start T (.copyOut buffer bytes)).Inv u₀ h₀ :=
  hk.start fun _ hn => covered_of_valid ha hv hn.1 (Nat.lt_of_lt_of_le hn.2 (Nat.add_le_add_left hb _)) _

theorem startCopyIn (T : Fin w) {n : Nat} (hn : n ≤ count) : (k.start T (.copyIn buffer n)).Inv u₀ h₀ :=
  hk.start fun _ h => covered_of_valid ha hv h.1 (Nat.lt_of_lt_of_le h.2 (Nat.add_le_add_left hn _)) _

theorem startKeyboardRead (T : Fin w) : (k.start T (.keyboardRead buffer count 0)).Inv u₀ h₀ :=
  hk.start fun _ hn => covered_of_valid ha hv (by simpa using hn.1) hn.2 _

end Buffers

theorem waited (hk : k.Inv u₀ h₀) {status : Nat} (h : ∀ addr, (Job.waitpid status).Needs addr → k.Covered t addr)
    (T : Fin w) (exited : Option Int) : (k.waited T t status exited).Inv u₀ h₀ := by
  unfold Calls.waited
  split
  · split
    · exact hk.ret T
    · rename_i hst
      refine hk.setThread fun {t' job addr} ht hj hn => ?_
      cases ht
      cases hj
      exact (h addr ⟨hst, hn⟩).mono rfl .inl fun h => h
  · exact hk.ret T

section
variable (hk : k.Inv u₀ h₀) (ha : k.paging.activeSpace = some k.space) (T : Fin w)
include hk

theorem of_valid {buffer count : Nat} (h : k.paging.userBufferValid buffer count = true → k'.Inv u₀ h₀) :
    (if !k.paging.userBufferValid buffer count then k else k').Inv u₀ h₀ := by
  split
  · exact hk
  · rename_i hv
    exact h (by simpa using hv)

include ha

theorem sysRead (buffer count : Nat) (contents : List UInt8) : (k.sysRead T buffer count contents).Inv u₀ h₀ := by
  unfold Calls.sysRead
  refine of_valid hk fun hv => ?_
  split
  · exact startPipeRead hk ha hv T _
  · exact startCopyOut hk ha hv T (List.length_take_le _ _)
  · split
    · exact hk
    · exact startKeyboardRead hk ha hv T

theorem sysWrite (buffer count room : Nat) : (k.sysWrite T buffer count room).Inv u₀ h₀ := by
  unfold Calls.sysWrite
  refine of_valid hk fun hv => ?_
  split
  · exact startPipeWrite hk ha hv T _
  · exact startCopyIn hk ha hv T (Nat.min_le_left _ _)
  · exact startCopyIn hk ha hv T (Nat.le_refl _)

theorem sysReadFile (fd : Int) (buffer count : Nat) (contents : List UInt8) :
    (k.sysReadFile T fd buffer count contents).Inv u₀ h₀ := by
  unfold Calls.sysReadFile
  split
  · exact hk
  · refine of_valid hk fun hv => ?_
    split
    · exact startPipeRead hk ha hv T _
    · exact startCopyOut hk ha hv T (List.length_take_le _ _)
    · exact hk

theorem sysWriteFile (fd : Int) (buffer count : Nat) (room : Option Nat) :
    (k.sysWriteFile T fd buffer count room).Inv u₀ h₀ := by
  unfold Calls.sysWriteFile
  split
  · exact hk
  · refine of_valid hk fun hv => ?_
    split
    · exact startPipeWrite hk ha hv T _
    · exact startCopyIn hk ha hv T (Nat.min_le_left _ _)
    · exact hk

theorem sysPipe (fds : Nat) (p : PipeId) (rfd wfd : Int) : (k.sysPipe T fds p rfd wfd).Inv u₀ h₀ := by
  unfold Calls.sysPipe
  refine of_valid hk fun hv => ?_
  exact startCopyOut (hk.setPipe p _) ha hv T (Nat.le_refl 8)

theorem sysWaitpid (status : Nat) (nohang : Bool) (exited : Option Int) :
    (k.sysWaitpid T status nohang exited).Inv u₀ h₀ := by
  unfold Calls.sysWaitpid
  split
  · exact hk
  · rename_i hv
    have hcov : ∀ (t : Thread) addr, (Job.waitpid status).Needs addr → k.Covered t addr := by
      rintro t addr ⟨hst, h₁, h₂⟩
      have hv : k.paging.userBufferValid status 4 = true := by
        by_contra h
        exact hv ⟨hst, by simpa using h⟩
      exact covered_of_valid ha hv h₁ h₂ t
    split
    · exact hk.waited (hcov _) T exited
    · refine hk.setThread fun {t job addr} ht hj hn => ?_
      cases ht
      cases hj
      exact hcov _ addr hn

end

/-! ### Calls on the address space -/

theorem sbrk_heapStart (increment : Int) : (p.sbrk increment).heapStart = p.heapStart := by
  unfold MemoryMap.sbrk
  split
  · rfl
  · split <;> split <;> rfl

theorem extAlloc_heapStart (npages : Nat) : (p.extAlloc npages).2.heapStart = p.heapStart := by
  unfold MemoryMap.extAlloc
  split
  · rfl
  · split <;> rfl

theorem setMemory (hk : k.Inv u₀ h₀) {p : MemoryMap} (hp : p.heapStart = k.memory.heapStart) :
    ({ k with memory := p } : Calls m w).Inv u₀ h₀ :=
  ⟨hk.paging, hk.space, hp ▸ hk.heap, hk.flight⟩

theorem extSet_heapStart (first count : Nat) (value : Bool) :
    (p.extSet first count value).heapStart = p.heapStart := rfl

theorem extFree_eq_some {p p' : MemoryMap} {vaddr npages : Nat} (h : p.extFree vaddr npages = some p') :
    p'.heapStart = p.heapStart ∧ vaddr % 4096 = 0 ∧ userExtBase ≤ vaddr ∧ vaddr < userExtTop ∧
      npages ≤ userExtPages - (vaddr - userExtBase) / 4096 := by
  simp only [MemoryMap.extFree, Option.ite_none_left_eq_some, Option.ite_none_right_eq_some, Option.some.injEq] at h
  obtain ⟨hc, hlen, -, h⟩ := h
  refine ⟨?_, by omega, by omega, by omega, by omega⟩
  rw [← h]
  exact extSet_heapStart _ _ _ _

theorem unmapPages {n : Fin m} (addr : Nat) : ∀ (l : List Nat) {s : Paging m}, s.Inv u₀ h₀ → (s.spaces n).isSome →
    (l.foldl (fun s i => s.unmapUserPage n (addr + i * 4096)) s).Inv u₀ h₀ ∧
      ((l.foldl (fun s i => s.unmapUserPage n (addr + i * 4096)) s).spaces n).isSome ∧
      ∀ x, (s.pte n x).usable = true →
        ((l.foldl (fun s i => s.unmapUserPage n (addr + i * 4096)) s).pte n x).usable = true ∨
          ∃ i ∈ l, userPage (addr + i * 4096) = some x
  | [], _, hs, hn => ⟨hs, hn, fun _ h => .inl h⟩
  | i :: l, s, hs, hn => by
    have hstep : s.unmapUserPage n (addr + i * 4096) = (s.step (.unmap n (addr + i * 4096))).2 := by
      rw [Paging.perform_of_allowed hs (show (PagingOp.unmap n (addr + i * 4096)).Allowed s from hn)]
      rfl
    have hunmap : (s.unmapUserPage n (addr + i * 4096)).Inv u₀ h₀ := (hs.unmap hn).1
    obtain ⟨hi, hsome, hu⟩ := unmapPages addr l hunmap
      ((Paging.isSome_unmapUserPage s n _ n).trans hn)
    refine ⟨hi, hsome, fun x hx => ?_⟩
    by_cases hloses : userPage (addr + i * 4096) = some x
    · exact .inr ⟨i, by simp, hloses⟩
    · have hkeep : ((s.unmapUserPage n (addr + i * 4096)).pte n x).usable = true := by
        rw [hstep]
        exact hs.usable_step trivial (fun h => hloses h.2) hx
      obtain h | ⟨j, hj, hx⟩ := hu x hkeep
      · exact .inl h
      · exact .inr ⟨j, by simp [hj], hx⟩

theorem mem_extRange {npages : Nat} {i : Fin 1024} :
    i ∈ extRange addr npages ↔ (addr - userExtBase) / 4096 ≤ i ∧ i < (addr - userExtBase) / 4096 + npages := by
  simp [extRange]

theorem userPage_ext (h₁ : userExtBase ≤ addr) (h₂ : addr < userExtTop) :
    ∃ i : Fin 1024, userPage addr = some (.inr i) ∧ i.val = (addr - userExtBase) / 4096 := by
  have hlow : ¬ addr < 0x400000 := by
    unfold userExtBase at h₁
    omega
  unfold userPage
  rw [dif_neg hlow, dif_pos ⟨h₁, h₂⟩]
  exact ⟨_, rfl, rfl⟩

section
variable (hk : k.Inv u₀ h₀)
include hk

theorem sysMunmap (addr npages : Nat) : (k.sysMunmap addr npages).Inv u₀ h₀ := by
  unfold Calls.sysMunmap
  cases hf : k.memory.extFree addr npages with
  | none => exact hk
  | some memory =>
    obtain ⟨hheap, halign, hlo, hhi, hlen⟩ := extFree_eq_some hf
    obtain ⟨hi, hsome, hu⟩ := unmapPages addr (List.range npages) hk.paging hk.space
    refine ⟨hi, hsome, hheap ▸ hk.heap, fun {T t job addr'} ht hj hn => ?_⟩
    obtain ⟨t₀, ht₀, rfl⟩ := Option.map_eq_some_iff.mp ht
    refine (hk.flight ht₀ hj hn).mono rfl (fun {x} hx => ?_) fun h => List.mem_append_right _ h
    obtain h | ⟨i, hi, hx⟩ := hu x hx
    · exact .inl h
    · -- The page is one of the region that `sys_munmap` is about.
      rw [List.mem_range] at hi
      unfold userExtBase userExtTop userExtPages at *
      obtain ⟨j, hj, hval⟩ : ∃ j : Fin 1024, userPage (addr + i * 4096) = some (.inr j) ∧
          j.val = (addr + i * 4096 - userExtBase) / 4096 :=
        userPage_ext (by unfold userExtBase; omega) (by unfold userExtTop; omega)
      rw [hx, Option.some.injEq] at hj
      refine .inr ⟨j, hj, List.mem_append_left _ (mem_extRange.mpr ?_)⟩
      unfold userExtBase at *
      omega

theorem pageFault (ha : k.paging.activeSpace = some k.space) {write : Bool}
    (hr : k.paging.userReaches write addr = false) :
    ({ k with paging := (k.paging.pageFault k.memory write addr).2 } : Calls m w).Inv u₀ h₀ := by
  cases hx : userPage addr with
  | none =>
    have hcow : k.paging.tryCow addr = (false, k.paging) := by simp [Paging.tryCow, ha, hx]
    have hmap : k.paging.demandMap addr = (false, k.paging) := by simp [Paging.demandMap, ha, hx]
    rw [Paging.pageFault_eq (by rw [hcow, ite_self]) (.inl hmap), hmap, ite_self]
    exact hk
  | some x =>
    cases hu : (k.paging.pte k.space x).usable with
    | true =>
      obtain ⟨hrw, rfl⟩ : (k.paging.pte k.space x).rw = false ∧ write = true := by
        simpa [Paging.userReaches, ha, hx, hu] using hr
      rw [Paging.pageFault_copy hk.paging ha hx hu hrw]
      obtain ⟨-, hc⟩ | ⟨-, s', hc, ho⟩ := Paging.copyPage_cases hk.paging hu hrw
      · rw [hc]
        exact hk
      · rw [hc]
        exact hk.onward ho
    | false =>
      obtain ⟨-, s', hf, ho⟩ | ⟨-, hf⟩ := Paging.pageFault_fill hk.paging ha hx hk.heap hu write
      · rw [hf]
        exact hk.onward ho
      · rw [hf]
        exact hk

theorem touch (ha : k.paging.activeSpace = some k.space) (T : Fin w) (write : Bool) (addr : Nat) :
    (k.touch T write addr).Inv u₀ h₀ := by
  unfold Calls.touch
  split
  · exact hk
  · rename_i hr
    have hunreached : k.paging.userReaches write addr = false := by simpa using hr
    have hf := hk.pageFault ha hunreached
    split
    · rename_i s hs
      rw [hs] at hf
      exact hf
    · rename_i s hs
      rw [hs] at hf
      exact hf.dropThread T

theorem sysExec (ht : k.threads T = some t) (hj : t.job = none) (image : Fin m) (heapBase : Nat) :
    (k.sysExec T image heapBase).Inv u₀ h₀ := by
  unfold Calls.sysExec
  split
  · rename_i hc
    obtain ⟨honly, hne, hsome, hheap⟩ := hc
    have hact : (k.paging.activateAddressSpace (some image)).Inv u₀ h₀ :=
      ⟨hk.paging.layout, hk.paging.entries, hk.paging.low, fun h => by cases h; exact hsome, hk.paging.running⟩
    refine ⟨(hact.destroyUserAddressSpace (n := k.space)).1, ?_, hheap, fun {T' t' job addr} ht' hj' hn => ?_⟩
    · exact Paging.isSome_destroyUserAddressSpace _ hne hsome
    · -- Nobody is inside a call.
      by_cases hT : T' = T
      · subst hT
        change k.threads T' = some t' at ht'
        rw [ht, Option.some.injEq] at ht'
        rw [ht', hj'] at hj
        cases hj
      · change k.threads T' = some t' at ht'
        rw [honly T' hT] at ht'
        cases ht'
  · exact hk

theorem perform (ha : k.paging.activeSpace = some k.space) (ht : k.threads T = some t) (hj : t.job = none)
    (c : UserCall m w) : (k.perform T c).Inv u₀ h₀ := by
  cases c with
  | read buffer count contents => exact hk.sysRead ha T buffer count contents
  | write buffer count room => exact hk.sysWrite ha T buffer count room
  | readFile fd buffer count contents => exact hk.sysReadFile ha T fd buffer count contents
  | writeFile fd buffer count room => exact hk.sysWriteFile ha T fd buffer count room
  | waitpid status nohang exited => exact hk.sysWaitpid ha T status nohang exited
  | pipe fds p rfd wfd => exact hk.sysPipe ha T fds p rfd wfd
  | mmap npages => exact hk.setMemory (extAlloc_heapStart _ _)
  | munmap addr npages => exact hk.sysMunmap addr npages
  | sbrk increment => exact hk.setMemory (sbrk_heapStart _ _)
  | shm =>
    exact hk.perform_paging (.share userShmBase) trivial (by simp [PagingOp.InWindow, userShmBase, userLoadBase])
      fun _ h => h
  | fork child =>
    dsimp only [Calls.perform]
    split
    · rename_i hc
      exact hk.perform_paging (.clone (some k.space) child) ⟨hc, fun n h => by cases h; exact hk.space⟩ trivial
        fun _ h => h
    · exact hk
  | exec image heapBase => exact hk.sysExec ht hj image heapBase
  | threadCreate T' =>
    dsimp only [Calls.perform]
    split
    · exact hk.ret T'
    · exact hk
  | exit => exact hk.dropThread T
  | descriptors streams openFiles => exact ⟨hk.paging, hk.space, hk.heap, hk.flight⟩
  | touch write addr => exact hk.touch ha T write addr

end

/-! ### Going on with a call -/

theorem consume (hk : k.Inv u₀ h₀) (job : Job) : (k.consume job).Inv u₀ h₀ := by
  cases job <;> exact ⟨hk.paging, hk.space, hk.heap, hk.flight⟩

theorem produce (hk : k.Inv u₀ h₀) (v : UInt8) (job : Job) : (k.produce v job).Inv u₀ h₀ := by
  cases job <;> exact ⟨hk.paging, hk.space, hk.heap, hk.flight⟩

theorem close (hk : k.Inv u₀ h₀) (job : Job) : (k.close job).Inv u₀ h₀ := by
  cases job <;> exact ⟨hk.paging, hk.space, hk.heap, hk.flight⟩

end Inv

variable {job' : Job}

theorem next_access (h : k.next job = .store addr v job' ∨ k.next job = .load addr job') :
    job.Needs addr ∧ ∀ a, job'.Needs a → job.Needs a := by
  cases job with
  | pipeRead p buffer len got | pipeWrite p buffer len got =>
    simp only [next] at h
    split at h
    · rcases h with h | h <;> cases h
    · split at h <;> rcases h with h | h <;> cases h
      exact ⟨⟨by omega, by omega⟩, fun a ha => ⟨by have := ha.1; omega, ha.2⟩⟩
  | keyboardRead buffer count got =>
    simp only [next] at h
    split at h <;> split at h <;> rcases h with h | h <;> cases h
    exact ⟨⟨by omega, by omega⟩, fun a ha => ⟨by have := ha.1; omega, ha.2⟩⟩
  | copyOut buffer bytes =>
    cases bytes <;> rcases h with h | h <;> cases h
    exact ⟨⟨by omega, by simp⟩, fun a ha => ⟨by have := ha.1; omega, by have := ha.2; simp; omega⟩⟩
  | copyIn buffer count =>
    cases count <;> rcases h with h | h <;> cases h
    exact ⟨⟨by omega, by omega⟩, fun a ha => ⟨by have := ha.1; omega, by have := ha.2; omega⟩⟩
  | waitpid status => rcases h with h | h <;> cases h

theorem kernelStore_halted (s : Paging m) (p : MemoryMap) (addr : Nat) (v : UInt8) :
    (s.kernelStore p addr v).halted = (s.kernelAccess p true addr).halted := by
  simp only [Paging.kernelStore]
  split
  · rfl
  · cases (s.kernelAccess p true addr).translate addr <;> rfl

theorem kernelStore_onward {s : Paging m} {p : MemoryMap}
    (ho : Paging.Onward u₀ h₀ s (s.kernelAccess p true addr)) : Paging.Onward u₀ h₀ s (s.kernelStore p addr v) := by
  simp only [Paging.kernelStore]
  rw [if_neg (by simp [ho.inv.running])]
  cases (s.kernelAccess p true addr).translate addr with
  | none => exact ho
  | some f =>
    exact ⟨⟨ho.inv.layout, ho.inv.entries, ho.inv.low, ho.inv.active, ho.inv.running⟩, ho.spaces,
      ho.active, ho.usable⟩

theorem Inv.sleep (hk : k.Inv u₀ h₀) (ht : k.threads T = some t) (asleep : Bool) :
    (k.setThread T (some { t with asleep })).Inv u₀ h₀ := by
  refine hk.setThread fun {t' job₁ addr} ht' hj' hn => ?_
  cases ht'
  exact (hk.flight ht hj' hn).mono rfl .inl fun h => h

theorem Inv.continue (hk : k.Inv u₀ h₀) (ht : k.threads T = some t) (hj : t.job = some job)
    (hsub : ∀ a, job'.Needs a → job.Needs a) : (k.setThread T (some { t with job := some job' })).Inv u₀ h₀ := by
  refine hk.setThread fun {t' job₁ addr} ht' hj' hn => ?_
  cases ht'
  cases hj'
  exact (hk.flight ht hj (hsub addr hn)).mono rfl .inl fun h => h

theorem consume_keeps (k : Calls m w) (job : Job) :
    (k.consume job).paging = k.paging ∧ (k.consume job).threads = k.threads := by
  cases job <;> exact ⟨rfl, rfl⟩

theorem produce_keeps (k : Calls m w) (v : UInt8) (job : Job) :
    (k.produce v job).paging = k.paging ∧ (k.produce v job).threads = k.threads := by
  cases job <;> exact ⟨rfl, rfl⟩

theorem unlessHalted_spec {f : Calls m w → Calls m w} (hp : (f k).paging = k.paging)
    (hinv : k.paging.halted = false → (f k).Inv u₀ h₀) :
    (k.unlessHalted f).paging.halted = k.paging.halted ∧
      ((k.unlessHalted f).paging.halted = false → (k.unlessHalted f).Inv u₀ h₀) := by
  unfold unlessHalted
  split
  · rename_i hh
    exact ⟨rfl, fun h => absurd (hh.symm.trans h) (by simp)⟩
  · rename_i hh
    exact ⟨by rw [hp], fun _ => hinv (by simpa using hh)⟩

theorem advance_access (hk : k.Inv u₀ h₀) (ha : k.paging.activeSpace = some k.space) (ht : k.threads T = some t)
    (hj : t.job = some job) {write : Bool}
    (hnext : (write = true ∧ ∃ v, k.next job = .store addr v job') ∨ write = false ∧ k.next job = .load addr job') :
    ((k.advance T t job).paging.halted = (k.paging.kernelAccess k.memory write addr).halted ∧
      ((k.advance T t job).paging.halted = false → (k.advance T t job).Inv u₀ h₀)) ∧ job.Needs addr := by
  obtain ⟨rfl, v, hnext⟩ | ⟨rfl, hnext⟩ := hnext
  · obtain ⟨hneeds, hsub⟩ := next_access (.inl hnext)
    obtain ⟨x, hx, -⟩ := hk.flight ht hj hneeds
    have hspec := (Paging.kernelAccess_spec hk.paging ha hx hk.heap true).1
    rw [← kernelStore_halted k.paging k.memory addr v] at hspec ⊢
    refine ⟨?_, hneeds⟩
    simp only [advance, hnext]
    refine unlessHalted_spec (consume_keeps _ job).1 fun hh => ?_
    have hinv := (hk.onward (kernelStore_onward (v := v) (hspec hh))).consume job
    exact hinv.continue (by rw [(consume_keeps _ job).2]; exact ht) hj hsub
  · obtain ⟨hneeds, hsub⟩ := @next_access _ _ _ _ _ 0 _ (.inr hnext)
    obtain ⟨x, hx, -⟩ := hk.flight ht hj hneeds
    have hspec := (Paging.kernelAccess_spec hk.paging ha hx hk.heap false).1
    refine ⟨?_, hneeds⟩
    simp only [advance, hnext]
    refine unlessHalted_spec (produce_keeps _ _ job).1 fun hh => ?_
    have hinv := (hk.onward (hspec hh)).produce (k.paging.kernelLoad k.memory addr).1 job
    exact hinv.continue (by rw [(produce_keeps _ _ job).2]; exact ht) hj hsub

/-! ## One event -/

variable {e : CallEvent m w} {write : Bool}

theorem access_eq_some (h : k.access e = some (t, write, addr)) :
    ∃ T job job', e = .go T ∧ k.threads T = some t ∧ t.job = some job ∧ t.asleep = false ∧
      ((write = true ∧ ∃ v, k.next job = .store addr v job') ∨ write = false ∧ k.next job = .load addr job') := by
  cases e with
  | go T =>
    simp only [access] at h
    cases ht : k.threads T with
    | none => simp [ht] at h
    | some t' =>
      rw [ht] at h
      dsimp only at h
      cases hj : t'.job with
      | none => simp [hj] at h
      | some job =>
        rw [hj] at h
        dsimp only at h
        split at h
        · cases h
        · rename_i has
          have has : t'.asleep = false := by simpa using has
          split at h
          · rename_i addr' v job' hn
            cases h
            exact ⟨T, job, job', rfl, ht, hj, has, .inl ⟨rfl, v, hn⟩⟩
          · rename_i addr' job' hn
            cases h
            exact ⟨T, job, job', rfl, ht, hj, has, .inr ⟨rfl, hn⟩⟩
          · cases h
  | _ => cases h

section
variable (hk : k.Inv u₀ h₀)
include hk

theorem step_access (h : k.access e = some (t, write, addr)) :
    (k.step e).paging.halted = (k.enter.paging.kernelAccess k.memory write addr).halted ∧
      ((k.step e).paging.halted = false → (k.step e).Inv u₀ h₀) ∧ k.Covered t addr := by
  obtain ⟨T, job, job', rfl, ht, hj, has, hnext⟩ := access_eq_some h
  have hstep : k.step (.go T) = k.enter.advance T t job := by
    simp [step, hk.paging.running, ht, hj, has]
  obtain ⟨⟨hhalt, hinv⟩, hneeds⟩ := advance_access hk.enter rfl ht hj hnext
  rw [hstep]
  exact ⟨hhalt, hinv, hk.flight ht hj hneeds⟩

theorem step_quiet (h : k.access e = none) : (k.step e).Inv u₀ h₀ := by
  unfold step
  rw [if_neg (by simp [hk.paging.running])]
  cases e with
  | call T c =>
    dsimp only
    split
    · rename_i t ht
      split
      · rename_i hc
        rw [Bool.and_eq_true, Option.isNone_iff_eq_none] at hc
        exact hk.enter.perform rfl ht hc.1 c
      · exact hk
    · exact hk
  | go T =>
    dsimp only
    split
    · rename_i t ht
      split
      · rename_i job hj
        split
        · rename_i has
          have has : t.asleep = false := by simpa using has
          simp only [access, ht, hj, has] at h
          have hn : k.enter.next job = k.next job := rfl
          unfold advance
          rw [hn]
          split
          · exact hk.enter.sleep ht true
          · exact (hk.enter.close job).ret T
          · rename_i hst
            simp [hst] at h
          · rename_i hld
            simp [hld] at h
        · split
          · exact hk.sleep ht false
          · exact hk
      · exact hk
    · exact hk
  | waited T status =>
    dsimp only
    split
    · rename_i t ht
      split
      · rename_i addr hj
        split
        · exact hk.waited (fun addr hn => hk.flight ht hj hn) T status
        · exact hk
      · exact hk
    · exact hk
  | killed T =>
    dsimp only
    split
    · rename_i t ht
      split
      · cases t.job with
        | none => exact hk.dropThread T
        | some job => exact (hk.close job).dropThread T
      · exact hk
    · exact hk
  | key c =>
    dsimp only
    split
    · exact ⟨hk.paging, hk.space, hk.heap, hk.flight⟩
    · exact hk
  | pipe p contents =>
    dsimp only
    split
    · exact hk.setPipe p contents
    · exact hk
  | other op =>
    dsimp only
    split
    · rename_i hc
      exact hk.step_paging hc.2.2 fun x => hc.2.1.not_loses x
    · exact hk

theorem Sound.inv (h : k.Sound e) : (k.step e).Inv u₀ h₀ := by
  cases ha : k.access e with
  | none => exact step_quiet hk ha
  | some r =>
    obtain ⟨t, write, addr⟩ := r
    exact (step_access hk ha).2.1 h.1

end

/-! ## Runs -/

structure Start (k : Calls m w) : Prop where
  loaded : ∃ (s : Paging m) (ops : List (PagingOp m)), s.Start ∧ (∀ op ∈ ops, op.InWindow) ∧ k.paging = s.run ops
  space : (k.paging.spaces k.space).isSome
  heap : userLoadBase ≤ k.memory.heapStart
  idle : ∀ {T t}, k.threads T = some t → t.job = none

theorem Start.inv (h : k.Start) : ∃ u₀ h₀, k.Inv u₀ h₀ := by
  obtain ⟨s, ops, hs, hops, he⟩ := h.loaded
  refine ⟨_, _, he ▸ (hs.inv.run hops).1, h.space, h.heap, fun ht hj => ?_⟩
  rw [h.idle ht] at hj
  cases hj

theorem Inv.run {l : List (CallEvent m w)} (hk : k.Inv u₀ h₀)
    (h : ∀ l₁ e l₂, l = l₁ ++ e :: l₂ → (k.run l₁).Inv u₀ h₀ → (k.run l₁).Sound e) : (k.run l).Inv u₀ h₀ := by
  induction l using List.reverseRecOn with
  | nil => exact hk
  | append_singleton l e ih =>
    have hl := ih fun l₁ e' l₂ he => h l₁ e' (l₂ ++ [e]) (by simp [he])
    have hstep := (h l e [] rfl hl).inv hl
    simpa [Calls.run] using hstep

end Calls

end SystemsLab.MiniOs
