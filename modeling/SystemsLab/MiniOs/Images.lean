import SystemsLab.Lib.Bytes
import SystemsLab.MiniOs.UserMemory

/-!
# Program images and the user heap

`elf_load_image` and `sys_sbrk`. Every program header is read twice from a file that may be rewritten in between:
`file` gives what each read finds.
-/

namespace SystemsLab.MiniOs

variable {base : Nat} {file : Nat → List UInt8} {room : Nat → Bool}

structure Elf32Ehdr where
  ident : List UInt8
  type : Nat
  machine : Nat
  entry : Nat
  phoff : Nat
  phentsize : Nat
  phnum : Nat

structure Elf32Phdr where
  type : Nat
  offset : Nat
  vaddr : Nat
  filesz : Nat
  memsz : Nat

def readExact (file : List UInt8) (offset size : Nat) : Option (List UInt8) :=
  if size = 0 then some []
  else if file.length < offset ∨ file.length - offset < size then none
  else some (slice file offset (offset + size))

namespace Elf32Ehdr

def ofBytes (b : List UInt8) : Elf32Ehdr :=
  ⟨b.take 16, readLe 2 b 16, readLe 2 b 18, readLe 4 b 24, readLe 4 b 28, readLe 2 b 42, readLe 2 b 44⟩

def elfValid (h : Elf32Ehdr) : Bool :=
  h.ident.take 5 = [0x7f, 0x45, 0x4c, 0x46, 1] && h.machine = 3 && h.type = 2

end Elf32Ehdr

namespace Elf32Phdr

def ofBytes (b : List UInt8) : Elf32Phdr := ⟨readLe 4 b 0, readLe 4 b 4, readLe 4 b 8, readLe 4 b 16, readLe 4 b 20⟩

variable (p : Elf32Phdr)

def phdrInUserRange (fileLength : Nat) : Bool :=
  userLoadBase ≤ p.vaddr && p.vaddr < userStackBottom && p.memsz ≤ userStackBottom - p.vaddr &&
    p.filesz ≤ p.memsz && p.offset ≤ fileLength && p.filesz ≤ fileLength - p.offset

def phdrMapsEntry (entry : Nat) : Bool := p.vaddr ≤ entry && entry - p.vaddr < p.memsz

end Elf32Phdr

def readProgramHeader (file : List UInt8) (h : Elf32Ehdr) (index : Nat) : Option Elf32Phdr :=
  (readExact file ((h.phoff + index * 32) % 2 ^ 32) 32).map .ofBytes

/-- The end of the highest segment so far, and whether the entry point was met. -/
def segments (file : Nat → List UInt8) (room : Nat → Bool) (h : Elf32Ehdr) :
    List Nat → Nat × Bool → Option (Nat × Bool)
  | [], s => some s
  | i :: is, s =>
    match readProgramHeader (file i) h i with
    | none => none
    | some p =>
      if p.type ≠ 1 then segments file room h is s
      else if !p.phdrInUserRange (file i).length || !room i then none
      else segments file room h is (max s.1 (p.vaddr + p.memsz), s.2 || p.phdrMapsEntry h.entry)

def validateSegments (file : Nat → List UInt8) (h : Elf32Ehdr) : Bool :=
  (segments file (fun _ => true) h (List.range h.phnum) (userLoadBase, false)).any (·.2)

def loadSegments (file : Nat → List UInt8) (room : Nat → Bool) (h : Elf32Ehdr) : Option Nat :=
  match segments file room h (List.range h.phnum) (userLoadBase, false) with
  | some (top, true) => some ((top + 0xFFF) / 4096 * 4096)
  | _ => none

/-- The entry point and `heap_base`. -/
def elfLoadImage (file : Nat → List UInt8) (room : Nat → Bool) (stack : Bool) : Option (Nat × Nat) := do
  let h := Elf32Ehdr.ofBytes (← readExact (file 0) 0 52)
  guard h.elfValid
  guard (h.phentsize = 32 ∧ h.phoff ≤ (file 0).length ∧ h.phnum ≤ ((file 0).length - h.phoff) / 32)
  guard (validateSegments (fun i => file (1 + i)) h)
  let base ← loadSegments (fun i => file (1 + h.phnum + i)) room h
  guard stack
  return (h.entry, base)

/-! ## The heap -/

namespace MemoryMap

def sbrkRefuses (p : MemoryMap) (increment : Int) : Bool :=
  if increment < 0 then (p.heapBreak + (2 ^ 32 - p.heapStart)) % 2 ^ 32 < increment.natAbs
  else (userHeapMax + (2 ^ 32 - p.heapBreak)) % 2 ^ 32 < increment.natAbs

/-- What `sys_sbrk` returns, as an unsigned number. -/
def sbrkResult (p : MemoryMap) (increment : Int) : Nat := if p.sbrkRefuses increment then uint32Max else p.heapBreak

end MemoryMap

inductive HeapEvent
  | sbrk (process : Nat) (increment : Int)
  | fork (process : Nat)

def HeapEvent.step (ps : List MemoryMap) : HeapEvent → List MemoryMap
  | sbrk i increment => ps.mapIdx fun j p => if j = i then p.sbrk increment else p
  | fork i => ps ++ ps[i]?.toList

/-! ## Where the segments end -/

/-- The `PT_LOAD` headers among those with the given indices. -/
def loadable (file : Nat → List UInt8) (h : Elf32Ehdr) (is : List Nat) : List Elf32Phdr :=
  is.filterMap fun i => (readProgramHeader (file i) h i).filter (·.type = 1)

/-- The segments of an image, as the pass that loads them finds them. -/
def imageSegments (file : Nat → List UInt8) : List Elf32Phdr :=
  match readExact (file 0) 0 52 with
  | none => []
  | some bytes =>
    let h := Elf32Ehdr.ofBytes bytes
    loadable (fun i => file (1 + h.phnum + i)) h (List.range h.phnum)

theorem segments_top {h : Elf32Ehdr} {is : List Nat} {s t : Nat × Bool} (ht : segments file room h is s = some t) :
    (∀ p ∈ loadable file h is, p.vaddr + p.memsz ≤ userStackBottom) ∧
      ∀ bound, t.1 ≤ bound ↔ s.1 ≤ bound ∧ ∀ p ∈ loadable file h is, p.vaddr + p.memsz ≤ bound := by
  induction is generalizing s with
  | nil =>
    cases ht
    exact ⟨nofun, fun bound => (and_iff_left nofun).symm⟩
  | cons i is ih =>
    rw [segments] at ht
    split at ht
    · cases ht
    · rename_i p hp
      split at ht
      · rename_i htype
        have hskip : loadable file h (i :: is) = loadable file h is :=
          List.filterMap_cons_none (by simp [hp, htype])
        rw [hskip]
        exact ih ht
      · rename_i htype
        have htake : loadable file h (i :: is) = p :: loadable file h is :=
          List.filterMap_cons_some (by simp [hp, not_not.mp htype])
        split at ht
        · cases ht
        · rename_i hrange
          simp only [Elf32Phdr.phdrInUserRange, Bool.or_eq_true, not_or, Bool.not_eq_true', Bool.not_eq_false,
            Bool.and_eq_true, decide_eq_true_eq] at hrange
          obtain ⟨hends, htop⟩ := ih ht
          rw [htake]
          refine ⟨List.forall_mem_cons.mpr ⟨by omega, hends⟩, fun bound => ?_⟩
          rw [htop, max_le_iff, List.forall_mem_cons, and_assoc]

theorem elfLoadImage_base {stack : Bool} {entry : Nat} (h : elfLoadImage file room stack = some (entry, base)) :
    (base ≤ userHeapMax ↔ ∀ p ∈ imageSegments file, p.vaddr + p.memsz ≤ userHeapMax) ∧
      base ≤ userStackBottom ∧ base % 4096 = 0 := by
  simp only [elfLoadImage, Option.bind_eq_bind, Option.bind_eq_some_iff, Option.pure_def, Option.some.injEq,
    Prod.mk.injEq] at h
  obtain ⟨bytes, hread, _, -, _, -, _, -, base, hl, _, -, -, rfl⟩ := h
  rw [imageSegments, hread]
  unfold loadSegments at hl
  split at hl
  · rename_i top hsegments
    cases hl
    obtain ⟨hends, htop⟩ := segments_top hsegments
    have hstack := (htop userStackBottom).mpr ⟨by decide, hends⟩
    have hguard := htop userHeapMax
    rw [and_iff_right (by decide)] at hguard
    have hb : userStackBottom = 1000 * 4096 := rfl
    have hm : userHeapMax = 999 * 4096 := rfl
    refine ⟨Iff.trans ?_ hguard, by omega, by omega⟩
    rw [hm]
    omega
  · cases hl

namespace MemoryMap
variable {p : MemoryMap} {increment : Int}

theorem sbrk_of_refused (h : p.sbrkRefuses increment) : p.sbrk increment = p := by
  unfold sbrkRefuses at h
  unfold sbrk
  split
  · rfl
  · split <;> simp_all

structure HeapIn (base : Nat) (p : MemoryMap) : Prop where
  start : p.heapStart = base
  le : base ≤ p.heapBreak
  max : p.heapBreak ≤ userHeapMax

theorem HeapIn.sbrk (h : p.HeapIn base) (hr : ¬ p.sbrkRefuses increment) :
    (p.sbrk increment).HeapIn base ∧ ((p.sbrk increment).heapBreak : Int) = p.heapBreak + increment := by
  obtain ⟨rfl, hle, hmax⟩ := h
  have hm : userHeapMax = 4091904 := rfl
  unfold sbrkRefuses at hr
  unfold MemoryMap.sbrk
  split
  · exact ⟨⟨rfl, hle, hmax⟩, by omega⟩
  · split at hr
    all_goals
      rename_i h0
      simp only [decide_eq_true_eq] at hr
      simp only [h0, if_true, if_false]
      rw [if_neg hr]
      exact ⟨⟨rfl, by simp only; omega, by simp only; omega⟩, by simp only; omega⟩

end MemoryMap

theorem HeapEvent.step_heapIn {ps : List MemoryMap} (h : ∀ p ∈ ps, p.HeapIn base) (e : HeapEvent) :
    ∀ p ∈ e.step ps, p.HeapIn base := by
  intro p hp
  cases e with
  | sbrk i increment =>
    obtain ⟨j, hj, rfl⟩ := List.mem_mapIdx.mp hp
    have hm := h _ (List.getElem_mem hj)
    split
    · by_cases hr : ps[j].sbrkRefuses increment
      · rwa [MemoryMap.sbrk_of_refused hr]
      · exact (hm.sbrk hr).1
    · exact hm
  | fork i =>
    obtain hp | hp := List.mem_append.mp hp
    · exact h p hp
    · exact h p (List.mem_of_getElem? (Option.mem_toList.mp hp))

/-- The processes that descend from one that was started with the heap at `base`. -/
def heaps (base : Nat) (extMap : Fin 1024 → Bool) (es : List HeapEvent) : List MemoryMap :=
  es.foldl HeapEvent.step [⟨base, base, extMap⟩]

/-- The heap of an image stays below the guard page exactly if no segment of the image reaches into that page. -/
theorem heap_below_guard_iff {file : Nat → List UInt8} {room : Nat → Bool} {stack : Bool} {entry base : Nat}
    (h : elfLoadImage file room stack = some (entry, base)) (extMap : Fin 1024 → Bool) :
    ((∀ es, ∀ p ∈ heaps base extMap es, p.heapStart ≤ p.heapBreak ∧ p.heapBreak ≤ userHeapMax) ↔
      ∀ s ∈ imageSegments file, s.vaddr + s.memsz ≤ userHeapMax) ∧
    base % 4096 = 0 ∧ base ≤ userHeapMax + 4096 ∧
    (∀ (p : MemoryMap) increment, p.sbrkRefuses increment → p.sbrk increment = p) ∧
    ((∀ s ∈ imageSegments file, s.vaddr + s.memsz ≤ userHeapMax) → ∀ es, ∀ p ∈ heaps base extMap es,
      (∀ increment, ¬ p.sbrkRefuses increment → p.sbrkResult increment = p.heapBreak ∧
        ((p.sbrk increment).heapBreak : Int) = p.heapBreak + increment) ∧
      ∀ addr, p.demandPaged addr → userStackBottom ≤ addr ∧ addr < userStackTop ∨
        p.heapStart ≤ addr ∧ addr < userHeapMax ∨ p.extReserved addr) := by
  obtain ⟨hsegments, hle, hpage⟩ := elfLoadImage_base h
  rw [← hsegments]
  have hin (hb : base ≤ userHeapMax) es : ∀ p ∈ heaps base extMap es, p.HeapIn base :=
    es.foldlRecOn (motive := fun ps : List MemoryMap => ∀ p ∈ ps, p.HeapIn base) _
      (by simpa using ⟨rfl, le_rfl, hb⟩)
      fun _ h e _ => e.step_heapIn h
  refine ⟨⟨fun h => (h [] _ (List.mem_singleton_self _)).2, fun hb es p hp => ?_⟩, hpage, hle,
    fun _ _ => MemoryMap.sbrk_of_refused, fun hb es p hp =>
      ⟨fun i hr => ⟨if_neg hr, ((hin hb es p hp).sbrk hr).2⟩, ?_⟩⟩
  · obtain ⟨hs, hle, hmax⟩ := hin hb es p hp
    exact ⟨hs ▸ hle, hmax⟩
  · intro addr ha
    have hmax := (hin hb es p hp).max
    simp only [MemoryMap.demandPaged, Bool.or_eq_true, decide_eq_true_eq] at ha
    obtain (ha | ha) | ha := ha
    · exact .inl ha
    · exact .inr (.inl ⟨ha.1, ha.2.trans_le hmax⟩)
    · exact .inr (.inr ha)

/-- An image with one segment, a page at `vaddr`, which has the entry point. -/
def pageImage (vaddr : Nat) : List UInt8 :=
  [0x7f, 0x45, 0x4c, 0x46, 1, 0, 0, 0, 0, 0, 0, 0, 0, 0, 0, 0, 2, 0, 3, 0, 0, 0, 0, 0] ++ leBytes 4 vaddr ++
    leBytes 4 52 ++
  leBytes 10 0 ++ leBytes 2 32 ++ leBytes 2 1 ++ leBytes 6 0 ++
  (leBytes 4 1 ++ leBytes 4 0 ++ leBytes 4 vaddr ++ leBytes 8 0 ++ leBytes 4 0x1000 ++ leBytes 8 0)

theorem heap_below_guard_pageImage :
    ((imageSegments fun _ => pageImage 0x300000).map fun s => s.vaddr + s.memsz) = [0x301000] ∧
      ∀ es, ∀ p ∈ heaps 0x301000 (fun _ => false) es, p.heapStart ≤ p.heapBreak ∧ p.heapBreak ≤ userHeapMax := by
  have hends : ((imageSegments fun _ => pageImage 0x300000).map fun s => s.vaddr + s.memsz) = [0x301000] := by
    decide +kernel
  refine ⟨hends, (@heap_below_guard_iff (fun _ => pageImage 0x300000) (fun _ => true) true 0x300000 0x301000
    (by decide +kernel) _).1.mpr fun s hs => ?_⟩
  have hend := List.mem_map_of_mem (f := fun s => s.vaddr + s.memsz) hs
  rw [hends, List.mem_singleton] at hend
  rw [hend]
  decide

/-- Above the guard page the bound wraps around, and 2 GB more are granted. -/
theorem heap_passes_guard :
    elfLoadImage (fun _ => pageImage 0x3E7000) (fun _ => true) true = some (0x3E7000, 0x3E8000) ∧
    ((⟨0x3E8000, 0x3E8000, fun _ => false⟩ : MemoryMap).sbrk 0x7FFFFFFF).heapBreak = 0x803E7FFF := by
  decide +kernel

end SystemsLab.MiniOs
