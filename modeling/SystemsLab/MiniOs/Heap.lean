import Mathlib.Algebra.Ring.Nat
import SystemsLab.MiniOs.Pmm

/-!
# The kernel heap

`heap.c`: blocks in address order, each a header of 12 bytes and its payload. The heap grows by whole frames, which
it never gives back.
-/

namespace SystemsLab.MiniOs

def heapBlockSize : Nat := 12

def heapAlignment : Nat := 4

def sizeMax : Nat := 2 ^ 32 - 1

structure HeapBlock where
  addr : Nat
  size : Nat
  isFree : Bool
  deriving DecidableEq

structure Heap where
  blocks : List HeapBlock
  pages : Nat

namespace Heap

def blocksAreAdjacent (b c : HeapBlock) : Bool := b.addr + heapBlockSize + b.size = c.addr

/-- The loop of `merge_free_blocks`, standing at `b`. -/
def mergeFrom (b : HeapBlock) : List HeapBlock → List HeapBlock
  | [] => [b]
  | c :: rest =>
    if b.isFree && c.isFree && blocksAreAdjacent b c then
      mergeFrom { b with size := b.size + heapBlockSize + c.size } rest
    else b :: mergeFrom c rest

def mergeFreeBlocks : List HeapBlock → List HeapBlock
  | [] => []
  | b :: rest => mergeFrom b rest

def insertBlock (b : HeapBlock) : List HeapBlock → List HeapBlock
  | [] => [b]
  | c :: rest => if b.addr < c.addr then b :: c :: rest else c :: insertBlock b rest

def grow (h : Heap) (p : Pmm) (minPayload : Nat) : Option (Heap × Pmm) :=
  if sizeMax - heapBlockSize - (pmmBlockSize - 1) < minPayload then none
  else
    let pageCount := (heapBlockSize + minPayload + pmmBlockSize - 1) / pmmBlockSize
    (p.allocBlocks pageCount).map fun (first, p') =>
      let b := { addr := first * pmmBlockSize, size := pageCount * pmmBlockSize - heapBlockSize, isFree := true }
      ({ blocks := mergeFreeBlocks (insertBlock b h.blocks), pages := h.pages + pageCount }, p')

/-- `heap_init`: the first frame, if there is one. -/
def init (h : Heap) (p : Pmm) : Heap × Pmm :=
  if h.blocks.isEmpty then (h.grow p 1).getD (h, p) else (h, p)

def takeFirstFit (size : Nat) : List HeapBlock → Option (Nat × List HeapBlock)
  | [] => none
  | b :: rest =>
    if b.isFree && decide (size ≤ b.size) then
      some (b.addr + heapBlockSize,
        if size + heapBlockSize + 4 < b.size then
          { b with size := size, isFree := false } ::
            { addr := b.addr + heapBlockSize + size, size := b.size - size - heapBlockSize, isFree := true } :: rest
        else { b with isFree := false } :: rest)
    else (takeFirstFit size rest).map fun (ptr, bs) => (ptr, b :: bs)

def fit (h : Heap) (size : Nat) : Option (Nat × Heap) :=
  (takeFirstFit size h.blocks).map fun (ptr, bs) => (ptr, { h with blocks := bs })

def fitOrGrow (h : Heap) (p : Pmm) (size : Nat) : Option Nat × Heap × Pmm :=
  match h.fit size with
  | some (ptr, h') => (some ptr, h', p)
  | none =>
    match h.grow p size with
    | none => (none, h, p)
    | some (h', p') =>
      match h'.fit size with
      | some (ptr, h'') => (some ptr, h'', p')
      | none => (none, h', p')

def kmalloc (h : Heap) (p : Pmm) (size : Nat) : Option Nat × Heap × Pmm :=
  if size = 0 ∨ sizeMax - (heapAlignment - 1) < size then (none, h, p)
  else
    let size := (size + heapAlignment - 1) / heapAlignment * heapAlignment
    let (h, p) := h.init p
    h.fitOrGrow p size

def kfree (h : Heap) (ptr : Nat) : Heap :=
  { h with
    blocks := mergeFreeBlocks (h.blocks.map fun b =>
      if b.addr + heapBlockSize = ptr then { b with isFree := true } else b) }

/-! ## What an allocation does to the frames -/

structure Grown (h : Heap) (p : Pmm) (h' : Heap) (p' : Pmm) : Prop where
  max : p'.maxBlocks = p.maxBlocks
  keeps : ∀ {f}, p.memoryMap f = true → p'.memoryMap f = true
  pages : h.pages ≤ h'.pages
  account : p'.usedBlocks + h.pages = p.usedBlocks + h'.pages
  room : p.usedBlocks ≤ p.maxBlocks → p'.usedBlocks ≤ p'.maxBlocks

variable {h h' h'' : Heap} {p p' p'' : Pmm} {size : Nat}

theorem Grown.of_pages (hp : h'.pages = h.pages) (p : Pmm) : Grown h p h' p where
  max := rfl
  keeps := id
  pages := Nat.le_of_eq hp.symm
  account := by rw [hp]
  room := id

theorem Grown.trans (a : Grown h p h' p') (b : Grown h' p' h'' p'') : Grown h p h'' p'' where
  max := b.max.trans a.max
  keeps hf := b.keeps (a.keeps hf)
  pages := Nat.le_trans a.pages b.pages
  account := by have := a.account; have := b.account; omega
  room hr := b.room (a.room hr)

theorem kfree_pages (h : Heap) (ptr : Nat) : (h.kfree ptr).pages = h.pages := rfl

theorem grow_grown (hg : h.grow p size = some (h', p')) : Grown h p h' p' := by
  unfold grow at hg
  split at hg
  · cases hg
  · simp only [Option.map_eq_some_iff, Prod.mk.injEq, Prod.exists] at hg
    obtain ⟨first, p', ha, rfl, rfl⟩ := hg
    obtain ⟨-, -, hroom, -, rfl⟩ := Pmm.allocBlocks_eq_some ha
    refine ⟨rfl, ?_, by simp, by simp [Pmm.mmapSetRun]; omega, fun _ => by simpa [Pmm.mmapSetRun] using hroom⟩
    intro f hf
    simp [Pmm.mmapSetRun, hf]

theorem init_grown (h : Heap) (p : Pmm) : Grown h p (h.init p).1 (h.init p).2 := by
  unfold init
  split
  · cases hg : h.grow p 1 with
    | none => exact .of_pages rfl p
    | some r => exact grow_grown hg
  · exact .of_pages rfl p

theorem fit_pages {ptr : Nat} (hf : h.fit size = some (ptr, h')) : h'.pages = h.pages := by
  simp only [fit, Option.map_eq_some_iff, Prod.mk.injEq, Prod.exists] at hf
  obtain ⟨_, _, _, _, rfl⟩ := hf
  rfl

theorem fitOrGrow_grown (h : Heap) (p : Pmm) (size : Nat) :
    Grown h p (h.fitOrGrow p size).2.1 (h.fitOrGrow p size).2.2 := by
  unfold fitOrGrow
  split
  · rename_i hf
    exact .of_pages (fit_pages hf) p
  · split
    · exact .of_pages rfl p
    · rename_i hg
      split
      · rename_i hf
        exact (grow_grown hg).trans (.of_pages (fit_pages hf) _)
      · exact grow_grown hg

theorem kmalloc_grown (h : Heap) (p : Pmm) (size : Nat) :
    Grown h p (h.kmalloc p size).2.1 (h.kmalloc p size).2.2 := by
  unfold kmalloc
  split
  · exact .of_pages rfl p
  · exact (init_grown h p).trans (fitOrGrow_grown _ _ _)

end Heap

end SystemsLab.MiniOs
