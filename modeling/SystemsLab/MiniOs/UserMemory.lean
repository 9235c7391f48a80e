import SystemsLab.MiniOs.Isolation

/-!
# User memory as the kernel reaches it

The checks of `syscall.c` on user buffers, the region of `SYS_MMAP` and the page fault handler of `paging.c`.
-/

namespace SystemsLab.MiniOs

def userStackTop : Nat := 0x3F0000
def userStackBottom : Nat := userStackTop - 8 * 0x1000
def userHeapMax : Nat := userStackBottom - 0x1000
def userShmBase : Nat := 0x3F0000
def userShmTop : Nat := userShmBase + 0x1000
def userExtPages : Nat := 1024
def uint32Max : Nat := 2 ^ 32 - 1

def userRegionTop (start : Nat) : Nat :=
  if userLoadBase ≤ start ∧ start < userStackTop then userStackTop
  else if userShmBase ≤ start ∧ start < userShmTop then userShmTop
  else if userExtBase ≤ start ∧ start < userExtTop then userExtTop
  else 0

/-! ## Heap and mapped region -/

structure MemoryMap where
  heapStart : Nat
  heapBreak : Nat
  extMap : Fin 1024 → Bool

namespace MemoryMap
variable (p : MemoryMap)

def extReserved (vaddr : Nat) : Bool :=
  if h : userExtBase ≤ vaddr ∧ vaddr < userExtTop then
    p.extMap ⟨(vaddr - userExtBase) / 4096, extPage_lt h⟩
  else false

/-- `ext_bit_set` on the pages from `first` on. -/
def extSet (first count : Nat) (value : Bool) : MemoryMap :=
  { p with extMap := fun i => if first ≤ i ∧ i < first + count then value else p.extMap i }

/-- The loop of `process_ext_alloc`. -/
def scanExt (npages : Nat) : List (Fin 1024) → Nat → Option Nat
  | [], _ => none
  | i :: is, run =>
    let run := if p.extMap i then 0 else run + 1
    if run = npages then some (i + 1 - npages) else scanExt npages is run

def extAlloc (npages : Nat) : Nat × MemoryMap :=
  if npages = 0 ∨ userExtPages < npages then (0, p)
  else
    match p.scanExt npages (List.finRange 1024) 0 with
    | some first => (userExtBase + first * 4096, p.extSet first npages true)
    | none => (0, p)

def extAll (first count : Nat) : Bool :=
  (List.finRange 1024).all fun i => p.extMap i || !(decide (first ≤ i) && decide (i < first + count))

/-- The pages `process_ext_free` gives up, if it does. -/
def extFree (vaddr npages : Nat) : Option MemoryMap :=
  if npages = 0 ∨ vaddr % 4096 ≠ 0 ∨ vaddr < userExtBase ∨ userExtTop ≤ vaddr then none
  else
    let first := (vaddr - userExtBase) / 4096
    if userExtPages - first < npages then none
    else if p.extAll first npages then some (p.extSet first npages false)
    else none

/-- `sys_sbrk`, in 32-bit arithmetic. -/
def sbrk (increment : Int) : MemoryMap :=
  if increment = 0 then p
  else if increment < 0 then
    if (p.heapBreak + (2 ^ 32 - p.heapStart)) % 2 ^ 32 < increment.natAbs then p
    else { p with heapBreak := (p.heapBreak + (2 ^ 32 - increment.natAbs)) % 2 ^ 32 }
  else
    if (userHeapMax + (2 ^ 32 - p.heapBreak)) % 2 ^ 32 < increment.natAbs then p
    else { p with heapBreak := (p.heapBreak + increment.natAbs) % 2 ^ 32 }

end MemoryMap

namespace Paging
variable {m : Nat}

/-! ## Checks -/

def mapped (s : Paging m) (vaddr : Nat) : Bool :=
  match s.activeSpace, userPage vaddr with
  | some n, some x => (s.pte n x).usable
  | _, _ => false

/-- The loop of `paging_user_range_mapped`. -/
def pagesMapped (s : Paging m) : (first count : Nat) → Bool
  | _, 0 => true
  | first, count + 1 => s.mapped (first * 4096) && pagesMapped s (first + 1) count

def userRangeMapped (s : Paging m) (vaddr size : Nat) : Bool :=
  if size = 0 then true
  else if uint32Max - vaddr < size then false
  else s.pagesMapped (vaddr / 4096) ((vaddr + size - 1) / 4096 + 1 - vaddr / 4096)

def userBufferValid (s : Paging m) (start count : Nat) : Bool :=
  if count = 0 then true
  else if userRegionTop start = 0 then false
  else decide (count ≤ userRegionTop start - start) && s.userRangeMapped start count

/-! ## Faults -/

def demandMap (s : Paging m) (addr : Nat) : Bool × Paging m :=
  match s.activeSpace, userPage addr with
  | some n, some x => if (s.pte n x).usable then (false, s) else s.mapUserPage n (addr / 4096 * 4096)
  | _, _ => (false, s)

end Paging

def MemoryMap.demandPaged (p : MemoryMap) (addr : Nat) : Bool :=
  decide (userStackBottom ≤ addr ∧ addr < userStackTop) || decide (p.heapStart ≤ addr ∧ addr < p.heapBreak) ||
    p.extReserved addr

namespace Paging
variable {m : Nat} (s : Paging m)

/-- `page_fault_handler` up to the point where it gives up. A failed attempt is made again where regions overlap. -/
def pageFault (p : MemoryMap) (write : Bool) (addr : Nat) : Bool × Paging m :=
  let fill (region : Bool) (r : Bool × Paging m) : Bool × Paging m :=
    if !r.1 && region then r.2.demandMap addr else r
  let r := if write then s.tryCow addr else (false, s)
  let r := fill (decide (userStackBottom ≤ addr ∧ addr < userStackTop)) r
  let r := fill (decide (p.heapStart ≤ addr ∧ addr < p.heapBreak)) r
  fill (p.extReserved addr) r

/-- The processor lets the kernel through: the user bit is not looked at, the write permission is. -/
def kernelReaches (write : Bool) (addr : Nat) : Bool :=
  match s.activeSpace, userPage addr with
  | some n, some x => (s.pte n x).present && ((s.pte n x).rw || !write)
  | some _, none => decide (addr < userExtBase)
  | none, _ => decide (addr < userExtBase)

def userReaches (write : Bool) (addr : Nat) : Bool :=
  match s.activeSpace, userPage addr with
  | some n, some x => (s.pte n x).usable && ((s.pte n x).rw || !write)
  | _, _ => false

/-- An access of the kernel to a user address: it is repeated once the handler has returned. -/
def kernelAccess (p : MemoryMap) (write : Bool) (addr : Nat) : Paging m :=
  if s.kernelReaches write addr then s
  else
    match s.pageFault p write addr with
    | (true, s) => s
    | (false, s) => { s with halted := true }

def translate (addr : Nat) : Option Nat :=
  match s.activeSpace, userPage addr with
  | some n, some x => some (s.pte n x).frame
  | _, _ => none

def kernelStore (p : MemoryMap) (addr : Nat) (v : UInt8) : Paging m :=
  let s := s.kernelAccess p true addr
  if s.halted then s else (s.translate addr).elim s fun f => s.store f (addr % 4096) v

def kernelLoad (p : MemoryMap) (addr : Nat) : UInt8 × Paging m :=
  let s := s.kernelAccess p false addr
  ((s.translate addr).elim 0 fun f => s.memory f (addr % 4096), s)

end Paging

end SystemsLab.MiniOs
