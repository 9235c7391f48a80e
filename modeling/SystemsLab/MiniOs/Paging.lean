import Mathlib.Data.Fintype.Sum
import SystemsLab.MiniOs.Heap

/-!
# Address spaces and copy-on-write

`paging.c`. A user space has a private table for the low 4 MB and one for the region of 32 to 36 MB; the rest below
32 MB is the kernel's identity map. A fork shares the frames and takes the write permission away on both sides.

An address space is named by an index. The kernel's accesses to frames go through the active space as on the
machine.
-/

namespace SystemsLab.MiniOs

open Function

def userLoadBase : Nat := 0x300000
def userExtBase : Nat := 0x2000000
def userExtTop : Nat := 0x2400000

def frameCount : Nat := pmmMaxBlocks

structure PageEntry where
  present : Bool := false
  rw : Bool := false
  user : Bool := false
  shared : Bool := false
  frame : Nat := 0
deriving DecidableEq

/-- `page->present && page->user`. -/
def PageEntry.usable (e : PageEntry) : Bool := e.present && e.user

abbrev UserPage := Fin 1024 ⊕ Fin 1024

theorem lowPage_lt {vaddr : Nat} (h : vaddr < 0x400000) : vaddr / 4096 < 1024 := by omega

theorem extPage_lt {vaddr : Nat} (h : userExtBase ≤ vaddr ∧ vaddr < userExtTop) :
    (vaddr - userExtBase) / 4096 < 1024 := by
  simp only [userExtBase, userExtTop] at h ⊢
  omega

/-- The entry `user_pte` selects for an address. -/
def userPage (vaddr : Nat) : Option UserPage :=
  if h : vaddr < 0x400000 then some (.inl ⟨vaddr / 4096, lowPage_lt h⟩)
  else if h : userExtBase ≤ vaddr ∧ vaddr < userExtTop then
    some (.inr ⟨(vaddr - userExtBase) / 4096, extPage_lt h⟩)
  else none

def userPages : List UserPage := (List.finRange 1024).map .inl ++ (List.finRange 1024).map .inr

def identityEntry : UserPage → PageEntry
  | .inl i => { present := true, rw := true, frame := i }
  | .inr _ => {}

structure AddressSpace where
  /-- The heap object of the structure itself. -/
  object : Nat
  directory : Nat
  firstTable : Nat
  extTable : Nat
  pages : UserPage → PageEntry

def addressSpaceSize : Nat := 16

structure Paging (m : Nat) where
  pmm : Pmm
  heap : Heap
  spaces : Fin m → Option AddressSpace
  /-- The kernel's own space if none. -/
  activeSpace : Option (Fin m)
  pageRef : Nat → Nat
  memory : Nat → Nat → UInt8
  /-- A page fault of the kernel is not followed any further. -/
  halted : Bool

namespace Paging
variable {m : Nat} (s : Paging m) (n : Fin m)

def pte (x : UserPage) : PageEntry :=
  match s.spaces n with
  | some a => a.pages x
  | none => {}

def setPte (x : UserPage) (e : PageEntry) : Paging m :=
  { s with
    spaces := update s.spaces n ((s.spaces n).map fun a => { a with pages := update a.pages x e }) }

/-! ## Accesses of the kernel -/

/-- The frame behind an address of the identity map in the active space, unless the access faults. -/
def kernelFrame (write : Bool) (f : Nat) : Option Nat :=
  match s.activeSpace with
  | none => some f
  | some n =>
    if h : f < 1024 then
      let e := s.pte n (.inl ⟨f, h⟩)
      if e.present && (e.rw || !write) then some e.frame else none
    else some f

/-- `memset(frame, 0, PMM_BLOCK_SIZE)`. -/
def memsetZero (f : Nat) : Option (Paging m) :=
  (s.kernelFrame true f).map fun g => { s with memory := update s.memory g fun _ => 0 }

/-- `memcpy(dst, src, PMM_BLOCK_SIZE)`. -/
def memcpyFrame (dst src : Nat) : Option (Paging m) :=
  (s.kernelFrame false src).bind fun g =>
    (s.kernelFrame true dst).map fun f => { s with memory := update s.memory f (s.memory g) }

/-! ## Sharing counts -/

def cowRefInc (f : Nat) : Paging m :=
  if f < frameCount then { s with pageRef := update s.pageRef f ((s.pageRef f + 1) % 2 ^ 16) } else s

def cowRefDec (f : Nat) : Paging m :=
  { s with pageRef := update s.pageRef f (s.pageRef f - 1) }

/-- `cow_ref_release`, and the frame freed if it was the last reference. -/
def releaseFrame (f : Nat) : Paging m :=
  if f < frameCount ∧ 0 < s.pageRef f then s.cowRefDec f else { s with pmm := s.pmm.freeBlock f }

/-! ## Pages -/

/-- The common part of `paging_map_user_page` and `paging_share_page`. -/
def newPage (x : UserPage) (shared : Bool) : Bool × Paging m :=
  match s.pmm.allocBlock with
  | none => (false, s)
  | some (f, p) =>
    match ({ s with pmm := p } : Paging m).memsetZero f with
    | none => (false, { s with pmm := p, halted := true })
    | some s => (true, s.setPte n x { present := true, rw := true, user := true, shared := shared, frame := f })

def mapUserPage (vaddr : Nat) : Bool × Paging m :=
  match s.spaces n, userPage vaddr with
  | some a, some x => if (a.pages x).usable then (true, s) else s.newPage n x false
  | _, _ => (false, s)

def unmapUserPage (vaddr : Nat) : Paging m :=
  match s.spaces n, userPage vaddr with
  | some a, some x => if (a.pages x).usable then (s.releaseFrame (a.pages x).frame).setPte n x {} else s
  | _, _ => s

def sharePage (vaddr : Nat) : Bool × Paging m :=
  match s.activeSpace with
  | none => (false, s)
  | some n =>
    if h : vaddr < 0x400000 then
      let x : UserPage := .inl ⟨vaddr / 4096, by omega⟩
      if (s.pte n x).usable then ((s.pte n x).shared, s) else s.newPage n x true
    else (false, s)

/-- `paging_try_cow` at an entry that is a read-only user page. -/
def copyPage (x : UserPage) : Bool × Paging m :=
  let e := s.pte n x
  if 0 < s.pageRef e.frame then
    match s.pmm.allocBlock with
    | none => (false, s)
    | some (f, p) =>
      match ({ s with pmm := p } : Paging m).memcpyFrame f e.frame with
      | none => (false, { s with pmm := p, halted := true })
      | some s => (true, (s.cowRefDec e.frame).setPte n x { e with frame := f, rw := true })
  else (true, s.setPte n x { e with rw := true })

def tryCow (vaddr : Nat) : Bool × Paging m :=
  match s.activeSpace, userPage vaddr with
  | some n, some x => if (s.pte n x).usable && !(s.pte n x).rw then s.copyPage n x else (false, s)
  | _, _ => (false, s)

def store (f offset : Nat) (v : UInt8) : Paging m :=
  { s with memory := update s.memory f (update (s.memory f) offset v) }

/-- The processor faults on a read-only page and repeats the access once the handler has dealt with it. -/
def userWrite (vaddr : Nat) (v : UInt8) : Bool × Paging m :=
  match s.activeSpace, userPage vaddr with
  | some n, some x =>
    if !(s.pte n x).usable then (false, s)
    else if (s.pte n x).rw then (true, s.store (s.pte n x).frame (vaddr % 4096) v)
    else
      match s.tryCow vaddr with
      | (true, s) => (true, s.store (s.pte n x).frame (vaddr % 4096) v)
      | (false, s) => (false, s)
  | _, _ => (false, s)

/-! ## Spaces -/

/-- One of the allocations of `paging_create_user_address_space`, which fail one by one. -/
def allocTable (p : Pmm) : Option Nat × Pmm :=
  match p.allocBlock with
  | some (f, p) => (some f, p)
  | none => (none, p)

def freeTable (p : Pmm) (f : Option Nat) : Pmm := f.elim p p.freeBlock

def createUserAddressSpace : Bool × Paging m :=
  match s.heap.kmalloc s.pmm addressSpaceSize with
  | (none, h, p) => (false, { s with heap := h, pmm := p })
  | (some object, h, p) =>
    let (directory, p) := allocTable p
    let (firstTable, p) := allocTable p
    let (extTable, p) := allocTable p
    match directory, firstTable, extTable with
    | some d, some f, some e =>
      (true,
        { s with
          heap := h
          pmm := p
          spaces := update s.spaces n (some ⟨object, d, f, e, identityEntry⟩) })
    | d, f, e => (false, { s with heap := h.kfree object, pmm := freeTable (freeTable (freeTable p d) f) e })

/-- The loop body of `paging_cow_clone_table`. -/
def cloneEntry (parent child : Fin m) (s : Paging m) (x : UserPage) : Paging m :=
  let e := s.pte parent x
  if !e.usable then s
  else if e.shared then (s.setPte child x e).cowRefInc e.frame
  else ((s.setPte parent x { e with rw := false }).setPte child x { e with rw := false }).cowRefInc e.frame

def cloneAddressSpace (parent : Option (Fin m)) (child : Fin m) : Bool × Paging m :=
  match s.createUserAddressSpace child, parent with
  | (true, s), some parent => (true, userPages.foldl (cloneEntry parent child) s)
  | r, _ => r

def activateAddressSpace (n : Option (Fin m)) : Paging m := { s with activeSpace := n }

/-- The loop body of `paging_destroy_user_address_space`. -/
def destroyEntry (s : Paging m) (x : UserPage) : Paging m :=
  let e := s.pte n x
  if e.usable then (s.releaseFrame e.frame).setPte n x { e with user := false } else s

def leave : Paging m :=
  if s.activeSpace = some n then s.activateAddressSpace none else s

def freeSpace (a : AddressSpace) : Paging m :=
  { s with
    pmm := ((s.pmm.freeBlock a.firstTable).freeBlock a.extTable).freeBlock a.directory
    heap := s.heap.kfree a.object
    spaces := update s.spaces n none }

def destroyUserAddressSpace : Paging m :=
  match s.spaces n with
  | none => s
  | some a => (userPages.foldl (destroyEntry n) (s.leave n)).freeSpace n a

/-! ## Runs -/

end Paging

inductive PagingOp (m : Nat)
  | create (child : Fin m)
  | clone (parent : Option (Fin m)) (child : Fin m)
  | destroy (n : Fin m)
  | activate (n : Option (Fin m))
  | map (n : Fin m) (vaddr : Nat)
  | unmap (n : Fin m) (vaddr : Nat)
  | share (vaddr : Nat)
  | write (vaddr : Nat) (v : UInt8)

/-- The spaces given exist, and the new one has a name not in use. -/
def PagingOp.Allowed {m : Nat} (s : Paging m) : PagingOp m → Prop
  | .create child => s.spaces child = none
  | .clone parent child => s.spaces child = none ∧ ∀ n, parent = some n → (s.spaces n).isSome
  | .destroy n | .map n _ | .unmap n _ => (s.spaces n).isSome
  | .activate n => ∀ k, n = some k → (s.spaces k).isSome
  | .share _ | .write _ _ => True

namespace Paging
variable {m : Nat}

instance (s : Paging m) (n : Fin m) : Decidable (s.spaces n = none) :=
  decidable_of_iff (s.spaces n).isNone Option.isNone_iff_eq_none

instance (s : Paging m) : ∀ op : PagingOp m, Decidable (op.Allowed s)
  | .create child => inferInstanceAs (Decidable (s.spaces child = none))
  | .clone parent child => inferInstanceAs
    (Decidable (s.spaces child = none ∧ ∀ n, parent = some n → (s.spaces n).isSome))
  | .destroy n | .map n _ | .unmap n _ => inferInstanceAs (Decidable ((s.spaces n).isSome))
  | .activate n => inferInstanceAs (Decidable (∀ k, n = some k → (s.spaces k).isSome))
  | .share _ | .write _ _ => inferInstanceAs (Decidable True)

def perform (s : Paging m) : PagingOp m → Bool × Paging m
  | .create child => s.createUserAddressSpace child
  | .clone parent child => s.cloneAddressSpace parent child
  | .destroy n => (true, s.destroyUserAddressSpace n)
  | .activate n => (true, s.activateAddressSpace n)
  | .map n vaddr => s.mapUserPage n vaddr
  | .unmap n vaddr => (true, s.unmapUserPage n vaddr)
  | .share vaddr => s.sharePage vaddr
  | .write vaddr v => s.userWrite vaddr v

def step (s : Paging m) (op : PagingOp m) : Bool × Paging m :=
  if s.halted = false ∧ op.Allowed s then s.perform op else (false, s)

def run (s : Paging m) (ops : List (PagingOp m)) : Paging m := ops.foldl (fun s op => (s.step op).2) s

def trace : Paging m → List (PagingOp m) → List (PagingOp m × Bool)
  | _, [] => []
  | s, op :: ops => (op, (s.step op).1) :: trace (s.step op).2 ops

end Paging

end SystemsLab.MiniOs
