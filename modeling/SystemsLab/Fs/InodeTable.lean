import SystemsLab.Fs.Fsck
import SystemsLab.Lib.SortedMap

/-!
# The inode table in memory

Inodes with the blocks they own, and the reverse index from a block to its owner. Over any run of calls the two
describe one relation.
-/

namespace SystemsLab.Fs

local instance instLinearOrderUInt64 : LinearOrder UInt64 :=
  LinearOrder.lift' UInt64.toNat fun _ _ => UInt64.toNat_inj.mp

structure Inode where
  id : UInt64
  kind : InodeKind
  blocks : List UInt64
  deriving DecidableEq

/-- `PersistedInode::from`. -/
def Inode.persisted (inode : Inode) : PersistedInode := ⟨inode.id, inode.kind, inode.blocks⟩

inductive InodeError
  | idExhausted
  | notFound (inode : UInt64)
  | blockNotAllocated (block : UInt64)
  | reservedBlock (block : UInt64)
  | blockAlreadyOwned (block owner : UInt64)
  | blockNotOwnedByInode (inode block : UInt64)
  | inodeStillOwnsBlocks (inode : UInt64)
  | allocation (error : AllocationError)
  deriving DecidableEq

inductive InodeInvariantError
  | blockOwnerMissingInode (block owner : UInt64)
  | reverseOwnershipMismatch (block owner : UInt64)
  | duplicateBlockReference (block firstOwner secondOwner : UInt64)
  | reservedBlockReferenced (inode block : UInt64)
  | unallocatedBlockReferenced (inode block : UInt64)
  | allocation (error : AllocationError)
  deriving DecidableEq

structure InodeTable where
  nextId : UInt64
  inodes : SortedMap UInt64 Inode
  blockOwners : SortedMap UInt64 UInt64
  deriving DecidableEq

namespace InodeTable

def new : InodeTable := ⟨1, .empty, .empty⟩

variable (t : InodeTable)

def create (kind : InodeKind) : InodeTable × Except InodeError UInt64 :=
  match checkedAdd t.nextId 1 with
  | none => (t, .error .idExhausted)
  | some next => ({ t with nextId := next, inodes := t.inodes.insert t.nextId ⟨t.nextId, kind, []⟩ }, .ok t.nextId)

def attachBlock (inode block : UInt64) (a : BlockAllocator) : InodeTable × Except InodeError Unit :=
  match t.inodes.get? inode with
  | none => (t, .error (.notFound inode))
  | some node =>
    if block.toNat < a.reservedBlocks then (t, .error (.reservedBlock block))
    else match a.isOwned block with
      | .error e => (t, .error (.allocation e))
      | .ok false => (t, .error (.blockNotAllocated block))
      | .ok true => match t.blockOwners.get? block with
        | some owner => (t, .error (.blockAlreadyOwned block owner))
        | none =>
          ({ t with
              inodes := t.inodes.insert inode { node with blocks := node.blocks ++ [block] }
              blockOwners := t.blockOwners.insert block inode }, .ok ())

def detachBlock (inode block : UInt64) : InodeTable × Except InodeError Unit :=
  match t.inodes.get? inode with
  | none => (t, .error (.notFound inode))
  | some node => match node.blocks.idxOf? block with
    | none => (t, .error (.blockNotOwnedByInode inode block))
    | some position =>
      ({ t with
          inodes := t.inodes.insert inode { node with blocks := node.blocks.eraseIdx position }
          blockOwners := t.blockOwners.erase block }, .ok ())

def remove (inode : UInt64) : InodeTable × Except InodeError Inode :=
  match t.inodes.get? inode with
  | none => (t, .error (.notFound inode))
  | some node =>
    if node.blocks ≠ [] then (t, .error (.inodeStillOwnsBlocks inode))
    else ({ t with inodes := t.inodes.erase inode }, .ok node)

/-! The two nested loops of `validate` as one walk over the pairs of an inode and a block. -/

def references : List (UInt64 × UInt64) := t.inodes.entries.flatMap fun e => e.2.blocks.map (e.1, ·)

def validateReferences (t : InodeTable) (a : BlockAllocator) :
    List (UInt64 × UInt64) → SortedMap UInt64 UInt64 → Except InodeInvariantError Unit
  | [], _ => .ok ()
  | (id, block) :: rest, observed => do
    require (a.reservedBlocks ≤ block.toNat) (.reservedBlockReferenced id block)
    let owned ← (a.isOwned block).mapError .allocation
    require (owned = true) (.unallocatedBlockReferenced id block)
    refuse (.duplicateBlockReference block · id) (observed.get? block)
    require (t.blockOwners.get? block = some id) (.reverseOwnershipMismatch block id)
    validateReferences t a rest (observed.insert block id)

def validateOwner (e : UInt64 × UInt64) : Except InodeInvariantError Unit := do
  let inode ← okOr (.blockOwnerMissingInode e.1 e.2) (t.inodes.get? e.2)
  require (e.1 ∈ inode.blocks) (.reverseOwnershipMismatch e.1 e.2)

def validate (a : BlockAllocator) : Except InodeInvariantError Unit := do
  t.validateReferences a t.references .empty
  forM t.blockOwners.entries t.validateOwner

end InodeTable

structure Ownership where
  allocator : BlockAllocator
  table : InodeTable

inductive OwnershipCall
  | allocate
  | free (block : UInt64)
  | create (kind : InodeKind)
  | attachBlock (inode block : UInt64)
  | detachBlock (inode block : UInt64)
  | remove (inode : UInt64)

inductive OwnershipReply
  | failed (error : AllocationError ⊕ InodeError)
  | block (block : UInt64)
  | inode (id : UInt64)
  | removed (inode : Inode)
  | done

def OwnershipReply.ofExcept {ε α : Type} (wrap : ε → AllocationError ⊕ InodeError) (reply : α → OwnershipReply) :
    Except ε α → OwnershipReply
  | .ok x => reply x
  | .error e => .failed (wrap e)

def OwnershipReply.created : OwnershipReply → List UInt64
  | inode id => [id]
  | _ => []

namespace Ownership

def onTable {α : Type} (s : Ownership) (r : InodeTable × Except InodeError α) (reply : α → OwnershipReply) :
    Ownership × OwnershipReply :=
  ({ s with table := r.1 }, .ofExcept .inr reply r.2)

def call (s : Ownership) : OwnershipCall → Ownership × OwnershipReply
  | .allocate => match s.allocator.allocate with
    | .error e => (s, .failed (.inl e))
    | .ok (block, a) => ({ s with allocator := a }, .block block)
  | .free block => match s.allocator.free block with
    | .error e => (s, .failed (.inl e))
    | .ok a => ({ s with allocator := a }, .done)
  | .create kind => s.onTable (s.table.create kind) .inode
  | .attachBlock inode block => s.onTable (s.table.attachBlock inode block s.allocator) fun _ => .done
  | .detachBlock inode block => s.onTable (s.table.detachBlock inode block) fun _ => .done
  | .remove inode => s.onTable (s.table.remove inode) .removed

def Allows (s : Ownership) : OwnershipCall → Prop
  | .free block => ∀ id inode, s.table.inodes.get? id = some inode → block ∉ inode.blocks
  | _ => True

/-- The states that calls lead to, with the identifiers assigned on the way. -/
inductive Run (start : Ownership) : List UInt64 → Ownership → Prop
  | nil : Run start [] start
  | call {ids : List UInt64} {s : Ownership} (c : OwnershipCall) : Run start ids s → s.Allows c →
      Run start (ids ++ (s.call c).2.created) (s.call c).1

/-! ## One relation -/

structure Consistent (s : Ownership) : Prop where
  stored : ∀ id inode, s.table.inodes.get? id = some inode →
    inode.id = id ∧ id < s.table.nextId ∧ inode.blocks.Nodup
  owner : ∀ block id, s.table.blockOwners.get? block = some id ↔
    ∃ inode, s.table.inodes.get? id = some inode ∧ block ∈ inode.blocks
  allocated : ∀ block id, s.table.blockOwners.get? block = some id → s.allocator.Has block.toNat

variable {s : Ownership}

theorem Consistent.replace (h : s.Consistent) {id : UInt64} {node : Inode} {next : UInt64}
    {owners : SortedMap UInt64 UInt64}
    (hid : node.id = id) (hnext : s.table.nextId ≤ next) (hlt : id < next) (hnodup : node.blocks.Nodup)
    (howner : ∀ b i, owners.get? b = some i ↔
      if i = id then b ∈ node.blocks else s.table.blockOwners.get? b = some i)
    (hhas : ∀ b ∈ node.blocks, s.allocator.Has b.toNat) :
    ({ s with table := ⟨next, s.table.inodes.insert id node, owners⟩ } : Ownership).Consistent := by
  refine ⟨fun i inode hi => ?_, fun b i => ?_, fun b i hi => ?_⟩
  · rw [SortedMap.get?_insert] at hi
    split at hi
    · rename_i he
      obtain rfl := Option.some.inj hi
      exact ⟨hid.trans he.symm, he ▸ hlt, hnodup⟩
    · obtain ⟨hst, hold, hnd⟩ := h.stored i inode hi
      exact ⟨hst, hold.trans_le hnext, hnd⟩
  · rw [howner, SortedMap.get?_insert]
    split
    · simp
    · exact h.owner b i
  · rw [howner] at hi
    split at hi
    · exact hhas b hi
    · exact h.allocated b i hi

theorem consistent_new (a : BlockAllocator) : Consistent ⟨a, .new⟩ :=
  ⟨nofun, fun _ _ => ⟨nofun, nofun⟩, nofun⟩

section
variable (h : s.Consistent)
include h

theorem Consistent.create (kind : InodeKind) : (s.call (.create kind)).1.Consistent := by
  simp only [call, onTable, InodeTable.create]
  split
  · exact h
  · rename_i next hnext
    rw [checkedAdd_eq_some] at hnext
    have hlt : s.table.nextId < next := UInt64.lt_iff_toNat_lt.mpr (by rw [hnext]; exact Nat.lt_succ_self _)
    refine h.replace rfl hlt.le hlt List.nodup_nil (fun b i => ?_) nofun
    split
    · rename_i he
      subst he
      -- The identifier is new, so nothing has it as owner yet.
      rw [h.owner]
      refine iff_of_false (fun ⟨inode, hi, _⟩ => ?_) List.not_mem_nil
      exact absurd (h.stored _ inode hi).2.1 (lt_irrefl _)
    · rfl

theorem Consistent.attachBlock (inode block : UInt64) : (s.call (.attachBlock inode block)).1.Consistent := by
  simp only [call, onTable, InodeTable.attachBlock]
  split
  · exact h
  · rename_i node hnode
    obtain ⟨hid, hlt, hnodup⟩ := h.stored inode node hnode
    split
    · exact h
    · rename_i hres
      split
      · exact h
      · exact h
      rename_i howned
      split
      · exact h
      rename_i hfree
      have hhas := ((BlockAllocator.isOwned_eq_ok.mp howned).2.mp rfl).resolve_left hres
      have hnew : block ∉ node.blocks := fun hm => by
        rw [(h.owner block inode).mpr ⟨node, hnode, hm⟩] at hfree
        cases hfree
      refine h.replace hid le_rfl hlt ?_ (fun b i => ?_) fun b hb => ?_
      · exact List.nodup_append.mpr ⟨hnodup, List.nodup_singleton _, fun b hb c hc he => hnew (by simp_all)⟩
      · rw [SortedMap.get?_insert]
        by_cases hb : b = block
        · subst hb
          by_cases hi : i = inode <;> simp [hi, hfree, Ne.symm]
        · by_cases hi : i = inode
          · subst hi
            simp [hb, h.owner, hnode]
          · simp [hb, hi]
      · rcases List.mem_append.mp hb with hb | hb
        · exact h.allocated b inode ((h.owner b inode).mpr ⟨node, hnode, hb⟩)
        · rw [List.mem_singleton.mp hb]
          exact hhas

theorem Consistent.detachBlock (inode block : UInt64) : (s.call (.detachBlock inode block)).1.Consistent := by
  simp only [call, onTable, InodeTable.detachBlock]
  split
  · exact h
  · rename_i node hnode
    obtain ⟨hid, hlt, hnodup⟩ := h.stored inode node hnode
    split
    · exact h
    · rename_i position hpos
      have herase : node.blocks.eraseIdx position = node.blocks.erase block := by rw [List.erase_eq_eraseIdx, hpos]
      have hmem : block ∈ node.blocks := by
        by_contra hnot
        rw [List.idxOf?_eq_none_iff.mpr hnot] at hpos
        cases hpos
      rw [herase]
      refine h.replace hid le_rfl hlt (hnodup.erase block) (fun b i => ?_) fun b hb => ?_
      · have howner := (h.owner block inode).mpr ⟨node, hnode, hmem⟩
        rw [SortedMap.get?_erase, hnodup.mem_erase_iff]
        by_cases hb : b = block
        · subst hb
          by_cases hi : i = inode <;> simp [hi, howner, Ne.symm]
        · by_cases hi : i = inode
          · subst hi
            simp [hb, h.owner, hnode]
          · simp [hb, hi]
      · exact h.allocated b inode ((h.owner b inode).mpr ⟨node, hnode, List.mem_of_mem_erase hb⟩)

theorem Consistent.remove (inode : UInt64) : (s.call (.remove inode)).1.Consistent := by
  simp only [call, onTable, InodeTable.remove]
  split
  · exact h
  · rename_i node hnode
    split
    · exact h
    · rename_i hempty
      have hsub : ∀ id i, (s.table.inodes.erase inode).get? id = some i ↔
          id ≠ inode ∧ s.table.inodes.get? id = some i := by
        intro id i
        rw [SortedMap.get?_erase]
        split <;> simp [*]
      refine ⟨fun id i hi => h.stored id i ((hsub id i).mp hi).2, fun b id => ?_, h.allocated⟩
      rw [h.owner]
      refine exists_congr fun i => and_congr_left fun hb => ?_
      rw [hsub, iff_and_self]
      rintro hi rfl
      obtain rfl := Option.some.inj (hnode.symm.trans hi)
      exact hempty (List.ne_nil_of_mem hb)

theorem Consistent.call {c : OwnershipCall} (hc : s.Allows c) : (s.call c).1.Consistent := by
  cases c with
  | allocate =>
    rw [Ownership.call]
    split
    · exact h
    · rename_i block a ha
      obtain ⟨-, -, -, -, -, hhas, -⟩ := BlockAllocator.allocate_eq_ok ha
      exact ⟨h.stored, h.owner, fun b id hb => (hhas b.toNat).mpr (.inr (h.allocated b id hb))⟩
  | free block =>
    rw [Ownership.call]
    split
    · exact h
    · rename_i a ha
      obtain ⟨-, -, -, hhas⟩ := BlockAllocator.free_eq_ok.mp ha
      refine ⟨h.stored, h.owner, fun b id hb => (hhas b.toNat).mpr ⟨fun he => ?_, h.allocated b id hb⟩⟩
      obtain ⟨inode, hi, hm⟩ := (h.owner b id).mp hb
      exact hc id inode hi (UInt64.toNat_inj.mp he ▸ hm)
  | create kind => exact h.create kind
  | attachBlock inode block => exact h.attachBlock inode block
  | detachBlock inode block => exact h.detachBlock inode block
  | remove inode => exact h.remove inode

end

/-! ## The two checks -/

theorem mem_references {id block : UInt64} :
    (id, block) ∈ s.table.references ↔ ∃ inode, s.table.inodes.get? id = some inode ∧ block ∈ inode.blocks := by
  simp only [InodeTable.references, List.mem_flatMap, List.mem_map, Prod.mk.injEq, Prod.exists,
    SortedMap.get?_eq_some]
  constructor
  · rintro ⟨i, inode, hm, b, hb, rfl, rfl⟩
    exact ⟨inode, hm, hb⟩
  · rintro ⟨inode, hm, hb⟩
    exact ⟨id, inode, hm, block, hb, rfl, rfl⟩

theorem Consistent.nodup_blocks (h : s.Consistent) : (s.table.references.map Prod.snd).Nodup := by
  have hflat : s.table.references.map Prod.snd = s.table.inodes.entries.flatMap fun e => e.2.blocks := by
    simp [InodeTable.references, List.map_flatMap, Function.comp_def]
  rw [hflat, List.nodup_flatMap]
  refine ⟨fun e he => (h.stored e.1 e.2 (SortedMap.get?_eq_some.mpr he)).2.2, ?_⟩
  refine s.table.inodes.sorted.imp_of_mem fun {e e'} he he' hlt b hb hb' => hlt.ne ?_
  have howner := (h.owner b e.1).mpr ⟨e.2, SortedMap.get?_eq_some.mpr he, hb⟩
  have howner' := (h.owner b e'.1).mpr ⟨e'.2, SortedMap.get?_eq_some.mpr he', hb'⟩
  exact Option.some.inj (howner.symm.trans howner')

theorem Consistent.validateReferences (h : s.Consistent) :
    ∀ (rest : List (UInt64 × UInt64)) (observed : SortedMap UInt64 UInt64),
      (∀ e ∈ rest, s.table.blockOwners.get? e.2 = some e.1 ∧ observed.get? e.2 = none) → (rest.map Prod.snd).Nodup →
      s.table.validateReferences s.allocator rest observed = .ok ()
  | [], _, _, _ => rfl
  | (id, block) :: rest, observed, hrest, hnodup => by
    obtain ⟨⟨howner, hnone⟩, hrest⟩ := List.forall_mem_cons.mp hrest
    obtain ⟨hnew, hnodup⟩ := List.nodup_cons.mp hnodup
    have hhas := h.allocated block id howner
    have howned : s.allocator.isOwned block = .ok true := BlockAllocator.isOwned_eq_ok.mpr ⟨hhas.lt, by simp [hhas]⟩
    have hnext := h.validateReferences rest (observed.insert block id) (fun e he => ⟨(hrest e he).1, ?_⟩) hnodup
    · simp only [InodeTable.validateReferences, steps_ok, refuse_eq_ok, exists_const]
      exact ⟨hhas.reserved_le, true, howned, rfl, hnone, howner, hnext⟩
    · rw [SortedMap.get?_insert, if_neg fun he' => hnew (List.mem_map.mpr ⟨e, he, he'⟩)]
      exact (hrest e he).2

theorem Consistent.validate (h : s.Consistent) : s.table.validate s.allocator = .ok () := by
  simp only [InodeTable.validate, except_bind_eq_ok, forM_eq_ok]
  refine ⟨(), h.validateReferences _ .empty
    (fun e he => ⟨(h.owner e.2 e.1).mpr (mem_references.mp he), rfl⟩) h.nodup_blocks, fun e he => ?_⟩
  obtain ⟨inode, hi, hm⟩ := (h.owner e.1 e.2).mp (SortedMap.get?_eq_some.mpr he)
  simp only [InodeTable.validateOwner, steps_ok]
  exact ⟨inode, hi, hm⟩

def persisted (s : Ownership) : List PersistedInode := s.table.inodes.entries.map (·.2.persisted)

theorem Consistent.audit (h : s.Consistent) {sb : Superblock} (hr : s.allocator.reservedBlocks = sb.reservedBlocks)
    (ht : s.allocator.totalBlocks = sb.totalBlocks.toNat) :
    auditInodeOwnership sb s.allocator s.persisted = .ok s.table.blockOwners.size := by
  have hblocks : s.persisted.flatMap PersistedInode.blocks = s.table.references.map Prod.snd := by
    simp [persisted, InodeTable.references, Inode.persisted, List.map_flatMap, List.flatMap_map, Function.comp_def]
  have howned : ∀ block, block ∈ s.table.references.map Prod.snd ↔
      ∃ id, s.table.blockOwners.get? block = some id := by
    simp [h.owner, ← mem_references]
  refine (auditInodeOwnership_eq_ok hr).mpr ⟨⟨fun inode hi b hb => ?_, hblocks ▸ h.nodup_blocks⟩, ?_⟩
  · have hb' : b ∈ s.table.references.map Prod.snd := hblocks ▸ List.mem_flatMap.mpr ⟨inode, hi, hb⟩
    obtain ⟨id, hid⟩ := (howned b).mp hb'
    have hhas := h.allocated b id hid
    exact ⟨⟨hr.symm.le.trans hhas.reserved_le, hhas.lt.trans_eq ht⟩, hhas⟩
  · -- Both lists name every owned block once.
    have hperm : (s.table.references.map Prod.snd).Perm s.table.blockOwners.keys :=
      (List.perm_ext_iff_of_nodup h.nodup_blocks s.table.blockOwners.nodup_keys).mpr fun b =>
        (howned b).trans SortedMap.mem_keys.symm
    rw [hblocks, hperm.length_eq, SortedMap.keys, List.length_map, SortedMap.size]

/-! ## Whole runs -/

theorem call_failed {c : OwnershipCall} {s' : Ownership} {e : AllocationError ⊕ InodeError}
    (h : s.call c = (s', .failed e)) : s' = s := by
  cases c <;> simp only [call, onTable, InodeTable.create, InodeTable.attachBlock, InodeTable.detachBlock,
    InodeTable.remove] at h <;>
    repeat' split at h
  all_goals first | exact (Prod.mk.inj h).1.symm | exact nomatch (Prod.mk.inj h).2

theorem call_keeps (s : Ownership) (c : OwnershipCall) :
    (s.call c).1.allocator.totalBlocks = s.allocator.totalBlocks ∧
      (s.call c).1.allocator.reservedBlocks = s.allocator.reservedBlocks ∧
      ((s.call c).2.created = [] ∧ (s.call c).1.table.nextId = s.table.nextId ∨
        (s.call c).2.created = [s.table.nextId] ∧ s.table.nextId < (s.call c).1.table.nextId) := by
  cases c <;> simp only [call, onTable, InodeTable.create, InodeTable.attachBlock, InodeTable.detachBlock,
    InodeTable.remove] <;>
    repeat' split
  all_goals try first | exact ⟨trivial, trivial, .inl ⟨rfl, rfl⟩⟩ | exact ⟨rfl, rfl, .inl ⟨rfl, rfl⟩⟩
  · obtain ⟨-, -, -, ht, hr, -⟩ := BlockAllocator.allocate_eq_ok ‹_›
    exact ⟨ht, hr, .inl ⟨rfl, rfl⟩⟩
  · obtain ⟨-, ht, hr, -⟩ := BlockAllocator.free_eq_ok.mp ‹_›
    exact ⟨ht, hr, .inl ⟨rfl, rfl⟩⟩
  · rename_i next hnext
    rw [checkedAdd_eq_some] at hnext
    exact ⟨trivial, trivial, .inr ⟨rfl, UInt64.lt_iff_toNat_lt.mpr (by rw [hnext]; exact Nat.lt_succ_self _)⟩⟩

theorem Run.sound {a : BlockAllocator} {ids : List UInt64} (h : Run ⟨a, .new⟩ ids s) :
    s.Consistent ∧ s.allocator.totalBlocks = a.totalBlocks ∧ s.allocator.reservedBlocks = a.reservedBlocks ∧
      ids.Nodup ∧ ∀ id ∈ ids, id < s.table.nextId := by
  induction h with
  | nil => exact ⟨consistent_new a, rfl, rfl, List.nodup_nil, nofun⟩
  | @call ids s c _ hc ih =>
    obtain ⟨hs, ht, hr, hnodup, hlt⟩ := ih
    obtain ⟨ht', hr', hids⟩ := s.call_keeps c
    refine ⟨hs.call hc, ht'.trans ht, hr'.trans hr, ?_⟩
    rcases hids with ⟨hids, hnext⟩ | ⟨hids, hnext⟩
    · rw [hids, hnext, List.append_nil]
      exact ⟨hnodup, hlt⟩
    · rw [hids]
      refine ⟨List.nodup_append.mpr ⟨hnodup, List.nodup_singleton _, fun i hi j hj he => ?_⟩, fun i hi => ?_⟩
      · exact absurd (hlt i hi) (by rw [he, List.mem_singleton.mp hj]; exact lt_irrefl _)
      · rcases List.mem_append.mp hi with hi | hi
        · exact (hlt i hi).trans hnext
        · rw [List.mem_singleton.mp hi]
          exact hnext

/-- The allocator hands out the lowest free block, a failed call changes nothing, no identifier is assigned twice,
and all three checks accept. -/
theorem ownership_agrees_with_fsck {total : UInt64} {reserved : Nat} {a : BlockAllocator}
    (hnew : BlockAllocator.new total reserved = .ok a)
    {ids : List UInt64} (h : Run ⟨a, .new⟩ ids s) :
    (∀ s' block, s.call .allocate = (s', .block block) →
      reserved ≤ block.toNat ∧ block < total ∧ ¬ s.allocator.Has block.toNat ∧
        (∀ c, reserved ≤ c → c < block.toNat → s.allocator.Has c) ∧ ∀ c,
          s'.allocator.Has c ↔ c = block.toNat ∨ s.allocator.Has c) ∧
      (∀ s' e, s.call .allocate = (s', .failed e) → ∀ c, reserved ≤ c → c < total.toNat → s.allocator.Has c) ∧
      (∀ s' block, s.call (.free block) = (s', .done) → ∀ c,
        s'.allocator.Has c ↔ c ≠ block.toNat ∧ s.allocator.Has c) ∧
      s.allocator.validate = .ok () ∧ s.table.validate s.allocator = .ok () ∧
      (∀ c s' e, s.call c = (s', .failed e) → s' = s) ∧ ids.Nodup ∧
      ∀ sb : Superblock, sb.reservedBlocks = reserved → sb.totalBlocks = total →
        auditInodeOwnership sb s.allocator s.persisted = .ok s.table.blockOwners.size := by
  obtain ⟨hs, ht, hr, hnodup, -⟩ := h.sound
  obtain ⟨-, htotal, hreserved, -⟩ := BlockAllocator.new_eq_ok.mp hnew
  rw [htotal] at ht
  rw [hreserved] at hr
  refine ⟨fun s' block hcall => ?_, fun s' e hcall => ?_, fun s' block hcall => ?_, s.allocator.validate_eq_ok,
    hs.validate, fun c s' e => call_failed, hnodup, ?_⟩
  · rw [call] at hcall
    split at hcall
    · exact nomatch (Prod.mk.inj hcall).2
    · rename_i b a' ha
      obtain ⟨rfl, hb⟩ := Prod.mk.inj hcall
      obtain rfl := OwnershipReply.block.inj hb
      obtain ⟨hge, hlt, hfree, -, -, hhas, hlow⟩ := BlockAllocator.allocate_eq_ok ha
      rw [hr] at hge hlow
      exact ⟨hge, UInt64.lt_iff_toNat_lt.mpr (ht ▸ hlt), hfree, hlow, hhas⟩
  · rw [call] at hcall
    split at hcall
    · rename_i e' ha
      have hfull := (BlockAllocator.allocate_eq_error ha).2
      rwa [hr, ht] at hfull
    · exact nomatch (Prod.mk.inj hcall).2
  · rw [call] at hcall
    split at hcall
    · exact nomatch (Prod.mk.inj hcall).2
    · rename_i a' ha
      obtain ⟨rfl, -⟩ := Prod.mk.inj hcall
      exact (BlockAllocator.free_eq_ok.mp ha).2.2.2
  · rintro sb rfl rfl
    exact hs.audit hr ht

def fourBlocks : BlockAllocator :=
  ⟨4, 1, List.replicate 4 false, 0, by decide, by decide, by decide, by decide, by decide⟩

theorem ownership_agrees_with_one_block :
    BlockAllocator.new 4 1 = .ok fourBlocks ∧ ∃ s, Run ⟨fourBlocks, .new⟩ [1] s ∧
    s.table.blockOwners.entries = [(1, 1)] ∧ s.table.validate s.allocator = .ok () := by
  have h₀ : Run ⟨fourBlocks, .new⟩ [] _ := .nil
  have h := ((h₀.call (.create .file) trivial).call .allocate trivial).call (.attachBlock 1 1) trivial
  have hnew : BlockAllocator.new 4 1 = .ok fourBlocks := rfl
  exact ⟨hnew, _, h, rfl, (ownership_agrees_with_fsck hnew h).2.2.2.2.1⟩

end Ownership

end SystemsLab.Fs
