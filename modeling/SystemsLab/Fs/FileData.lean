import SystemsLab.Fs.Namespace

/-!
# Overwriting file data

All overwrites come down to one transaction of data blocks of one file, so the tables stay as they are.
-/

namespace SystemsLab.Fs

open Prog
variable {inode : PersistedInode} {block : UInt64}

/-! ## Reading -/

def fileInode (inodes : List PersistedInode) (inodeId : UInt64) : Except IoError PersistedInode := do
  let inode ← okOr (invalidInput "file-data target inode is missing") (findInode inodes inodeId)
  require (inode.kind = .file) (invalidInput "file-data target must be a regular file")
  pure inode

def requireOwned (allocator : BlockAllocator) (block : UInt64) : Except IoError Unit := do
  let owned ← (allocator.isOwned block).mapError fun e => invalidData e.message
  require (owned = true) (invalidData "file-data inode references an unowned block")

def resolveOwnedFileBlock (sb : Superblock) (inodeId : UInt64) (index : Nat) : FsProg UInt64 := do
  let inodes ← loadInodeTable sb
  let inode ← fileInode inodes inodeId
  let block ← okOr (invalidInput "file-data logical block index is out of range") inode.blocks[index]?
  let allocator ← loadAllocator sb
  requireOwned allocator block
  pure block

def readFileBlock (sb : Superblock) (inodeId : UInt64) (index : Nat) : FsProg Block := do
  let block ← resolveOwnedFileBlock sb inodeId index
  getBlock block.toNat

def readFileRangeLoop (sb : Superblock) (inodeId : UInt64) (firstBlock startOffset : Nat) :
    List Nat → Nat → FsProg (List UInt8)
  | [], _ => pure []
  | relative :: rest, remaining => do
    require (firstBlock + relative < 2 ^ 64) (invalidInput "file-data logical index overflow")
    let image ← readFileBlock sb inodeId (firstBlock + relative)
    let start := if relative = 0 then startOffset else 0
    let take := min (blockSize - start) remaining
    let output ← readFileRangeLoop sb inodeId firstBlock startOffset rest (remaining - take)
    pure (slice image.bytes start (start + take) ++ output)

def readFileRange (sb : Superblock) (inodeId : UInt64) (firstBlock startOffset len : Nat) :
    FsProg (List UInt8) := do
  require (len ≠ 0 ∧ startOffset < blockSize)
    (invalidInput "file-data read range must be non-empty and start within a block")
  require (startOffset + len < 2 ^ 64) (invalidInput "file-data read range length overflow")
  readFileRangeLoop sb inodeId firstBlock startOffset
    (List.range ((startOffset + len + blockSize - 1) / blockSize)) len

/-! ## Writing -/

/-- `image[offset..offset + data.len()].copy_from_slice(data)`. -/
def Block.patch (x : Block) (offset : Nat) (data : List UInt8) : Block :=
  .ofBytes (x.bytes.take offset ++ data ++ x.bytes.drop (offset + data.length))

def journalBlockImage (sb : Superblock) (block : UInt64) (data : Block) : FsProg RecoveryReport := do
  let current ← getBlock block.toNat
  if current = data then pure ⟨0, 0⟩ else
    publish recoverJournalAndCheckpoint "file-data transaction recovery report is inconsistent" sb [(block, data)]

def writeFileBlockJournaled (sb : Superblock) (inodeId : UInt64) (index : Nat) (data : Block) :
    FsProg RecoveryReport := do
  let block ← resolveOwnedFileBlock sb inodeId index
  journalBlockImage sb block data

def writeFileBlockRangeJournaled (sb : Superblock) (inodeId : UInt64) (index offset : Nat) (data : List UInt8) :
    FsProg RecoveryReport := do
  require (data ≠ [] ∧ offset < blockSize ∧ data.length ≤ blockSize - offset)
    (invalidInput "partial file-data write must be non-empty and stay within one block")
  let block ← resolveOwnedFileBlock sb inodeId index
  let image ← getBlock block.toNat
  journalBlockImage sb block (image.patch offset data)

def collectOverwrites (allocator : BlockAllocator) (inode : PersistedInode) :
    List (Nat × Block) → List Nat → FsProg (List (UInt64 × Block))
  | [], _ => pure []
  | (index, image) :: writes, seen => do
    require (index ∉ seen) (invalidInput "file-data overwrite batch contains a duplicate logical block index")
    let block ← okOr (invalidInput "file-data logical block index is out of range") inode.blocks[index]?
    requireOwned allocator block
    let current ← getBlock block.toNat
    let changed ← collectOverwrites allocator inode writes (index :: seen)
    pure (if current = image then changed else (block, image) :: changed)

def writeFileBlocksJournaled (sb : Superblock) (inodeId : UInt64) (writes : List (Nat × Block)) :
    FsProg RecoveryReport := do
  require (writes ≠ []) (invalidInput "file-data overwrite batch must not be empty")
  let inodes ← loadInodeTable sb
  let inode ← fileInode inodes inodeId
  let allocator ← loadAllocator sb
  let changed ← collectOverwrites allocator inode writes []
  if changed = [] then pure ⟨0, 0⟩ else
    publish recoverJournalAndCheckpoint
      "multi-block file-data transaction recovery report is inconsistent" sb changed

def patchBlocks (sb : Superblock) (inodeId : UInt64) (firstBlock startOffset : Nat) (data : List UInt8) :
    List Nat → Nat → FsProg (List (Nat × Block))
  | [], _ => pure []
  | relative :: rest, consumed => do
    require (firstBlock + relative < 2 ^ 64) (invalidInput "file-data logical index overflow")
    let image ← readFileBlock sb inodeId (firstBlock + relative)
    let start := if relative = 0 then startOffset else 0
    let take := min (blockSize - start) (data.length - consumed)
    let writes ← patchBlocks sb inodeId firstBlock startOffset data rest (consumed + take)
    pure ((firstBlock + relative, image.patch start (slice data consumed (consumed + take))) :: writes)

def writeFileRangeJournaled (sb : Superblock) (inodeId : UInt64) (firstBlock startOffset : Nat)
    (data : List UInt8) :
    FsProg RecoveryReport := do
  require (data ≠ [] ∧ startOffset < blockSize)
    (invalidInput "file-data range must be non-empty and start within a block")
  require (startOffset + data.length < 2 ^ 64) (invalidInput "file-data range length overflow")
  let writes ← patchBlocks sb inodeId firstBlock startOffset data
    (List.range ((startOffset + data.length + blockSize - 1) / blockSize)) 0
  writeFileBlocksJournaled sb inodeId writes

def zeroFileRangeJournaled (sb : Superblock) (inodeId : UInt64) (firstBlock offset len : Nat) :
    FsProg RecoveryReport := do
  require (len ≠ 0) (invalidInput "zero-range requires at least one byte")
  writeFileRangeJournaled sb inodeId firstBlock offset (List.replicate len 0)

structure FileRangeEndpoint where
  inode : UInt64
  firstBlock : Nat
  offset : Nat

def copyFileRangeJournaled (sb : Superblock) (source destination : FileRangeEndpoint) (len : Nat) :
    FsProg RecoveryReport := do
  let snapshot ← readFileRange sb source.inode source.firstBlock source.offset len
  writeFileRangeJournaled sb destination.inode destination.firstBlock destination.offset snapshot

/-! ## What the operations do -/

section
variable (sb : Superblock) (inodeId : UInt64)

instance (index : Nat) : (resolveOwnedFileBlock sb inodeId index).Reads := by
  unfold resolveOwnedFileBlock; infer_instance

instance (index : Nat) : (readFileBlock sb inodeId index).Reads := by unfold readFileBlock; infer_instance

instance (firstBlock startOffset remaining : Nat) (relatives : List Nat) :
    (readFileRangeLoop sb inodeId firstBlock startOffset relatives remaining).Reads := by
  induction relatives generalizing remaining with
  | nil | cons r rest ih => unfold readFileRangeLoop; infer_instance

instance (firstBlock startOffset len : Nat) : (readFileRange sb inodeId firstBlock startOffset len).Reads := by
  unfold readFileRange; infer_instance

instance (firstBlock startOffset consumed : Nat) (data : List UInt8) (relatives : List Nat) :
    (patchBlocks sb inodeId firstBlock startOffset data relatives consumed).Reads := by
  induction relatives generalizing consumed with
  | nil | cons r rest ih => unfold patchBlocks; infer_instance

end

instance (allocator : BlockAllocator) (inode : PersistedInode) (writes : List (Nat × Block)) (seen : List Nat) :
    (collectOverwrites allocator inode writes seen).Reads := by
  induction writes generalizing seen with
  | nil | cons w writes ih => unfold collectOverwrites; infer_instance

theorem fileInode_eq_ok {inodes : List PersistedInode} {inodeId : UInt64}
    (h : fileInode inodes inodeId = .ok inode) : inode ∈ inodes := by
  simp only [fileInode, steps_ok, exists_const] at h
  obtain ⟨found, hf, -, rfl⟩ := h
  exact (findInode_eq_some hf).1

theorem mem_of_resolve {sb : Superblock} {d : Disk} {inodeId : UInt64} {index : Nat} {s : Snapshot}
    (hs : Loads sb d s) (h : (resolveOwnedFileBlock sb inodeId index).eval d = .ok block) :
    block ∈ references s.inodes := by
  simp only [resolveOwnedFileBlock, eval_bind, eval_liftM, eval_pure, steps_ok] at h
  obtain ⟨inodes, hi, inode, hf, b, hb, _, -, _, -, rfl⟩ := h
  obtain rfl := Except.ok.inj (hs.inodes.symm.trans hi)
  exact mem_references.mpr ⟨inode, fileInode_eq_ok hf, List.mem_of_getElem? hb⟩

theorem mem_of_collectOverwrites {allocator : BlockAllocator} {d : Disk} :
    ∀ {writes : List (Nat × Block)} {seen : List Nat} {changed : List (UInt64 × Block)},
      (collectOverwrites allocator inode writes seen).eval d = .ok changed → ∀ w ∈ changed, w.1 ∈ inode.blocks
  | [], seen, changed, h, w, hw => by
    cases h
    cases hw
  | (index, image) :: writes, seen, changed, h, w, hw => by
    simp only [collectOverwrites, eval_bind, eval_liftM, eval_pure, steps_ok] at h
    obtain ⟨_, -, block, hb, _, -, current, -, rest, hrest, rfl⟩ := h
    split at hw
    · exact mem_of_collectOverwrites hrest w hw
    · rcases List.mem_cons.mp hw with rfl | hw
      · exact List.mem_of_getElem? hb
      · exact mem_of_collectOverwrites hrest w hw

section
variable {sb : Superblock} {d : Disk} (hw : sb.WellFormed) (hl : sb.totalBlocks.toNat = d.length) (inodeId : UInt64)
include hw hl

theorem steps_of_data {changed : List (UInt64 × Block)}
    (h : ∀ s, Loads sb d s → ∀ w ∈ changed, w.1 ∈ references s.inodes) :
    Steps sb d (overlay d (homeWrites changed)) := by
  intro s hs hv
  have hdata := (ownershipValid_iff.mp hv.owned).1
  exact ⟨s, hs.keep hw hl fun w hm => (hdata w.1 (h s hs w hm)).1, ⟨.refl _ (.refl _)⟩, id⟩

theorem journalBlockImage_outcome (h : ∀ s, Loads sb d s → block ∈ references s.inodes) (data : Block) :
    Outcome sb d (Steps sb d) (journalBlockImage sb block data) := by
  apply Outcome.bind
  intro current _
  apply Outcome.otherwise
  intro he
  refine .publish_clears hw.homesApart _ (steps_of_data hw hl fun s hs w hm => ?_)
  rw [List.mem_singleton.mp hm]
  exact h s hs

theorem writeFileBlockJournaled_outcome (index : Nat) (data : Block) :
    Outcome sb d (Steps sb d) (writeFileBlockJournaled sb inodeId index data) := by
  apply Outcome.bind
  intro block hb
  exact journalBlockImage_outcome hw hl (fun s hs => mem_of_resolve hs hb) data

theorem writeFileBlockRangeJournaled_outcome (index offset : Nat) (data : List UInt8) :
    Outcome sb d (Steps sb d) (writeFileBlockRangeJournaled sb inodeId index offset data) := by
  apply Outcome.guard
  intro _
  apply Outcome.bind
  intro block hb
  apply Outcome.bind
  intro image _
  exact journalBlockImage_outcome hw hl (fun s hs => mem_of_resolve hs hb) _

theorem writeFileBlocksJournaled_outcome (writes : List (Nat × Block)) :
    Outcome sb d (Steps sb d) (writeFileBlocksJournaled sb inodeId writes) := by
  apply Outcome.guard
  intro _
  apply Outcome.bind
  intro inodes hi
  apply Outcome.check
  intro inode hinode
  apply Outcome.bind
  intro allocator _
  apply Outcome.bind
  intro changed hc
  apply Outcome.otherwise
  intro he
  refine .publish_clears hw.homesApart _ (steps_of_data hw hl fun s hs w hm => ?_)
  obtain rfl := Except.ok.inj (hs.inodes.symm.trans hi)
  exact mem_references.mpr ⟨inode, fileInode_eq_ok hinode, mem_of_collectOverwrites hc w hm⟩

theorem writeFileRangeJournaled_outcome (firstBlock startOffset : Nat) (data : List UInt8) :
    Outcome sb d (Steps sb d) (writeFileRangeJournaled sb inodeId firstBlock startOffset data) := by
  apply Outcome.guard
  intro _
  apply Outcome.guard
  intro _
  apply Outcome.bind
  intro writes _
  exact writeFileBlocksJournaled_outcome hw hl inodeId writes

theorem zeroFileRangeJournaled_outcome (firstBlock offset len : Nat) :
    Outcome sb d (Steps sb d) (zeroFileRangeJournaled sb inodeId firstBlock offset len) := by
  apply Outcome.guard
  intro _
  exact writeFileRangeJournaled_outcome hw hl inodeId firstBlock offset _

theorem copyFileRangeJournaled_outcome (source destination : FileRangeEndpoint) (len : Nat) :
    Outcome sb d (Steps sb d) (copyFileRangeJournaled sb source destination len) := by
  apply Outcome.bind
  intro snapshot _
  exact writeFileRangeJournaled_outcome hw hl _ _ _ _

end

end SystemsLab.Fs
