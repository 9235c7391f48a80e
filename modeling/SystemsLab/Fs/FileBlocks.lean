import SystemsLab.Fs.Namespace

/-!
# Shrinking and growing files

Truncation gives the tail of a file's blocks back; appending and inserting take fresh blocks and write their data in
the same transaction.
-/

namespace SystemsLab.Fs

open Prog Relation
variable {id : UInt64} {inode : PersistedInode}

def updateBlocks (id : UInt64) (blocks : List UInt64) : List PersistedInode → List PersistedInode
  | [] => []
  | inode :: inodes =>
    if inode.id = id then { inode with blocks := blocks } :: inodes
    else inode :: updateBlocks id blocks inodes

/-! ## Truncation -/

def releaseBlocks (sb : Superblock) (allocator : BlockAllocator) (inodes : List PersistedInode)
    (entries : List PersistedDirectoryEntry) (target : PersistedInode) (keep : Nat) : FsProg RecoveryReport := do
  let allocator ← freeAll (fun e => invalidData e.message) (target.blocks.drop keep) allocator
  storeCreateMetadataJournaled sb allocator (updateBlocks target.id (target.blocks.take keep) inodes) entries

def truncateFileToZeroJournaled (sb : Superblock) (inodeId : UInt64) : FsProg RecoveryReport := do
  let allocator ← loadAllocator sb
  let inodes ← loadInodeTable sb
  let entries ← loadDirectoryTable sb
  let target ← okOr (invalidInput "truncate target inode is missing") (findInode inodes inodeId)
  require (target.kind = .file) (invalidInput "truncate target must be a regular file")
  if target.blocks = [] then pure ⟨0, 0⟩ else releaseBlocks sb allocator inodes entries target 0

def truncateFileToBlocksJournaled (sb : Superblock) (inodeId : UInt64) (targetBlocks : Nat) :
    FsProg (List UInt64 × RecoveryReport) := do
  let allocator ← loadAllocator sb
  let inodes ← loadInodeTable sb
  let entries ← loadDirectoryTable sb
  let target ← okOr (invalidInput "truncate target inode is missing") (findInode inodes inodeId)
  require (target.kind = .file) (invalidInput "truncate target must be a regular file")
  require (targetBlocks ≤ target.blocks.length)
    (invalidInput "truncate target block count exceeds current file blocks")
  if targetBlocks = target.blocks.length then pure ([], ⟨0, 0⟩) else
    let report ← releaseBlocks sb allocator inodes entries target targetBlocks
    pure (target.blocks.drop targetBlocks, report)

def truncateFileLastBlockJournaled (sb : Superblock) (inodeId : UInt64) : FsProg (UInt64 × RecoveryReport) := do
  let allocator ← loadAllocator sb
  let inodes ← loadInodeTable sb
  let entries ← loadDirectoryTable sb
  let target ← okOr (invalidInput "truncate target inode is missing") (findInode inodes inodeId)
  require (target.kind = .file) (invalidInput "truncate target must be a regular file")
  let block ← okOr (invalidInput "truncate target already has zero blocks") target.blocks.getLast?
  let report ← releaseBlocks sb allocator inodes entries target (target.blocks.length - 1)
  pure (block, report)

/-! ## Growth -/

def publishGrowth (label : String) (sb : Superblock) (allocator : BlockAllocator) (inodes : List PersistedInode)
    (fresh : List UInt64) (data : List Block) : FsProg RecoveryReport := do
  let changed ← changedFileTables label sb allocator inodes
  publish recoverJournalAndCheckpoint (label ++ " recovery report is inconsistent") sb (changed ++ fresh.zip data)

def appendFileBlocksJournaled (sb : Superblock) (inodeId : UInt64) (dataBlocks : List Block) :
    FsProg (List UInt64 × RecoveryReport) := do
  require (dataBlocks ≠ []) (invalidInput "multi-block append requires at least one data block")
  let allocator ← loadAllocator sb
  let inodes ← loadInodeTable sb
  let inode ← okOr (invalidInput "file-data target inode is missing") (findInode inodes inodeId)
  require (inode.kind = .file) (invalidInput "file-data target must be a regular file")
  let taken ← allocateAll (fun e => invalidInput e.message) dataBlocks.length allocator
  let report ← publishGrowth "multi-block append" sb taken.2 (updateBlocks inodeId (inode.blocks ++ taken.1) inodes)
    taken.1 dataBlocks
  pure (taken.1, report)

def appendFileBlockJournaled (sb : Superblock) (inodeId : UInt64) (data : Block) :
    FsProg (UInt64 × RecoveryReport) := do
  let allocator ← loadAllocator sb
  let inodes ← loadInodeTable sb
  let inode ← okOr (invalidInput "file-data target inode is missing") (findInode inodes inodeId)
  require (inode.kind = .file) (invalidInput "file-data target must be a regular file")
  let taken ← allocator.allocate.mapError fun e => invalidInput e.message
  let report ← publishGrowth "file append" sb taken.2
    (updateBlocks inodeId (inode.blocks ++ [taken.1]) inodes) [taken.1] [data]
  pure (taken.1, report)

def insertFileBlockJournaled (sb : Superblock) (inodeId : UInt64) (insertIndex : Nat) (data : Block) :
    FsProg (UInt64 × RecoveryReport) := do
  let allocator ← loadAllocator sb
  let inodes ← loadInodeTable sb
  let inode ← okOr (invalidInput "file insert target inode is missing") (findInode inodes inodeId)
  require (inode.kind = .file) (invalidInput "file insert target must be a regular file")
  require (insertIndex ≤ inode.blocks.length) (invalidInput "file insert logical index is beyond the end")
  let taken ← allocator.allocate.mapError fun e => invalidInput e.message
  let report ← publishGrowth "file insert" sb taken.2
    (updateBlocks inodeId (inode.blocks.insertIdx insertIndex taken.1) inodes) [taken.1] [data]
  pure (taken.1, report)

/-! ## Edited inodes -/

section
variable {inodes inodes' : List PersistedInode} {entries : List PersistedDirectoryEntry}

theorem NamespaceValid.congr (h : NamespaceValid inodes entries)
    (he : inodes'.map (fun inode => (inode.id, inode.kind)) = inodes.map fun inode => (inode.id, inode.kind)) :
    NamespaceValid inodes' entries := by
  have hids : ∀ id, (∃ inode ∈ inodes', inode.id = id) ↔ ∃ inode ∈ inodes, inode.id = id := by
    intro id
    have hmap := congrArg (fun l => id ∈ l.map Prod.fst) he
    simpa using hmap
  have hkinds : inodeKinds inodes' = inodeKinds inodes := by
    funext id
    rw [inodeKinds, he, ← inodeKinds]
  refine ⟨?_, ?_, ?_, h.acyclic, ?_⟩
  · rw [hkinds]
    exact h.parent
  · intro e hm
    exact (hids _).mpr (h.target e hm)
  · intro hne
    rw [hkinds]
    refine h.root fun hnil => hne ?_
    rw [hnil, List.map_nil] at he
    exact List.map_eq_nil_iff.mp he
  · intro inode hm
    obtain ⟨other, ho, hid⟩ := (hids inode.id).mp ⟨inode, hm, rfl⟩
    rw [← hid]
    exact h.reachable other ho

theorem updateBlocks_kinds (id : UInt64) (blocks : List UInt64) : ∀ inodes : List PersistedInode,
    (updateBlocks id blocks inodes).map (fun inode => (inode.id, inode.kind)) =
      inodes.map fun inode => (inode.id, inode.kind)
  | [] => rfl
  | inode :: inodes => by
    unfold updateBlocks
    split
    · rfl
    · rw [List.map_cons, List.map_cons, updateBlocks_kinds id blocks inodes]

theorem references_updateBlocks (h : findInode inodes id = some inode) :
    ∃ rest, (references inodes).Perm (inode.blocks ++ rest) ∧
      ∀ blocks, (references (updateBlocks id blocks inodes)).Perm (blocks ++ rest) := by
  induction inodes with
  | nil => cases h
  | cons other inodes ih =>
    rw [findInode, List.find?_cons] at h
    by_cases hid : other.id = id
    · simp only [hid, decide_true, Option.some.injEq] at h
      subst h
      refine ⟨references inodes, .refl _, fun blocks => ?_⟩
      rw [updateBlocks, if_pos hid]
      exact .refl _
    · simp only [hid, decide_false] at h
      obtain ⟨rest, hold, hnew⟩ := ih h
      refine ⟨other.blocks ++ rest, ?_, fun blocks => ?_⟩
      · exact (hold.append_left other.blocks).trans (List.perm_append_comm_assoc _ _ _)
      · rw [updateBlocks, if_neg hid]
        exact ((hnew blocks).append_left other.blocks).trans (List.perm_append_comm_assoc _ _ _)

end

/-! ## What the operations do -/

section
variable {sb : Superblock} {d : Disk} (hw : sb.WellFormed) (hl : sb.totalBlocks.toNat = d.length) (inodeId : UInt64)
include hw hl

theorem releaseBlocks_outcome {s : Snapshot} (hs : Loads sb d s) {target : PersistedInode}
    (hf : findInode s.inodes id = some target) (keep : Nat) :
    Outcome sb d (Steps sb d) (releaseBlocks sb s.allocator s.inodes s.entries target keep) := by
  apply Outcome.check
  intro released hfree
  refine (storeCreateMetadataJournaled_outcome hw hl).mono fun h hload s' hs' _ => ⟨_, hload, ?_, fun hv => ?_⟩
  all_goals
    obtain rfl := hs.unique hs'
    obtain ⟨-, rfl⟩ := findInode_eq_some hf
  · obtain ⟨rest, hold, hnew⟩ := references_updateBlocks hf
    refine ⟨.release hfree (hold.trans ?_)⟩
    have hsplit : (target.blocks ++ rest).Perm (target.blocks.drop keep ++ (target.blocks.take keep ++ rest)) := by
      nth_rewrite 1 [← List.take_append_drop keep target.blocks]
      rw [List.append_assoc]
      exact List.perm_append_comm_assoc _ _ _
    exact hsplit.trans ((hnew _).symm.append_left _)
  · exact hv.congr (updateBlocks_kinds _ _ _)

theorem truncateFileToZeroJournaled_outcome :
    Outcome sb d (Steps sb d) (truncateFileToZeroJournaled sb inodeId) := by
  refine .load_tables fun s hs => ?_
  apply Outcome.find
  intro target htarget
  apply Outcome.guard
  intro _
  apply Outcome.otherwise
  intro hnil
  exact releaseBlocks_outcome hw hl hs htarget 0

theorem truncateFileToBlocksJournaled_outcome (targetBlocks : Nat) :
    Outcome sb d (Steps sb d) (truncateFileToBlocksJournaled sb inodeId targetBlocks) := by
  refine .load_tables fun s hs => ?_
  apply Outcome.find
  intro target htarget
  apply Outcome.guard
  intro _
  apply Outcome.guard
  intro _
  apply Outcome.otherwise
  intro hlen
  exact (releaseBlocks_outcome hw hl hs htarget targetBlocks).map _

theorem truncateFileLastBlockJournaled_outcome :
    Outcome sb d (Steps sb d) (truncateFileLastBlockJournaled sb inodeId) := by
  refine .load_tables fun s hs => ?_
  apply Outcome.find
  intro target htarget
  apply Outcome.guard
  intro _
  apply Outcome.find
  intro block _
  exact (releaseBlocks_outcome hw hl hs htarget _).map _

theorem publishGrowth_outcome {a a' : BlockAllocator} {inodes : List PersistedInode}
    (ha : (loadAllocator sb).eval d = .ok a)
    (hi : (loadInodeTable sb).eval d = .ok inodes)
    (hf : findInode inodes id = some inode) {fresh blocks : List UInt64} (htaken : Allocated a a' fresh)
    (hp : blocks.Perm (fresh ++ inode.blocks)) (label : String) (data : List Block) :
    Outcome sb d (Steps sb d) (publishGrowth label sb a' (updateBlocks id blocks inodes) fresh data) := by
  apply Outcome.bind
  intro changed hc
  apply Outcome.publish_clears hw.homesApart
  intro s hs _
  obtain rfl := Except.ok.inj (hs.allocator.symm.trans ha)
  obtain rfl := Except.ok.inj (hs.inodes.symm.trans hi)
  obtain ⟨ht, hr⟩ := hs.geometry
  refine ⟨_, loads_changedFileTables hw hl hs hc fun w hm => htaken.data ht hr (List.of_mem_zip hm).1, ?_,
    fun hv => hv.congr (updateBlocks_kinds _ _ _)⟩
  obtain ⟨rest, hold, hnew⟩ := references_updateBlocks hf
  refine ⟨.gain htaken ht hr (((hnew _).trans (hp.append_right rest)).trans ?_)⟩
  rw [List.append_assoc]
  exact hold.symm.append_left _

theorem appendFileBlocksJournaled_outcome (dataBlocks : List Block) :
    Outcome sb d (Steps sb d) (appendFileBlocksJournaled sb inodeId dataBlocks) := by
  apply Outcome.guard
  intro _
  apply Outcome.bind
  intro allocator ha
  apply Outcome.bind
  intro inodes hi
  apply Outcome.find
  intro inode hinode
  apply Outcome.guard
  intro _
  apply Outcome.check
  intro taken htaken
  obtain ⟨-, hfresh⟩ := allocateAll_eq_ok htaken
  exact (publishGrowth_outcome hw hl ha hi hinode hfresh List.perm_append_comm _ _).map _

theorem appendFileBlockJournaled_outcome (data : Block) :
    Outcome sb d (Steps sb d) (appendFileBlockJournaled sb inodeId data) := by
  apply Outcome.bind
  intro allocator ha
  apply Outcome.bind
  intro inodes hi
  apply Outcome.find
  intro inode hinode
  apply Outcome.guard
  intro _
  apply Outcome.check
  intro taken htaken
  have hfresh := Allocated.single (except_mapError_eq_ok.mp htaken)
  exact (publishGrowth_outcome hw hl ha hi hinode hfresh List.perm_append_comm _ _).map _

theorem insertFileBlockJournaled_outcome (insertIndex : Nat) (data : Block) :
    Outcome sb d (Steps sb d) (insertFileBlockJournaled sb inodeId insertIndex data) := by
  apply Outcome.bind
  intro allocator ha
  apply Outcome.bind
  intro inodes hi
  apply Outcome.find
  intro inode hinode
  apply Outcome.guard
  intro _
  apply Outcome.guard
  intro hindex
  apply Outcome.check
  intro taken htaken
  have hfresh := Allocated.single (except_mapError_eq_ok.mp htaken)
  exact (publishGrowth_outcome hw hl ha hi hinode hfresh (List.perm_insertIdx _ _ hindex) _ _).map _

end

end SystemsLab.Fs
