import SystemsLab.Fs.Lifecycle

/-!
# What creation checks

No check looks across the three tables: a snapshot whose blocks are not allocated or whose entries dangle is
published like any other.
-/

namespace SystemsLab.Fs

open Prog LogState

variable {entries : List PersistedDirectoryEntry} {inodes : List PersistedInode} {a : BlockAllocator}
  {r : RecoveryReport}

theorem length_regionChanges_le (d : Disk) (range : BlockRange) (image : List UInt8) :
    (regionChanges d range image).length ≤ range.size := by
  refine Nat.le_trans (List.length_filterMap_le _ _) ?_
  rw [List.length_range']

section
variable {sb : Superblock} {d : Disk} (hw : sb.WellFormed) (hl : sb.totalBlocks.toNat = d.length)
include hw hl

theorem storeCreateMetadataJournaled_ok {d' : Disk}
    (h : (storeCreateMetadataJournaled sb a inodes entries).runOn d = (.ok r, d')) :
    ∃ changed, (changedMetadata sb a inodes entries).eval d = .ok changed ∧
      (changed = [] ∧ d' = d ∨ ∃ t : Publication sb d, t.changed = changed ∧ d' = t.cleared) := by
  rw [storeCreateMetadataJournaled, runOn_read, eval_count] at h
  simp only [liftM_eq, runOn_read, eval_lift, require_pos hl.symm] at h
  cases hc : (changedMetadata sb a inodes entries).eval d with
  | error e =>
    rw [hc] at h
    cases h
  | ok changed =>
    rw [hc] at h
    refine ⟨changed, rfl, ?_⟩
    by_cases he : changed = []
    · simp only [he, if_true] at h
      exact .inl ⟨he, (congrArg Prod.snd h).symm⟩
    · simp only [he, if_false] at h
      obtain ⟨t, ht, -, hd⟩ := (Publication.publish_clears_ok hw.homesApart _).mp h
      exact .inr ⟨t, ht, hd⟩

theorem storeCreateMetadataJournaled_loads {d' : Disk}
    (h : (storeCreateMetadataJournaled sb a inodes entries).runOn d = (.ok r, d')) :
    Loads sb d' ⟨a, inodes, entries⟩ := by
  obtain ⟨changed, hc, hcase⟩ := storeCreateMetadataJournaled_ok hw hl h
  have hload := loads_changedMetadata hw hl hc
  rcases hcase with ⟨rfl, rfl⟩ | ⟨t, rfl, rfl⟩
  · exact hload
  · exact t.sameHome_cleared.loads hw hload

theorem storeCreateMetadataJournaled_succeeds {ia ii ie : List UInt8} (hia : encodeAllocator sb a = .ok ia)
    (hii : inodeTable.encodeImage sb inodes = .ok ii) (hie : directoryTable.encodeImage sb entries = .ok ie)
    (h64 : sb.journalBlocks.toNat * blockSize < 2 ^ 64)
    (hfit : regionHeaderSize + (sb.allocationRange.size + sb.inodeRange.size + sb.directoryRange.size + 2) *
      (recordHeaderSize + blockSize) ≤ sb.journalBlocks.toNat * blockSize) :
    ∃ r d', (storeCreateMetadataJournaled sb a inodes entries).runOn d = (.ok r, d') := by
  have hchanged : (changedMetadata sb a inodes entries).eval d = .ok (regionChanges d sb.allocationRange ia ++
      (regionChanges d sb.inodeRange ii ++ regionChanges d sb.directoryRange ie)) := by
    rw [eval_changedMetadata hw hl, hia, hii, hie]
    rfl
  generalize hc : regionChanges d sb.allocationRange ia ++ (regionChanges d sb.inodeRange ii ++
    regionChanges d sb.directoryRange ie) = changed at hchanged
  rw [storeCreateMetadataJournaled, runOn_read, eval_count]
  simp only [liftM_eq, runOn_read, eval_lift, require_pos hl.symm, hchanged]
  by_cases he : changed = []
  · simp only [he, if_true]
    exact ⟨_, _, rfl⟩
  · simp only [he, if_false]
    obtain ⟨image, hi⟩ : ∃ image, (checkJournalImage sb (transactionRecords changed)).eval d = .ok image := by
      have hr := hw.ranges
      have hA := length_regionChanges_le d sb.allocationRange ia
      have hI := length_regionChanges_le d sb.inodeRange ii
      have hE := length_regionChanges_le d sb.directoryRange ie
      have hlen : (transactionRecords changed).length ≤
          sb.allocationRange.size + sb.inodeRange.size + sb.directoryRange.size + 2 := by
        simp only [← hc, transactionRecords, openRecords, List.length_append, List.length_cons, List.length_map,
          List.length_nil]
        omega
      apply checkJournalImage_fits
      · refine validateRegion_eq_ok.mpr ⟨hl, hw.journalStart_eq, hw.journalBlocks_ne, ?_⟩
        change sb.journalRange.stop ≤ _
        omega
      · refine validateEntries_eq_ok.mpr ⟨⟨_, scan_transactionRecords changed⟩, ?_⟩
        rw [logWrites_transactionRecords, ← hc]
        intro w hm
        simp only [List.mem_append] at hm
        have h64 := sb.totalBlocks.toNat_lt
        refine ⟨hw.endsFit, ?_⟩
        rcases hm with hm | hm | hm
        · exact .inl (mem_regionChanges (by omega) hm)
        · exact .inr (.inl (mem_regionChanges (by omega) hm))
        · exact .inr (.inr (.inl (mem_regionChanges (by omega) hm)))
      · exact h64
      · exact Nat.le_trans (Nat.add_le_add_left (Nat.mul_le_mul_right _ hlen) _) hfit
    let t : Publication sb d := ⟨changed, image, hi⟩
    exact ⟨_, _, (t.publish_clears hw.homesApart _).1⟩

end

theorem storeCreateMetadataJournaled_frame {sb : Superblock} {d d' : Disk} (hsb : readSuperblock.eval d = .ok sb)
    (hj : ∃ es, (loadJournalImage sb).eval d = .ok es)
    (h : (storeCreateMetadataJournaled sb a inodes entries).runOn d = (.ok r, d')) :
    readSuperblock.eval d' = .ok sb ∧ ∃ es, (loadJournalImage sb).eval d' = .ok es := by
  obtain ⟨-, hw, hl⟩ := readSuperblock_eq_ok.mp hsb
  obtain ⟨changed, -, hcase⟩ := storeCreateMetadataJournaled_ok hw hl h
  rcases hcase with ⟨-, rfl⟩ | ⟨t, -, rfl⟩
  · exact ⟨hsb, hj⟩
  · exact ⟨t.sameHome_cleared.readSuperblock (t.superblock_home hsb), _, t.load_cleared hw.homesApart⟩

theorem create_checked_iff {sb : Superblock} {d d' : Disk} (hsb : readSuperblock.eval d = .ok sb)
    (hcheck : ∃ report, checkDevice.eval d = .ok report) {a : BlockAllocator} {inodes : List PersistedInode}
    {entries : List PersistedDirectoryEntry} {r : RecoveryReport}
    (h : (storeCreateMetadataJournaled sb a inodes entries).runOn d = (.ok r, d')) :
    (∃ report, checkDevice.eval d' = .ok report) ↔ OwnershipValid sb a inodes ∧ NamespaceValid inodes entries := by
  obtain ⟨-, hw, hl⟩ := readSuperblock_eq_ok.mp hsb
  have hload := storeCreateMetadataJournaled_loads hw hl h
  obtain ⟨s₀, hs₀⟩ := (sound_iff hsb).mpr hcheck
  obtain ⟨hsb', hjournal⟩ := storeCreateMetadataJournaled_frame hsb hs₀.journal h
  rw [← sound_iff hsb']
  constructor
  · intro hsound
    obtain ⟨s, hs⟩ := hsound
    cases hs.loads.unique hload
    exact ⟨hs.valid.owned, hs.valid.tree⟩
  · intro hv
    exact ⟨_, hsb', hjournal, hload, ⟨hv.1, hv.2⟩⟩

/-! ## A device with room for a whole snapshot in its journal -/

def wideGeometry : Superblock := ⟨24, 1, 8, 9, 1, 10, 2, 12, 2⟩

theorem wideGeometry_wellFormed : wideGeometry.WellFormed :=
  (Superblock.withAllMetadataBlocks_eq_ok.mp (show Superblock.withJournalBlocks 24 8 = .ok wideGeometry by rfl)).1

theorem create_wide (inode : PersistedInode) (he : inode.Encodable) (hb : inode.blocks.length ≤ 16) :
    ∃ (d d' : Disk) (a : BlockAllocator) (r : RecoveryReport), readSuperblock.eval d = .ok wideGeometry ∧
      (∃ report, checkDevice.eval d = .ok report) ∧ (∀ b, ¬ a.Has b) ∧
      (storeCreateMetadataJournaled wideGeometry a [inode] []).runOn d = (.ok r, d') := by
  have hw := wideGeometry_wellFormed
  obtain ⟨d, hf, hj⟩ := formatWith_zero hw (by decide) (by decide) (by decide)
  obtain ⟨a, hload, hnone⟩ := hf.tables
  obtain ⟨-, -, hl⟩ := readSuperblock_eq_ok.mp hf.superblock
  obtain ⟨ie, hie⟩ := @TableFormat.encodeImage_nil wideGeometry _ _ _ directoryTable (by decide) (by decide)
  obtain ⟨ii, hii⟩ : ∃ ii, inodeTable.encodeImage wideGeometry [inode] = .ok ii := by
    have hpayload : inodeTable.records.encodeAll [] [inode] = .ok (inodeRecord inode ++ []) := by
      simp only [RecordStream.encodeAll, TableFormat.records, TableFormat.encodeNext, inodeTable,
        encodeInode_eq_ok.mpr ⟨he, rfl⟩, List.not_mem_nil, not_false_eq_true, require_pos]
      rfl
    refine inodeTable.encodeImage_fits hpayload (by simp) ?_ (by decide)
    rw [List.append_nil, length_inodeRecord, TableFormat.tableHeaderLen, inodeRecordHeaderLen]
    simp only [show (inodeTable.blocks wideGeometry).toNat = 2 from rfl, blockSize]
    omega
  obtain ⟨r, d', hrun⟩ := storeCreateMetadataJournaled_succeeds hw hl
    (loadAllocator_eq_ok.mp hload.allocator).2.2 hii hie
    (by decide) (by decide)
  exact ⟨d, d', a, r, hf.superblock, (sound_iff hf.superblock).mp ⟨_, hf.superblock, ⟨_, hj⟩, hload,
    Snapshot.valid_empty _ a⟩, hnone, hrun⟩

theorem namespaceValid_root (blocks : List UInt64) : NamespaceValid [⟨1, .directory, blocks⟩] [] := by
  refine ⟨by simp, by simp, fun _ => rfl, ?_, ?_⟩
  · intro x hx
    obtain ⟨y, hy, -⟩ := Relation.TransGen.head'_iff.mp hx
    simp [Edge, adjacency] at hy
  · intro inode hi
    rw [List.mem_singleton.mp hi]
    exact .refl

theorem create_checked_root : ∃ (d d' : Disk) (a : BlockAllocator) (r : RecoveryReport),
    (storeCreateMetadataJournaled wideGeometry a [⟨1, .directory, []⟩] []).runOn d = (.ok r, d') ∧
      ∃ report, checkDevice.eval d' = .ok report := by
  obtain ⟨d, d', a, r, hsb, hcheck, -, hrun⟩ :=
    create_wide ⟨1, .directory, []⟩ ⟨by decide, by decide, .nil⟩ (by decide)
  exact ⟨d, d', a, r, hrun, (create_checked_iff hsb hcheck hrun).mpr ⟨⟨by simp, by simp⟩, namespaceValid_root _⟩⟩

/-- A root directory that refers to a block no bitmap allocates is published. -/
theorem create_unallocated : ∃ (d d' : Disk) (a : BlockAllocator) (r : RecoveryReport),
    readSuperblock.eval d = .ok wideGeometry ∧ (∃ report, checkDevice.eval d = .ok report) ∧ ¬ a.Has 14 ∧
      (storeCreateMetadataJournaled wideGeometry a [⟨1, .directory, [14]⟩] []).runOn d = (.ok r, d') ∧
      ∀ report, checkDevice.eval d' ≠ .ok report := by
  obtain ⟨d, d', a, r, hsb, hcheck, hnone, hrun⟩ :=
    create_wide ⟨1, .directory, [14]⟩ ⟨by decide, by decide, by decide⟩ (by decide)
  refine ⟨d, d', a, r, hsb, hcheck, hnone 14, hrun, ?_⟩
  intro report h
  obtain ⟨-, hw, hl⟩ := readSuperblock_eq_ok.mp hsb
  obtain ⟨s₀, hs₀⟩ := (sound_iff hsb).mpr hcheck
  obtain ⟨hsb', -⟩ := storeCreateMetadataJournaled_frame hsb hs₀.journal hrun
  obtain ⟨s, hs⟩ := (sound_iff hsb').mpr ⟨report, h⟩
  cases hs.loads.unique (storeCreateMetadataJournaled_loads hw hl hrun)
  exact hnone 14 (hs.valid.owned.allocated _ List.mem_cons_self 14 List.mem_cons_self).2

/-! ## A device with a file -/

def wideAllocator : BlockAllocator :=
  ⟨24, 14, List.replicate 14 false ++ [true, true] ++ List.replicate 8 false, 2, by decide, by decide,
    rfl, by decide, rfl⟩

theorem has_wideAllocator {b : Nat} : wideAllocator.Has b ↔ b = 14 ∨ b = 15 := by
  have hall : ∀ b < 24, wideAllocator.Has b ↔ b = 14 ∨ b = 15 := by decide
  constructor
  · intro h
    exact (hall b h.lt).mp h
  · intro h
    exact (hall b (by omega)).mpr h

def wideInodes (blocks : List UInt64) : List PersistedInode := [⟨1, .directory, []⟩, ⟨2, .file, blocks⟩]

def wideSnapshot : Snapshot := ⟨wideAllocator, wideInodes [14, 15], [⟨1, 2, "a"⟩]⟩

theorem valid_wideSnapshot : wideSnapshot.Valid wideGeometry := by
  refine ⟨⟨?_, by decide⟩, (auditNamespace_eq_ok (u := ())).mp (by decide +kernel)⟩
  intro inode hi b hb
  simp only [wideSnapshot, wideInodes, List.mem_cons, List.not_mem_nil, or_false] at hi
  rcases hi with rfl | rfl
  · cases hb
  · simp only [List.mem_cons, List.not_mem_nil, or_false] at hb
    rcases hb with rfl | rfl
    · exact ⟨by decide, has_wideAllocator.mpr (.inl rfl)⟩
    · exact ⟨by decide, has_wideAllocator.mpr (.inr rfl)⟩

theorem store_wide {d : Disk} (hsb : readSuperblock.eval d = .ok wideGeometry)
    (ha : a.totalBlocks = 24 ∧ a.reservedBlocks = 14) (blocks : List UInt64) (hb : blocks ∈ [[], [14], [14, 15]]) :
    ∃ r d', (storeCreateMetadataJournaled wideGeometry a (wideInodes blocks) [⟨1, 2, "a"⟩]).runOn d =
      (.ok r, d') := by
  obtain ⟨-, hw, hl⟩ := readSuperblock_eq_ok.mp hsb
  obtain ⟨-, -, ia, -, -, -, -, hia⟩ := encodeAllocator_ok hw ha.1 ha.2
  obtain ⟨ii, hii⟩ : ∃ ii, inodeTable.encodeImage wideGeometry (wideInodes blocks) = .ok ii := by
    obtain ⟨hp, hlen⟩ : inodeTable.records.encodeAll [] (wideInodes blocks) =
        .ok (inodeRecord ⟨1, .directory, []⟩ ++ (inodeRecord ⟨2, .file, blocks⟩ ++ [])) ∧ blocks.length ≤ 2 := by
      simp only [List.mem_cons, List.not_mem_nil, or_false] at hb
      rcases hb with rfl | rfl | rfl <;> exact ⟨rfl, by decide⟩
    refine inodeTable.encodeImage_fits hp (by rw [wideInodes]; simp) ?_ (by decide)
    simp only [List.length_append, length_inodeRecord, List.length_nil]
    change _ ≤ 2 * 4096
    simp only [TableFormat.tableHeaderLen, inodeRecordHeaderLen]
    omega
  obtain ⟨ie, hie⟩ : ∃ ie, directoryTable.encodeImage wideGeometry [⟨1, 2, "a"⟩] = .ok ie := by
    have hp : directoryTable.records.encodeAll [] [⟨1, 2, "a"⟩] = .ok (directoryRecord ⟨1, 2, "a"⟩ ++ []) := rfl
    refine directoryTable.encodeImage_fits hp (by decide) ?_ (by decide)
    simp only [List.length_append, length_directoryRecord]
    decide
  exact storeCreateMetadataJournaled_succeeds hw hl hia hii hie (by decide) (by decide)

theorem sound_wideSnapshot : ∃ d, Sound wideGeometry d wideSnapshot := by
  obtain ⟨d, hf, hj⟩ := formatWith_zero wideGeometry_wellFormed (by decide) (by decide) (by decide)
  obtain ⟨-, hw, hl⟩ := readSuperblock_eq_ok.mp hf.superblock
  obtain ⟨r, d', hrun⟩ := store_wide hf.superblock (a := wideAllocator) ⟨rfl, rfl⟩ [14, 15] (by decide)
  obtain ⟨hsb, hjournal⟩ := storeCreateMetadataJournaled_frame hf.superblock ⟨_, hj⟩ hrun
  exact ⟨d', hsb, hjournal, storeCreateMetadataJournaled_loads hw hl hrun, valid_wideSnapshot⟩

/-- Truncating the file gives the tail of its blocks back. -/
theorem truncate_wide {d : Disk} (hsb : readSuperblock.eval d = .ok wideGeometry) (keep : Nat)
    (kept freed : List UInt64) (hload : Loads wideGeometry d ⟨a, wideInodes (kept ++ freed), [⟨1, 2, "a"⟩]⟩)
    (hkept : kept ∈ [[], [14], [14, 15]])
    (hk : kept.length = keep) (hne : freed ≠ []) {a' : BlockAllocator}
    (hfree : freeAll (fun e => invalidData e.message) freed a = .ok a')
    (ha : a'.totalBlocks = 24 ∧ a'.reservedBlocks = 14) :
    ∃ d', ((Edit.truncateFileToBlocks 2 keep).perform wideGeometry).runOn d = (.ok (), d') ∧
      Loads wideGeometry d' ⟨a', wideInodes kept, [⟨1, 2, "a"⟩]⟩ := by
  obtain ⟨-, hw, hl⟩ := readSuperblock_eq_ok.mp hsb
  obtain ⟨r, d', hrun⟩ := store_wide hsb ha kept hkept
  refine ⟨d', ?_, storeCreateMetadataJournaled_loads hw hl hrun⟩
  subst hk
  have hrelease : (releaseBlocks wideGeometry a (wideInodes (kept ++ freed)) [⟨1, 2, "a"⟩] ⟨2, .file, kept ++ freed⟩
      kept.length).runOn d = (.ok r, d') := by
    rw [releaseBlocks, runOn_check (by rw [List.drop_left]; exact hfree), List.take_left]
    exact hrun
  change (discardResult (truncateFileToBlocksJournaled wideGeometry 2 kept.length)).runOn d = _
  simp only [discardResult, truncateFileToBlocksJournaled, bind_assoc]
  refine runOn_read_eq_ok.mpr ⟨_, hload.allocator, runOn_read_eq_ok.mpr ⟨_, hload.inodes,
    runOn_read_eq_ok.mpr ⟨_, hload.entries, ?_⟩⟩⟩
  refine runOn_read_eq_ok.mpr ⟨⟨2, .file, kept ++ freed⟩, rfl, runOn_read_eq_ok.mpr ⟨(), rfl,
    runOn_read_eq_ok.mpr ⟨(), (eval_liftM _ d).trans (require_pos (by simp)), ?_⟩⟩⟩
  rw [if_neg (by simpa using hne), bind_assoc, runOn_bind_ok hrelease]
  rfl

/-! ## Runs -/

theorem checkDevice_runAll {sb : Superblock} {d : Disk} (hsb : readSuperblock.eval d = .ok sb)
    (hcheck : ∃ report, checkDevice.eval d = .ok report) (edits : List Edit) :
    (∃ report, checkDevice.eval (runAll sb edits d) = .ok report) ∧
      readSuperblock.eval (runAll sb edits d) = .ok sb ∧
      ∃ s, Loads sb (runAll sb edits d) s ∧ OwnershipValid sb s.allocator s.inodes ∧
        NamespaceValid s.inodes s.entries := by
  obtain ⟨s, hs⟩ := (sound_iff hsb).mpr hcheck
  obtain ⟨s', hs', -⟩ := hs.run edits
  exact ⟨(sound_iff hs'.superblock).mp ⟨s', hs'⟩, hs'.superblock, s', hs'.loads, hs'.valid.owned, hs'.valid.tree⟩

/-- The file is cut to one block, then to none. -/
def shrinking : List Edit := [.truncateFileToBlocks 2 1, .truncateFileToBlocks 2 0]

theorem shrinks_wide : ∃ d d₁ d₂, Sound wideGeometry d wideSnapshot ∧
    ((Edit.truncateFileToBlocks 2 1).perform wideGeometry).runOn d = (.ok (), d₁) ∧
    ((Edit.truncateFileToBlocks 2 0).perform wideGeometry).runOn d₁ = (.ok (), d₂) ∧
    (∃ a, Loads wideGeometry d₁ ⟨a, wideInodes [14], [⟨1, 2, "a"⟩]⟩) ∧
    ∃ a, Loads wideGeometry d₂ ⟨a, wideInodes [], [⟨1, 2, "a"⟩]⟩ := by
  obtain ⟨d, hs⟩ := sound_wideSnapshot
  obtain ⟨a₁, a₂, hfree₁, hfree₂, ha₁, ha₂⟩ :
      ∃ a₁ a₂, freeAll (fun e => invalidData e.message) [15] wideAllocator = .ok a₁ ∧
      freeAll (fun e => invalidData e.message) [14] a₁ = .ok a₂ ∧ (a₁.totalBlocks = 24 ∧ a₁.reservedBlocks = 14) ∧
        a₂.totalBlocks = 24 ∧ a₂.reservedBlocks = 14 := ⟨_, _, rfl, rfl, ⟨rfl, rfl⟩, rfl, rfl⟩
  obtain ⟨d₁, hrun₁, hload₁⟩ := truncate_wide hs.superblock 1 [14] [15] hs.loads (by decide) rfl (by decide)
    hfree₁ ha₁
  obtain ⟨s₁, hs₁, -⟩ := hs.step (.truncateFileToBlocks 2 1)
  rw [hrun₁] at hs₁
  obtain ⟨d₂, hrun₂, hload₂⟩ := truncate_wide hs₁.superblock 0 [] [14] hload₁ (by decide) rfl (by decide)
    hfree₂ ha₂
  exact ⟨d, d₁, d₂, hs, hrun₁, hrun₂, ⟨a₁, hload₁⟩, a₂, hload₂⟩

theorem checkDevice_runAll_shrinking : ∃ d d₁ d₂, Loads wideGeometry d wideSnapshot ∧
    ((Edit.truncateFileToBlocks 2 1).perform wideGeometry).runOn d = (.ok (), d₁) ∧
    ((Edit.truncateFileToBlocks 2 0).perform wideGeometry).runOn d₁ = (.ok (), d₂) ∧
    runAll wideGeometry shrinking d = d₂ ∧ ∃ report, checkDevice.eval d₂ = .ok report := by
  obtain ⟨d, d₁, d₂, hs, hrun₁, hrun₂, -⟩ := shrinks_wide
  have hall : runAll wideGeometry shrinking d = d₂ := by
    simp only [runAll, shrinking, List.foldl_cons, List.foldl_nil, hrun₁, hrun₂]
  refine ⟨d, d₁, d₂, hs.loads, hrun₁, hrun₂, hall, ?_⟩
  rw [← hall]
  exact (checkDevice_runAll hs.superblock ((sound_iff hs.superblock).mp ⟨_, hs⟩) shrinking).1

/-- The allocated blocks are the disjoint union of the block lists of the inodes. -/
def LeakFreeDevice (sb : Superblock) (d : Disk) (s : Snapshot) : Prop :=
  Loads sb d s ∧ LeakFree s.allocator (references s.inodes) ∧ (references s.inodes).Nodup

/-- The device stays leak-free, and each edit frees exactly the blocks no inode refers to any more and allocates
exactly the blocks some inode starts to refer to. -/
theorem leakFree_runAll {sb : Superblock} {d : Disk} (hsb : readSuperblock.eval d = .ok sb)
    (hcheck : ∃ report, checkDevice.eval d = .ok report) (hleak : ∃ s, LeakFreeDevice sb d s) (edits : List Edit)
    (e : Edit) :
    ∃ s s', LeakFreeDevice sb (runAll sb edits d) s ∧ LeakFreeDevice sb (runAll sb (edits ++ [e]) d) s' ∧
      ∀ b : UInt64,
        (s.allocator.Has b.toNat ∧ ¬ s'.allocator.Has b.toNat ↔
          b ∈ references s.inodes ∧ b ∉ references s'.inodes) ∧
        (¬ s.allocator.Has b.toNat ∧ s'.allocator.Has b.toNat ↔
          b ∉ references s.inodes ∧ b ∈ references s'.inodes) := by
  obtain ⟨s₀, hs₀⟩ := (sound_iff hsb).mpr hcheck
  obtain ⟨s, hs, hl⟩ := hs₀.run edits
  obtain ⟨s', hs', hstep⟩ := hs.step e
  have hrun : runAll sb (edits ++ [e]) d = ((e.perform sb).runOn (runAll sb edits d)).2 := by
    simp [runAll]
  obtain ⟨s₁, hload, hfree, -⟩ := hleak
  cases hload.unique hs₀.loads
  obtain ⟨t⟩ := hstep.owned
  rw [hrun]
  exact ⟨s, s', ⟨hs.loads, hl hfree, hs.valid.owned.nodup⟩,
    ⟨hs'.loads, hstep.leakFree hs.valid (hl hfree), hs'.valid.owned.nodup⟩,
    t.changed_iff hs.valid.owned⟩

/-- The second cut frees the block the file kept. -/
theorem leakFree_runAll_shrinking : ∃ d s s', Loads wideGeometry d wideSnapshot ∧
    LeakFreeDevice wideGeometry (runAll wideGeometry [.truncateFileToBlocks 2 1] d) s ∧
    LeakFreeDevice wideGeometry (runAll wideGeometry shrinking d) s' ∧ s.allocator.Has 14 ∧
      ¬ s'.allocator.Has 14 := by
  obtain ⟨d, d₁, d₂, hs, hrun₁, hrun₂, ⟨a₁, hload₁⟩, a₂, hload₂⟩ := shrinks_wide
  have hleak : LeakFreeDevice wideGeometry d wideSnapshot := by
    refine ⟨hs.loads, fun b => has_wideAllocator.trans ?_, hs.valid.owned.nodup⟩
    simp [wideSnapshot, wideInodes, references, ← UInt64.toNat_inj]
  obtain ⟨s, s', h, h', hblocks⟩ := leakFree_runAll hs.superblock ((sound_iff hs.superblock).mp ⟨_, hs⟩) ⟨_, hleak⟩
    [.truncateFileToBlocks 2 1] (.truncateFileToBlocks 2 0)
  have hone : runAll wideGeometry [.truncateFileToBlocks 2 1] d = d₁ := congrArg Prod.snd hrun₁
  have hall : runAll wideGeometry shrinking d = d₂ := by
    simp only [runAll, shrinking, List.foldl_cons, List.foldl_nil, hrun₁, hrun₂]
  obtain rfl := (hone ▸ h.1).unique hload₁
  obtain rfl := (show Loads wideGeometry d₂ s' from hall ▸ h'.1).unique hload₂
  exact ⟨d, _, _, hs.loads, h, h', (hblocks 14).1.mpr ⟨List.mem_cons_self, List.not_mem_nil⟩⟩

end SystemsLab.Fs
