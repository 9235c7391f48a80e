import SystemsLab.Fs.FileBlocks
import SystemsLab.Fs.FileData
import SystemsLab.Fs.Formatter
import SystemsLab.Fs.Unlink

/-!
# Runs of journaled operations

From `Outcome` alone: an error changes nothing, a run of edits keeps the device valid and free of leaks, and
recovery after a crash leads to the state before the operation or after it.
-/

namespace SystemsLab.Fs

open Prog LogState

variable {sb : Superblock} {d : Disk} (t : Publication sb d)
variable {d' : Disk} {s : Snapshot}

/-! ## The operations -/

inductive Edit
  | unlink (allocator : BlockAllocator) (inodes : List PersistedInode) (entries : List PersistedDirectoryEntry)
  | renameEntry (oldParent : UInt64) (oldName : String) (newParent : UInt64) (newName : String)
  | renameOverwriteFile (oldParent : UInt64) (oldName : String) (newParent : UInt64) (newName : String)
  | renameOverwriteLinkedFile (oldParent : UInt64) (oldName : String) (newParent : UInt64) (newName : String)
  | renameExchangeFiles (firstParent : UInt64) (firstName : String) (secondParent : UInt64) (secondName : String)
  | hardLinkFile (parent : UInt64) (name : String) (target : UInt64)
  | unlinkNonfinalFileLink (parent : UInt64) (name : String)
  | truncateFileToZero (inode : UInt64)
  | truncateFileToBlocks (inode : UInt64) (targetBlocks : Nat)
  | truncateFileLastBlock (inode : UInt64)
  | appendFileBlocks (inode : UInt64) (data : List Block)
  | appendFileBlock (inode : UInt64) (data : Block)
  | insertFileBlock (inode : UInt64) (index : Nat) (data : Block)
  | writeFileBlock (inode : UInt64) (index : Nat) (data : Block)
  | writeFileBlockRange (inode : UInt64) (index offset : Nat) (data : List UInt8)
  | writeFileBlocks (inode : UInt64) (writes : List (Nat × Block))
  | writeFileRange (inode : UInt64) (firstBlock offset : Nat) (data : List UInt8)
  | zeroFileRange (inode : UInt64) (firstBlock offset len : Nat)
  | copyFileRange (source destination : FileRangeEndpoint) (len : Nat)

def discardResult {α : Type} (p : FsProg α) : FsProg Unit := do
  let _ ← p
  pure ()

theorem Outcome.discard {α : Type} {Q : Disk → Prop} {p : FsProg α} (h : Outcome sb d Q p) :
    Outcome sb d Q (discardResult p) := h.map fun _ => ()

def Edit.perform (sb : Superblock) : Edit → FsProg Unit
  | unlink allocator inodes entries => discardResult (storeUnlinkMetadataJournaled sb allocator inodes entries)
  | renameEntry oldParent oldName newParent newName =>
    discardResult (renameEntryJournaled sb oldParent oldName newParent newName)
  | renameOverwriteFile oldParent oldName newParent newName =>
    discardResult (renameOverwriteFileJournaled sb oldParent oldName newParent newName)
  | renameOverwriteLinkedFile oldParent oldName newParent newName =>
    discardResult (renameOverwriteLinkedFileJournaled sb oldParent oldName newParent newName)
  | renameExchangeFiles firstParent firstName secondParent secondName =>
    discardResult (renameExchangeFilesJournaled sb firstParent firstName secondParent secondName)
  | hardLinkFile parent name target => discardResult (hardLinkFileJournaled sb parent name target)
  | unlinkNonfinalFileLink parent name => discardResult (unlinkNonfinalFileLinkJournaled sb parent name)
  | truncateFileToZero inode => discardResult (truncateFileToZeroJournaled sb inode)
  | truncateFileToBlocks inode targetBlocks => discardResult (truncateFileToBlocksJournaled sb inode targetBlocks)
  | truncateFileLastBlock inode => discardResult (truncateFileLastBlockJournaled sb inode)
  | appendFileBlocks inode data => discardResult (appendFileBlocksJournaled sb inode data)
  | appendFileBlock inode data => discardResult (appendFileBlockJournaled sb inode data)
  | insertFileBlock inode index data => discardResult (insertFileBlockJournaled sb inode index data)
  | writeFileBlock inode index data => discardResult (writeFileBlockJournaled sb inode index data)
  | writeFileBlockRange inode index offset data =>
    discardResult (writeFileBlockRangeJournaled sb inode index offset data)
  | writeFileBlocks inode writes => discardResult (writeFileBlocksJournaled sb inode writes)
  | writeFileRange inode firstBlock offset data =>
    discardResult (writeFileRangeJournaled sb inode firstBlock offset data)
  | zeroFileRange inode firstBlock offset len =>
    discardResult (zeroFileRangeJournaled sb inode firstBlock offset len)
  | copyFileRange source destination len => discardResult (copyFileRangeJournaled sb source destination len)

inductive Operation
  | create (allocator : BlockAllocator) (inodes : List PersistedInode) (entries : List PersistedDirectoryEntry)
  | edit (e : Edit)

def Operation.perform (sb : Superblock) : Operation → FsProg Unit
  | create allocator inodes entries => discardResult (storeCreateMetadataJournaled sb allocator inodes entries)
  | edit e => e.perform sb

section
variable {sb : Superblock} {d : Disk} (hw : sb.WellFormed) (hl : sb.totalBlocks.toNat = d.length)
include hw hl

theorem Edit.outcome (e : Edit) : Outcome sb d (Steps sb d) (e.perform sb) := by
  cases e with
  | unlink allocator inodes entries =>
    exact (storeUnlinkMetadataJournaled_outcome hw hl allocator inodes entries).discard
  | renameEntry oldParent oldName newParent newName =>
    exact (renameEntryJournaled_outcome hw hl oldParent oldName newParent newName).discard
  | renameOverwriteFile oldParent oldName newParent newName =>
    exact (renameOverwriteFileImpl_outcome hw hl oldParent oldName newParent newName false).discard
  | renameOverwriteLinkedFile oldParent oldName newParent newName =>
    exact (renameOverwriteFileImpl_outcome hw hl oldParent oldName newParent newName true).discard
  | renameExchangeFiles firstParent firstName secondParent secondName =>
    exact (renameExchangeFilesJournaled_outcome hw hl firstParent firstName secondParent secondName).discard
  | hardLinkFile parent name target => exact (hardLinkFileJournaled_outcome hw hl parent name target).discard
  | unlinkNonfinalFileLink parent name => exact (unlinkNonfinalFileLinkJournaled_outcome hw hl parent name).discard
  | truncateFileToZero inode => exact (truncateFileToZeroJournaled_outcome hw hl inode).discard
  | truncateFileToBlocks inode targetBlocks =>
    exact (truncateFileToBlocksJournaled_outcome hw hl inode targetBlocks).discard
  | truncateFileLastBlock inode => exact (truncateFileLastBlockJournaled_outcome hw hl inode).discard
  | appendFileBlocks inode data => exact (appendFileBlocksJournaled_outcome hw hl inode data).discard
  | appendFileBlock inode data => exact (appendFileBlockJournaled_outcome hw hl inode data).discard
  | insertFileBlock inode index data => exact (insertFileBlockJournaled_outcome hw hl inode index data).discard
  | writeFileBlock inode index data => exact (writeFileBlockJournaled_outcome hw hl inode index data).discard
  | writeFileBlockRange inode index offset data =>
    exact (writeFileBlockRangeJournaled_outcome hw hl inode index offset data).discard
  | writeFileBlocks inode writes => exact (writeFileBlocksJournaled_outcome hw hl inode writes).discard
  | writeFileRange inode firstBlock offset data =>
    exact (writeFileRangeJournaled_outcome hw hl inode firstBlock offset data).discard
  | zeroFileRange inode firstBlock offset len =>
    exact (zeroFileRangeJournaled_outcome hw hl inode firstBlock offset len).discard
  | copyFileRange source destination len =>
    exact (copyFileRangeJournaled_outcome hw hl source destination len).discard

theorem Operation.outcome (op : Operation) : Outcome sb d (fun _ => True) (op.perform sb) := by
  cases op with
  | create allocator inodes entries =>
    exact ((storeCreateMetadataJournaled_outcome hw hl).discard).mono fun _ _ => trivial
  | edit e => exact (e.outcome hw hl).mono fun _ _ => trivial

end

/-! ## Errors -/

theorem Operation.error_unchanged {sb : Superblock} {d : Disk} (hsb : readSuperblock.eval d = .ok sb)
    (op : Operation)
    {e : IoError} (h : ((op.perform sb).runOn d).1 = .error e) : ((op.perform sb).runOn d).2 = d := by
  obtain ⟨-, hw, hl⟩ := readSuperblock_eq_ok.mp hsb
  cases op.outcome hw hl with
  | unchanged hd _ => exact hd
  | published t _ hok _ _ =>
    obtain ⟨a, ha⟩ := hok
    rw [ha] at h
    cases h

theorem error_unchanged_truncate : ∃ (d : Disk) (e : IoError), readSuperblock.eval d = .ok smallGeometry ∧
    (((Operation.edit (.truncateFileToZero 7)).perform smallGeometry).runOn d).1 = .error e ∧
    (((Operation.edit (.truncateFileToZero 7)).perform smallGeometry).runOn d).2 = d := by
  obtain ⟨d, -, hf⟩ := formatDevice_small (d := zeroDisk) (List.length_replicate ..)
  obtain ⟨a, hload, -⟩ := hf.tables
  have hrun : ((Operation.edit (.truncateFileToZero 7)).perform smallGeometry).runOn d =
      (.error (invalidInput "truncate target inode is missing"), d) := by
    change (discardResult (truncateFileToZeroJournaled smallGeometry 7)).runOn d = _
    simp only [discardResult, truncateFileToZeroJournaled, bind_assoc, runOn_read, hload.allocator, hload.inodes,
      hload.entries, eval_liftM]
    rfl
  exact ⟨d, _, hf.superblock, congrArg Prod.fst hrun,
    Operation.error_unchanged hf.superblock (.edit (.truncateFileToZero 7)) (congrArg Prod.fst hrun)⟩

/-! ## Devices apart from their journals -/

structure SameHome (sb : Superblock) (d d' : Disk) : Prop where
  length_eq : d.length = d'.length
  outside : ∀ b, ¬ sb.journalRange.Contains b → d[b]? = d'[b]?

theorem SameHome.refl (sb : Superblock) (d : Disk) : SameHome sb d d := ⟨rfl, fun _ _ => rfl⟩

theorem SameHome.symm (h : SameHome sb d d') : SameHome sb d' d :=
  ⟨h.length_eq.symm, fun b hb => (h.outside b hb).symm⟩

theorem SameHome.trans {d'' : Disk} (h : SameHome sb d d') (h' : SameHome sb d' d'') :
    SameHome sb d d'' := ⟨h.length_eq.trans h'.length_eq, fun b hb => (h.outside b hb).trans (h'.outside b hb)⟩

theorem SameHome.readSuperblock (h : SameHome sb d d')
    (hsb : readSuperblock.eval d = .ok sb) : readSuperblock.eval d' = .ok sb := by
  obtain ⟨h0, hw, hl⟩ := readSuperblock_eq_ok.mp hsb
  obtain ⟨h1, -⟩ := hw.ranges
  refine readSuperblock_eq_ok.mpr ⟨?_, hw, hl.trans h.length_eq⟩
  rw [← h0]
  refine (h.outside 0 fun hc => ?_).symm
  have := hc.1
  omega

theorem SameHome.loads (h : SameHome sb d d') (hw : sb.WellFormed) (hs : Loads sb d s) : Loads sb d' s := by
  obtain ⟨h1, h2, h3, h4, h5, h6, h7, h8, h9⟩ := hw.ranges
  have hsame : ∀ b, sb.journalRange.stop ≤ b → d[b]? = d'[b]? := fun b hb => h.outside b fun hc => by
    have := hc.2
    omega
  refine ⟨?_, inodeTable.load_congr h.length_eq ?_ hs.inodes, directoryTable.load_congr h.length_eq ?_ hs.entries⟩
  · obtain ⟨hl, hin, he⟩ := loadAllocator_eq_ok.mp hs.allocator
    refine loadAllocator_eq_ok.mpr ⟨h.length_eq ▸ hl, h.length_eq ▸ hin, he.trans (congrArg Except.ok ?_)⟩
    refine regionBytes_congr fun b hb _ => hsame b ?_
    exact Nat.le_trans (Nat.le_of_eq h2) hb
  · intro b hb _
    apply hsame
    simp only [inodeTable, Superblock.inodeRange] at *
    omega
  · intro b hb _
    apply hsame
    simp only [directoryTable, Superblock.directoryRange] at *
    omega

theorem Publication.sameHome_installed :
    SameHome sb t.home t.installed := ⟨by simp [Publication.home], fun _ hb => (t.installed_outside hb).symm⟩

theorem Publication.sameHome_cleared :
    SameHome sb t.home t.cleared := ⟨by simp [Publication.home], fun _ hb => (t.cleared_outside hb).symm⟩

/-! ## Runs -/

def runAll (sb : Superblock) (edits : List Edit) (d : Disk) : Disk :=
  edits.foldl (fun d e => ((e.perform sb).runOn d).2) d

structure Sound (sb : Superblock) (d : Disk) (s : Snapshot) : Prop where
  superblock : readSuperblock.eval d = .ok sb
  journal : ∃ es, (loadJournalImage sb).eval d = .ok es
  loads : Loads sb d s
  valid : s.Valid sb

theorem Publication.superblock_home (hsb : readSuperblock.eval d = .ok sb) :
    readSuperblock.eval t.home = .ok sb := by
  obtain ⟨h0, hw, hl⟩ := readSuperblock_eq_ok.mp hsb
  refine readSuperblock_eq_ok.mpr ⟨?_, hw, by simpa [Publication.home] using hl⟩
  rw [← h0, Publication.home]
  apply getElem?_overlay_of_notMem
  intro hm
  obtain ⟨w, hwm, hw0⟩ := List.mem_map.mp hm
  have hb := (t.homeBlock hwm).2
  have hj : sb.journalRange.start ≤ sb.journalRange.stop := Nat.le_add_right _ _
  have hr := hw.ranges
  simp only [Superblock.InRanges, BlockRange.Contains, Superblock.dataRange] at hb
  omega

theorem Sound.step (h : Sound sb d s) (e : Edit) : ∃ s', Sound sb ((e.perform sb).runOn d).2 s' ∧ Step sb s s' := by
  obtain ⟨-, hw, hl⟩ := readSuperblock_eq_ok.mp h.superblock
  cases e.outcome hw hl with
  | unchanged hd _ =>
    rw [hd]
    exact ⟨s, h, .of_entries id⟩
  | published t hq _ hd _ =>
    obtain ⟨s', hs', hstep⟩ := hq s h.loads h.valid
    have hsb := t.superblock_home h.superblock
    refine ⟨s', ?_, hstep⟩
    -- The journal holds the transaction or nothing; everything else is the new home.
    rcases hd with hd | hd
    · have hh := t.sameHome_installed
      rw [hd]
      exact ⟨hh.readSuperblock hsb, ⟨_, t.load_installed hw.homesApart⟩, hh.loads hw hs', hstep.valid h.valid⟩
    · have hh := t.sameHome_cleared
      rw [hd]
      exact ⟨hh.readSuperblock hsb, ⟨_, t.load_cleared hw.homesApart⟩, hh.loads hw hs', hstep.valid h.valid⟩

theorem Sound.run : ∀ (edits : List Edit) {d : Disk} {s : Snapshot}, Sound sb d s →
    ∃ s', Sound sb (runAll sb edits d) s' ∧
      (LeakFree s.allocator (references s.inodes) → LeakFree s'.allocator (references s'.inodes))
  | [], _, s, h => ⟨s, h, id⟩
  | e :: edits, _, _, h => by
    obtain ⟨s₁, h₁, hstep⟩ := h.step e
    obtain ⟨s₂, h₂, hleak⟩ := Sound.run edits h₁
    exact ⟨s₂, h₂, fun hl => hleak (hstep.leakFree h.valid hl)⟩

theorem sound_iff (hsb : readSuperblock.eval d = .ok sb) :
    (∃ s, Sound sb d s) ↔ ∃ report, checkDevice.eval d = .ok report := by
  rw [checkDevice_ok_iff]
  constructor
  · intro h
    obtain ⟨s, h⟩ := h
    obtain ⟨es, hes⟩ := h.journal
    exact ⟨sb, s, es, h.superblock, h.loads, h.valid, hes⟩
  · intro h
    obtain ⟨sb', s, es, hsb', hs, hv, hes⟩ := h
    cases hsb.symm.trans hsb'
    exact ⟨s, hsb, ⟨es, hes⟩, hs, hv⟩

theorem sound_fresh : ∃ d s, Sound smallGeometry d s ∧ (loadJournalImage smallGeometry).eval d = .ok [] ∧
    s.inodes = [] ∧ ∀ b, ¬ s.allocator.Has b := by
  obtain ⟨d, hf, hj⟩ := formatWith_zero smallGeometry_wellFormed (by decide) (by decide) (by decide)
  obtain ⟨a, hload, hnone⟩ := hf.tables
  exact ⟨d, ⟨a, [], []⟩, ⟨hf.superblock, ⟨_, hj⟩, hload, Snapshot.valid_empty _ a⟩, hj, rfl, hnone⟩

/-! ## Losing power -/

def JournalSettled (sb : Superblock) (d : Disk) : Prop :=
  ∃ es log, (loadJournalImage sb).eval d = .ok es ∧ init.scan es = some log ∧
    overlay d (homeWrites log.applied) = d

def RecoversTo (sb : Superblock) (x d : Disk) : Prop :=
  ∃ es log, (loadJournalImage sb).eval x = .ok es ∧ init.scan es = some log ∧
    SameHome sb (overlay x (homeWrites log.applied)) d

theorem JournalSettled.recoversTo (h : JournalSettled sb d) : RecoversTo sb d d := by
  obtain ⟨es, log, hes, hlog, hd⟩ := h
  exact ⟨es, log, hes, hlog, by rw [hd]; exact .refl sb d⟩

theorem Publication.recoversTo (ha : sb.HomesApart) {x : Disk} (hx : x ∈ t.stages) : RecoversTo sb x t.home := by
  have hscan := scan_transactionRecords t.changed
  have hinst : SameHome sb t.installed t.home := t.sameHome_installed.symm
  simp only [stages, List.mem_cons, List.not_mem_nil, or_false] at hx
  rcases hx with rfl | rfl | rfl
  · exact ⟨_, _, t.load_journaled, hscan, hinst⟩
  · have hsame : overlay t.installed (homeWrites t.changed) = t.installed :=
      overlay_overlay_of_subset _ (List.Subset.refl _)
    exact ⟨_, _, t.load_installed ha, hscan, hsame.symm ▸ hinst⟩
  · exact ⟨[], init, t.load_cleared ha, rfl, t.sameHome_cleared.symm⟩

theorem RecoversTo.recovered (ha : sb.HomesApart) {c : CrashDevice Block} (h : RecoversTo sb c.durable d) :
    (∃ report, ((recoverJournalAndCheckpoint sb).runOn c.reboot).1 = .ok report) ∧
      (loadJournalImage sb).eval ((recoverJournalAndCheckpoint sb).runOn c.reboot).2 = .ok [] ∧
      ((recoverJournalAndCheckpoint sb).runOn c.reboot).2.durable =
        ((recoverJournalAndCheckpoint sb).runOn c.reboot).2.volatile ∧
      SameHome sb ((recoverJournalAndCheckpoint sb).runOn c.reboot).2.volatile d := by
  obtain ⟨es, log, hes, hlog, hhome⟩ := h
  obtain ⟨d', hrun, hall, hempty, hlen, hout⟩ := recoverJournalAndCheckpoint_run ha hes hlog
  obtain ⟨hres, harm, hstate⟩ := runOn_disarmed (recoverJournalAndCheckpoint sb) c.reboot rfl
  change ((recoverJournalAndCheckpoint sb).runOn c.reboot).1 =
    ((recoverJournalAndCheckpoint sb).runOn c.durable).1 at hres
  change _ = applyAll ((recoverJournalAndCheckpoint sb).trace c.durable) (c.durable, c.durable) at hstate
  rw [hall] at hstate
  obtain ⟨hdur, hvol'⟩ := Prod.mk.inj hstate
  refine ⟨⟨_, hres.trans (congrArg Prod.fst hrun)⟩, ?_, hdur.trans hvol'.symm, ?_⟩
  · have hread := (runOn_disarmed (loadJournalImage sb) _ harm).1
    rw [hvol'] at hread
    exact hread.trans hempty
  · rw [hvol']
    have hd' : SameHome sb d' (overlay c.durable (homeWrites log.applied)) := ⟨by simpa using hlen, hout⟩
    exact hd'.trans hhome

theorem Operation.crash_atomic {sb : Superblock} {d : Disk} (hsb : readSuperblock.eval d = .ok sb)
    (hj : JournalSettled sb d) (op : Operation) (k : Nat) :
    let crashed := ((op.perform sb).runOn (CrashDevice.armedAt d k)).2.reboot
    let recovered := (recoverJournalAndCheckpoint sb).runOn crashed
    (∃ report, recovered.1 = .ok report) ∧ (loadJournalImage sb).eval recovered.2 = .ok [] ∧
      recovered.2.durable = recovered.2.volatile ∧
      (SameHome sb recovered.2.volatile d ∨ SameHome sb recovered.2.volatile ((op.perform sb).runOn d).2) := by
  intro crashed recovered
  obtain ⟨-, hw, hl⟩ := readSuperblock_eq_ok.mp hsb
  have ha := hw.homesApart
  have hdur := crash_durable (op.perform sb) d k
  have hbefore : ∀ {x}, x = d → RecoversTo sb x d := fun hx => hx ▸ hj.recoversTo
  cases op.outcome hw hl with
  | unchanged _ ht =>
    rw [ht] at hdur
    obtain ⟨h1, h2, h3, h4⟩ := (hbefore (List.mem_singleton.mp hdur)).recovered ha
    exact ⟨h1, h2, h3, .inl h4⟩
  | published t _ _ hpost hf =>
    rcases List.mem_cons.mp hdur with hdur | hdur
    · obtain ⟨h1, h2, h3, h4⟩ := (hbefore hdur).recovered ha
      exact ⟨h1, h2, h3, .inl h4⟩
    · obtain ⟨h1, h2, h3, h4⟩ := (t.recoversTo ha (hf _ hdur)).recovered ha
      refine ⟨h1, h2, h3, .inr (h4.trans ?_)⟩
      rcases hpost with hpost | hpost
      · exact hpost ▸ t.sameHome_installed
      · exact hpost ▸ t.sameHome_cleared

theorem crash_atomic_create : ∃ (d : Disk) (a : BlockAllocator), JournalSettled smallGeometry d ∧
    (loadJournalImage smallGeometry).eval ((recoverJournalAndCheckpoint smallGeometry).runOn
      (((Operation.create a [⟨1, .directory, []⟩] []).perform smallGeometry).runOn
        (CrashDevice.armedAt d 3)).2.reboot).2 = .ok [] := by
  obtain ⟨d, s, hs, hj, -⟩ := sound_fresh
  have hset : JournalSettled smallGeometry d := ⟨[], init, hj, rfl, rfl⟩
  exact ⟨d, s.allocator, hset,
    (Operation.crash_atomic hs.superblock hset (.create s.allocator [⟨1, .directory, []⟩] []) 3).2.1⟩

end SystemsLab.Fs
