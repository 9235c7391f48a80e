import SystemsLab.Fs.Formatter

/-!
# One automaton, four times

The loader, the in-memory replay, recovery and the device check each have their own copy of the begin/write/commit
automaton. All four follow `LogState.scan`.
-/

namespace SystemsLab.Fs

open Prog LogState
variable {d : Disk} {sb : Superblock} {es : List JournalEntry} {b : UInt64}

theorem recoverJournal_replayInto (ha : sb.HomesApart)
    {s : LogState TransactionId UInt64 Block} (h : (loadJournalImage sb).eval d = .ok es)
    (hs : init.scan es = some s)
    (b : UInt64) : ((recoverJournal sb).runOn d).2[b.toNat]? =
      ((JournalImage.replayInto ⟨es⟩ ∅).2[b]?).or d[b.toNat]? := by
  obtain ⟨s', hs', hw⟩ := scan_of_load h
  rw [hs] at hs'; cases hs'
  have hn : sb.totalBlocks.toNat = d.length := (validateRegion_eq_ok.mp (loadJournalImage_eq_ok.mp h).1).1
  have hmap : lastWrite (homeWrites s.applied) b.toNat = lastWrite s.applied b :=
    lastWrite_map (fun _ _ hb => UInt64.toNat_inj.mp hb) _ _
  rw [(recoverJournal_run ha h hs).1, replayInto_some hs, getElem?_overlay, getElem?_insertAll, hmap]
  cases hl : lastWrite s.applied b with
  | none => simp
  | some x =>
    have hm : (b.toNat, x) ∈ homeWrites s.applied := List.mem_map_of_mem (lastWrite_mem hl)
    have hb : b.toNat < d.length := hn ▸ (ha _ (hw _ hm)).1
    simp [List.getElem?_eq_getElem hb]

theorem recoverJournal_stopped (ha : sb.HomesApart)
    (h : (loadJournalImage sb).eval d = .ok es) (k : Nat) :
    (recoverJournal sb).runOn (applyAll (((recoverJournal sb).trace d).take k) (d, d)).2 =
      (recoverJournal sb).runOn d := by
  obtain ⟨s, hs, -⟩ := scan_of_load h
  rw [applyAll_writesOf]
  apply recoverJournal_again ha h hs
  have hall : writesOf ((recoverJournal sb).trace d) = homeWrites s.applied := by
    rw [(recoverJournal_run ha h hs).2, writesOf_writes]
    by_cases he : s.applied = []
    · simp [he, writesOf]
    · simp [he, writesOf]
  rw [← hall]
  exact writesOf_take_subset _ k

/-- The loader accepts a log exactly if the replay does and all writes go home; the check then agrees with the
replay, and on a geometry whose homes lie apart recovery lays the replayed map over the device, however often it is
started over. -/
theorem journal_automata_agree (sb : Superblock) (es : List JournalEntry) :
    (validateEntries sb es = .ok () ↔
      (∃ n, (JournalImage.replayInto ⟨es⟩ ∅).1 = .ok n) ∧ ∀ w ∈ logWrites es, sb.HomeBlock w.1.toNat) ∧
    (validateEntries sb es = .ok () → ∃ s, init.scan es = some s ∧
      (∀ home, JournalImage.replayInto ⟨es⟩ home = (.ok s.commits, insertAll home s.applied)) ∧
      (∀ allocated free inodes referenced entries, sb.reservedBlocks + allocated + free = sb.totalBlocks.toNat →
        ∃ report, auditJournal sb es allocated free inodes referenced entries = .ok report ∧
          report.committedTransactions = s.commits ∧ report.pendingTransaction = s.active) ∧
      recoverLoop es none [] ⟨0, 0⟩ = (do
        putBlocks (homeWrites s.applied)
        pure ⟨s.commits, s.applied.length⟩) ∧
      (sb.HomesApart → ∀ d : Disk, (loadJournalImage sb).eval d = .ok es →
        ((recoverJournal sb).runOn d).1 = .ok ⟨s.commits, s.applied.length⟩ ∧
        ((recoverJournal sb).runOn d).2.length = d.length ∧
        (∀ b : UInt64, ((recoverJournal sb).runOn d).2[b.toNat]? =
          ((JournalImage.replayInto ⟨es⟩ ∅).2[b]?).or d[b.toNat]?) ∧
        ∀ k, (recoverJournal sb).runOn (applyAll (((recoverJournal sb).trace d).take k) (d, d)).2 =
          (recoverJournal sb).runOn d)) := by
  refine ⟨validateEntries_eq_ok.trans (and_congr_left' replayInto_ok_iff.symm), fun hv => ?_⟩
  obtain ⟨⟨s, hs⟩, hw⟩ := validateEntries_eq_ok.mp hv
  refine ⟨s, hs, replayInto_some hs, ?_, recoverLoop_init hs, ?_⟩
  · intro allocated free inodes referenced entries hbal
    exact ⟨_, auditJournal_eq_ok.mpr ⟨hbal, s, hs, hw, rfl⟩, rfl, rfl⟩
  · intro ha d hd
    have hrun := (recoverJournal_run ha hd hs).1
    exact ⟨by rw [hrun], by rw [hrun, length_overlay], recoverJournal_replayInto ha hd hs,
      recoverJournal_stopped ha hd⟩

theorem journal_automata_agree_stale : validateEntries smallGeometry staleRecords = .ok () ∧
    ((recoverJournal smallGeometry).runOn staleDisk).2[6]? = some Block.zero := by
  have hload := loadJournalImage_staleDisk.1
  have hv := validateEntries_of_load hload
  obtain ⟨s, hs, hrep, -, -, hrec⟩ := (journal_automata_agree smallGeometry staleRecords).2 hv
  have hmap := (hrec smallGeometry_wellFormed.homesApart staleDisk hload).2.2.1 6
  refine ⟨hv, hmap.trans ?_⟩
  rw [staleRecords, replayInto_some (scan_transactionRecords [(6, Block.zero)]), getElem?_insertAll]
  rfl

/-! ## A geometry made by hand -/

def strayGeometry : Superblock := ⟨8, 1, 6, 1, 100, 7, 0, 7, 0⟩

def overlongGeometry : Superblock := ⟨8, 1, 6, 7, 0, 7, 0, 9, 0⟩

def onesBlock : Block := ⟨List.replicate blockSize 255, List.length_replicate⟩

def strayDisk (ws : List (UInt64 × Block)) : Disk :=
  ((storeJournalImage strayGeometry (transactionRecords ws)).runOn (List.replicate 8 Block.zero)).2

theorem strayDisk_eq {ws : List (UInt64 × Block)} (hw : ∀ w ∈ ws, strayGeometry.HomeBlock w.1.toNat)
    (hl : ws.length ≤ 3) :
    ∃ image, strayDisk ws = overlay (List.replicate 8 Block.zero) (journalWrites strayGeometry image) ∧
      (loadJournalImage strayGeometry).eval (strayDisk ws) = .ok (transactionRecords ws) := by
  have hv : validateRegion (List.replicate 8 Block.zero).length strayGeometry = .ok () := by rfl
  have he : validateEntries strayGeometry (transactionRecords ws) = .ok () :=
    validateEntries_eq_ok.mpr ⟨⟨_, scan_transactionRecords ws⟩, by rwa [logWrites_transactionRecords]⟩
  have hlen : (transactionRecords ws).length ≤ 5 := by
    simp only [transactionRecords, openRecords, List.length_append, List.length_cons, List.length_map,
      List.length_nil]
    omega
  have hfit : regionHeaderSize + (transactionRecords ws).length * (recordHeaderSize + blockSize) ≤
      strayGeometry.journalBlocks.toNat * blockSize :=
    Nat.le_trans (Nat.add_le_add_left (Nat.mul_le_mul_right _ hlen) _) (by decide)
  obtain ⟨image, hi⟩ := checkJournalImage_fits hv he (by decide) hfit
  have hrun := (runOn_storeJournalImage hi).1
  refine ⟨image, by rw [strayDisk, hrun], ?_⟩
  rw [strayDisk, hrun]
  exact loadJournalImage_store hi

theorem installWrites_past (h : d.length ≤ b.toNat) (x : Block) (ws : List (UInt64 × Block))
    (commits : Nat) : ((installWrites ((b, x) :: ws) commits).runOn d).2 = d := by
  have hbad := @runOn_putBlock_error Block IoError _ _ _ h x
  rw [installWrites, homeWrites, List.map_cons, putBlocks, bind_assoc]
  exact congrArg Prod.snd (runOn_bind_error hbad)

theorem recover_past_device :
    (loadJournalImage strayGeometry).eval (strayDisk [(100, Block.zero), (7, onesBlock)]) =
      .ok (transactionRecords [(100, Block.zero), (7, onesBlock)]) ∧
    ((recoverJournal strayGeometry).runOn (strayDisk [(100, Block.zero), (7, onesBlock)])).2[7]? =
      some Block.zero := by
  obtain ⟨image, hd, hload⟩ := @strayDisk_eq [(100, Block.zero), (7, onesBlock)] (by decide) (by decide)
  refine ⟨hload, ?_⟩
  rw [(recoverJournal_loaded hload (scan_transactionRecords _)).1, hd,
    installWrites_past (by rw [length_overlay]; decide)]
  refine (getElem?_overlay_of_notMem fun hm => ?_).trans rfl
  have hin := keys_regionWrites.mp hm
  revert hin
  decide

theorem loadJournalImage_ones (h : d[1]? = some onesBlock) :
    ∃ e, (loadJournalImage strayGeometry).eval d = .error e := by
  cases hr : (loadJournalImage strayGeometry).eval d with
  | error e => exact ⟨e, rfl⟩
  | ok es =>
    have hbytes : journalBytes strayGeometry d = onesBlock.bytes ++ regionBytes d 2 5 := regionBytes_succ h 5
    obtain ⟨-, -, hdec⟩ := loadJournalImage_eq_ok.mp hr
    rw [hbytes] at hdec
    have hone : (255 : UInt8) ∈ onesBlock.bytes ++ regionBytes d 2 5 :=
      List.mem_append_left _ (List.mem_replicate.mpr ⟨by decide, rfl⟩)
    obtain ⟨payload, ha, -⟩ := (decodeRegion_eq_ok fun hz => absurd (hz 255 hone) (by decide)).mp hdec
    have hmagic := ha.magic
    rw [slice_append_of_le (by rw [onesBlock.length_bytes]; decide)] at hmagic
    exact absurd ((List.take_replicate ..).symm.trans hmagic) (by decide)

theorem installWrites_first (h : b.toNat < d.length) (x : Block) (commits : Nat) :
    ((installWrites [(b, x)] commits).runOn d).1 = .ok ⟨commits, 1⟩ ∧
      (applyAll (((installWrites [(b, x)] commits).trace d).take 1) (d, d)).2 = d.set b.toNat x := by
  have hin : ∀ w ∈ homeWrites [(b, x)], w.1 < d.length := by simpa [homeWrites] using h
  have hput := @runOn_putBlocks Block IoError _ _ d hin
  rw [installWrites, runOn_bind_ok hput, trace_bind_ok hput, trace_putBlocks hin]
  exact ⟨rfl, rfl⟩

/-- On geometries made by hand the four copies part. -/
theorem journal_automata_disagree :
    (validateEntries overlongGeometry [] = .ok () ∧
      ∀ allocated free inodes referenced entries report,
        auditJournal overlongGeometry [] allocated free inodes referenced entries ≠ .ok report) ∧
    ((loadJournalImage strayGeometry).eval (strayDisk [(100, Block.zero), (7, onesBlock)]) =
        .ok (transactionRecords [(100, Block.zero), (7, onesBlock)]) ∧
      (JournalImage.replayInto ⟨transactionRecords [(100, Block.zero), (7, onesBlock)]⟩ ∅).2[(7 : UInt64)]? =
        some onesBlock ∧
      ((recoverJournal strayGeometry).runOn (strayDisk [(100, Block.zero), (7, onesBlock)])).2[7]? =
        some Block.zero) ∧
    (loadJournalImage strayGeometry).eval (strayDisk [(1, onesBlock)]) = .ok (transactionRecords [(1, onesBlock)]) ∧
    ((recoverJournal strayGeometry).runOn (strayDisk [(1, onesBlock)])).1 = .ok ⟨1, 1⟩ ∧
    ∃ e, ((recoverJournal strayGeometry).runOn (applyAll (((recoverJournal strayGeometry).trace
      (strayDisk [(1, onesBlock)])).take 1) (strayDisk [(1, onesBlock)], strayDisk [(1, onesBlock)])).2).1 =
        .error e := by
  refine ⟨⟨rfl, ?_⟩, ⟨recover_past_device.1, ?_, recover_past_device.2⟩, ?_⟩
  · intro allocated free inodes referenced entries report h
    obtain ⟨hbal, -⟩ := auditJournal_eq_ok.mp h
    change 9 + allocated + free = 8 at hbal
    omega
  · rw [replayInto_some (scan_transactionRecords _), getElem?_insertAll]
    rfl
  · -- the first write of the recovery goes over the first block of the journal
    obtain ⟨image, hd, hload⟩ := @strayDisk_eq [(1, onesBlock)] (by decide) (by decide)
    have hlen : (strayDisk [(1, onesBlock)]).length = 8 := by rw [hd, length_overlay, List.length_replicate]
    obtain ⟨hrun, htrace⟩ := recoverJournal_loaded hload (scan_transactionRecords _)
    obtain ⟨hok, hset⟩ := @installWrites_first (strayDisk [(1, onesBlock)]) 1 (by rw [hlen]; decide) onesBlock 1
    obtain ⟨e, he⟩ := @loadJournalImage_ones ((strayDisk [(1, onesBlock)]).set 1 onesBlock)
      (List.getElem?_set_self (by rw [hlen]; decide))
    refine ⟨hload, by rw [hrun, hok], e, ?_⟩
    rw [htrace, hset]
    exact congrArg Prod.fst (read_error he _).1

end SystemsLab.Fs
