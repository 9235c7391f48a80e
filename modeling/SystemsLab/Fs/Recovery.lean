import SystemsLab.Fs.JournalRegion

/-!
# Recovery and checkpoint

Recovery reads the whole log, writes the blocks of its committed transactions home and flushes once. A validated log
leaves it nothing to reject (`recoverLoop_eq`).
-/

namespace SystemsLab.Fs

open LogState Prog

variable {es : List JournalEntry} {sb : Superblock} {s : LogState TransactionId UInt64 Block} {d : Disk} {b : Nat}

structure RecoveryReport where
  committedTransactions : Nat
  homeWrites : Nat
  deriving DecidableEq, Repr

def homeWrites (ws : List (UInt64 × Block)) : List (Nat × Block) := ws.map fun w => (w.1.toNat, w.2)

def recoverLoop : List JournalEntry → Option TransactionId → List (UInt64 × Block) → RecoveryReport →
    FsProg RecoveryReport
  | [], _, _, report => pure report
  | .begin txid :: es, active, _, report =>
    if active.isSome then fail (invalidData "nested journal transaction during recovery")
    else recoverLoop es (some txid) [] report
  | .write txid block data :: es, active, pending, report =>
    if active ≠ some txid then fail (invalidData "journal write does not match active recovery transaction")
    else recoverLoop es active (pending ++ [(block, data)]) report
  | .commit txid :: es, active, pending, report =>
    if active ≠ some txid then fail (invalidData "journal commit does not match active recovery transaction")
    else do
      putBlocks (homeWrites pending)
      recoverLoop es none [] ⟨report.committedTransactions + 1, report.homeWrites + pending.length⟩

def recoverJournal (sb : Superblock) : FsProg RecoveryReport := do
  let entries ← loadJournalImage sb
  let report ← recoverLoop entries none [] ⟨0, 0⟩
  if report.homeWrites ≠ 0 then sync
  pure report

/-- `false` when the journal was empty already. -/
def checkpointJournal (sb : Superblock) : FsProg Bool := do
  let entries ← loadJournalImage sb
  if entries.isEmpty then pure false
  else do
    putBlocks ((List.range sb.journalBlocks.toNat).map fun i => (sb.journalStart.toNat + i, Block.zero))
    sync
    pure true

def recoverJournalAndCheckpoint (sb : Superblock) : FsProg RecoveryReport := do
  let report ← recoverJournal sb
  let _ ← checkpointJournal sb
  pure report

/-! ## The loop -/

theorem homeWrites_append (ws vs : List (UInt64 × Block)) :
    homeWrites (ws ++ vs) = homeWrites ws ++ homeWrites vs :=
  List.map_append

theorem recoverLoop_eq : ∀ {es : List JournalEntry} {s s' : LogState TransactionId UInt64 Block},
    s.scan es = some s' → ∃ new, s'.applied = s.applied ++ new ∧
      recoverLoop es s.active s.pending ⟨s.commits, s.applied.length⟩ = (do
        putBlocks (homeWrites new)
        pure ⟨s'.commits, s'.applied.length⟩)
  | [], s, s', h => by
    rw [← Option.some.inj h]
    exact ⟨[], by simp, rfl⟩
  | e :: es, s, s', h => by
    rw [scan_cons, Option.bind_eq_some_iff] at h
    obtain ⟨m, hm, hs⟩ := h
    obtain ⟨new, ha', hr⟩ := recoverLoop_eq hs
    cases e with
    | begin t =>
      obtain ⟨ha, rfl⟩ := step_begin hm
      exact ⟨new, ha', by simpa [recoverLoop, ha] using hr⟩
    | write t k x =>
      obtain ⟨ha, rfl⟩ := step_write hm
      exact ⟨new, ha', by simpa [recoverLoop, ha] using hr⟩
    | commit t =>
      obtain ⟨ha, rfl⟩ := step_commit hm
      refine ⟨s.pending ++ new, by rw [ha', List.append_assoc], ?_⟩
      simp only [List.length_append] at hr
      simp only [recoverLoop, ha, ne_eq, not_true_eq_false, if_false, hr, homeWrites_append, putBlocks_append,
        bind_assoc]

theorem recoverLoop_init (h : init.scan es = some s) : recoverLoop es none [] ⟨0, 0⟩ = (do
      putBlocks (homeWrites s.applied)
      pure ⟨s.commits, s.applied.length⟩) := by
  obtain ⟨new, ha, hr⟩ := recoverLoop_eq h
  rw [show s.applied = new by simpa [init] using ha] at hr ⊢
  exact hr

theorem applied_subset (h : init.scan es = some s) : s.applied ⊆ logWrites es := by
  obtain ⟨closed, hc⟩ := scan_scanned h
  rw [hc.applied, hc.split, logWrites_append]
  exact List.subset_append_left _ _

/-! ## On the device -/

def Superblock.HomesApart (sb : Superblock) : Prop :=
  ∀ b, sb.HomeBlock b → b < sb.totalBlocks.toNat ∧ ¬ sb.journalRange.Contains b

theorem Superblock.WellFormed.homesApart (h : sb.WellFormed) : sb.HomesApart := by
  have h1 := h.allocationStart_eq
  have h2 := h.inodeStart_eq
  have h3 := h.directoryStart_eq
  have h4 := h.reserved_le
  simp only [reservedBlocks] at h4
  rintro b ⟨-, hb⟩
  simp only [InRanges, BlockRange.Contains, allocationRange, inodeRange, directoryRange, dataRange,
    reservedBlocks, journalRange] at hb ⊢
  omega

theorem scan_of_load (h : (loadJournalImage sb).eval d = .ok es) :
    ∃ s, init.scan es = some s ∧ ∀ w ∈ homeWrites s.applied, sb.HomeBlock w.1 := by
  obtain ⟨⟨s, hs⟩, hw⟩ := validateEntries_eq_ok.mp (validateEntries_of_load h)
  refine ⟨s, hs, fun w hm => ?_⟩
  obtain ⟨v, hv, rfl⟩ := List.mem_map.mp hm
  exact hw v (applied_subset hs hv)

def installWrites (ws : List (UInt64 × Block)) (commits : Nat) : FsProg RecoveryReport := do
  putBlocks (homeWrites ws)
  if ws.length ≠ 0 then sync
  pure ⟨commits, ws.length⟩

theorem recoverJournal_loaded (h : (loadJournalImage sb).eval d = .ok es) (hs : init.scan es = some s) :
    (recoverJournal sb).runOn d = (installWrites s.applied s.commits).runOn d ∧
      (recoverJournal sb).trace d = (installWrites s.applied s.commits).trace d := by
  obtain ⟨hrun, htrace⟩ := read_ok h fun entries => do
    let report ← recoverLoop entries none [] ⟨0, 0⟩
    if report.homeWrites ≠ 0 then sync
    pure report
  rw [recoverJournal, hrun, htrace, recoverLoop_init hs, installWrites]
  simp only [bind_assoc, pure_bind, and_self]

section
variable (ha : sb.HomesApart) (h : (loadJournalImage sb).eval d = .ok es)
variable {ws : List (Nat × Block)}

include ha h

theorem recoverJournal_run (hs : init.scan es = some s) :
    (recoverJournal sb).runOn d = (.ok ⟨s.commits, s.applied.length⟩, overlay d (homeWrites s.applied)) ∧
      (recoverJournal sb).trace d = (homeWrites s.applied).map (fun w => .write w.1 w.2) ++
        (if s.applied = [] then [] else [.flush]) := by
  obtain ⟨s', hs', hw⟩ := scan_of_load h
  rw [hs] at hs'; cases hs'
  have hn : sb.totalBlocks.toNat = d.length := (validateRegion_eq_ok.mp (loadJournalImage_eq_ok.mp h).1).1
  have hin : ∀ w ∈ homeWrites s.applied, w.1 < d.length := fun w hm => hn ▸ (ha _ (hw w hm)).1
  have hput := runOn_putBlocks (ε := IoError) hin
  obtain ⟨hrun, htrace⟩ := recoverJournal_loaded h hs
  rw [hrun, htrace, installWrites, runOn_bind_ok hput, trace_bind_ok hput, trace_putBlocks hin]
  by_cases he : s.applied = []
  · simp [he]; rfl
  · simp [he]; exact ⟨rfl, rfl⟩

theorem loadJournalImage_overlay
    (hw : ∀ w ∈ ws, sb.HomeBlock w.1) :
    (loadJournalImage sb).eval (overlay d ws) = .ok es := by
  refine loadJournalImage_congr (length_overlay d ws).symm (fun b hb => ?_) h
  refine (getElem?_overlay_of_notMem fun hm => ?_).symm
  obtain ⟨w, hws, rfl⟩ := List.mem_map.mp hm
  exact (ha _ (hw w hws)).2 hb

theorem recoverJournal_again (hs : init.scan es = some s)
    (hsub : ws ⊆ homeWrites s.applied) :
    (recoverJournal sb).runOn (overlay d ws) = (recoverJournal sb).runOn d := by
  obtain ⟨s', hs', hw⟩ := scan_of_load h
  rw [hs] at hs'; cases hs'
  have hl := loadJournalImage_overlay ha h fun w hm => hw w (hsub hm)
  rw [(recoverJournal_run ha hl hs).1, (recoverJournal_run ha h hs).1,
    overlay_overlay_of_subset d (List.map_subset _ hsub)]

end

/-! ## Checkpoint -/

def clearWrites (sb : Superblock) : List (Nat × Block) :=
  (List.range sb.journalBlocks.toNat).map fun i => (sb.journalStart.toNat + i, Block.zero)

theorem mem_clearWrites {w : Nat × Block} :
    w ∈ clearWrites sb ↔ sb.journalRange.Contains w.1 ∧ w.2 = Block.zero := by
  simp only [clearWrites, List.mem_map, List.mem_range, BlockRange.Contains, Superblock.journalRange]
  constructor
  · rintro ⟨i, hi, rfl⟩
    exact ⟨by simp only; omega, rfl⟩
  · rintro ⟨hb, hx⟩
    exact ⟨w.1 - sb.journalStart.toNat, by omega, Prod.ext (by simp only; omega) hx.symm⟩

theorem keys_clearWrites : b ∈ (clearWrites sb).map Prod.fst ↔ sb.journalRange.Contains b := by
  simp only [List.mem_map, mem_clearWrites]
  exact ⟨fun ⟨w, hw, he⟩ => he ▸ hw.1, fun h => ⟨(b, Block.zero), ⟨h, rfl⟩, rfl⟩⟩

theorem getElem?_clear (hb : sb.journalRange.Contains b) :
    (overlay d (clearWrites sb))[b]? = d[b]?.map fun _ => Block.zero := by
  rw [getElem?_overlay]
  cases hw : lastWrite (clearWrites sb) b with
  | none => exact absurd (keys_clearWrites.mpr hb) (lastWrite_eq_none.mp hw)
  | some x =>
    have hx : x = Block.zero := (mem_clearWrites.mp (lastWrite_mem hw)).2
    rw [hx]; rfl

theorem getElem?_clear_of_not (hb : ¬ sb.journalRange.Contains b) :
    (overlay d (clearWrites sb))[b]? = d[b]? := getElem?_overlay_of_notMem fun h => hb (keys_clearWrites.mp h)

theorem regionBytes_zero {start n : Nat} (h : ∀ b x, start ≤ b → b < start + n → d[b]? = some x → x = Block.zero) :
    ∀ b ∈ regionBytes d start n, b = 0 := by
  intro b hb
  obtain ⟨x, hx, hbx⟩ := List.mem_flatMap.mp hb
  obtain ⟨i, hi⟩ := List.mem_iff_getElem?.mp hx
  rw [List.getElem?_take, List.getElem?_drop] at hi
  split at hi
  · rw [h _ x (by omega) (by omega) hi] at hbx
    exact List.eq_of_mem_replicate hbx
  · cases hi

theorem loadJournalImage_clear
    (h : (loadJournalImage sb).eval d = .ok es) :
    (loadJournalImage sb).eval (overlay d (clearWrites sb)) = .ok [] := by
  obtain ⟨hv, hc, -⟩ := loadJournalImage_eq_ok.mp h
  obtain ⟨hn, hs, hb, hle⟩ := validateRegion_eq_ok.mp hv
  have hz : ∀ b ∈ journalBytes sb (overlay d (clearWrites sb)), b = 0 := by
    refine regionBytes_zero fun b x h1 h2 hx => ?_
    rw [getElem?_clear ⟨h1, h2⟩, Option.map_eq_some_iff] at hx
    obtain ⟨y, -, rfl⟩ := hx
    rfl
  rw [loadJournalImage_eq_ok, length_overlay]
  refine ⟨hv, ?_, by rw [decodeRegion, if_pos hz]⟩
  rw [hc, journalBytes, journalBytes, length_regionBytes (by omega), length_regionBytes (by simp; omega)]

theorem checkpointJournal_run (h : (loadJournalImage sb).eval d = .ok es) :
    (checkpointJournal sb).runOn d =
        (.ok !es.isEmpty, if es.isEmpty then d else overlay d (clearWrites sb)) ∧
      (checkpointJournal sb).trace d =
        if es.isEmpty then [] else (clearWrites sb).map (fun w => .write w.1 w.2) ++ [.flush] := by
  obtain ⟨hn, hs, hb, hle⟩ := validateRegion_eq_ok.mp (loadJournalImage_eq_ok.mp h).1
  have hin : ∀ w ∈ clearWrites sb, w.1 < d.length := fun w hw => by
    have hc := (mem_clearWrites.mp hw).1
    simp only [BlockRange.Contains, Superblock.journalRange] at hc
    omega
  have hput := runOn_putBlocks (ε := IoError) hin
  obtain ⟨hrun, htrace⟩ := read_ok h fun entries =>
    if entries.isEmpty then pure false
    else do
      putBlocks ((List.range sb.journalBlocks.toNat).map fun i => (sb.journalStart.toNat + i, Block.zero))
      sync
      pure true
  rw [checkpointJournal, hrun, htrace]
  cases he : es.isEmpty with
  | true => exact ⟨rfl, rfl⟩
  | false =>
    simp only [Bool.false_eq_true, if_false]
    rw [← clearWrites, runOn_bind_ok hput, trace_bind_ok hput, trace_putBlocks hin]
    exact ⟨rfl, rfl⟩

theorem recoverJournalAndCheckpoint_run (ha : sb.HomesApart) (h : (loadJournalImage sb).eval d = .ok es)
    (hs : init.scan es = some s) :
    ∃ d', (recoverJournalAndCheckpoint sb).runOn d = (.ok ⟨s.commits, s.applied.length⟩, d') ∧
      applyAll ((recoverJournalAndCheckpoint sb).trace d) (d, d) = (d', d') ∧
      (loadJournalImage sb).eval d' = .ok [] ∧ d'.length = d.length ∧
      ∀ b, ¬ sb.journalRange.Contains b → d'[b]? = (overlay d (homeWrites s.applied))[b]? := by
  obtain ⟨s', hs', hw⟩ := scan_of_load h
  rw [hs] at hs'; cases hs'
  obtain ⟨hr, htr⟩ := recoverJournal_run ha h hs
  have hload := loadJournalImage_overlay ha h hw
  obtain ⟨hc, htc⟩ := checkpointJournal_run hload
  have hrun : (recoverJournalAndCheckpoint sb).runOn d = (.ok ⟨s.commits, s.applied.length⟩,
      if es.isEmpty then overlay d (homeWrites s.applied)
        else overlay (overlay d (homeWrites s.applied)) (clearWrites sb)) := by
    rw [recoverJournalAndCheckpoint, runOn_bind_ok hr, runOn_bind_ok hc]
    rfl
  have htrace : (recoverJournalAndCheckpoint sb).trace d = (recoverJournal sb).trace d ++
      ((checkpointJournal sb).trace (overlay d (homeWrites s.applied)) ++ []) := by
    rw [recoverJournalAndCheckpoint, trace_bind_ok hr, trace_bind_ok hc]
    rfl
  cases es with
  | nil =>
    cases hs
    exact ⟨d, hrun, by rw [htrace, htr, htc]; rfl, h, rfl, fun b _ => rfl⟩
  | cons e es =>
    have hend := applyAll_trace (recoverJournalAndCheckpoint sb) d d
    rw [hrun] at hend
    refine ⟨_, hrun, Prod.ext (Eq.trans ?_ hend) hend, loadJournalImage_clear hload, by simp,
      fun b hb => getElem?_clear_of_not hb⟩
    rw [htrace, htc]
    simp only [List.isEmpty_cons, Bool.false_eq_true, if_false, List.append_nil, ← List.append_assoc]
    exact applyAll_flushed _ _

end SystemsLab.Fs
