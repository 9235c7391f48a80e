import SystemsLab.Fs.TransactionImage

/-!
# Publishing a transaction

One transaction goes to the journal, recovery writes it home, and most operations then clear the journal. `Outcome`
says of an operation that it did nothing to the device or published.
-/

namespace SystemsLab.Fs

open LogState Prog

/-! ## The log of one transaction -/

def JournalLog.writeAll (txid : TransactionId) : List (UInt64 × Block) → JournalLog → Except IoError JournalLog
  | [], log => .ok log
  | w :: ws, log =>
    match log.write txid w.1 w.2 with
    | (.error e, _) => .error e
    | (.ok _, log) => writeAll txid ws log

def transactionLog (changed : List (UInt64 × Block)) : Except IoError (List JournalEntry) :=
  match JournalLog.new.begin with
  | (.error e, _) => .error e
  | (.ok txid, log) => do
    let log ← JournalLog.writeAll txid changed log
    match log.commit txid with
    | (.error e, _) => .error e
    | (.ok _, log) => .ok log.entries

def transactionRecords (changed : List (UInt64 × Block)) : List JournalEntry := openRecords 0 changed ++ [.commit 0]

theorem writeAll_eq (txid : TransactionId) :
    ∀ (ws : List (UInt64 × Block)) {log : JournalLog}, log.active = some txid →
    JournalLog.writeAll txid ws log =
      .ok { log with entries := log.entries ++ ws.map fun w => .write txid w.1 w.2 }
  | [], log, _ => by simp [JournalLog.writeAll]
  | w :: ws, log, h => by
    have hw : log.write txid w.1 w.2 = (.ok (), { log with entries := log.entries ++ [.write txid w.1 w.2] }) := by
      simp [JournalLog.write, JournalLog.requireActive, require_pos h]
    rw [JournalLog.writeAll, hw]
    simp only
    rw [@writeAll_eq txid ws { log with entries := log.entries ++ [.write txid w.1 w.2] } h]
    simp

theorem transactionLog_eq (changed : List (UInt64 × Block)) :
    transactionLog changed = .ok (transactionRecords changed) := by
  have hb : JournalLog.new.begin = (.ok 0, ⟨[.begin 0], some 0, 1⟩) := rfl
  rw [transactionLog, hb]
  simp only
  rw [writeAll_eq 0 changed rfl]
  simp [JournalLog.commit, JournalLog.requireActive, require_pos, transactionRecords, openRecords]

theorem scan_writes (t : TransactionId) : ∀ (ws ps : List (UInt64 × Block)),
    (⟨some t, ps, [], 0⟩ : LogState TransactionId UInt64 Block).scan (ws.map fun w => .write t w.1 w.2) =
      some ⟨some t, ps ++ ws, [], 0⟩
  | [], ps => by simp
  | w :: ws, ps => by
    rw [List.map_cons, scan_cons]
    simp only [step, if_true, Option.bind_some]
    rw [scan_writes t ws]
    simp

theorem scan_transactionRecords (changed : List (UInt64 × Block)) :
    init.scan (transactionRecords changed) = some ⟨none, [], changed, 1⟩ := by
  rw [transactionRecords, openRecords, List.cons_append, scan_cons]
  simp only [step, init, if_true, Option.bind_some]
  rw [scan_append, scan_writes]
  simp [scan, step]

theorem logWrites_transactionRecords (changed : List (UInt64 × Block)) :
    logWrites (transactionRecords changed) = changed := by
  rw [transactionRecords, logWrites_append, logWrites_openRecords]
  simp [logWrites]

def publish (recover : Superblock → FsProg RecoveryReport) (inconsistent : String) (sb : Superblock)
    (changed : List (UInt64 × Block)) : FsProg RecoveryReport := do
  let entries ← transactionLog changed
  storeJournalImage sb entries
  let report ← recover sb
  require (report.committedTransactions = 1 ∧ report.homeWrites = changed.length) (invalidData inconsistent)
  pure report

theorem publish_eq (recover : Superblock → FsProg RecoveryReport) (inconsistent : String) (sb : Superblock)
    (changed : List (UInt64 × Block)) : publish recover inconsistent sb changed = (do
      storeJournalImage sb (transactionRecords changed)
      let report ← recover sb
      require (report.committedTransactions = 1 ∧ report.homeWrites = changed.length) (invalidData inconsistent)
      pure report) := by
  rw [publish, transactionLog_eq]
  rfl

/-! ## Its stages -/

/-- A transaction the journal of `d` has room for. -/
structure Publication (sb : Superblock) (d : Disk) where
  changed : List (UInt64 × Block)
  image : List UInt8
  accepted : (checkJournalImage sb (transactionRecords changed)).eval d = .ok image

namespace Publication
variable {sb : Superblock} {d : Disk} (t : Publication sb d) {b : Nat}

def journaled : Disk := overlay d (journalWrites sb t.image)

def installed : Disk := overlay t.journaled (homeWrites t.changed)

def cleared : Disk := overlay t.installed (clearWrites sb)

def home : Disk := overlay d (homeWrites t.changed)

include t in
theorem homeBlock {w : Nat × Block} (hw : w ∈ homeWrites t.changed) : sb.HomeBlock w.1 := by
  obtain ⟨v, hv, rfl⟩ := List.mem_map.mp hw
  have := (validateEntries_eq_ok.mp (checkJournalImage_eq_ok.mp t.accepted).2.1).2
  rw [logWrites_transactionRecords] at this
  exact this v hv

theorem load_journaled : (loadJournalImage sb).eval t.journaled = .ok (transactionRecords t.changed) :=
  loadJournalImage_store t.accepted

theorem journalWrites_outside (hb : ¬ sb.journalRange.Contains b) : t.journaled[b]? = d[b]? := by
  refine getElem?_overlay_of_notMem fun hm => hb ?_
  exact keys_regionWrites.mp hm

section
variable (ha : sb.HomesApart)
include ha

theorem load_installed : (loadJournalImage sb).eval t.installed = .ok (transactionRecords t.changed) :=
  loadJournalImage_overlay ha t.load_journaled fun _ hw => t.homeBlock hw

theorem load_cleared : (loadJournalImage sb).eval t.cleared = .ok [] := loadJournalImage_clear (t.load_installed ha)

theorem recover_from {v : Disk} (hl : (loadJournalImage sb).eval v = .ok (transactionRecords t.changed))
    (hv : overlay v (homeWrites t.changed) = t.installed) :
    (recoverJournal sb).runOn v = (.ok ⟨1, t.changed.length⟩, t.installed) ∧
    (recoverJournal sb).trace v = (homeWrites t.changed).map (fun w => .write w.1 w.2) ++
      (if t.changed = [] then [] else [.flush]) :=
  hv ▸ recoverJournal_run ha hl (scan_transactionRecords t.changed)

theorem checkpoint_installed : (checkpointJournal sb).runOn t.installed = (.ok true, t.cleared) ∧
    (checkpointJournal sb).trace t.installed = (clearWrites sb).map (fun w => .write w.1 w.2) ++ [.flush] :=
  checkpointJournal_run (t.load_installed ha)

end

/-! Outside the journal the later stages are the new home. -/

theorem installed_outside (hb : ¬ sb.journalRange.Contains b) : t.installed[b]? = t.home[b]? := by
  rw [installed, home, getElem?_overlay, getElem?_overlay, t.journalWrites_outside hb]

theorem cleared_outside (hb : ¬ sb.journalRange.Contains b) : t.cleared[b]? = t.home[b]? := by
  rw [cleared, getElem?_clear_of_not hb, t.installed_outside hb]

@[simp] theorem length_journaled : t.journaled.length = d.length := length_overlay _ _

@[simp] theorem length_installed : t.installed.length = d.length := by simp [installed]

@[simp] theorem length_cleared : t.cleared.length = d.length := by simp [cleared]

/-! ## Running it -/

def stages : List Disk := [t.journaled, t.installed, t.cleared]

theorem flushStates_store (ms : List (Mutation Block)) :
    flushStates ((journalWrites sb t.image).map (fun w => .write w.1 w.2) ++ [.flush] ++ ms) d =
      t.journaled :: flushStates ms t.journaled := by
  rw [List.append_assoc, flushStates_writes]
  rfl

theorem flushStates_install (ms : List (Mutation Block)) (v : Disk) {s : Disk}
    (h : s ∈ flushStates ((homeWrites t.changed).map (fun w => .write w.1 w.2) ++
      (if t.changed = [] then [] else [.flush]) ++ ms) v) :
    s = overlay v (homeWrites t.changed) ∨ s ∈ flushStates ms (overlay v (homeWrites t.changed)) := by
  rw [List.append_assoc, flushStates_writes] at h
  split at h
  · exact .inr h
  · exact List.mem_cons.mp h

theorem publish_run {recover : Superblock → FsProg RecoveryReport} {d' : Disk} {inconsistent : String}
    (h : (recover sb).runOn t.journaled = (.ok ⟨1, t.changed.length⟩, d')) :
    (publish recover inconsistent sb t.changed).runOn d = (.ok ⟨1, t.changed.length⟩, d') ∧
      (publish recover inconsistent sb t.changed).trace d =
        (journalWrites sb t.image).map (fun w => .write w.1 w.2) ++ [.flush] ++ (recover sb).trace t.journaled := by
  obtain ⟨hrun, htrace⟩ := runOn_storeJournalImage t.accepted
  rw [publish_eq, runOn_bind_ok hrun, trace_bind_ok hrun, htrace, ← journaled, runOn_bind_ok h, trace_bind_ok h,
    require_pos ⟨rfl, rfl⟩]
  exact ⟨rfl, congrArg (_ ++ ·) (List.append_nil _)⟩

section
variable (ha : sb.HomesApart) (inconsistent : String)
include ha

theorem publish_installs : (publish recoverJournal inconsistent sb t.changed).runOn d =
      (.ok ⟨1, t.changed.length⟩, t.installed) ∧
    ∀ s ∈ flushStates ((publish recoverJournal inconsistent sb t.changed).trace d) d, s ∈ t.stages := by
  obtain ⟨hrun, htrace⟩ := t.recover_from ha t.load_journaled rfl
  obtain ⟨hp, ht⟩ := @publish_run sb d t recoverJournal _ inconsistent hrun
  refine ⟨hp, fun s hs => ?_⟩
  rw [ht, flushStates_store, htrace, ← List.append_nil ((homeWrites _).map _ ++ _)] at hs
  rcases List.mem_cons.mp hs with rfl | hs
  · simp [stages]
  · rcases t.flushStates_install [] _ hs with rfl | hs
    · simp [stages, installed]
    · cases hs

theorem recover_and_checkpoint {v : Disk} (hl : (loadJournalImage sb).eval v = .ok (transactionRecords t.changed))
    (hv : overlay v (homeWrites t.changed) = t.installed) :
    (recoverJournalAndCheckpoint sb).runOn v = (.ok ⟨1, t.changed.length⟩, t.cleared) ∧
    ∀ s ∈ flushStates ((recoverJournalAndCheckpoint sb).trace v) v, s ∈ t.stages := by
  obtain ⟨hr, htr⟩ := t.recover_from ha hl hv
  obtain ⟨hc, htc⟩ := t.checkpoint_installed ha
  rw [recoverJournalAndCheckpoint, runOn_bind_ok hr, trace_bind_ok hr, runOn_bind_ok hc, trace_bind_ok hc, htr, htc]
  refine ⟨rfl, fun s hs => ?_⟩
  rcases t.flushStates_install _ _ hs with rfl | hs
  · simp [stages, hv]
  · rw [hv, List.append_assoc, flushStates_writes] at hs
    rcases List.mem_cons.mp hs with rfl | hs
    · simp [stages, cleared]
    · cases hs

theorem publish_clears : (publish recoverJournalAndCheckpoint inconsistent sb t.changed).runOn d =
      (.ok ⟨1, t.changed.length⟩, t.cleared) ∧
    ∀ s ∈ flushStates ((publish recoverJournalAndCheckpoint inconsistent sb t.changed).trace d) d,
      s ∈ t.stages := by
  obtain ⟨hrun, hf⟩ := t.recover_and_checkpoint ha t.load_journaled rfl
  obtain ⟨hp, ht⟩ := @publish_run sb d t recoverJournalAndCheckpoint _ inconsistent hrun
  refine ⟨hp, fun s hs => ?_⟩
  rw [ht, flushStates_store] at hs
  rcases List.mem_cons.mp hs with rfl | hs
  · simp [stages]
  · exact hf s hs

omit t in
theorem publish_clears_ok {changed : List (UInt64 × Block)} {r : RecoveryReport} {d' : Disk} :
    (publish recoverJournalAndCheckpoint inconsistent sb changed).runOn d = (.ok r, d') ↔
      ∃ t : Publication sb d, t.changed = changed ∧ r = ⟨1, changed.length⟩ ∧ d' = t.cleared := by
  constructor
  · intro h
    cases hi : (checkJournalImage sb (transactionRecords changed)).eval d with
    | error e =>
      rw [publish_eq, runOn_bind_error (storeJournalImage_error hi).1] at h
      cases h
    | ok image =>
      let t : Publication sb d := ⟨changed, image, hi⟩
      have hrun := (t.publish_clears ha inconsistent).1.symm.trans h
      exact ⟨t, rfl, (Except.ok.inj (congrArg Prod.fst hrun)).symm, (congrArg Prod.snd hrun).symm⟩
  · rintro ⟨t, rfl, rfl, rfl⟩
    exact (t.publish_clears ha inconsistent).1

theorem publish_twice : (publish recoverJournal inconsistent sb t.changed >>= fun report => do
        let _ ← recoverJournalAndCheckpoint sb
        pure report).runOn d = (.ok ⟨1, t.changed.length⟩, t.cleared) ∧
    ∀ s ∈ flushStates ((publish recoverJournal inconsistent sb t.changed >>= fun report => do
        let _ ← recoverJournalAndCheckpoint sb
        pure report).trace d) d, s ∈ t.stages := by
  obtain ⟨hp, hf⟩ := t.publish_installs ha inconsistent
  obtain ⟨hrc, hfc⟩ := t.recover_and_checkpoint ha (t.load_installed ha)
    (overlay_overlay_of_subset _ (List.Subset.refl _))
  refine ⟨by rw [runOn_bind_ok hp, runOn_bind_ok hrc]; rfl, fun s hs => ?_⟩
  rw [trace_bind_ok hp, flushStates_append _ _ d, applyAll_trace, hp, trace_bind_ok hrc,
    show (pure _ : FsProg _).trace t.cleared = [] from rfl, List.append_nil] at hs
  rcases List.mem_append.mp hs with hs | hs
  · exact hf s hs
  · exact hfc s hs

end

end Publication

/-! ## What an operation can do -/

/-- An operation leaves the device alone, or it succeeds by publishing one
transaction whose new home satisfies `Q`. -/
inductive Outcome {α : Type} (sb : Superblock) (d : Disk) (Q : Disk → Prop) (p : FsProg α) : Prop
  | unchanged : (p.runOn d).2 = d → p.trace d = [] → Outcome sb d Q p
  | published (t : Publication sb d) : Q t.home → (∃ a, (p.runOn d).1 = .ok a) →
      (p.runOn d).2 = t.installed ∨ (p.runOn d).2 = t.cleared →
      (∀ s ∈ flushStates (p.trace d) d, s ∈ t.stages) → Outcome sb d Q p

namespace Outcome
variable {α γ : Type} {sb : Superblock} {d : Disk} {Q Q' : Disk → Prop} {p : FsProg α} {f : α → FsProg γ}
  {e : IoError}

theorem mono (h : Outcome sb d Q p) (hq : ∀ d', Q d' → Q' d') : Outcome sb d Q' p := by
  cases h with
  | unchanged hd ht => exact .unchanged hd ht
  | published t hQ hok hd hf => exact .published t (hq _ hQ) hok hd hf

theorem of_reads [hp : p.Reads] : Outcome sb d Q p :=
  .unchanged (hp.readOnly.runOn_snd d) (hp.readOnly.trace_eq d)

theorem bind [p.Reads] (hf : ∀ a, p.eval d = .ok a → Outcome sb d Q (f a)) : Outcome sb d Q (p >>= f) := by
  cases he : p.eval d with
  | error e =>
    obtain ⟨hrun, htrace⟩ := read_error he f
    exact .unchanged (by rw [hrun]) htrace
  | ok a =>
    obtain ⟨hrun, htrace⟩ := read_ok he f
    cases hf a he with
    | unchanged hd ht => exact .unchanged (by rw [hrun, hd]) (by rw [htrace, ht])
    | published t hQ hok hd hfl =>
      exact .published t hQ (by rw [hrun]; exact hok) (by rw [hrun]; exact hd) (by rw [htrace]; exact hfl)

theorem check {x : Except IoError α} (hf : ∀ a, x = .ok a → Outcome sb d Q (f a)) :
    Outcome sb d Q ((liftM x : FsProg α) >>= f) := by
  rw [liftM_eq]
  exact bind fun a h => hf a (by rwa [eval_lift] at h)

theorem guard {c : Prop} [Decidable c] {f : Unit → FsProg γ} (hf : c → Outcome sb d Q (f ())) :
    Outcome sb d Q ((liftM (require c e) : FsProg Unit) >>= f) :=
  check fun _ h => hf (require_eq_ok.mp h)

theorem otherwise {c : Prop} [Decidable c] {a : γ} {p : FsProg γ} (hp : ¬ c → Outcome sb d Q p) :
    Outcome sb d Q (if c then pure a else p) := by
  by_cases hc : c
  · rw [if_pos hc]
    exact .of_reads
  · rw [if_neg hc]
    exact hp hc

theorem find {o : Option α} (hf : ∀ a, o = some a → Outcome sb d Q (f a)) :
    Outcome sb d Q ((liftM (okOr e o) : FsProg α) >>= f) :=
  check fun a h => hf a (okOr_eq_ok.mp h)

theorem map (h : Outcome sb d Q p) (g : α → γ) : Outcome sb d Q (p >>= fun a => pure (g a)) := by
  have hsnd : ((p >>= fun a => pure (g a)).runOn d).2 = (p.runOn d).2 := by
    rw [runOn_bind]
    cases hr : p.runOn d with
    | mk r d' => cases r <;> rfl
  have htrace : (p >>= fun a => pure (g a)).trace d = p.trace d := by
    rw [trace_bind]
    cases hr : p.runOn d with
    | mk r d' => cases r <;> exact List.append_nil _
  cases h with
  | unchanged hd ht => exact .unchanged (by rw [hsnd, hd]) (by rw [htrace, ht])
  | published t hQ hok hd hfl =>
    refine .published t hQ ?_ (by rw [hsnd]; exact hd) (by rw [htrace]; exact hfl)
    obtain ⟨a, ha⟩ := hok
    refine ⟨g a, ?_⟩
    rw [runOn_bind]
    cases hr : p.runOn d with
    | mk r d' => rw [hr] at ha; cases ha; rfl

section
variable (ha : sb.HomesApart) {changed : List (UInt64 × Block)} (inconsistent : String)

theorem refused {β : Type} {recover : Superblock → FsProg RecoveryReport} {f : RecoveryReport → FsProg β}
    (h : (checkJournalImage sb (transactionRecords changed)).eval d = .error e) :
    Outcome sb d Q (publish recover inconsistent sb changed >>= f) := by
  obtain ⟨hrun, htrace⟩ := storeJournalImage_error h
  refine .unchanged ?_ ?_
  · rw [publish_eq, bind_assoc, runOn_bind_error hrun]
  · rw [publish_eq, bind_assoc, trace_bind, htrace, hrun]
    rfl

section
variable (hq : Q (overlay d (homeWrites changed)))
include hq

theorem publishes {β : Type} {recover : Superblock → FsProg RecoveryReport} {f : RecoveryReport → FsProg β}
    {p : FsProg β}
    (hp : p = publish recover inconsistent sb changed >>= f)
    (hrun : ∀ t : Publication sb d, t.changed = changed → ∃ a d', p.runOn d = (.ok a, d') ∧
      (d' = t.installed ∨ d' = t.cleared) ∧ ∀ s ∈ flushStates (p.trace d) d, s ∈ t.stages) : Outcome sb d Q p := by
  cases h : (checkJournalImage sb (transactionRecords changed)).eval d with
  | error e =>
    rw [hp]
    exact refused inconsistent h
  | ok image =>
    obtain ⟨a, d', hr, hd, hf⟩ := hrun ⟨changed, image, h⟩ rfl
    exact .published ⟨changed, image, h⟩ hq ⟨a, by rw [hr]⟩ (by rwa [hr]) hf

include ha

theorem publish_installs : Outcome sb d Q (publish recoverJournal inconsistent sb changed) := by
  refine publishes inconsistent hq (bind_pure _).symm ?_
  rintro t rfl
  obtain ⟨hrun, hf⟩ := t.publish_installs ha inconsistent
  exact ⟨_, _, hrun, .inl rfl, hf⟩

theorem publish_clears : Outcome sb d Q (publish recoverJournalAndCheckpoint inconsistent sb changed) := by
  refine publishes inconsistent hq (bind_pure _).symm ?_
  rintro t rfl
  obtain ⟨hrun, hf⟩ := t.publish_clears ha inconsistent
  exact ⟨_, _, hrun, .inr rfl, hf⟩

theorem publish_twice :
    Outcome sb d Q (publish recoverJournal inconsistent sb changed >>= fun report => do
      let _ ← recoverJournalAndCheckpoint sb
      pure report) := by
  refine publishes inconsistent hq rfl ?_
  rintro t rfl
  obtain ⟨hrun, hf⟩ := t.publish_twice ha inconsistent
  exact ⟨_, _, hrun, .inr rfl, hf⟩

end

end

end Outcome

end SystemsLab.Fs
