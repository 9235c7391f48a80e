import Std.Data.ExtTreeMap
import SystemsLab.Fs.Block
import SystemsLab.Lib.RedoLog

/-!
# The in-memory journal

The append-only log of begin, write and commit records with its single open
transaction, and the replay of a log image into a map of home blocks.
-/

namespace SystemsLab.Fs

abbrev TransactionId : Type := UInt64

abbrev JournalEntry : Type := LogEntry TransactionId UInt64 Block

/-- `BTreeMap<u64, [u8; BLOCK_SIZE]>`. -/
abbrev Home : Type := Std.ExtTreeMap UInt64 Block

/-! ## Replay -/

structure JournalImage where
  entries : List JournalEntry

/-- The open transaction, its writes so far, the number of transactions replayed and the home map, which keeps what
was replayed before an error. -/
def replayLoop : List JournalEntry → Option TransactionId → List (UInt64 × Block) → Nat → Home →
    Except IoError Nat × Home
  | [], _, _, replayed, home => (.ok replayed, home)
  | .begin txid :: es, active, _, replayed, home =>
    if active.isSome then (.error (invalidData "nested journal transaction"), home)
    else replayLoop es (some txid) [] replayed home
  | .write txid block data :: es, active, pending, replayed, home =>
    if active ≠ some txid then (.error (invalidData "journal write does not match active transaction"), home)
    else replayLoop es active (pending ++ [(block, data)]) replayed home
  | .commit txid :: es, active, pending, replayed, home =>
    if active ≠ some txid then (.error (invalidData "journal commit does not match active transaction"), home)
    else replayLoop es none [] (replayed + 1) (insertAll home pending)

def JournalImage.replayInto (image : JournalImage) (home : Home) : Except IoError Nat × Home :=
  replayLoop image.entries none [] 0 home

open LogState

theorem replayLoop_some (home : Home) : ∀ {es : List JournalEntry} {s s' : LogState TransactionId UInt64 Block},
    s.scan es = some s' → replayLoop es s.active s.pending s.commits (insertAll home s.applied) =
      (.ok s'.commits, insertAll home s'.applied)
  | [], s, s', h => by rw [← Option.some.inj h]; rfl
  | e :: es, s, s', h => by
    rw [scan_cons, Option.bind_eq_some_iff] at h
    obtain ⟨m, hm, hs⟩ := h
    have ih := replayLoop_some home hs
    cases e with
    | begin t =>
      obtain ⟨ha, rfl⟩ := step_begin hm
      simpa [replayLoop, ha] using ih
    | write t k x =>
      obtain ⟨ha, rfl⟩ := step_write hm
      simpa [replayLoop, ha] using ih
    | commit t =>
      obtain ⟨ha, rfl⟩ := step_commit hm
      simpa [replayLoop, ha, insertAll_append] using ih

theorem replayLoop_none (home : Home) : ∀ {es : List JournalEntry} {s : LogState TransactionId UInt64 Block},
    s.scan es = none → ∃ e, (replayLoop es s.active s.pending s.commits (insertAll home s.applied)).1 = .error e
  | [], s, h => by cases h
  | .begin t :: es, s, h => by
    by_cases ha : s.active = none
    · rw [scan_cons, step, if_pos ha] at h
      simpa [replayLoop, ha] using replayLoop_none home h
    · exact ⟨_, by rw [replayLoop, if_pos (Option.isSome_iff_ne_none.mpr ha)]⟩
  | .write t k x :: es, s, h => by
    by_cases ha : s.active = some t
    · rw [scan_cons, step, if_pos ha] at h
      simpa [replayLoop, ha] using replayLoop_none home h
    · exact ⟨_, by rw [replayLoop, if_pos ha]⟩
  | .commit t :: es, s, h => by
    by_cases ha : s.active = some t
    · rw [scan_cons, step, if_pos ha] at h
      simpa [replayLoop, ha, insertAll_append] using replayLoop_none home h
    · exact ⟨_, by rw [replayLoop, if_pos ha]⟩

variable {es : List JournalEntry}

theorem replayInto_some {s : LogState TransactionId UInt64 Block} (h : init.scan es = some s)
    (home : Home) : JournalImage.replayInto ⟨es⟩ home = (.ok s.commits, insertAll home s.applied) :=
  replayLoop_some home h

theorem replayInto_ok_iff {home : Home} :
    (∃ n, (JournalImage.replayInto ⟨es⟩ home).1 = .ok n) ↔ ∃ s, init.scan es = some s := by
  constructor
  · rintro ⟨n, hn⟩
    cases h : init.scan es with
    | some s => exact ⟨s, rfl⟩
    | none =>
      obtain ⟨e, he⟩ := replayLoop_none home h
      rw [show (JournalImage.replayInto ⟨es⟩ home).1 = .error e from he] at hn
      cases hn
  · rintro ⟨s, hs⟩
    exact ⟨s.commits, by rw [replayInto_some hs]⟩

/-! ## The log -/

structure JournalLog where
  entries : List JournalEntry
  active : Option TransactionId
  nextTxid : TransactionId

namespace JournalLog
variable {log : JournalLog}

def new : JournalLog := ⟨[], none, 0⟩

def begin (log : JournalLog) : Except IoError TransactionId × JournalLog :=
  if log.active.isSome then (.error ⟨.wouldBlock, "a journal transaction is already active"⟩, log)
  else
    match checkedAdd log.nextTxid 1 with
    | none => (.error ⟨.other, "journal transaction id exhausted"⟩, log)
    | some next => (.ok log.nextTxid, ⟨log.entries ++ [.begin log.nextTxid], some log.nextTxid, next⟩)

def requireActive (log : JournalLog) (txid : TransactionId) : Except IoError Unit :=
  require (log.active = some txid) (invalidInput "transaction id is not active")

def write (log : JournalLog) (txid : TransactionId) (block : UInt64) (data : Block) :
    Except IoError Unit × JournalLog :=
  match log.requireActive txid with
  | .error e => (.error e, log)
  | .ok _ => (.ok (), { log with entries := log.entries ++ [.write txid block data] })

def commit (log : JournalLog) (txid : TransactionId) : Except IoError Unit × JournalLog :=
  match log.requireActive txid with
  | .error e => (.error e, log)
  | .ok _ => (.ok (), { log with entries := log.entries ++ [.commit txid], active := none })

def crashPrefix (log : JournalLog) (durableEntries : Nat) : Except IoError JournalImage := do
  require (durableEntries ≤ log.entries.length) (invalidInput "crash prefix exceeds journal length")
  pure ⟨log.entries.take durableEntries⟩

inductive Call
  | begin
  | write (txid : TransactionId) (block : UInt64) (data : Block)
  | commit (txid : TransactionId)

def call (log : JournalLog) : Call → JournalLog
  | .begin => log.begin.2
  | .write txid block data => (log.write txid block data).2
  | .commit txid => (log.commit txid).2

def run (calls : List Call) : JournalLog := calls.foldl call new

/-- The automaton accepts the records and ends in the log's open transaction,
and no transaction id is used twice. -/
structure Consistent (log : JournalLog) : Prop where
  accepted : ∃ s, init.scan log.entries = some s ∧ s.active = log.active
  distinct : (begun log.entries).Nodup
  fresh : ∀ t ∈ begun log.entries, t.toNat < log.nextTxid.toNat

theorem consistent_new : new.Consistent := ⟨⟨_, rfl, rfl⟩, List.nodup_nil, by simp [new, begun]⟩

theorem requireActive_eq_ok {txid : TransactionId} {u : Unit} :
    log.requireActive txid = .ok u ↔ log.active = some txid := require_eq_ok

theorem Consistent.call (h : log.Consistent) (c : Call) : (log.call c).Consistent := by
  obtain ⟨s, hs, ha⟩ := h.accepted
  cases c with
  | begin =>
    simp only [JournalLog.call, JournalLog.begin]
    split
    · exact h
    · rename_i hn
      have hn : log.active = none := by simpa using hn
      split
      · exact h
      · rename_i next hnext
        rw [checkedAdd_eq_some] at hnext
        have hb : begun (log.entries ++ [LogEntry.begin log.nextTxid]) = begun log.entries ++ [log.nextTxid] := by
          rw [begun_append]; rfl
        have hstep : s.step (.begin log.nextTxid) = some ⟨some log.nextTxid, [], s.applied, s.commits⟩ :=
          if_pos (ha.trans hn)
        refine ⟨⟨_, scan_snoc hs hstep, rfl⟩, ?_, ?_⟩
        · rw [hb, List.nodup_append]
          refine ⟨h.distinct, by simp, fun t ht u hu heq => ?_⟩
          rw [List.mem_singleton] at hu
          subst heq; subst hu
          exact Nat.lt_irrefl _ (h.fresh _ ht)
        · intro t ht
          rw [hb, List.mem_append, List.mem_singleton] at ht
          simp only [hnext]
          rcases ht with ht | rfl
          · have := h.fresh t ht; omega
          · simp
  | write txid block data =>
    simp only [JournalLog.call, JournalLog.write]
    cases hr : log.requireActive txid with
    | error e => exact h
    | ok u =>
      rw [requireActive_eq_ok] at hr
      have hb : begun (log.entries ++ [LogEntry.write txid block data]) = begun log.entries := by
        rw [begun_append]; simp [begun]
      have hstep : s.step (.write txid block data) =
          some ⟨s.active, s.pending ++ [(block, data)], s.applied, s.commits⟩ := if_pos (ha.trans hr)
      exact ⟨⟨_, scan_snoc hs hstep, ha⟩, by rw [hb]; exact h.distinct, by rw [hb]; exact h.fresh⟩
  | commit txid =>
    simp only [JournalLog.call, JournalLog.commit]
    cases hr : log.requireActive txid with
    | error e => exact h
    | ok u =>
      rw [requireActive_eq_ok] at hr
      have hb : begun (log.entries ++ [LogEntry.commit txid]) = begun log.entries := by
        rw [begun_append]; simp [begun]
      have hstep : s.step (.commit txid) = some ⟨none, [], s.applied ++ s.pending, s.commits + 1⟩ :=
        if_pos (ha.trans hr)
      exact ⟨⟨_, scan_snoc hs hstep, rfl⟩, by rw [hb]; exact h.distinct, by rw [hb]; exact h.fresh⟩

theorem consistent_run (calls : List Call) : (run calls).Consistent := by
  have h : ∀ log : JournalLog, log.Consistent → (calls.foldl JournalLog.call log).Consistent := by
    induction calls with
    | nil => exact fun log h => h
    | cons c calls ih => exact fun log h => ih _ (h.call c)
  exact h new consistent_new

theorem Consistent.scan_take (h : log.Consistent) (n : Nat) :
    ∃ s, init.scan (log.entries.take n) = some s ∧ s.applied = committedWrites (log.entries.take n) ∧
      s.commits = commitCount (log.entries.take n) := by
  obtain ⟨s, hs, -⟩ := h.accepted
  rw [← List.take_append_drop n log.entries] at hs
  obtain ⟨m, hm, -⟩ := scan_of_append hs
  have hsub : (begun (log.entries.take n)).Sublist (begun log.entries) := (List.take_sublist n _).filterMap _
  exact ⟨m, hm, scan_applied hm (h.distinct.sublist hsub), scan_commits hm⟩

theorem Consistent.committedWrites_take (h : log.Consistent) {n m : Nat} (hnm : n ≤ m)
    (hc : commitCount (log.entries.take n) = commitCount (log.entries.take m)) :
    committedWrites (log.entries.take n) = committedWrites (log.entries.take m) := by
  obtain ⟨s, hs, ha, -⟩ := h.scan_take n
  obtain ⟨s', hs', ha', -⟩ := h.scan_take m
  have hsplit : log.entries.take m = log.entries.take n ++ (log.entries.take m).drop n := by
    conv_lhs => rw [← List.take_append_drop n (log.entries.take m), List.take_take, Nat.min_eq_left hnm]
  rw [hsplit, commitCount_append] at hc
  rw [hsplit, scan_append, hs] at hs'
  rw [← ha, ← ha', scan_applied_of_commitCount hs' (by omega)]

theorem crashPrefix_eq_ok {n : Nat} {image : JournalImage} :
    log.crashPrefix n = .ok image ↔ n ≤ log.entries.length ∧ image = ⟨log.entries.take n⟩ := by
  simp only [crashPrefix, steps_ok, exists_const, eq_comm (a := image)]

theorem Consistent.replayInto_take (h : log.Consistent) (n : Nat) (home : Home) :
    JournalImage.replayInto ⟨log.entries.take n⟩ home =
      (.ok (commitCount (log.entries.take n)), insertAll home (committedWrites (log.entries.take n))) := by
  obtain ⟨s, hs, ha, hc⟩ := h.scan_take n
  rw [replayInto_some hs, ha, hc]

/-- A log cut anywhere replays, and applies the writes of the transactions
committed before the cut. -/
theorem crashPrefix_replayInto (calls : List Call) (home : Home) (n : Nat) (hn : n ≤ (run calls).entries.length) :
    ∃ image, (run calls).crashPrefix n = .ok image ∧
      image.replayInto home = (.ok (commitCount ((run calls).entries.take n)),
        insertAll home (committedWrites ((run calls).entries.take n))) ∧
      (∀ m image', (run calls).crashPrefix m = .ok image' →
        commitCount ((run calls).entries.take m) = commitCount ((run calls).entries.take n) →
        image'.replayInto home = image.replayInto home) ∧
      image.replayInto (image.replayInto home).2 = image.replayInto home := by
  have h := consistent_run calls
  refine ⟨_, crashPrefix_eq_ok.mpr ⟨hn, rfl⟩, h.replayInto_take n home, ?_, ?_⟩
  · intro m image' hm hc
    obtain ⟨-, rfl⟩ := crashPrefix_eq_ok.mp hm
    have hw : committedWrites ((run calls).entries.take m) = committedWrites ((run calls).entries.take n) := by
      rcases Nat.le_total m n with hmn | hmn
      · exact h.committedWrites_take hmn hc
      · exact (h.committedWrites_take hmn hc.symm).symm
    rw [h.replayInto_take, h.replayInto_take, hw, hc]
  · simp only [h.replayInto_take, insertAll_insertAll]

theorem crashPrefix_replayInto_cut :
    let log := run [.begin, .write 0 7 Block.zero, .commit 5, .commit 0, .begin, .write 1 8 Block.zero, .commit 1]
    5 ≤ log.entries.length ∧ ∃ image, log.crashPrefix 5 = .ok image ∧
      image.replayInto ∅ = (.ok 1, insertAll ∅ [(7, Block.zero)]) := by
  refine ⟨by decide, ?_⟩
  obtain ⟨image, h, hr, -⟩ := crashPrefix_replayInto
    [.begin, .write 0 7 Block.zero, .commit 5, .commit 0, .begin, .write 1 8 Block.zero, .commit 1] ∅ 5 (by decide)
  exact ⟨image, h, hr⟩

end JournalLog

end SystemsLab.Fs
