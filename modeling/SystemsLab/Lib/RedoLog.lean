import Mathlib.Data.List.Basic
import Mathlib.Data.List.Induction
import Mathlib.Tactic.Common

/-!
# Redo logs

On a log that never uses a transaction id twice `scan` computes the writes, in log order, of exactly the
transactions whose commit record is in the log (`scan_applied`).
-/

namespace SystemsLab

inductive LogEntry (τ κ β : Type) : Type
  | begin (t : τ)
  | write (t : τ) (k : κ) (x : β)
  | commit (t : τ)
  deriving DecidableEq

/-- The open transaction with its writes, the writes of the closed ones and their number. -/
@[ext] structure LogState (τ κ β : Type) where
  active : Option τ
  pending : List (κ × β)
  applied : List (κ × β)
  commits : Nat

namespace LogState
variable {τ κ β : Type} [DecidableEq τ] {s s' : LogState τ κ β}

def init : LogState τ κ β := ⟨none, [], [], 0⟩

/-- Reads one record; `none` on a record out of order. -/
def step (s : LogState τ κ β) : LogEntry τ κ β → Option (LogState τ κ β)
  | .begin t => if s.active = none then some ⟨some t, [], s.applied, s.commits⟩ else none
  | .write t k x => if s.active = some t then some ⟨s.active, s.pending ++ [(k, x)], s.applied, s.commits⟩ else none
  | .commit t => if s.active = some t then some ⟨none, [], s.applied ++ s.pending, s.commits + 1⟩ else none

def scan (s : LogState τ κ β) (es : List (LogEntry τ κ β)) : Option (LogState τ κ β) := es.foldlM step s

@[simp] theorem scan_nil (s : LogState τ κ β) : s.scan [] = some s := rfl

@[simp] theorem scan_cons (s : LogState τ κ β) (e : LogEntry τ κ β) (es : List (LogEntry τ κ β)) :
    s.scan (e :: es) = (s.step e).bind fun s' => s'.scan es := rfl

theorem scan_append (s : LogState τ κ β) (es fs : List (LogEntry τ κ β)) :
    s.scan (es ++ fs) = (s.scan es).bind fun s' => s'.scan fs := List.foldlM_append

theorem scan_of_append {es fs : List (LogEntry τ κ β)} (h : s.scan (es ++ fs) = some s') :
    ∃ m, s.scan es = some m ∧ m.scan fs = some s' := by
  rw [scan_append] at h
  exact Option.bind_eq_some_iff.mp h

theorem scan_snoc {s m s' : LogState τ κ β} {es : List (LogEntry τ κ β)} {e : LogEntry τ κ β}
    (hs : s.scan es = some m)
    (he : m.step e = some s') : s.scan (es ++ [e]) = some s' := by
  rw [scan_append, hs, Option.bind_some, scan_cons, he]
  rfl

theorem step_begin {t : τ} (h : s.step (.begin t) = some s') :
    s.active = none ∧ s' = ⟨some t, [], s.applied, s.commits⟩ := by
  rw [step, Option.ite_none_right_eq_some] at h
  exact ⟨h.1, (Option.some.inj h.2).symm⟩

theorem step_write {t : τ} {k : κ} {x : β} (h : s.step (.write t k x) = some s') :
    s.active = some t ∧ s' = ⟨some t, s.pending ++ [(k, x)], s.applied, s.commits⟩ := by
  rw [step, Option.ite_none_right_eq_some] at h
  exact ⟨h.1, by rw [← Option.some.inj h.2, h.1]⟩

theorem step_commit {t : τ} (h : s.step (.commit t) = some s') :
    s.active = some t ∧ s' = ⟨none, [], s.applied ++ s.pending, s.commits + 1⟩ := by
  rw [step, Option.ite_none_right_eq_some] at h
  exact ⟨h.1, (Option.some.inj h.2).symm⟩

end LogState

open LogState

section
variable {τ κ β : Type}
variable {s s' : LogState τ κ β} {es : List (LogEntry τ κ β)} {t : τ}

def begun (es : List (LogEntry τ κ β)) : List τ :=
  es.filterMap fun e => match e with
    | .begin t => some t
    | _ => none

def logWrites (es : List (LogEntry τ κ β)) : List (κ × β) :=
  es.filterMap fun e => match e with
    | .write _ k x => some (k, x)
    | _ => none

def commitCount (es : List (LogEntry τ κ β)) : Nat :=
  es.countP fun e => match e with
    | .commit _ => true
    | _ => false

theorem begun_append (es fs : List (LogEntry τ κ β)) : begun (es ++ fs) = begun es ++ begun fs :=
  List.filterMap_append

theorem logWrites_append (es fs : List (LogEntry τ κ β)) : logWrites (es ++ fs) = logWrites es ++ logWrites fs :=
  List.filterMap_append

theorem commitCount_append (es fs : List (LogEntry τ κ β)) :
    commitCount (es ++ fs) = commitCount es + commitCount fs := List.countP_append

section
variable [DecidableEq τ] [DecidableEq κ] [DecidableEq β]

/-- A record's write, if the log `es` holds the commit of its transaction. -/
def committedWrite (es : List (LogEntry τ κ β)) : LogEntry τ κ β → Option (κ × β)
  | .write t k x => if .commit t ∈ es then some (k, x) else none
  | _ => none

def committedWrites (es : List (LogEntry τ κ β)) : List (κ × β) := es.filterMap (committedWrite es)

end

def openRecords (t : τ) (ws : List (κ × β)) : List (LogEntry τ κ β) := .begin t :: ws.map fun w => .write t w.1 w.2

theorem logWrites_openRecords (t : τ) (ws : List (κ × β)) : logWrites (openRecords t ws) = ws := by
  simp only [logWrites, openRecords, List.filterMap_cons, List.filterMap_map]
  exact List.filterMap_some

theorem commit_notMem_openRecords {u : τ} {ws : List (κ × β)} : LogEntry.commit u ∉ openRecords t ws := by
  simp [openRecords]

theorem begun_openRecords (t : τ) (ws : List (κ × β)) : begun (openRecords t ws) = [t] := by
  simp only [begun, openRecords, List.filterMap_cons, List.filterMap_map]
  exact congrArg (t :: ·) (List.filterMap_eq_nil_iff.mpr fun _ _ => rfl)

theorem commitCount_openRecords (t : τ) (ws : List (κ × β)) : commitCount (openRecords t ws) = 0 := by
  rw [commitCount, List.countP_eq_zero]
  intro e he
  rcases List.mem_cons.mp he with rfl | he
  · simp
  · obtain ⟨w, -, rfl⟩ := List.mem_map.mp he
    simp

variable [DecidableEq τ]

/-- A run of closed transactions followed by the records of the open one. -/
structure Scanned (es : List (LogEntry τ κ β)) (s : LogState τ κ β) (closed : List (LogEntry τ κ β)) : Prop where
  split : es = closed ++ (match s.active with
    | some t => openRecords t s.pending
    | none => [])
  applied : s.applied = logWrites closed
  commits : s.commits = commitCount closed
  write_committed : ∀ t k x, .write t k x ∈ closed → .commit t ∈ closed
  commit_begun : ∀ t, .commit t ∈ closed → t ∈ begun closed

theorem Scanned.step {closed : List (LogEntry τ κ β)} {e : LogEntry τ κ β}
    (h : Scanned es s closed) (hs : s.step e = some s') : ∃ closed', Scanned (es ++ [e]) s' closed' := by
  have hsplit := h.split
  cases e with
  | begin t =>
    obtain ⟨ha, rfl⟩ := step_begin hs
    rw [ha] at hsplit
    simp only [List.append_nil] at hsplit
    exact ⟨closed, ⟨by simp [hsplit, openRecords], h.applied, h.commits, h.write_committed, h.commit_begun⟩⟩
  | write t k x =>
    obtain ⟨ha, rfl⟩ := step_write hs
    rw [ha] at hsplit
    simp only at hsplit
    exact ⟨closed, ⟨by simp [hsplit, openRecords], h.applied, h.commits, h.write_committed, h.commit_begun⟩⟩
  | commit t =>
    -- The commit closes the open records behind the closed ones.
    obtain ⟨ha, rfl⟩ := step_commit hs
    rw [ha] at hsplit
    simp only at hsplit
    refine ⟨closed ++ openRecords t s.pending ++ [.commit t], ⟨by simp [hsplit], ?_, ?_, ?_, ?_⟩⟩
    · rw [logWrites_append, logWrites_append, logWrites_openRecords, ← h.applied]
      simp [logWrites]
    · rw [commitCount_append, commitCount_append, commitCount_openRecords, ← h.commits]
      simp [commitCount]
    · intro u k x hm
      simp only [List.mem_append, List.mem_singleton, reduceCtorEq, or_false] at hm ⊢
      rcases hm with hm | hm
      · exact .inl (.inl (h.write_committed u k x hm))
      · obtain ⟨w, -, hw⟩ := List.mem_map.mp ((List.mem_cons.mp hm).resolve_left (by simp))
        cases hw
        exact .inr rfl
    · intro u hm
      simp only [List.mem_append, List.mem_singleton, LogEntry.commit.injEq] at hm
      rw [begun_append, begun_append, begun_openRecords]
      rcases hm with (hm | hm) | rfl
      · simp [h.commit_begun u hm]
      · exact absurd hm commit_notMem_openRecords
      · simp

theorem scan_scanned : ∀ {s : LogState τ κ β}, init.scan es = some s → ∃ closed, Scanned es s closed := by
  induction es using List.reverseRecOn with
  | nil =>
    intro s h
    cases Option.some.inj h
    exact ⟨[], ⟨rfl, rfl, rfl, by simp, by simp⟩⟩
  | append_singleton es e ih =>
    intro s h
    obtain ⟨m, hm, hs⟩ := scan_of_append h
    obtain ⟨closed, hc⟩ := ih hm
    rw [scan_cons, Option.bind_eq_some_iff] at hs
    obtain ⟨s', hs', hn⟩ := hs
    cases Option.some.inj hn
    exact hc.step hs'

theorem scan_commits (h : init.scan es = some s) : s.commits = commitCount es := by
  obtain ⟨closed, hc⟩ := scan_scanned h
  rw [hc.commits, hc.split, commitCount_append]
  cases s.active with
  | none => rfl
  | some t => rw [commitCount_openRecords]; rfl

theorem scan_applied [DecidableEq κ] [DecidableEq β]
    (h : init.scan es = some s) (hn : (begun es).Nodup) : s.applied = committedWrites es := by
  obtain ⟨closed, hc⟩ := scan_scanned h
  have hin : ∀ t k x, .write t k x ∈ closed → .commit t ∈ es := fun t k x hm => by
    rw [hc.split]; exact List.mem_append_left _ (hc.write_committed t k x hm)
  have hclosed : closed.filterMap (committedWrite es) = logWrites closed := by
    refine List.filterMap_congr fun e he => ?_
    cases e with
    | begin t => rfl
    | write t k x => simp [committedWrite, hin t k x he]
    | commit t => rfl
  have hes := congrArg (List.filterMap (committedWrite es)) hc.split
  rw [List.filterMap_append, hclosed, ← hc.applied] at hes
  refine Eq.symm (hes.trans ?_)
  rw [List.append_right_eq_self]
  cases ha : s.active with
  | none => rfl
  | some t =>
    -- The open transaction's id was never used before, so it has no commit record.
    have hsplit := hc.split
    rw [ha] at hsplit
    simp only at hsplit
    have ht : LogEntry.commit t ∉ es := by
      rw [hsplit, List.mem_append]
      rintro (hm | hm)
      · rw [hsplit, begun_append, begun_openRecords, List.nodup_append] at hn
        exact hn.2.2 t (hc.commit_begun t hm) t (by simp) rfl
      · exact commit_notMem_openRecords hm
    refine List.filterMap_eq_nil_iff.mpr fun e he => ?_
    rcases List.mem_cons.mp he with rfl | he
    · rfl
    · obtain ⟨w, -, rfl⟩ := List.mem_map.mp he
      simp [committedWrite, ht]

theorem scan_applied_of_commitCount : ∀ {s s' : LogState τ κ β},
    s.scan es = some s' → commitCount es = 0 → s'.applied = s.applied := by
  induction es with
  | nil => intro s s' h _; rw [← Option.some.inj h]
  | cons e es ih =>
    intro s s' h hc
    rw [scan_cons, Option.bind_eq_some_iff] at h
    obtain ⟨m, hm, hs⟩ := h
    cases e with
    | begin t => rw [ih hs (by simpa [commitCount] using hc), (step_begin hm).2]
    | write t k x => rw [ih hs (by simpa [commitCount] using hc), (step_write hm).2]
    | commit t => simp [commitCount] at hc

end

end SystemsLab
