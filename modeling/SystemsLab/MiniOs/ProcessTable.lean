import Mathlib.Algebra.Ring.Int.Defs
import Mathlib.Data.List.FinRange
import Mathlib.Logic.Function.Basic

/-!
# The process table

Slots, process ids and parents. `σ` is what one part of the kernel alone keeps of a process, and `default` is what
`memset` leaves there.
-/

namespace SystemsLab.MiniOs

inductive ProcessState
  | unused
  | running
  | zombie
deriving DecidableEq

structure Process (σ : Type) where
  pid : Int := 0
  parentPid : Int := 0
  exitStatus : Int := 0
  autoReap : Bool := false
  state : ProcessState := .unused
  own : σ
deriving DecidableEq

/-- `memset(process, 0, sizeof(*process))`; the slot number is kept by position. -/
def Process.zeroed {σ : Type} [Inhabited σ] : Process σ := { own := default }

structure ProcessTable (n : Nat) (σ : Type) where
  processes : Fin n → Process σ
  nextPid : Int

def int32Max : Int := 2 ^ 31 - 1

def pidAfter (pid : Int) : Int := if pid = int32Max then 1 else pid + 1

namespace ProcessTable
variable {n : Nat} {σ : Type} (t : ProcessTable n σ) {i : Fin n} {pid : Int}

def set (i : Fin n) (p : Process σ) : ProcessTable n σ := { t with processes := Function.update t.processes i p }

def modify (i : Fin n) (f : Process σ → Process σ) : ProcessTable n σ := t.set i (f (t.processes i))

def find (pid : Int) : Option (Fin n) :=
  (List.finRange n).find? fun i => (t.processes i).state ≠ .unused ∧ (t.processes i).pid = pid

theorem find_eq_none {t : ProcessTable n σ} (h : t.find pid = none)
    (hi : (t.processes i).state ≠ .unused) : (t.processes i).pid ≠ pid := by
  have := List.find?_eq_none.mp h i (List.mem_finRange i)
  simp only [decide_eq_true_eq, not_and] at this
  exact this hi

/-- `process_allocate_pid` with `attempts` candidates left. -/
def allocatePid (t : ProcessTable n σ) : (attempts : Nat) → Option Int × ProcessTable n σ
  | 0 => (none, t)
  | attempts + 1 =>
    let t' := { t with nextPid := pidAfter t.nextPid }
    if (t.find t.nextPid).isNone then (some t.nextPid, t') else allocatePid t' attempts

variable [Inhabited σ]

def boot : ProcessTable n σ where
  processes _ := .zeroed
  nextPid := 1

/-- `process_allocate` for a caller with process id `current` (0 outside of any process). -/
def allocate (current : Int) : Option (Fin n) × ProcessTable n σ :=
  match (List.finRange n).find? fun i => (t.processes i).state = .unused with
  | none => (none, t)
  | some i =>
    match t.allocatePid n with
    | (none, t) => (none, t)
    | (some pid, t) => (some i, t.set i { (.zeroed : Process σ) with pid, parentPid := current, state := .running })

def release (i : Fin n) : ProcessTable n σ := t.set i .zeroed

/-- The head of `process_finish_exit`: exited children go, the others are left to release themselves. -/
def leaveChildren (pid : Int) : ProcessTable n σ where
  processes i :=
    let child := t.processes i
    if child.state = .unused ∨ child.parentPid ≠ pid then child
    else if child.state = .zombie then .zeroed
    else { child with parentPid := 0, autoReap := true }
  nextPid := t.nextPid

variable {t} {attempts : Nat} {current : Int}

theorem pidAfter_pos (h : 1 ≤ pid) : 1 ≤ pidAfter pid := by
  unfold pidAfter
  split <;> omega

omit [Inhabited σ] in
theorem allocatePid_spec : (t.allocatePid attempts).2.processes = t.processes ∧
    (1 ≤ t.nextPid → 1 ≤ (t.allocatePid attempts).2.nextPid ∧ ∀ pid, (t.allocatePid attempts).1 = some pid →
      1 ≤ pid ∧ ∀ i, (t.processes i).state ≠ .unused → (t.processes i).pid ≠ pid) := by
  induction attempts generalizing t with
  | zero => exact ⟨rfl, fun h => ⟨h, nofun⟩⟩
  | succ attempts ih =>
    simp only [allocatePid]
    split
    · rename_i hfree
      refine ⟨rfl, fun h => ⟨pidAfter_pos h, ?_⟩⟩
      rintro pid ⟨⟩
      exact ⟨h, fun i => find_eq_none (Option.isNone_iff_eq_none.mp hfree)⟩
    · obtain ⟨hp, hn⟩ := @ih { t with nextPid := pidAfter t.nextPid }
      exact ⟨hp, fun h => hn (pidAfter_pos h)⟩

theorem allocate_spec {r : Option (Fin n) × ProcessTable n σ} (h : t.allocate current = r) :
    (1 ≤ t.nextPid → 1 ≤ r.2.nextPid) ∧
      match r.1 with
      | none => r.2.processes = t.processes
      | some i => (t.processes i).state = .unused ∧ ∃ pid, r.2.processes = Function.update t.processes i
            { (.zeroed : Process σ) with pid, parentPid := current, state := .running } ∧
          (1 ≤ t.nextPid → 1 ≤ pid ∧ ∀ j, (t.processes j).state ≠ .unused → (t.processes j).pid ≠ pid) := by
  subst h
  unfold allocate
  split
  · exact ⟨id, rfl⟩
  · rename_i i hi
    obtain ⟨hp, hn⟩ := @allocatePid_spec n σ t n
    split <;> rename_i ha <;> rw [ha] at hp hn
    · exact ⟨fun h => (hn h).1, hp⟩
    · rename_i pid t₁
      refine ⟨fun h => (hn h).1, by simpa using List.find?_some hi, pid, ?_, fun h => (hn h).2 pid rfl⟩
      simp only [set]
      rw [show t₁.processes = _ from hp]

end ProcessTable

end SystemsLab.MiniOs
