import Mathlib.Data.List.Induction
import SystemsLab.Lib.Along
import SystemsLab.MiniOs.ProcessTable

/-!
# Semaphores

One semaphore of `sem.c` over the blocked list of `task.c`; the others share nothing with it but the tasks. A post
wakes the oldest waiter, which takes the unit when it runs, or exits and leaves it behind if it has been killed by
then.

Which ready task runs next is left open. The idle task is always ready, so a task that has to block does block.
-/

namespace SystemsLab.MiniOs

structure Semaphore (τ : Type) where
  value : Int
  used : Bool
  /-- Those in `blocked_tasks` with this semaphore as wait channel, oldest first. -/
  blocked : List τ
  /-- Those taken from there into the ready queue that have not run since. -/
  woken : List τ
  killPending : τ → Bool
  exited : τ → Bool
  /-- Calls that returned 0. -/
  waits : Nat
  posts : Nat

inductive SemCall (ρ : Type)
  | init (value : Int)
  | wait
  | post
  | kill (p : ρ)
  | exit

namespace Semaphore
variable {τ ρ : Type} [DecidableEq τ] [DecidableEq ρ]

def boot : Semaphore τ := ⟨0, false, [], [], fun _ => false, fun _ => false, 0, 0⟩

variable (s : Semaphore τ)

def taskExit (T : τ) : Semaphore τ := { s with exited := Function.update s.exited T true }

def wakeOne : Semaphore τ :=
  match s.blocked with
  | [] => s
  | T :: ts => { s with blocked := ts, woken := s.woken ++ [T] }

def wakeAll : Semaphore τ := { s with blocked := [], woken := s.woken ++ s.blocked }

def killBlocked (process : τ → Option ρ) (p : ρ) : Semaphore τ :=
  { s with
    killPending := fun T => s.killPending T || process T = some p
    blocked := s.blocked.filter (process · ≠ some p)
    woken := s.woken ++ s.blocked.filter (process · = some p) }

def semInit (value : Int) : Semaphore τ :=
  if value < 0 then s else wakeAll { s with value, used := true }

/-- The loop of `sem_wait`, up to the point where the task sleeps or the call returns. -/
def waitLoop (T : τ) : Semaphore τ :=
  if s.value ≤ 0 then if s.killPending T then s.taskExit T else { s with blocked := s.blocked ++ [T] }
  else { s with value := s.value - 1, waits := s.waits + 1 }

def semWait (T : τ) : Semaphore τ := if s.used then s.waitLoop T else s

def semPost : Semaphore τ :=
  if s.used ∧ s.value ≠ int32Max then wakeOne { s with value := s.value + 1, posts := s.posts + 1 } else s

def dequeue (T : τ) : Semaphore τ := { s with woken := s.woken.erase T }

/-- `task_block_killable` from the point where the task runs again. -/
def resume (T : τ) : Semaphore τ :=
  if s.killPending T then (s.dequeue T).taskExit T else (s.dequeue T).waitLoop T

/-- A killed task that was running may make calls until the next tick ends it. -/
def perform (process : τ → Option ρ) (T : τ) : SemCall ρ → Semaphore τ
  | .init value => s.semInit value
  | .wait => s.semWait T
  | .post => s.semPost
  | .kill p => s.killBlocked process p
  | .exit => s.taskExit T

def step (process : τ → Option ρ) (a : τ × SemCall ρ) : Semaphore τ :=
  if a.1 ∈ s.woken then s.resume a.1
  else if s.exited a.1 ∨ a.1 ∈ s.blocked then s
  else s.perform process a.1 a.2

def run (process : τ → Option ρ) (acts : List (τ × SemCall ρ)) : Semaphore τ := acts.foldl (·.step process ·) s

def NoLostWakeup : Prop := 0 < s.value → s.woken = [] → s.blocked = []

/-- The woken waiters that will look at the count again. -/
def live : Nat := s.woken.countP (!s.killPending ·)

def Covered : Prop := s.blocked = [] ∨ s.value ≤ s.live

/-- The call is made, and kills `p`. -/
def Kills (a : τ × SemCall ρ) (p : ρ) : Prop :=
  a.2 = .kill p ∧ a.1 ∉ s.woken ∧ ¬ (s.exited a.1 ∨ a.1 ∈ s.blocked)

/-- Nobody else waits, or there is a woken waiter of another process, not killed, for every unit. -/
def HarmlessKill (process : τ → Option ρ) (p : ρ) : Prop :=
  (∀ T ∈ s.blocked, process T = some p) ∨ s.value ≤ s.woken.countP fun T => !s.killPending T && process T ≠ some p

structure Inv : Prop where
  value : 0 ≤ s.value
  blocked : ∀ T ∈ s.blocked, s.killPending T = false

/-- What a call keeps, given what its kills do to the waiters, and what it keeps if it is no `sem_init`. -/
structure Keeps (process : τ → Option ρ) (c : SemCall ρ) (s s' : Semaphore τ) : Prop where
  inv : s.Inv → s'.Inv
  covered : s.Inv → s.Covered → (∀ p, c = .kill p → s.HarmlessKill process p) → s'.Covered
  balance : (∀ v, c ≠ .init v) → s'.value + s'.waits - s'.posts = s.value + s.waits - s.posts

variable {process : τ → Option ρ} {s} {T : τ} {c : SemCall ρ}

theorem Inv.waitLoop (h : s.Inv) : (s.waitLoop T).Inv := by
  unfold Semaphore.waitLoop
  split
  · split
    · exact ⟨h.value, h.blocked⟩
    · rename_i hk
      exact ⟨h.value, List.forall_mem_append.mpr ⟨h.blocked, by simpa using hk⟩⟩
  · exact ⟨by simp only; omega, h.blocked⟩

theorem covered_waitLoop : (s.waitLoop T).Covered ↔ s.blocked = [] ∨ s.value ≤ s.live + 1 := by
  unfold waitLoop
  split
  · refine iff_of_true (.inr ?_) (.inr (by omega))
    split <;> exact Int.le_trans ‹_› (Int.natCast_nonneg _)
  · refine or_congr_right ?_
    change s.value - 1 ≤ s.live ↔ _
    omega

theorem waitLoop_balance :
    (s.waitLoop T).value + (s.waitLoop T).waits - (s.waitLoop T).posts = s.value + s.waits - s.posts := by
  unfold waitLoop
  split
  · split <;> rfl
  · simp only; push_cast; omega

theorem live_eq (hT : T ∈ s.woken) : s.live = (s.dequeue T).live + if s.killPending T then 0 else 1 := by
  unfold live
  rw [(List.perm_cons_erase hT).countP_eq, List.countP_cons]
  cases s.killPending T <;> rfl

theorem covered_resume (hT : T ∈ s.woken) : (s.resume T).Covered ↔ s.Covered := by
  have hl := live_eq hT
  unfold resume
  split
  · rw [if_pos ‹_›] at hl
    exact or_congr_right (by rw [hl]; rfl)
  · rw [if_neg ‹_›] at hl
    exact covered_waitLoop.trans (or_congr_right (by rw [hl]; rfl))

omit [DecidableEq τ] in
theorem covered_killBlocked {p : ρ} : (s.killBlocked process p).Covered ↔ s.HarmlessKill process p := by
  unfold Covered HarmlessKill killBlocked live
  have hmarked : (s.blocked.filter (process · = some p)).countP
      (fun T => !(s.killPending T || decide (process T = some p))) = 0 := by
    simp +contextual [List.countP_eq_zero]
  rw [List.countP_append, hmarked]
  simp

theorem resume_keeps (hT : T ∈ s.woken) : Keeps process c s (s.resume T) := by
  refine ⟨fun h => ?_, fun _ h _ => (covered_resume hT).mpr h, fun _ => ?_⟩ <;> unfold resume <;> split
  · exact ⟨h.value, h.blocked⟩
  · exact Inv.waitLoop ⟨h.value, h.blocked⟩
  · rfl
  · exact waitLoop_balance

theorem perform_keeps (c : SemCall ρ) : Keeps process c s (s.perform process T c) := by
  cases c with
  | init v =>
    rw [perform, semInit]
    split
    · exact ⟨id, fun _ h _ => h, fun _ => rfl⟩
    · exact ⟨fun _ => ⟨by simp only [wakeAll]; omega, by simp [wakeAll]⟩, fun _ _ _ => .inl rfl,
        fun h => absurd rfl (h v)⟩
  | wait =>
    rw [perform, semWait]
    split
    · exact ⟨Inv.waitLoop, fun _ h _ => covered_waitLoop.mpr (h.imp_right fun h => by omega),
        fun _ => waitLoop_balance⟩
    · exact ⟨id, fun _ h _ => h, fun _ => rfl⟩
  | post =>
    rw [perform, semPost]
    split
    · unfold wakeOne
      simp only
      split
      · rename_i hb
        refine ⟨fun h => ⟨by have := h.value; simp only; omega, h.blocked⟩, fun _ _ _ => .inl hb, fun _ => ?_⟩
        simp only; push_cast; omega
      · rename_i T ts hb
        refine ⟨fun h => ⟨by have := h.value; simp only; omega, ?_⟩, fun hi h _ => .inr ?_, fun _ => ?_⟩
        · exact fun T hT => h.blocked T (hb ▸ List.mem_cons_of_mem _ hT)
        · have := h.resolve_left (by simp [hb])
          have hk := hi.blocked T (by simp [hb])
          simp only [live, List.countP_append, List.countP_singleton, hk] at this ⊢
          push_cast; simp; omega
        · simp only; push_cast; omega
    · exact ⟨id, fun _ h _ => h, fun _ => rfl⟩
  | kill p =>
    refine ⟨fun h => ⟨h.value, ?_⟩, fun _ _ hc => covered_killBlocked.mpr (hc p rfl), fun _ => rfl⟩
    simp +contextual [perform, killBlocked, h.blocked]
  | exit => exact ⟨fun h => ⟨h.value, h.blocked⟩, fun _ h _ => h, fun _ => rfl⟩

theorem step_keeps (a : τ × SemCall ρ) :
    (s.Inv → (s.step process a).Inv) ∧
      (s.Inv → s.Covered → (∀ p, s.Kills a p → s.HarmlessKill process p) → (s.step process a).Covered) ∧
      ((∀ v, a.2 ≠ .init v) →
        (s.step process a).value + (s.step process a).waits - (s.step process a).posts =
          s.value + s.waits - s.posts) := by
  unfold step
  split
  · have h : Keeps process .wait s (s.resume a.1) := resume_keeps ‹_›
    exact ⟨h.inv, fun hi hc _ => h.covered hi hc nofun, fun _ => h.balance nofun⟩
  · split
    · exact ⟨id, fun _ h _ => h, fun _ => rfl⟩
    · have h : Keeps process a.2 s (s.perform process a.1 a.2) := perform_keeps a.2
      exact ⟨h.inv, fun hi hc hk => h.covered hi hc fun p hp => hk p ⟨hp, ‹_›, ‹_›⟩, h.balance⟩

theorem run_inv (h : s.Inv) (acts : List (τ × SemCall ρ)) : (s.run process acts).Inv :=
  acts.foldlRecOn _ h fun _ h a _ => (step_keeps a).1 h

variable {acts : List (τ × SemCall ρ)}

/-- Every kill of the run comes when `may` allows it. -/
def Permitted (process : τ → Option ρ) (may : Semaphore τ → ρ → Prop) : Semaphore τ → List (τ × SemCall ρ) → Prop :=
  Along (·.step process ·) fun s a => ∀ p, s.Kills a p → may s p

variable {may : Semaphore τ → ρ → Prop}

theorem permitted_append {later : List (τ × SemCall ρ)} : Permitted process may s (acts ++ later) ↔
    Permitted process may s acts ∧ Permitted process may (s.run process acts) later := by
  induction acts generalizing s with
  | nil => simp [Permitted, Along, run]
  | cons a acts ih => exact (and_congr_right fun _ => ih).trans and_assoc.symm

theorem run_covered (h : s.Inv) (hc : s.Covered) (hk : Permitted process (HarmlessKill · process) s acts) :
    (s.run process acts).Covered := by
  induction acts generalizing s with
  | nil => exact hc
  | cons a acts ih => exact ih ((step_keeps a).1 h) ((step_keeps a).2.1 h hc hk.1) hk.2

theorem run_balance (hi : ∀ a ∈ acts, ∀ v, a.2 ≠ .init v) :
    (s.run process acts).value + (s.run process acts).waits - (s.run process acts).posts =
      s.value + s.waits - s.posts :=
  acts.foldlRecOn (motive := fun s' : Semaphore τ => s'.value + s'.waits - s'.posts =
    s.value + s.waits - s.posts) _ rfl
    fun _ h a ha => ((step_keeps a).2.2 (hi a ha)).trans h

/-- Where the units are not covered, the woken waiters only have to run. -/
theorem lost_of_not_covered (process : τ → Option ρ) (h : ¬ s.Covered) :
    ∃ acts : List (τ × SemCall ρ), (∀ may, Permitted process may s acts) ∧ ¬ (s.run process acts).NoLostWakeup := by
  induction hw : s.woken generalizing s with
  | nil =>
    obtain ⟨hb, hv⟩ := not_or.mp h
    have hv : 0 < s.value := by simpa [live, hw] using hv
    exact ⟨[], fun _ => trivial, fun hn => hb (hn hv hw)⟩
  | cons T ts ih =>
    have hT : T ∈ s.woken := by simp [hw]
    have hstep : s.step process (T, .exit) = s.resume T := if_pos hT
    have hrest : (s.resume T).woken = ts := by
      have : (s.dequeue T).woken = ts := by simp [dequeue, hw]
      unfold resume waitLoop
      split <;> try split <;> try split
      all_goals exact this
    obtain ⟨acts, hk, hlost⟩ := @ih (s.resume T) ((covered_resume hT).not.mpr h) hrest
    refine ⟨(T, .exit) :: acts, fun may => ⟨nofun, ?_⟩, ?_⟩
    · change Permitted process may (s.step process (T, .exit)) acts
      exact hstep ▸ hk may
    · rwa [run, List.foldl_cons, hstep]

theorem inv_run_boot (process : τ → Option ρ) (acts : List (τ × SemCall ρ)) : (boot.run process acts).Inv :=
  run_inv ⟨Int.le_refl 0, by simp [boot]⟩ acts

theorem permitted_harmless
    (h : ∀ acts, Permitted process may s acts → ∀ a p, (s.run process acts).Kills a p →
      may (s.run process acts) p → (s.run process acts).HarmlessKill process p)
    (hp : Permitted process may s acts) : Permitted process (HarmlessKill · process) s acts := by
  induction acts using List.reverseRecOn with
  | nil => trivial
  | append_singleton acts a ih =>
    obtain ⟨hp, ha⟩ := permitted_append.mp hp
    exact permitted_append.mpr ⟨ih hp, fun p hk => h acts hp a p hk (ha.1 p hk), trivial⟩

/-- On the runs whose kills `may` allows, no unit is ever left while a task waits for it, exactly if `may` allows
harmless kills only. On every run the count is not negative, and without `sem_init` no more waits complete than
there were units and posts. -/
theorem wakeups_kept_iff (process : τ → Option ρ) (may : Semaphore τ → ρ → Prop) :
    ((∀ acts, Permitted process may boot acts → (boot.run process acts).NoLostWakeup) ↔
      ∀ acts, Permitted process may boot acts → ∀ a p, (boot.run process acts).Kills a p →
        may (boot.run process acts) p → (boot.run process acts).HarmlessKill process p) ∧
    ∀ acts, 0 ≤ (boot.run process acts).value ∧
      ∀ later : List (τ × SemCall ρ), (∀ a ∈ later, ∀ v, a.2 ≠ .init v) →
        let s := boot.run process acts
        ((s.run process later).waits : Int) - s.waits ≤ s.value + ((s.run process later).posts - s.posts) := by
  refine ⟨⟨fun h acts hp a p ha hmay => ?_, fun h acts hp hv hw => ?_⟩,
    fun acts => ⟨(inv_run_boot process acts).value, ?_⟩⟩
  · by_contra hharm
    have hstep : (boot.run process acts).step process a = (boot.run process acts).killBlocked process p := by
      rw [step, if_neg ha.2.1, if_neg ha.2.2, ha.1]
      rfl
    obtain ⟨later, hk, hlost⟩ := lost_of_not_covered process (mt covered_killBlocked.mp hharm)
    rw [← hstep] at hk hlost
    have hcons : boot.run process (acts ++ a :: later) =
        ((boot.run process acts).step process a).run process later := by
      simp [run]
    refine hlost (hcons ▸ h _ (permitted_append.mpr ⟨hp, fun q hq => ?_, hk may⟩))
    obtain rfl : q = p := by simpa using hq.1.symm.trans ha.1
    exact hmay
  · have hcovered := run_covered (inv_run_boot process []) (.inl rfl) (permitted_harmless h hp)
    refine hcovered.resolve_right fun hlive => ?_
    have hnone : (boot.run process acts).live = 0 := by simp [live, hw]
    have : (boot.run process acts).value ≤ (boot.run process acts).live := hlive
    omega
  · intro later hi
    have hbalance := @run_balance _ _ _ _ (boot.run process acts) process _ hi
    have hvalue := (@run_inv _ _ _ _ _ process (inv_run_boot process acts) later).value
    simp only
    omega

/-- Two tasks wait, a post wakes the first, and it is killed before it runs. -/
theorem killed_waiter_strands : ¬ NoLostWakeup ((boot : Semaphore (Fin 3)).run some
    [(0, .init 0), (1, .wait), (2, .wait), (0, .post), (0, .kill 1), (1, .exit)]) := by
  intro h
  have := h (by decide) (by decide)
  revert this
  decide

end Semaphore
end SystemsLab.MiniOs
