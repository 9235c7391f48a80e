import Mathlib.Data.List.Induction
import SystemsLab.Runtime.Lifecycle

/-!
# Generations of a container

A container runs as one process after another. Every call is a move of its life or changes nothing of it, and the
safety of the store is read off the moves.
-/

namespace SystemsLab.Runtime

variable {i : ExitedIdentity} {call : Call} {code : Int} {start : UInt64} {c : Container} {pid : Int}
  {b : Bool} {t : Time}
variable {e : Int}

/-! ## Lives and their moves -/

/-- `stopped none` is a container that failed before it had a process. -/
inductive Phase
  | created
  | running (i : ExitedIdentity)
  | stopped (i : Option ExitedIdentity) (exitCode : Int)
deriving DecidableEq

structure Life where
  phase : Option Phase
  cgroup : Option ExitedIdentity
  network : Option ExitedIdentity

namespace Life

def Running (l : Life) : Prop := ∃ i, l.phase = some (.running i)

inductive Move (l : Life) : Call → Life → Prop
  | start {i : ExitedIdentity} {t : Time} (stands : l.phase ≠ none) (idle : ¬ l.Running)
      (cgroup : l.cgroup = none) (network : l.network = none) :
      Move l (.markRunning i.pid i.pidStartTime t) { l with phase := some (.running i) }
  | stop {i : ExitedIdentity} {code : Int} {t : Time} (runs : l.phase = some (.running i)) :
      Move l (.markStoppedIfIdentity i.pid i.pidStartTime code t) { l with phase := some (.stopped (some i) code) }
  | report {i : ExitedIdentity} {code : Int} {t : Time} (unknown : l.phase = some (.stopped (some i) (-1)))
      (known : code ≠ -1) :
      Move l (.markStoppedIfIdentity i.pid i.pidStartTime code t) { l with phase := some (.stopped (some i) code) }
  | abandon {code : Int} {t : Time} (created : l.phase = some .created) :
      Move l (.markStoppedIfCreated code t) { l with phase := some (.stopped none code) }
  | ownCgroup {i : ExitedIdentity} {name : String} (runs : l.phase = some (.running i)) :
      Move l (.markCgroupOwnedIfIdentity i.pid i.pidStartTime name) { l with cgroup := some i }
  | ownNetwork {o : NetworkOwnership} (runs : l.phase = some (.running ⟨o.pid, o.pidStartTime⟩)) :
      Move l (.markNetworkOwnedIfIdentity o) { l with network := some ⟨o.pid, o.pidStartTime⟩ }
  | releaseCgroup {o : CgroupOwnership} (idle : ¬ l.Running) :
      Move l (.clearCgroupOwnershipIfMatch o) { l with cgroup := none }
  | releaseNetwork {o : NetworkOwnership} : Move l (.clearNetworkOwnershipIfMatch o) { l with network := none }
  | remove {call : Call} (cgroup : l.cgroup = none) (network : l.network = none) :
      Move l call { l with phase := none }

def Holds (l : Life) (i : ExitedIdentity) : Prop :=
  l.phase = some (.running i) ∨ ∃ code, l.phase = some (.stopped (some i) code)

structure Owned (l : Life) : Prop where
  cgroup : ∀ i, l.cgroup = some i → l.Holds i
  network : ∀ i, l.network = some i → l.Holds i

variable {l l' : Life} {call : Call}

theorem Holds.stop {j : ExitedIdentity} (h : l.Holds j) (runs : l.phase = some (.running i)) :
    Holds { l with phase := some (.stopped (some i) code) } j := by
  obtain hr | ⟨c, hs⟩ := h
  · simp [runs] at hr
    exact .inr ⟨code, by simp [hr]⟩
  · simp [runs] at hs

theorem Holds.report {j : ExitedIdentity} {c : Int} (h : l.Holds j)
    (stopped : l.phase = some (.stopped (some i) c)) :
    Holds { l with phase := some (.stopped (some i) code) } j := by
  obtain hr | ⟨c', hs⟩ := h
  · simp [stopped] at hr
  · simp only [stopped, Option.some.injEq, Phase.stopped.injEq] at hs
    exact .inr ⟨code, by simp [hs.1]⟩

theorem not_holds_created (created : l.phase = some .created) : ¬ l.Holds i := by
  simp [Holds, created]

section
variable (hm : l.Move call l')
include hm

theorem Move.owned (ho : l.Owned) : l'.Owned := by
  cases hm with
  | start _ _ hc hn => exact ⟨by simp [hc], by simp [hn]⟩
  | stop runs => exact ⟨fun i hi => (ho.cgroup i hi).stop runs, fun i hi => (ho.network i hi).stop runs⟩
  | report unknown _ =>
    exact ⟨fun i hi => (ho.cgroup i hi).report unknown, fun i hi => (ho.network i hi).report unknown⟩
  | abandon created =>
    exact ⟨fun i hi => absurd (ho.cgroup i hi) (not_holds_created created),
      fun i hi => absurd (ho.network i hi) (not_holds_created created)⟩
  | ownCgroup runs => exact ⟨by rintro j ⟨⟩; exact .inl runs, ho.network⟩
  | ownNetwork runs => exact ⟨ho.cgroup, by rintro j ⟨⟩; exact .inl runs⟩
  | releaseCgroup _ => exact ⟨by simp, ho.network⟩
  | releaseNetwork => exact ⟨ho.cgroup, by simp⟩
  | remove hc hn => exact ⟨by simp [hc], by simp [hn]⟩

theorem Move.holds_of_stopped (hst : l'.phase = some (.stopped (some i) code)) : l.Holds i := by
  cases hm with
  | start => cases hst
  | stop runs => cases hst; exact .inl runs
  | report unknown _ => cases hst; exact .inr ⟨_, unknown⟩
  | abandon => cases hst
  | ownCgroup | ownNetwork | releaseCgroup | releaseNetwork => exact .inr ⟨code, hst⟩
  | remove => cases hst

theorem Move.reported {i i' : Option ExitedIdentity} {e' : Int}
    (hst : l.phase = some (.stopped i e)) (hst' : l'.phase = some (.stopped i' e')) (hne : e' ≠ e) :
    e = -1 ∧ ∃ j t, i = some j ∧ call = .markStoppedIfIdentity j.pid j.pidStartTime e' t := by
  cases hm with
  | start => cases hst'
  | stop runs => rw [runs] at hst; cases hst
  | report unknown _ =>
    rw [unknown] at hst
    cases hst
    cases hst'
    exact ⟨rfl, _, _, rfl, rfl⟩
  | abandon created => rw [created] at hst; cases hst
  | ownCgroup | ownNetwork | releaseCgroup | releaseNetwork =>
    rw [hst] at hst'
    cases hst'
    exact absurd rfl hne
  | remove => cases hst'

theorem Move.unowned_of_removed (hp : l.phase ≠ none) (hp' : l'.phase = none) :
    l.cgroup = none ∧ l.network = none := by
  cases hm with
  | remove hc hn => exact ⟨hc, hn⟩
  | ownCgroup | ownNetwork | releaseCgroup | releaseNetwork => exact absurd hp' hp
  | start | stop | report | abandon => cases hp'

theorem Move.unowned_of_started (hp' : l'.phase = some (.running i))
    (hp : l.phase ≠ some (.running i)) : l.cgroup = none ∧ l.network = none := by
  cases hm with
  | start _ _ hc hn => exact ⟨hc, hn⟩
  | ownCgroup | ownNetwork | releaseCgroup | releaseNetwork => exact absurd hp' hp
  | stop | report | abandon | remove => cases hp'

end

end Life

/-! ## The life the files record -/

def ContainerFile.phase (f : ContainerFile) : Phase :=
  match f.container.status with
  | .created => .created
  | .running => .running ⟨f.container.pid, f.container.pidStartTime⟩
  | .stopped => .stopped f.exitIdentity f.container.exitCode

namespace ContainerFile
variable (f : ContainerFile)

theorem phase_created (hs : f.container.status = .created) : f.phase = .created := by simp [phase, hs]

theorem phase_running (hs : f.container.status = .running) :
    f.phase = .running ⟨f.container.pid, f.container.pidStartTime⟩ := by
  simp [phase, hs]

theorem phase_stopped (hs : f.container.status = .stopped) :
    f.phase = .stopped f.exitIdentity f.container.exitCode := by
  simp [phase, hs]

theorem status_running (hp : f.phase = .running i) : f.container.status = .running := by
  unfold phase at hp
  split at hp <;> simp_all

end ContainerFile

def Files.life (s : Files) : Life where
  phase := s.container.map (·.phase)
  cgroup := s.cgroup.map fun f => ⟨f.ownership.pid, f.ownership.pidStartTime⟩
  network := s.network.map fun f => ⟨f.ownership.pid, f.ownership.pidStartTime⟩

structure Files.Sound (s : Files) : Prop where
  exit : s.exit = none
  identity : ∀ f, s.container = some f → f.container.status ≠ .stopped → f.exitIdentity = none

theorem Files.sound_fresh (id : String) : (Files.fresh id).Sound := ⟨rfl, by rintro f ⟨⟩ _; rfl⟩

namespace Files
variable {h : Host} {s s' : Files} {id : String}
variable {doing : String} {r : UInt64}

/-! ### Readers and writers -/

theorem get_eq_ok (hg : s.get id = .ok c) : ∃ f, s.container = some f ∧ f.container = c := by
  simp only [get, readContainerFile, ContainerFile.unmarshalForId, steps_ok] at hg
  obtain ⟨f, hf, _, _, _, _, hc⟩ := hg
  exact ⟨f, hf, hc⟩

theorem readCgroupOwnership_eq_ok {o : Option CgroupOwnership} (hr : s.readCgroupOwnership id = .ok o) :
    s.cgroup.map (·.ownership) = o := by
  cases hc : s.cgroup with
  | none => simp_all [readCgroupOwnership]
  | some f =>
    simp only [readCgroupOwnership, hc, decodeCgroupOwnership, steps_ok, except_map_eq_ok] at hr
    obtain ⟨_, _, o', ⟨_, _, _, _, rfl⟩, rfl⟩ := hr
    rfl

theorem readNetworkOwnership_eq_ok {o : Option NetworkOwnership} (hr : s.readNetworkOwnership id h = .ok o) :
    s.network.map (·.ownership) = o := by
  cases hc : s.network with
  | none => simp_all [readNetworkOwnership]
  | some f =>
    simp only [readNetworkOwnership, hc, decodeNetworkOwnership, steps_ok, except_map_eq_ok] at hr
    obtain ⟨_, _, o', ⟨_, _, _, _, rfl⟩, rfl⟩ := hr
    rfl

theorem refusePending_eq_ok (hr : s.refusePending h id doing = .ok ()) : s.cgroup = none ∧ s.network = none := by
  simp only [refusePending, steps_ok, refuse_eq_ok] at hr
  obtain ⟨c, hc, _, rfl, n, hn, rfl⟩ := hr
  exact ⟨by simpa using readCgroupOwnership_eq_ok hc, by simpa using readNetworkOwnership_eq_ok hn⟩

theorem readCurrentExitedIdentity_eq_ok (hs : s.Sound) {o : Option ExitedIdentity}
    (hr : s.readCurrentExitedIdentity id = .ok o) : ∃ f, s.container = some f ∧ f.exitIdentity = o := by
  simp only [readCurrentExitedIdentity, readTeardown, readContainerFile, steps_ok] at hr
  obtain ⟨f, ⟨f', hf, _, _, rfl⟩, hr⟩ := hr
  refine ⟨f', hf, ?_⟩
  cases he : f'.exitIdentity with
  | some i => simp_all
  | none => simp_all [readExitedIdentity, hs.exit]

/-- The record was replaced by `c` under some revision, with `i` as the identity that exited. -/
def Wrote (s s' : Files) (c : Container) (i : Option ExitedIdentity) : Prop :=
  ∃ (f : ContainerFile) (r : UInt64), s' = { s with container := some f } ∧ f.container = { c with revision := r } ∧
    f.exitIdentity = i

def revision (s : Files) : Option Nat := s.container.map (·.container.revision.toNat)

theorem writeWithExitPolicy_eq_ok {required : Bool} {i : Option ExitedIdentity}
    (hw : s.writeWithExitPolicy h c r required i = .ok s') : s.Wrote s' c i ∧ s'.revision = some r.toNat := by
  simp only [writeWithExitPolicy, steps_ok] at hw
  obtain ⟨_, hi, _, _, _, _, rfl⟩ := hw
  cases required with
  | true => cases i <;> exact ⟨⟨_, r, rfl, rfl, rfl⟩, rfl⟩
  | false =>
    obtain rfl : i = none := by simpa using hi
    by_cases hc : c.status = .stopped <;> exact ⟨⟨_, r, rfl, by simp [hc], by simp [hc]⟩, by simp [revision, hc]⟩

theorem writeRevision_eq_ok (hw : s.writeRevision h c r = .ok s') :
    s.Wrote s' c (if c.status = .stopped then s.container.bind (·.exitIdentity) else none) ∧
      s'.revision = some r.toNat := by
  unfold writeRevision at hw
  split at hw
  case isTrue hc => simpa [hc] using writeWithExitPolicy_eq_ok hw
  case isFalse hc =>
    have hc : c.status = .stopped := not_not.mp hc
    split at hw
    case h_1 hn => simpa [hc, hn] using writeWithExitPolicy_eq_ok hw
    case h_2 f₀ hf₀ =>
      simp only [except_bind_eq_ok] at hw
      obtain ⟨_, _, hw⟩ := hw
      split at hw
      case h_1 i hi₀ =>
        simp only [except_bind_eq_ok] at hw
        obtain ⟨_, _, hw⟩ := hw
        simpa [hc, hf₀, hi₀] using writeWithExitPolicy_eq_ok hw
      case h_2 hi₀ => simpa [hc, hf₀, hi₀] using writeWithExitPolicy_eq_ok hw

theorem nextRevision_eq_ok (hn : nextRevision c = .ok r) : r.toNat = c.revision.toNat + 1 := by
  simp only [nextRevision, steps_ok] at hn
  obtain ⟨_, hmax, rfl⟩ := hn
  have hlt := c.revision.toNat_lt
  rw [ne_eq, ← UInt64.toNat_inj, UInt64.toNat_ofNat'] at hmax
  rw [UInt64.toNat_add, UInt64.toNat_one]
  omega

theorem writeNextRevision_eq_ok (hw : s.writeNextRevision h c = .ok s') :
    s.Wrote s' c (if c.status = .stopped then s.container.bind (·.exitIdentity) else none) ∧
      s'.revision = some (c.revision.toNat + 1) := by
  simp only [writeNextRevision, except_bind_eq_ok] at hw
  obtain ⟨r, hr, hw⟩ := hw
  exact nextRevision_eq_ok hr ▸ writeRevision_eq_ok hw

theorem writeStoppedNextRevision_eq_ok (hw : s.writeStoppedNextRevision h c pid start = .ok s') :
    s.Wrote s' c (some ⟨pid, start⟩) ∧ s'.revision = some (c.revision.toNat + 1) := by
  simp only [writeStoppedNextRevision, except_bind_eq_ok] at hw
  obtain ⟨r, hr, _, _, hw⟩ := hw
  exact nextRevision_eq_ok hr ▸ writeWithExitPolicy_eq_ok hw

/-! ### Each call is a move -/

theorem life_phase {f : ContainerFile} (hf : s.container = some f) : s.life.phase = some f.phase := by
  simp [life, hf]

def Simulates (s : Files) (call : Call) (s' : Files) : Prop :=
  s'.Sound ∧ (s'.life = s.life ∨ s.life.Move call s'.life)

/-- A record that stands before and after is the same one or has the next revision. -/
def Advances (s s' : Files) : Prop :=
  ∀ f f', s.container = some f → s'.container = some f' →
    f' = f ∨ f'.container.revision.toNat = f.container.revision.toNat + 1

theorem advances_of_eq (he : s'.container = s.container) : s.Advances s' :=
  fun _ _ hf hf' => .inl (Option.some.inj (hf'.symm.trans (he.trans hf)))

theorem advances_of_revision {f₀ : ContainerFile} (hf₀ : s.container = some f₀)
    (hr : s'.revision = some (f₀.container.revision.toNat + 1)) : s.Advances s' := by
  intro f f' hf hf'
  obtain rfl := Option.some.inj (hf₀.symm.trans hf)
  exact .inr (by simpa [revision, hf'] using hr)

structure Follows (s : Files) (call : Call) (s' : Files) : Prop where
  advances : s.Advances s'
  simulates : s.Sound → s.Simulates call s'

theorem Follows.refl (s : Files) (call : Call) : Follows s call s := ⟨advances_of_eq rfl, fun hs => ⟨hs, .inl rfl⟩⟩

theorem Wrote.simulates {s₁ : Files} {i : Option ExitedIdentity} {p : Phase} (hs : s.Sound) (hw : s.Wrote s₁ c i)
    (hs' : s' = s₁ ∨ s' = { s₁ with exit := none }) (hi : c.status ≠ .stopped → i = none)
    (hp : ContainerFile.phase { container := c, exitIdentity := i } = p)
    (hm : s.life.phase = some p ∨ s.life.Move call { s.life with phase := some p }) : Simulates s call s' := by
  obtain ⟨f, r, rfl, hf, rfl⟩ := hw
  have hp : f.phase = p := by
    rw [← hp]
    simp [ContainerFile.phase, hf]
  have hlife : s'.life = { s.life with phase := some p } := by
    rw [← hp]
    rcases hs' with rfl | rfl <;> rfl
  refine ⟨⟨?_, ?_⟩, ?_⟩
  · rcases hs' with rfl | rfl
    · exact hs.exit
    · rfl
  · rcases hs' with rfl | rfl <;> rintro _ ⟨⟩ h <;> exact hi (by simpa [hf] using h)
  · rw [hlife]
    exact hm.imp_left fun h => congrArg (Life.mk · _ _) h.symm

section
variable {o : NetworkOwnership}

theorem markRunning_follows (hr : s.markRunning h id pid start t = .ok s') :
    Follows s (.markRunning pid start t) s' := by
  simp only [markRunning, steps_ok, checkIf_eq_ok] at hr
  obtain ⟨_, _, _, _, _, _, c, hg, _, same, _, free, s₁, hw, rfl⟩ := hr
  obtain ⟨f₀, hf₀, rfl⟩ := get_eq_ok hg
  obtain ⟨hw, hrev⟩ := writeNextRevision_eq_ok hw
  refine ⟨advances_of_revision hf₀ hrev, fun hs => hw.simulates hs (.inr rfl) (by simp) rfl ?_⟩
  change _ = some (Phase.running ⟨pid, start⟩) ∨ _
  by_cases hrun : f₀.container.status = .running
  · left
    rw [life_phase hf₀, f₀.phase_running hrun, (same hrun).1, (same hrun).2]
  · right
    obtain ⟨hc, hn⟩ := refusePending_eq_ok (free hrun)
    have idle : ¬ s.life.Running := by
      intro hi
      obtain ⟨i, hi⟩ := hi
      exact hrun (f₀.status_running (by simpa [life_phase hf₀] using hi))
    exact .start (i := ⟨pid, start⟩) (by simp [life_phase hf₀]) idle (by simp [life, hc]) (by simp [life, hn])

theorem markStoppedIfIdentity_follows (hr : s.markStoppedIfIdentity h id pid start code t = .ok (b, s')) :
    Follows s (.markStoppedIfIdentity pid start code t) s' := by
  simp only [markStoppedIfIdentity, steps_ok] at hr
  obtain ⟨_, _, _, _, c, hg, hr⟩ := hr
  obtain ⟨f₀, hf₀, rfl⟩ := get_eq_ok hg
  split at hr
  case isTrue hst =>
    split at hr
    case isTrue => cases hr; exact .refl _ _
    case isFalse hcode =>
      simp only [steps_ok] at hr
      obtain ⟨o, ho, hr⟩ := hr
      split at hr
      case isTrue => cases hr; exact .refl _ _
      case isFalse hid =>
        simp only [steps_ok, Prod.mk.injEq] at hr
        obtain ⟨s₁, hw, _, rfl⟩ := hr
        obtain ⟨hw, hrev⟩ := writeNextRevision_eq_ok hw
        refine ⟨advances_of_revision hf₀ hrev, fun hs => ?_⟩
        obtain ⟨f₁, hf₁, hi₁⟩ := readCurrentExitedIdentity_eq_ok hs ho
        obtain rfl : f₀ = f₁ := Option.some.inj (hf₀.symm.trans hf₁)
        have hi₀ : f₀.exitIdentity = some ⟨pid, start⟩ := hi₁.trans (not_not.mp hid)
        obtain ⟨unknown, known⟩ := not_or.mp hcode
        refine hw.simulates hs (.inl rfl) (fun h => absurd hst h)
          (p := .stopped (some ⟨pid, start⟩) code) (by simp [ContainerFile.phase, hst, hf₀, hi₀])
          (.inr (.report (i := ⟨pid, start⟩) ?_ known))
        rw [life_phase hf₀, f₀.phase_stopped hst, hi₀, not_not.mp unknown]
  case isFalse hst =>
    split at hr
    case isTrue => cases hr; exact .refl _ _
    case isFalse hrun =>
      simp only [steps_ok, Prod.mk.injEq] at hr
      obtain ⟨s₁, hw, _, rfl⟩ := hr
      obtain ⟨hw, hrev⟩ := writeStoppedNextRevision_eq_ok hw
      refine ⟨advances_of_revision hf₀ hrev, fun hs => hw.simulates hs (.inr rfl) (fun h => absurd rfl h) rfl
        (.inr (.stop (i := ⟨pid, start⟩) ?_))⟩
      simp only [not_or, not_not] at hrun
      rw [life_phase hf₀, f₀.phase_running hrun.1, hrun.2.1, hrun.2.2]

theorem markStoppedIfCreated_follows
    (hr : s.markStoppedIfCreated h id code t = .ok (b, s')) : Follows s (.markStoppedIfCreated code t) s' := by
  simp only [markStoppedIfCreated, except_bind_eq_ok] at hr
  obtain ⟨_, _, c, hg, hr⟩ := hr
  obtain ⟨f₀, hf₀, rfl⟩ := get_eq_ok hg
  split at hr
  case isTrue => cases hr; exact .refl _ _
  case isFalse hst =>
    have hst : f₀.container.status = .created := not_not.mp hst
    simp only [steps_ok, refuse_eq_ok, Prod.mk.injEq] at hr
    obtain ⟨_, _, _, _, _, _, _, _, _, _, _, _, _, _, s₁, hw, _, rfl⟩ := hr
    obtain ⟨hw, hrev⟩ := writeNextRevision_eq_ok hw
    refine ⟨advances_of_revision hf₀ hrev, fun hs => ?_⟩
    have hi₀ : f₀.exitIdentity = none := hs.identity f₀ hf₀ (by simp [hst])
    refine hw.simulates hs (.inl rfl) (fun h => absurd rfl h)
      (p := .stopped none code) (by simp [ContainerFile.phase, hf₀, hi₀]) (.inr (.abandon ?_))
    rw [life_phase hf₀, f₀.phase_created hst]

theorem markCgroupOwnedIfIdentity_follows {name : String}
    (hr : s.markCgroupOwnedIfIdentity id pid start name = .ok s') :
    Follows s (.markCgroupOwnedIfIdentity pid start name) s' := by
  simp only [markCgroupOwnedIfIdentity, steps_ok] at hr
  obtain ⟨_, _, _, _, c, hg, _, ⟨hrun, rfl, rfl⟩, o, ho, hr⟩ := hr
  obtain ⟨f₀, hf₀, rfl⟩ := get_eq_ok hg
  cases o with
  | some existing =>
    simp only [steps_ok] at hr
    obtain ⟨_, _, rfl⟩ := hr
    exact .refl _ _
  | none =>
    simp only [writeCgroupOwnership, steps_ok] at hr
    obtain ⟨_, _, _, _, rfl⟩ := hr
    refine ⟨advances_of_eq rfl, fun hs => ⟨⟨hs.exit, hs.identity⟩, .inr ?_⟩⟩
    exact .ownCgroup (i := ⟨_, _⟩) (by rw [life_phase hf₀, f₀.phase_running hrun])

theorem markNetworkOwnedIfIdentity_follows
    (hr : s.markNetworkOwnedIfIdentity h id o = .ok s') : Follows s (.markNetworkOwnedIfIdentity o) s' := by
  simp only [markNetworkOwnedIfIdentity, steps_ok] at hr
  obtain ⟨_, _, _, _, c, hg, _, ⟨hrun, hpid, hstart⟩, e, he, hr⟩ := hr
  obtain ⟨f₀, hf₀, rfl⟩ := get_eq_ok hg
  cases e with
  | some existing =>
    simp only [steps_ok] at hr
    obtain ⟨_, _, rfl⟩ := hr
    exact .refl _ _
  | none =>
    simp only [writeNetworkOwnership, steps_ok] at hr
    obtain ⟨_, _, _, _, rfl⟩ := hr
    refine ⟨advances_of_eq rfl, fun hs => ⟨⟨hs.exit, hs.identity⟩, .inr ?_⟩⟩
    exact .ownNetwork (by rw [life_phase hf₀, f₀.phase_running hrun, hpid, hstart])

theorem clearCgroupOwnershipIfMatch_follows {o : CgroupOwnership}
    (hr : s.clearCgroupOwnershipIfMatch id o = .ok (b, s')) : Follows s (.clearCgroupOwnershipIfMatch o) s' := by
  simp only [clearCgroupOwnershipIfMatch, except_bind_eq_ok] at hr
  obtain ⟨_, _, _, _, e, _, hr⟩ := hr
  split at hr
  case isTrue => cases hr; exact .refl _ _
  case isFalse =>
    simp only [steps_ok, Prod.mk.injEq] at hr
    obtain ⟨c, hg, _, hrun, _, rfl⟩ := hr
    obtain ⟨f₀, hf₀, rfl⟩ := get_eq_ok hg
    refine ⟨advances_of_eq rfl, fun hs => ⟨⟨hs.exit, hs.identity⟩, .inr (.releaseCgroup fun hi => ?_)⟩⟩
    obtain ⟨i, hi⟩ := hi
    exact hrun (f₀.status_running (by simpa [life_phase hf₀] using hi))

theorem clearNetworkOwnershipIfMatch_follows
    (hr : s.clearNetworkOwnershipIfMatch h id o = .ok (b, s')) :
    Follows s (.clearNetworkOwnershipIfMatch o) s' := by
  simp only [clearNetworkOwnershipIfMatch, except_bind_eq_ok] at hr
  obtain ⟨_, _, _, _, e, _, hr⟩ := hr
  split at hr
  case isTrue => cases hr; exact .refl _ _
  case isFalse =>
    simp only [steps_ok, Prod.mk.injEq] at hr
    obtain ⟨_, _, _, _, _, rfl⟩ := hr
    exact ⟨advances_of_eq rfl, fun hs => ⟨⟨hs.exit, hs.identity⟩, .inr .releaseNetwork⟩⟩

end

theorem removeContainer_follows (free : s.refusePending h id doing = .ok ()) :
    Follows s call s.removeContainer := by
  obtain ⟨hc, hn⟩ := refusePending_eq_ok free
  refine ⟨fun _ _ _ hf' => (Option.some_ne_none _ hf'.symm).elim, fun _ => ⟨⟨rfl, by rintro _ ⟨⟩⟩, ?_⟩⟩
  exact .inr (.remove (by simp [life, hc]) (by simp [life, hn]))

end Files

theorem Call.perform_follows {h : Host} {id : String} {s s' : Files} (hr : call.perform h id s = .ok s') :
    s.Follows call s' := by
  cases call with
  | markRunning pid start t => exact Files.markRunning_follows hr
  | markStoppedIfIdentity pid start code t =>
    obtain ⟨⟨b, s₁⟩, hb, rfl⟩ := except_map_eq_ok.mp hr
    exact Files.markStoppedIfIdentity_follows hb
  | markStoppedIfCreated code t =>
    obtain ⟨⟨b, s₁⟩, hb, rfl⟩ := except_map_eq_ok.mp hr
    exact Files.markStoppedIfCreated_follows hb
  | markCgroupOwnedIfIdentity pid start name => exact Files.markCgroupOwnedIfIdentity_follows hr
  | markNetworkOwnedIfIdentity o => exact Files.markNetworkOwnedIfIdentity_follows hr
  | clearCgroupOwnershipIfMatch o =>
    obtain ⟨⟨b, s₁⟩, hb, rfl⟩ := except_map_eq_ok.mp hr
    exact Files.clearCgroupOwnershipIfMatch_follows hb
  | clearNetworkOwnershipIfMatch o =>
    obtain ⟨⟨b, s₁⟩, hb, rfl⟩ := except_map_eq_ok.mp hr
    exact Files.clearNetworkOwnershipIfMatch_follows hb
  | delete =>
    simp only [Call.perform, Files.delete, steps_ok] at hr
    obtain ⟨_, _, _, free, rfl⟩ := hr
    exact Files.removeContainer_follows free
  | deleteIfNotRunning =>
    simp only [Call.perform, Files.deleteIfNotRunning, steps_ok] at hr
    obtain ⟨_, _, _, _, _, _, _, free, _, _, rfl⟩ := hr
    exact Files.removeContainer_follows free

namespace Files
variable {h : Host} {s : Files} {id : String}
variable {calls : List Call}

theorem step_follows (s : Files) (call : Call) : s.Follows call (s.step h id call) := by
  unfold step
  split
  case h_1 s' hr => exact call.perform_follows hr
  case h_2 => exact .refl s call

theorem step_simulates (hs : s.Sound) (call : Call) : s.Simulates call (s.step h id call) :=
  (s.step_follows call).simulates hs

theorem run_sound (hs : s.Sound) (calls : List Call) : (s.run h id calls).Sound :=
  calls.foldlRecOn _ hs fun _ hs call _ => (step_simulates hs call).1

theorem run_life {P : Life → Prop} (hP : ∀ l call l', l.Move call l' → P l → P l') (hs : s.Sound) (h₀ : P s.life)
    (calls : List Call) : P (s.run h id calls).life := by
  refine (calls.foldlRecOn (motive := fun s : Files => s.Sound ∧ P s.life) _ ⟨hs, h₀⟩ ?_).2
  rintro s ⟨hs, hp⟩ call -
  obtain ⟨hs', same | move⟩ := step_simulates hs call
  · exact ⟨hs', same ▸ hp⟩
  · exact ⟨hs', hP _ _ _ move hp⟩

/-! ## Safety -/

def exitCode (s : Files) : Option Int :=
  match s.life.phase with
  | some (.stopped _ code) => some code
  | _ => none

theorem exitCode_eq_some : s.exitCode = some code ↔ ∃ i, s.life.phase = some (.stopped i code) := by
  unfold exitCode
  split <;> simp_all

/-- Somewhere along the calls the container ran as `i`, and it has not run since. -/
def RanLast (h : Host) (id : String) (s : Files) (calls : List Call) (i : ExitedIdentity) : Prop :=
  ∃ n ≤ calls.length, (s.run h id (calls.take n)).life.phase = some (.running i) ∧
    ∀ m, n < m → m ≤ calls.length → ¬ (s.run h id (calls.take m)).life.Running

@[simp] theorem run_concat (calls : List Call) (call : Call) :
    s.run h id (calls ++ [call]) = (s.run h id calls).step h id call := by
  simp [run]

theorem ranLast_of_running (hr : (s.run h id calls).life.phase = some (.running i)) : RanLast h id s calls i :=
  ⟨calls.length, Nat.le_refl _, by simpa using hr, fun m h₁ h₂ => absurd h₁ (by omega)⟩

theorem RanLast.concat (hl : RanLast h id s calls i)
    (idle : ¬ (s.run h id (calls ++ [call])).life.Running) : RanLast h id s (calls ++ [call]) i := by
  obtain ⟨n, hn, hrun, hidle⟩ := hl
  refine ⟨n, by simp; omega, by rwa [List.take_append_of_le_length hn], fun m h₁ h₂ => ?_⟩
  obtain hm | rfl : m ≤ calls.length ∨ m = (calls ++ [call]).length := by simp at h₂ ⊢; omega
  · rw [List.take_append_of_le_length hm]
    exact hidle m h₁ hm
  · rwa [List.take_length]

theorem ranLast_of_stopped (hs : s.Sound) (h₀ : ∀ i code, s.life.phase ≠ some (.stopped (some i) code))
    (calls : List Call) : ∀ i code, (s.run h id calls).life.phase = some (.stopped (some i) code) →
      RanLast h id s calls i := by
  induction calls using List.reverseRecOn with
  | nil => exact fun i code hst => absurd hst (h₀ i code)
  | append_singleton calls call ih =>
    intro i code hst
    have idle : ¬ (s.run h id (calls ++ [call])).life.Running := by
      intro hj
      obtain ⟨j, hj⟩ := hj
      cases hst.symm.trans hj
    have held : (s.run h id calls).life.Holds i := by
      rw [run_concat] at hst
      obtain ⟨-, same | move⟩ := step_simulates (h := h) (run_sound hs calls) call
      · exact .inr ⟨code, by rw [← same, hst]⟩
      · exact move.holds_of_stopped hst
    obtain runs | ⟨code', stopped⟩ := held
    · exact (ranLast_of_running runs).concat idle
    · exact (ih i code' stopped).concat idle

theorem step_exitCode (hs : s.Sound) {e' : Int} (he : s.exitCode = some e)
    (he' : (s.step h id call).exitCode = some e') (hne : e' ≠ e) :
    e = -1 ∧ ∃ i t, s.life.phase = some (.stopped (some i) e) ∧
      call = .markStoppedIfIdentity i.pid i.pidStartTime e' t := by
  obtain ⟨i, hst⟩ := exitCode_eq_some.mp he
  obtain ⟨i', hst'⟩ := exitCode_eq_some.mp he'
  obtain ⟨-, same | move⟩ : s.Simulates call (s.step h id call) := step_simulates hs call
  · rw [same, hst] at hst'
    cases hst'
    exact absurd rfl hne
  · obtain ⟨he, j, t, rfl, hcall⟩ := move.reported hst hst' hne
    exact ⟨he, j, t, hst, hcall⟩

theorem run_exitCode (hs : s.Sound) (he : s.exitCode = some e) (hne : e ≠ -1) (later : List Call)
    (stays : ∀ n ≤ later.length, (s.run h id (later.take n)).exitCode ≠ none) :
    (s.run h id later).exitCode = some e := by
  induction later using List.reverseRecOn with
  | nil => exact he
  | append_singleton later call ih =>
    have before : (s.run h id later).exitCode = some e := by
      refine ih fun n hn => ?_
      have := stays n (by simp; omega)
      rwa [List.take_append_of_le_length hn] at this
    obtain ⟨e', after⟩ := Option.ne_none_iff_exists'.mp (stays _ (Nat.le_refl _))
    rw [List.take_length, run_concat] at after
    rw [run_concat, after]
    by_contra changed
    exact hne (step_exitCode (run_sound hs later) before after (by simpa using changed)).1

theorem unowned_of_life (hl : s.life.cgroup = none ∧ s.life.network = none) :
    s.cgroup = none ∧ s.network = none := by
  simpa [life] using hl

theorem step_removed (hs : s.Sound) (hc : s.container ≠ none) (hc' : (s.step h id call).container = none) :
    s.cgroup = none ∧ s.network = none := by
  have hp : s.life.phase ≠ none := by simpa [life] using hc
  have hp' : (s.step h id call).life.phase = none := by simp [life, hc']
  obtain ⟨-, same | move⟩ : s.Simulates call (s.step h id call) := step_simulates hs call
  · exact absurd (same ▸ hp') hp
  · exact unowned_of_life (move.unowned_of_removed hp hp')

theorem step_started (hs : s.Sound) (hp' : (s.step h id call).life.phase = some (.running i))
    (hp : s.life.phase ≠ some (.running i)) :
    s.cgroup = none ∧ s.network = none := by
  obtain ⟨-, same | move⟩ : s.Simulates call (s.step h id call) := step_simulates hs call
  · exact absurd (same ▸ hp') hp
  · exact unowned_of_life (move.unowned_of_started hp' hp)

/-- A resource is owned by the generation that runs or ran last; the exit code of a stopped generation changes only
from `-1`, at the word of the process that exited; and the record is not removed, nor bound to another process,
while a resource is owned. -/
theorem lifecycle_safety (h : Host) (id : String) (calls : List Call) :
    let s := (fresh id).run h id calls
    (∀ i, s.life.cgroup = some i ∨ s.life.network = some i → s.life.Holds i) ∧
    ∀ call, let s' := s.step h id call
      (∀ e e', s.exitCode = some e → s'.exitCode = some e' → e' ≠ e →
        e = -1 ∧
        (∃ i t, RanLast h id (fresh id) calls i ∧ call = .markStoppedIfIdentity i.pid i.pidStartTime e' t) ∧
        ∀ later : List Call, (∀ n ≤ later.length, (s'.run h id (later.take n)).exitCode ≠ none) →
          (s'.run h id later).exitCode = some e') ∧
      (s.container ≠ none → s'.container = none → s.cgroup = none ∧ s.network = none) ∧
      ∀ i, s'.life.phase = some (.running i) → s.life.phase ≠ some (.running i) →
        s.cgroup = none ∧ s.network = none := by
  intro s
  have hs : s.Sound := run_sound (sound_fresh id) calls
  refine ⟨fun i hi => ?_, fun call => ⟨fun e e' he he' hne => ?_, fun hc hc' => step_removed hs hc hc',
    fun i hp' hp => step_started hs hp' hp⟩⟩
  · have owned : s.life.Owned :=
      run_life (fun l call l' => Life.Move.owned) (sound_fresh id)
        ⟨by simp [life, fresh], by simp [life, fresh]⟩ calls
    exact hi.elim (owned.cgroup i) (owned.network i)
  · obtain ⟨he₁, i, t, hst, rfl⟩ := step_exitCode hs he he' hne
    have last : RanLast h id (fresh id) calls i :=
      ranLast_of_stopped (sound_fresh id) (by simp [life, fresh, ContainerFile.phase]) calls i e hst
    exact ⟨he₁, ⟨i, t, last, rfl⟩, run_exitCode (step_simulates hs _).1 he' (he₁ ▸ hne)⟩

example :
    let h : Host := ⟨fun _ => true, fun _ => true⟩
    let s := (fresh "c").run h "c" [.markRunning 7 100 0, .markCgroupOwnedIfIdentity 7 100 "cg",
      .markStoppedIfIdentity 7 100 (-1) 1, .markRunning 8 200 2, .delete, .markStoppedIfIdentity 7 100 3 4]
    s.exitCode = some 3 ∧ s.life.cgroup = some ⟨7, 100⟩ := by
  decide +kernel

end Files
end SystemsLab.Runtime
