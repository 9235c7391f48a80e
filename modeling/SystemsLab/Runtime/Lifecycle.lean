import SystemsLab.Runtime.State

/-!
# Lifecycle operations

Binding a container to a process, recording its exit, and the ownership of host resources. Each operation runs whole
under the state lock.
-/

namespace SystemsLab.Runtime

namespace Files
variable (h : Host) (s : Files) (id : String)

/-! ## Starting and stopping -/

def refusePending (doing : String) : Result Unit := do
  let cgroup ← (s.readCgroupOwnership id).mapError
    (wrapf s!"read pending cgroup ownership before {doing} container {id}")
  refuse (fun o => errorf s!"container {id} has pending cgroup cleanup for {o.name} ({o.pid}/{o.pidStartTime})")
    cgroup
  let network ←
    (s.readNetworkOwnership id h).mapError (wrapf s!"read pending network ownership before {doing} container {id}")
  refuse (fun o => errorf s!"container {id} has pending network cleanup for {o.owner} ({o.pid}/{o.pidStartTime})")
    network

def markRunning (pid : Int) (pidStartTime : UInt64) (startedAt : Time) : Result Files := do
  validateId id
  require (0 < pid) (errorf s!"invalid container PID {pid}")
  require (pidStartTime ≠ 0) (errorf "process start time must be non-zero")
  let c ← s.get id
  require (c.status = .running → c.pid = pid ∧ c.pidStartTime = pidStartTime)
    (errorf s!"container {id} is already bound to running process {c.pid}/{c.pidStartTime}")
  checkIf (c.status ≠ .running) (s.refusePending h id "starting")
  let c := { c with
    pid, pidStartTime, status := .running, startedAt := some startedAt, finishedAt := none, exitCode := 0 }
  let s ← s.writeNextRevision h c
  pure { s with exit := none }

def markStoppedIfIdentity (pid : Int) (pidStartTime : UInt64) (exitCode : Int) (finishedAt : Time) :
    Result (Bool × Files) := do
  validateId id
  require (0 < pid ∧ pidStartTime ≠ 0) (errorf s!"invalid process identity {pid}/{pidStartTime}")
  let c ← s.get id
  if c.status = .stopped then
    if c.exitCode ≠ -1 ∨ exitCode = -1 then pure (false, s)
    else
      let exited ← (s.readCurrentExitedIdentity id).mapError
        (wrapf "read exited identity for exit-code reconciliation")
      if exited ≠ some ⟨pid, pidStartTime⟩ then pure (false, s)
      else
        let s ← s.writeNextRevision h { c with finishedAt := some finishedAt, exitCode }
        pure (true, s)
  else if c.status ≠ .running ∨ c.pid ≠ pid ∨ c.pidStartTime ≠ pidStartTime then pure (false, s)
  else
    let c := { c with
      status := .stopped, pid := 0, pidStartTime := 0, finishedAt := some finishedAt, exitCode }
    let s ← s.writeStoppedNextRevision h c pid pidStartTime
    pure (true, { s with exit := none })

def markStoppedIfCreated (exitCode : Int) (finishedAt : Time) : Result (Bool × Files) := do
  validateId id
  let c ← s.get id
  if c.status ≠ .created then pure (false, s)
  else
    require (c.pid = 0 ∧ c.pidStartTime = 0)
      (errorf s!"created container {id} unexpectedly carries process identity {c.pid}/{c.pidStartTime}")
    let cgroup ← (s.readCgroupOwnership id).mapError
      (wrapf s!"read cgroup ownership before recording startup failure for container {id}")
    refuse (fun o => errorf (s!"created container {id} has cgroup ownership for {o.name} " ++
      s!"({o.pid}/{o.pidStartTime}); refusing synthetic stop")) cgroup
    let network ← (s.readNetworkOwnership id h).mapError
      (wrapf s!"read network ownership before recording startup failure for container {id}")
    refuse (fun o => errorf (s!"created container {id} has network ownership for {o.owner} " ++
      s!"({o.pid}/{o.pidStartTime}); refusing synthetic stop")) network
    let exited ← (s.readExitedIdentity id).mapError
      (wrapf s!"read exited identity before recording startup failure for container {id}")
    refuse (fun e => errorf (s!"created container {id} has exited-generation identity " ++
      s!"{e.pid}/{e.pidStartTime}; refusing synthetic stop")) exited
    let s ← s.writeNextRevision h { c with status := .stopped, finishedAt := some finishedAt, exitCode }
    pure (true, s)

/-! ## Ownership of host resources -/

def markCgroupOwnedIfIdentity (pid : Int) (pidStartTime : UInt64) (name : String) : Result Files := do
  validateId id
  let ownership : CgroupOwnership := { name, pid, pidStartTime }
  validateCgroupOwnership ownership
  let c ← s.get id
  require (c.status = .running ∧ c.pid = pid ∧ c.pidStartTime = pidStartTime)
    (errorf s!"container {id} is not bound to process {pid}/{pidStartTime} while recording cgroup ownership")
  match ← s.readCgroupOwnership id with
  | some existing => do
    require (existing = ownership) (errorf
      (s!"container {id} already has pending cgroup ownership for {existing.name} " ++
        s!"({existing.pid}/{existing.pidStartTime})"))
    pure s
  | none => s.writeCgroupOwnership id ownership

def markNetworkOwnedIfIdentity (ownership : NetworkOwnership) : Result Files := do
  validateId id
  validateNetworkOwnership h ownership
  let c ← s.get id
  require (c.status = .running ∧ c.pid = ownership.pid ∧ c.pidStartTime = ownership.pidStartTime) (errorf
    (s!"container {id} is not bound to process {ownership.pid}/{ownership.pidStartTime} " ++
      "while recording network ownership"))
  match ← s.readNetworkOwnership id h with
  | some existing => do
    require (existing = ownership) (errorf
      (s!"container {id} already has pending network ownership for {existing.owner} " ++
        s!"({existing.pid}/{existing.pidStartTime})"))
    pure s
  | none => s.writeNetworkOwnership id h ownership

def clearCgroupOwnershipIfMatch (ownership : CgroupOwnership) : Result (Bool × Files) := do
  validateId id
  validateCgroupOwnership ownership
  if (← s.readCgroupOwnership id) ≠ some ownership then pure (false, s)
  else
    let c ← s.get id
    require (c.status ≠ .running) (errorf s!"refusing to clear cgroup ownership for running container {id}")
    pure (true, { s with cgroup := none })

def clearNetworkOwnershipIfMatch (ownership : NetworkOwnership) : Result (Bool × Files) := do
  validateId id
  validateNetworkOwnership h ownership
  if (← s.readNetworkOwnership id h) ≠ some ownership then pure (false, s)
  else
    let c ← s.get id
    require (c.status = .running → c.pid = ownership.pid ∧ c.pidStartTime = ownership.pidStartTime) (errorf
      (s!"refusing to clear network ownership for stale generation {ownership.pid}/{ownership.pidStartTime} " ++
        s!"while container {id} runs as {c.pid}/{c.pidStartTime}"))
    pure (true, { s with network := none })

/-! ## Deletion -/

/-- `Delete` does not look at the record: a running container goes too. -/
def delete : Result Files := do
  validateId id
  s.refusePending h id "deleting"
  pure s.removeContainer

def deleteIfNotRunning : Result Files := do
  validateId id
  let c ← s.get id
  require (c.status ≠ .running)
    { text := s!"container is running: container {id} has process {c.pid}/{c.pidStartTime}; refusing deletion"
      kind := .containerRunning }
  s.refusePending h id "deleting"
  let _ ← (s.readExitedIdentity id).mapError (wrapf s!"read exited identity before deleting container {id}")
  pure s.removeContainer

end Files

/-! ## Runs -/

inductive Call
  | markRunning (pid : Int) (pidStartTime : UInt64) (startedAt : Time)
  | markStoppedIfIdentity (pid : Int) (pidStartTime : UInt64) (exitCode : Int) (finishedAt : Time)
  | markStoppedIfCreated (exitCode : Int) (finishedAt : Time)
  | markCgroupOwnedIfIdentity (pid : Int) (pidStartTime : UInt64) (name : String)
  | markNetworkOwnedIfIdentity (ownership : NetworkOwnership)
  | clearCgroupOwnershipIfMatch (ownership : CgroupOwnership)
  | clearNetworkOwnershipIfMatch (ownership : NetworkOwnership)
  | delete
  | deleteIfNotRunning

def Call.perform (h : Host) (id : String) (s : Files) : Call → Result Files
  | .markRunning pid start t => s.markRunning h id pid start t
  | .markStoppedIfIdentity pid start code t => Prod.snd <$> s.markStoppedIfIdentity h id pid start code t
  | .markStoppedIfCreated code t => Prod.snd <$> s.markStoppedIfCreated h id code t
  | .markCgroupOwnedIfIdentity pid start name => s.markCgroupOwnedIfIdentity id pid start name
  | .markNetworkOwnedIfIdentity o => s.markNetworkOwnedIfIdentity h id o
  | .clearCgroupOwnershipIfMatch o => Prod.snd <$> s.clearCgroupOwnershipIfMatch id o
  | .clearNetworkOwnershipIfMatch o => Prod.snd <$> s.clearNetworkOwnershipIfMatch h id o
  | .delete => s.delete h id
  | .deleteIfNotRunning => s.deleteIfNotRunning h id

def Files.step (h : Host) (id : String) (s : Files) (call : Call) : Files :=
  match call.perform h id s with
  | .ok s' => s'
  | .error _ => s

def Files.run (h : Host) (id : String) (s : Files) (calls : List Call) : Files := calls.foldl (Files.step h id) s

def Files.fresh (id : String) : Files where
  container := some {
    container := { id, revision := 1 }
    stateSchemaVersion := some currentContainerStateSchemaVersion }

end SystemsLab.Runtime
