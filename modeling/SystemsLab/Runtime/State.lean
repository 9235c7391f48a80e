import SystemsLab.Lib.Checked

/-!
# The files of one container

A container is in `<id>.json`, with `<id>.cgroup` and `<id>.network` beside it while host resources wait for
cleanup. Every operation replaces a file whole, so the files are values here.
-/

namespace SystemsLab.Runtime

/-! ## Errors -/

inductive ErrorKind
  | plain
  | notExist
  | containerRunning
deriving DecidableEq

structure StateError where
  text : String
  kind : ErrorKind := .plain
deriving DecidableEq

abbrev Result := Except StateError

def errorf (text : String) : StateError := { text }

/-- `fmt.Errorf("context: %w", err)`. -/
def wrapf (context : String) (e : StateError) : StateError := { e with text := context ++ ": " ++ e.text }

/-! ## Identifiers -/

def maxContainerIdBytes : Nat := 240

def validateId (id : String) : Result Unit := do
  require (id ≠ "") (errorf "id cannot be empty")
  require (id.utf8ByteSize ≤ maxContainerIdBytes) (errorf s!"invalid id: exceeds {maxContainerIdBytes} bytes")
  require (id ≠ "." ∧ id ≠ ".." ∧ ∀ c ∈ id.toList, c ∉ ['/', '\\', ':', '\x00'])
    (errorf s!"invalid id {id.quote}: path separators and relative components not allowed")

/-! ## The container record -/

inductive Status
  | created
  | running
  | stopped
deriving DecidableEq

abbrev Time := Int

structure Container where
  id : String
  revision : UInt64 := 0
  pid : Int := 0
  pidStartTime : UInt64 := 0
  status : Status := .created
  startedAt : Option Time := none
  finishedAt : Option Time := none
  exitCode : Int := 0
deriving DecidableEq

structure ExitedIdentity where
  pid : Int
  pidStartTime : UInt64
deriving DecidableEq

def validateExitedIdentity (identity : ExitedIdentity) : Result Unit :=
  require (0 < identity.pid ∧ identity.pidStartTime ≠ 0)
    (errorf s!"invalid persisted exited process identity {identity.pid}/{identity.pidStartTime}")

def currentContainerStateSchemaVersion : UInt32 := 1

def currentStoppedGenerationSchemaVersion : UInt32 := 1

/-- `<id>.json`: the record and the teardown fields written next to it. -/
structure ContainerFile where
  container : Container
  stateSchemaVersion : Option UInt32 := none
  stoppedGenerationSchemaVersion : Option UInt32 := none
  exitIdentityRequired : Option Bool := none
  exitIdentity : Option ExitedIdentity := none
  legacyDnsCleanupAuthorized : Option Bool := none
deriving DecidableEq

def checkSchemaVersion (label : String) (current : UInt32) : Option UInt32 → Result Unit
  | none => pure ()
  | some v => do
    require (v ≠ 0) (errorf s!"invalid {label} schema version 0")
    require (v = current) (errorf s!"unsupported {label} schema version {v} (current {current})")

/-- `unmarshalContainerStateForID`. -/
def ContainerFile.unmarshalForId (f : ContainerFile) (expectedId : String) : Result Container := do
  checkSchemaVersion "container state" currentContainerStateSchemaVersion f.stateSchemaVersion
  require (f.container.id = expectedId)
    (errorf s!"container state identity mismatch: record {expectedId.quote} contains id {f.container.id.quote}")
  pure f.container

/-- `teardownSnapshot`, as far as it rejects: what passes is read off the file. -/
def ContainerFile.checkTeardown (f : ContainerFile) : Result Unit := do
  checkSchemaVersion "container state" currentContainerStateSchemaVersion f.stateSchemaVersion
  checkSchemaVersion "stopped generation" currentStoppedGenerationSchemaVersion f.stoppedGenerationSchemaVersion
  require (f.exitIdentityRequired ≠ some false) (errorf "invalid persisted exit identity requirement: false")
  f.exitIdentity.forM validateExitedIdentity
  require (f.legacyDnsCleanupAuthorized ≠ some false) (errorf "invalid legacy DNS cleanup authorization: false")
  require (f.legacyDnsCleanupAuthorized = none ∨
      f.stoppedGenerationSchemaVersion = none ∧ f.exitIdentityRequired = none ∧ f.exitIdentity = none)
    (errorf "legacy DNS cleanup authorization conflicts with exact stopped-generation metadata")

/-! ## Cgroup ownership -/

structure CgroupOwnership where
  name : String
  pid : Int
  pidStartTime : UInt64
deriving DecidableEq

/-- `<id>.cgroup`. The first two fields are absent in files of older writers. -/
structure CgroupFile where
  schemaVersion : Option Int
  containerId : Option String
  ownership : CgroupOwnership
deriving DecidableEq

def cgroupOwnershipSchemaVersion : Int := 1

def validCgroupByte (c : UInt8) : Bool :=
  (97 ≤ c && c ≤ 122) || (65 ≤ c && c ≤ 90) || (48 ≤ c && c ≤ 57) || c == 45 || c == 95 || c == 46

def validatePersistedCgroupName (name : String) : Result Unit := do
  require (name ≠ "") (errorf "cgroup name must not be empty")
  require (name.utf8ByteSize ≤ 255) (errorf "cgroup name exceeds 255 bytes")
  refuse (fun c => errorf s!"cgroup name {name.quote} contains invalid character {(Char.ofNat c.toNat).quote}")
    (name.toUTF8.data.toList.find? (!validCgroupByte ·))
  require (name ≠ "." ∧ name ≠ "..") (errorf s!"invalid cgroup name {name.quote}")

def validateCgroupOwnership (o : CgroupOwnership) : Result Unit := do
  validatePersistedCgroupName o.name
  require (0 < o.pid ∧ o.pidStartTime ≠ 0) (errorf s!"invalid cgroup process identity {o.pid}/{o.pidStartTime}")

def checkProvenance (kind id : String) (version : Int) (schemaVersion : Option Int) (containerId : Option String) :
    Result Unit :=
  match schemaVersion, containerId with
  | none, none => pure ()
  | some v, some cid => do
    require (v = version) (errorf s!"unsupported persisted {kind} ownership schema_version {v}")
    (validateId cid).mapError (wrapf s!"invalid persisted {kind} ownership container_id")
    require (cid = id)
      (errorf s!"{kind} ownership storage key {id.quote} does not match persisted container_id {cid.quote}")
  | _, _ => throw (errorf
      s!"invalid persisted {kind} ownership provenance: schema_version and container_id must both be present")

def decodeCgroupOwnership (id : String) (f : CgroupFile) : Result CgroupOwnership := do
  checkProvenance "cgroup" id cgroupOwnershipSchemaVersion f.schemaVersion f.containerId
  (validateCgroupOwnership f.ownership).mapError (wrapf "invalid persisted cgroup ownership")
  pure f.ownership

/-! ## Network ownership -/

structure PortForwardingOwnership where
  hostPort : Int
  containerPort : Int
  containerIp : String
  protocol : String
deriving DecidableEq

structure NetworkOwnership where
  owner : String
  pid : Int
  pidStartTime : UInt64
  vethHost : String
  mappings : List PortForwardingOwnership
deriving DecidableEq

structure NetworkFile where
  schemaVersion : Option Int
  containerId : Option String
  ownership : NetworkOwnership
deriving DecidableEq

def networkOwnershipSchemaVersion : Int := 1

/-- The address parser of the network library, and whether the encoding of a record stays within 4 MiB. -/
structure Host where
  parseIp : String → Bool
  fitsStateFile : ContainerFile → Bool

def validOwnerChar (r : Char) : Bool :=
  ('a' ≤ r && r ≤ 'z') || ('A' ≤ r && r ≤ 'Z') || ('0' ≤ r && r ≤ '9') || r == '-' || r == '_' || r == '.'

def ownerTag : String := "minicontainer:"

def validateNetworkOwner (owner : String) : Result Unit := do
  require (ownerTag.toList <+: owner.toList) (errorf s!"invalid network owner {owner.quote}")
  require (ownerTag.utf8ByteSize < owner.utf8ByteSize ∧ owner.utf8ByteSize ≤ 128)
    (errorf s!"invalid network owner length {owner.utf8ByteSize}")
  refuse (fun r => errorf s!"invalid network owner character {r.quote}")
    ((owner.toList.drop ownerTag.length).find? (!validOwnerChar ·))

def validateNetworkVethHost (name : String) : Result Unit :=
  require (name.utf8ByteSize = 15 ∧ "vh".toList <+: name.toList ∧
      ∀ r ∈ name.toList.drop 2, ('a' ≤ r ∧ r ≤ 'z') ∨ ('2' ≤ r ∧ r ≤ '7'))
    (errorf s!"invalid network veth host {name.quote}")

def validatePortForwardingOwnership (h : Host) (m : PortForwardingOwnership) : Result Unit := do
  require (1 ≤ m.hostPort ∧ m.hostPort ≤ 65535 ∧ 1 ≤ m.containerPort ∧ m.containerPort ≤ 65535)
    (errorf s!"invalid port mapping {m.hostPort}:{m.containerPort}")
  require (h.parseIp m.containerIp) (errorf s!"invalid container IP {m.containerIp.quote}")
  require (m.protocol = "tcp" ∨ m.protocol = "udp") (errorf s!"invalid port protocol {m.protocol.quote}")

def validateMappings (h : Host) : List (Int × String) → List PortForwardingOwnership → Result Unit
  | _, [] => pure ()
  | seen, m :: ms => do
    validatePortForwardingOwnership h m
    require ((m.hostPort, m.protocol) ∉ seen) (errorf s!"duplicate network host ingress {m.hostPort}/{m.protocol}")
    validateMappings h ((m.hostPort, m.protocol) :: seen) ms

def validateNetworkOwnership (h : Host) (o : NetworkOwnership) : Result Unit := do
  validateNetworkOwner o.owner
  require (0 < o.pid ∧ o.pidStartTime ≠ 0) (errorf s!"invalid network process identity {o.pid}/{o.pidStartTime}")
  checkIf (o.vethHost ≠ "") (validateNetworkVethHost o.vethHost)
  require (o.vethHost ≠ "" ∨ o.mappings ≠ []) (errorf "network ownership has no resources")
  require (o.mappings.length ≤ 256) (errorf s!"network ownership has too many port mappings: {o.mappings.length}")
  validateMappings h [] o.mappings

def decodeNetworkOwnership (h : Host) (id : String) (f : NetworkFile) : Result NetworkOwnership := do
  checkProvenance "network" id networkOwnershipSchemaVersion f.schemaVersion f.containerId
  (validateNetworkOwnership h f.ownership).mapError (wrapf "invalid persisted network ownership")
  pure f.ownership

/-! ## Reading and writing -/

structure Files where
  container : Option ContainerFile := none
  cgroup : Option CgroupFile := none
  network : Option NetworkFile := none
  exit : Option ExitedIdentity := none
  exitRequired : Option String := none
deriving DecidableEq

namespace Files
variable (s : Files) (id : String)

def readContainerFile : Result ContainerFile :=
  okOr { text := "file does not exist", kind := .notExist } s.container

/-- `getUnlocked`. -/
def get : Result Container := do
  let f ← s.readContainerFile.mapError (wrapf s!"container {id.quote} not found")
  (f.unmarshalForId id).mapError (wrapf "unmarshal container state")

/-- `readStoppedGenerationTeardownSnapshotUnlocked`. -/
def readTeardown : Result ContainerFile := do
  let f ← s.readContainerFile
  f.checkTeardown
  pure f

def readCgroupOwnership : Result (Option CgroupOwnership) := do
  validateId id
  match s.cgroup with
  | none => pure none
  | some f => some <$> decodeCgroupOwnership id f

def readNetworkOwnership (h : Host) : Result (Option NetworkOwnership) := do
  validateId id
  match s.network with
  | none => pure none
  | some f => some <$> decodeNetworkOwnership h id f

def readExitedIdentity : Result (Option ExitedIdentity) := do
  validateId id
  match s.exit with
  | none => pure none
  | some identity => do
    validateExitedIdentity identity
    pure (some identity)

def orphanIdentity : StateError := errorf "persisted exit identity exists without required lifecycle capability"

def readCurrentExitedIdentity : Result (Option ExitedIdentity) := do
  let f ← s.readTeardown
  match f.exitIdentity with
  | some identity => do
    require (f.exitIdentityRequired = some true) orphanIdentity
    pure (some identity)
  | none => do
    require (f.stoppedGenerationSchemaVersion = none)
      (errorf "versioned stopped generation is missing embedded exit identity")
    s.readExitedIdentity id

/-- `writeContainerRevisionWithExitPolicyUnlocked`. -/
def writeWithExitPolicy (h : Host) (c : Container) (revision : UInt64) (requireExitIdentity : Bool)
    (identity : Option ExitedIdentity) : Result Files := do
  let copy := { c with revision }
  require (identity = none ∨ requireExitIdentity) (errorf "exit identity requires lifecycle capability")
  identity.forM validateExitedIdentity
  let f : ContainerFile :=
    match requireExitIdentity, identity with
    | true, some identity =>
      { container := copy
        stateSchemaVersion := some currentContainerStateSchemaVersion
        stoppedGenerationSchemaVersion := some currentStoppedGenerationSchemaVersion
        exitIdentityRequired := some true
        exitIdentity := some identity }
    | true, none => { container := copy, exitIdentityRequired := some true }
    | false, _ =>
      if copy.status = .stopped then
        { container := copy
          stateSchemaVersion := some currentContainerStateSchemaVersion
          legacyDnsCleanupAuthorized := some true }
      else { container := copy, stateSchemaVersion := some currentContainerStateSchemaVersion }
  require (h.fitsStateFile f) (errorf "container state exceeds 4194304-byte size limit")
  pure { s with container := some f }

/-- `writeContainerRevisionUnlocked`: teardown fields survive only from stopped to stopped. -/
def writeRevision (h : Host) (c : Container) (revision : UInt64) : Result Files :=
  if c.status ≠ .stopped then s.writeWithExitPolicy h c revision false none
  else
    match s.container with
    | none => s.writeWithExitPolicy h c revision false none
    | some f => do
      f.checkTeardown
      match f.exitIdentity with
      | some identity => do
        require (f.exitIdentityRequired = some true) orphanIdentity
        s.writeWithExitPolicy h c revision true (some identity)
      | none => s.writeWithExitPolicy h c revision (f.exitIdentityRequired = some true) none

def nextRevision (c : Container) : Result UInt64 := do
  require (c.revision ≠ .ofNat (2 ^ 64 - 1)) (errorf s!"container {c.id} revision overflow")
  pure (c.revision + 1)

/-- `writeContainerNextRevisionUnlocked`. -/
def writeNextRevision (h : Host) (c : Container) : Result Files := do
  s.writeRevision h c (← nextRevision c)

/-- `writeStoppedContainerNextRevisionUnlocked`. -/
def writeStoppedNextRevision (h : Host) (c : Container) (pid : Int) (pidStartTime : UInt64) : Result Files := do
  let revision ← nextRevision c
  validateExitedIdentity ⟨pid, pidStartTime⟩
  s.writeWithExitPolicy h c revision true (some ⟨pid, pidStartTime⟩)

def writeCgroupOwnership (o : CgroupOwnership) : Result Files := do
  validateId id
  validateCgroupOwnership o
  pure { s with cgroup := some ⟨some cgroupOwnershipSchemaVersion, some id, o⟩ }

def writeNetworkOwnership (h : Host) (o : NetworkOwnership) : Result Files := do
  validateId id
  validateNetworkOwnership h o
  pure { s with network := some ⟨some networkOwnershipSchemaVersion, some id, o⟩ }

/-- `removeStateFileDurable` on the record: the exit sidecars go with it. -/
def removeContainer : Files := { s with container := none, exit := none, exitRequired := none }

end Files

end SystemsLab.Runtime
