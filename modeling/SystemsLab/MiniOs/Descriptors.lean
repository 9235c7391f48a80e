import SystemsLab.Lib.RefCount
import SystemsLab.MiniOs.ProcessTable

/-!
# Descriptors

The descriptor tables and standard streams of all processes, the pipes, and the calls that open, duplicate, inherit
and drop them. Path lookup, task creation and the kernel heap enter as their outcomes.
-/

namespace SystemsLab.MiniOs

open Function

/-! ## Files and pipes -/

abbrev NodeId := Nat

abbrev PipeId := Nat

def pipeBufSize : Nat := 4096

structure Pipe where
  buf : Fin pipeBufSize → UInt8
  readPos : Nat := 0
  writePos : Nat := 0
  count : Nat := 0
  readers : Nat := 1
  writers : Nat := 1

/-- Everything the counters live in. `dangling` is set once a freed pipe is used. -/
structure Objects where
  opened : NodeId → Nat
  closed : NodeId → Nat
  pipes : PipeId → Option Pipe
  dangling : Bool

namespace Objects
variable (s : Objects)

def openFs (m : NodeId) : Objects := { s with opened := update s.opened m (s.opened m + 1) }

def closeFs (m : NodeId) : Objects := { s with closed := update s.closed m (s.closed m + 1) }

def setPipe (p : PipeId) (q : Option Pipe) : Objects := { s with pipes := update s.pipes p q }

def usePipe (p : PipeId) (f : Pipe → Option Pipe) : Objects :=
  match s.pipes p with
  | some q => s.setPipe p (f q)
  | none => { s with dangling := true }

/-- `pipe_create` on what `kmalloc` answers, with whatever the memory holds. -/
def pipeCreate (cell : Option (PipeId × (Fin pipeBufSize → UInt8))) : Option (PipeId × Objects) :=
  match cell with
  | none => none
  | some (p, buf) => if (s.pipes p).isNone then some (p, s.setPipe p (some { buf })) else none

/-- `pipe_free_if_done`. -/
def freeIfDone (q : Pipe) : Option Pipe := if q.readers = 0 ∧ q.writers = 0 then none else some q

def pipeRefRead (p : PipeId) : Objects := s.usePipe p fun q => some { q with readers := q.readers + 1 }

def pipeRefWrite (p : PipeId) : Objects := s.usePipe p fun q => some { q with writers := q.writers + 1 }

def pipeCloseRead (p : PipeId) : Objects := s.usePipe p fun q => freeIfDone { q with readers := q.readers - 1 }

def pipeCloseWrite (p : PipeId) : Objects := s.usePipe p fun q => freeIfDone { q with writers := q.writers - 1 }

end Objects

/-! ## Tables and streams -/

def maxOpenFiles : Nat := 8

def firstUserFd : Int := 3

/-- `open_file_t`: the fields that go with each kind. -/
inductive OpenFile
  | none
  | file (node : NodeId) (offset : UInt32)
  | pipeR (pipe : PipeId)
  | pipeW (pipe : PipeId)
deriving DecidableEq

inductive Stream
  | stdoutNode
  | stdinNode
  | stdoutPipe
  | stdinPipe
deriving DecidableEq

structure Streams where
  stdoutNode : Option NodeId := none
  stdoutOffset : UInt32 := 0
  stdinNode : Option NodeId := none
  stdinOffset : UInt32 := 0
  stdoutPipe : Option PipeId := none
  stdinPipe : Option PipeId := none
deriving DecidableEq

instance : Inhabited Streams := ⟨{}⟩

def Streams.get (s : Streams) : Stream → Option Nat
  | .stdoutNode => s.stdoutNode
  | .stdinNode => s.stdinNode
  | .stdoutPipe => s.stdoutPipe
  | .stdinPipe => s.stdinPipe

def Streams.set (s : Streams) (f : Stream) (a : Option Nat) : Streams :=
  match f with
  | .stdoutNode => { s with stdoutNode := a }
  | .stdinNode => { s with stdinNode := a }
  | .stdoutPipe => { s with stdoutPipe := a }
  | .stdinPipe => { s with stdinPipe := a }

structure Kernel (n : Nat) where
  table : ProcessTable n Streams
  openFiles : Fin n → Fin maxOpenFiles → OpenFile
  objects : Objects

def Objects.takeEntry (s : Objects) : OpenFile → Objects
  | .none => s
  | .file m _ => s.openFs m
  | .pipeR p => s.pipeRefRead p
  | .pipeW p => s.pipeRefWrite p

def Objects.dropEntry (s : Objects) : OpenFile → Objects
  | .none => s
  | .file m _ => s.closeFs m
  | .pipeR p => s.pipeCloseRead p
  | .pipeW p => s.pipeCloseWrite p

def Objects.takeStream (s : Objects) : Stream → Option Nat → Objects
  | _, none => s
  | .stdoutNode, some m | .stdinNode, some m => s.openFs m
  | .stdoutPipe, some p => s.pipeRefWrite p
  | .stdinPipe, some p => s.pipeRefRead p

def Objects.dropStream (s : Objects) : Stream → Option Nat → Objects
  | _, none => s
  | .stdoutNode, some m | .stdinNode, some m => s.closeFs m
  | .stdoutPipe, some p => s.pipeCloseWrite p
  | .stdinPipe, some p => s.pipeCloseRead p

namespace Kernel
variable {n : Nat} (k : Kernel n) (i : Fin n)

def boot : Kernel n where
  table := .boot
  openFiles _ _ := .none
  objects := { opened := fun _ => 0, closed := fun _ => 0, pipes := fun _ => none, dangling := false }

def streams : Streams := (k.table.processes i).own

def setStreams (f : Streams) : Kernel n :=
  { k with table := k.table.modify i fun p => { p with own := f } }

def setSlot (j : Fin maxOpenFiles) (e : OpenFile) : Kernel n :=
  { k with openFiles := update k.openFiles i (update (k.openFiles i) j e) }

def onObjects (f : Objects → Objects) : Kernel n := { k with objects := f k.objects }

/-- `if (process->field) { close(process->field); process->field = NULL; }`. -/
def releaseStream (f : Stream) : Kernel n :=
  (k.onObjects (·.dropStream f ((k.streams i).get f))).setStreams i ((k.streams i).set f none)

/-- `process->field = a; if (a) open(a);`. -/
def installStream (f : Stream) (a : Option Nat) : Kernel n :=
  (k.setStreams i ((k.streams i).set f a)).onObjects (·.takeStream f a)

def setStdoutOffset (offset : UInt32) : Kernel n :=
  k.setStreams i { k.streams i with stdoutOffset := offset }

def setStdinOffset (offset : UInt32) : Kernel n := k.setStreams i { k.streams i with stdinOffset := offset }

def userFdIndex (fd : Int) : Option (Fin maxOpenFiles) :=
  if h : firstUserFd ≤ fd ∧ fd < firstUserFd + maxOpenFiles then
    some ⟨(fd - firstUserFd).toNat, by simp only [firstUserFd, maxOpenFiles] at h ⊢; omega⟩
  else none

def fdOf (j : Fin maxOpenFiles) : Int := firstUserFd + j.val

def freeSlot : Option (Fin maxOpenFiles) :=
  (List.finRange maxOpenFiles).find? fun j => k.openFiles i j = .none

def allocFd (e : OpenFile) : Option (Fin maxOpenFiles × Kernel n) :=
  (k.freeSlot i).map fun j => (j, k.setSlot i j e)

def closeFdEntry (j : Fin maxOpenFiles) : Kernel n :=
  (k.onObjects (·.dropEntry (k.openFiles i j))).setSlot i j .none

/-! ## System calls -/

def openUserFile (m : NodeId) : Int × Kernel n :=
  match k.allocFd i (.file m 0) with
  | none => (-1, k)
  | some (j, k) => (fdOf j, k.onObjects (·.openFs m))

/-- `sys_open`; the path resolves to a file or to nothing that can be opened. -/
def sysOpen (resolved : Option NodeId) : Int × Kernel n :=
  match resolved with
  | none => (-1, k)
  | some m => k.openUserFile i m

/-- `sys_create`. Unlinking the new file again when no descriptor is free touches no reference. -/
def sysCreate (created : Option NodeId) : Int × Kernel n :=
  match created with
  | none => (-1, k)
  | some m => k.openUserFile i m

/-- `sys_pipe`; `valid` is the check of the user's buffer. -/
def sysPipe (valid : Bool) (cell : Option (PipeId × (Fin pipeBufSize → UInt8))) : Int × Kernel n :=
  if !valid then (-1, k)
  else
    match k.objects.pipeCreate cell with
    | none => (-1, k)
    | some (p, objects) =>
      let k := { k with objects }
      match k.allocFd i (.pipeR p) with
      | none => (-1, (k.onObjects (·.pipeCloseRead p)).onObjects (·.pipeCloseWrite p))
      | some (r, k) =>
        match k.allocFd i (.pipeW p) with
        | none => (-1, (k.closeFdEntry i r).onObjects (·.pipeCloseWrite p))
        | some (_, k) => (0, k)

def sysDup (oldfd : Int) : Int × Kernel n :=
  match userFdIndex oldfd with
  | none => (-1, k)
  | some o =>
    let src := k.openFiles i o
    if src = .none then (-1, k)
    else
      match k.freeSlot i with
      | none => (-1, k)
      | some j => (fdOf j, (k.setSlot i j src).onObjects (·.takeEntry src))

/-- `sys_dup2` onto stdout. -/
def dupToStdout (src : OpenFile) : Option (Kernel n) :=
  let released := (k.releaseStream i .stdoutPipe).releaseStream i .stdoutNode
  match src with
  | .pipeW p => some (released.installStream i .stdoutPipe (some p))
  | .file m offset => some ((released.installStream i .stdoutNode (some m)).setStdoutOffset i offset)
  | _ => none

/-- `sys_dup2` onto stdin. -/
def dupToStdin (src : OpenFile) : Option (Kernel n) :=
  let released := (k.releaseStream i .stdinPipe).releaseStream i .stdinNode
  match src with
  | .pipeR p => some (released.installStream i .stdinPipe (some p))
  | .file m offset => some ((released.installStream i .stdinNode (some m)).setStdinOffset i offset)
  | _ => none

def sysDup2 (oldfd newfd : Int) : Int × Kernel n :=
  match userFdIndex oldfd with
  | none => (-1, k)
  | some o =>
    let src := k.openFiles i o
    if src = .none then (-1, k)
    else if newfd = 1 then
      match k.dupToStdout i src with
      | none => (-1, k)
      | some k => (newfd, k)
    else if newfd = 0 then
      match k.dupToStdin i src with
      | none => (-1, k)
      | some k => (newfd, k)
    else
      match userFdIndex newfd with
      | none => (-1, k)
      | some j =>
        if newfd = oldfd then (newfd, k)
        else (newfd, ((k.closeFdEntry i j).setSlot i j src).onObjects (·.takeEntry src))

def sysClose (fd : Int) : Int × Kernel n :=
  match userFdIndex fd with
  | none => (-1, k)
  | some j => if k.openFiles i j = .none then (-1, k) else (0, k.closeFdEntry i j)

/-! ## Processes -/

def closeUserFiles : Kernel n :=
  (List.finRange maxOpenFiles).foldl (fun k j => if k.openFiles i j = .none then k else k.closeFdEntry i j) k

/-- One turn of `syscall_copy_user_files`. -/
def copyUserFile (parent child : Fin n) (k : Kernel n) (j : Fin maxOpenFiles) : Kernel n :=
  (k.setSlot child j (k.openFiles parent j)).onObjects (·.takeEntry (k.openFiles parent j))

def copyUserFiles (parent child : Fin n) : Kernel n :=
  (List.finRange maxOpenFiles).foldl (copyUserFile parent child) k

def currentPid (caller : Option (Fin n)) : Int := (caller.map fun i => (k.table.processes i).pid).getD 0

/-- `process_launch` by slot `caller`, or by the kernel; `task` says whether `create_task` succeeds. -/
def processLaunch (caller : Option (Fin n)) (task : Bool) : Int × Kernel n :=
  match k.table.allocate (k.currentPid caller) with
  | (none, table) => (-1, { k with table })
  | (some i, table) =>
    if task then ((table.processes i).pid, { k with table }) else (-1, { k with table := table.release i })

def inheritStreams (parent child : Fin n) : Kernel n :=
  let f := k.streams parent
  let k := (k.installStream child .stdoutNode f.stdoutNode).setStdoutOffset child f.stdoutOffset
  let k := (k.installStream child .stdinNode f.stdinNode).setStdinOffset child f.stdinOffset
  (k.installStream child .stdoutPipe f.stdoutPipe).installStream child .stdinPipe f.stdinPipe

def processFork (parent : Fin n) (task : Bool) : Int × Kernel n :=
  match k.table.allocate (k.table.processes parent).pid with
  | (none, table) => (-1, { k with table })
  | (some child, table) =>
    let k := (copyUserFiles { k with table } parent child).inheritStreams parent child
    if task then ((k.table.processes child).pid, k)
    else
      -- the child never runs
      let k := (k.releaseStream child .stdoutNode).releaseStream child .stdinNode
      let k := (k.releaseStream child .stdoutPipe).releaseStream child .stdinPipe
      let k := k.closeUserFiles child
      (-1, { k with table := k.table.release child })

/-- `process_redirect` on a process that has not exited. -/
def processRedirect (pid : Int) (outNode : Option NodeId) (outOffset : UInt32)
    (inNode : Option NodeId) : Kernel n :=
  match k.table.find pid with
  | none => k
  | some i =>
    if (k.table.processes i).state ≠ .running then k
    else
      let k := ((k.releaseStream i .stdoutNode).installStream i .stdoutNode outNode).setStdoutOffset i outOffset
      ((k.releaseStream i .stdinNode).installStream i .stdinNode inNode).setStdinOffset i 0

/-- `process_finish_exit`, without the address space and the tasks it wakes. -/
def processFinishExit (status : Int) : Kernel n :=
  let k := { k with table := k.table.leaveChildren (k.table.processes i).pid }
  let k := (k.releaseStream i .stdoutPipe).releaseStream i .stdinPipe
  let k := (k.releaseStream i .stdoutNode).releaseStream i .stdinNode
  let k := k.closeUserFiles i
  let k := { k with table := k.table.modify i fun p => { p with exitStatus := status, state := .zombie } }
  if (k.table.processes i).autoReap then { k with table := k.table.release i } else k

def reap : Kernel n :=
  if (k.table.processes i).state = .zombie then { k with table := k.table.release i } else k

end Kernel

/-! ## Runs -/

inductive DescriptorOp (n : Nat)
  | processLaunch (caller : Option (Fin n)) (task : Bool)
  | sysOpen (i : Fin n) (resolved : Option NodeId)
  | sysCreate (i : Fin n) (created : Option NodeId)
  | sysPipe (i : Fin n) (valid : Bool) (cell : Option (PipeId × (Fin pipeBufSize → UInt8)))
  | sysDup (i : Fin n) (oldfd : Int)
  | sysDup2 (i : Fin n) (oldfd newfd : Int)
  | sysClose (i : Fin n) (fd : Int)
  | processFork (i : Fin n) (task : Bool)
  | processRedirect (pid : Int) (outNode : Option NodeId) (outOffset : UInt32) (inNode : Option NodeId)
  | processFinishExit (i : Fin n) (status : Int)
  | reap (i : Fin n)

namespace DescriptorOp
variable {n : Nat}

def actor : DescriptorOp n → Option (Fin n)
  | .processLaunch caller _ => caller
  | .sysOpen i _ | .sysCreate i _ | .sysPipe i _ _ | .sysDup i _ | .sysDup2 i _ _ | .sysClose i _ => some i
  | .processFork i _ | .processFinishExit i _ => some i
  | .processRedirect _ _ _ _ | .reap _ => none

def perform (k : Kernel n) : DescriptorOp n → Kernel n
  | .processLaunch caller task => (k.processLaunch caller task).2
  | .sysOpen i resolved => (k.sysOpen i resolved).2
  | .sysCreate i created => (k.sysCreate i created).2
  | .sysPipe i valid cell => (k.sysPipe i valid cell).2
  | .sysDup i oldfd => (k.sysDup i oldfd).2
  | .sysDup2 i oldfd newfd => (k.sysDup2 i oldfd newfd).2
  | .sysClose i fd => (k.sysClose i fd).2
  | .processFork i task => (k.processFork i task).2
  | .processRedirect pid outNode outOffset inNode => k.processRedirect pid outNode outOffset inNode
  | .processFinishExit i status => k.processFinishExit i status
  | .reap i => k.reap i

end DescriptorOp

def Kernel.step {n : Nat} (k : Kernel n) (op : DescriptorOp n) : Kernel n :=
  if ∀ i ∈ op.actor, (k.table.processes i).state = .running then op.perform k else k

def Kernel.run {n : Nat} (k : Kernel n) (ops : List (DescriptorOp n)) : Kernel n := ops.foldl Kernel.step k

end SystemsLab.MiniOs
