import SystemsLab.MiniOs.Descriptors
import SystemsLab.MiniOs.UserMemory

/-!
# System calls on user buffers

The threads of one process in the calls that take a buffer. It is checked when a call starts; then the call goes on
byte by byte and may sleep, and only then another thread runs. What files hold, which children have exited and what
other processes do is left open.

A thread remembers which pages were unmapped since its call began.
-/

namespace SystemsLab.MiniOs

/-- `KEYBOARD_BUFFER_SIZE`; one place stays empty. -/
def keyboardBufferSize : Nat := 128

/-- A call that has passed its checks, with what is left of it to do. -/
inductive Job
  | pipeRead (p : PipeId) (buffer len got : Nat)
  | pipeWrite (p : PipeId) (buffer len put : Nat)
  | keyboardRead (buffer count got : Nat)
  /-- Bytes the kernel has for the user. -/
  | copyOut (buffer : Nat) (bytes : List UInt8)
  /-- Bytes the kernel takes from the user. -/
  | copyIn (buffer count : Nat)
  | waitpid (status : Nat)

structure Thread where
  job : Option (Job) := none
  asleep : Bool := false
  unmapped : List (Fin 1024) := []

structure Calls (m w : Nat) where
  paging : Paging m
  space : Fin m
  memory : MemoryMap
  streams : Streams
  openFiles : Fin maxOpenFiles → OpenFile
  /-- Whether the memory of a pipe has been freed is not followed here. -/
  pipes : PipeId → Pipe
  keyboard : List UInt8
  threads : Fin w → Option (Thread)

def int32Bytes (v : Int) : List UInt8 :=
  let u := (v % 2 ^ 32).toNat
  [.ofNat u, .ofNat (u / 2 ^ 8), .ofNat (u / 2 ^ 16), .ofNat (u / 2 ^ 24)]

inductive UserCall (m w : Nat)
  | read (buffer count : Nat) (contents : List UInt8)
  | write (buffer count : Nat) (room : Nat)
  | readFile (fd : Int) (buffer count : Nat) (contents : List UInt8)
  /-- `room` is what the file takes, if it can be written at all. -/
  | writeFile (fd : Int) (buffer count : Nat) (room : Option Nat)
  /-- `exited` is the status of a child that can be reaped at once. -/
  | waitpid (status : Nat) (nohang : Bool) (exited : Option Int)
  | pipe (fds : Nat) (p : PipeId) (rfd wfd : Int)
  | mmap (npages : Nat)
  | munmap (addr npages : Nat)
  | sbrk (increment : Int)
  | shm
  | fork (child : Fin m)
  | exec (image : Fin m) (heapBase : Nat)
  | threadCreate (T : Fin w)
  | exit
  /-- Calls on descriptors that touch no user buffer. -/
  | descriptors (streams : Streams) (openFiles : Fin maxOpenFiles → OpenFile)
  /-- The program itself reads or writes an address. -/
  | touch (write : Bool) (addr : Nat)

inductive CallEvent (m w : Nat)
  | call (T : Fin w) (c : UserCall m w)
  | go (T : Fin w)
  /-- `process_waitpid` returns; a status if a child was reaped. -/
  | waited (T : Fin w) (status : Option Int)
  | killed (T : Fin w)
  | key (c : UInt8)
  /-- Other processes use the pipe. -/
  | pipe (p : PipeId) (contents : Pipe)
  | other (op : PagingOp m)

/-- The operation leaves the tables of space `n` alone. -/
def PagingOp.Avoids {m : Nat} (active : Option (Fin m)) (n : Fin m) : PagingOp m → Prop
  | .create child => child ≠ n
  | .clone parent child => parent ≠ some n ∧ child ≠ n
  | .destroy k | .map k _ | .unmap k _ => k ≠ n
  | .activate _ => True
  | .share _ | .write _ _ => active ≠ some n

instance {m : Nat} (active : Option (Fin m)) (n : Fin m) : ∀ op : PagingOp m, Decidable (op.Avoids active n)
  | .create child => inferInstanceAs (Decidable (child ≠ n))
  | .clone parent child => inferInstanceAs (Decidable (parent ≠ some n ∧ child ≠ n))
  | .destroy k | .map k _ | .unmap k _ => inferInstanceAs (Decidable (k ≠ n))
  | .activate _ => inferInstanceAs (Decidable True)
  | .share _ | .write _ _ => inferInstanceAs (Decidable (active ≠ some n))

instance {m : Nat} : ∀ op : PagingOp m, Decidable op.InWindow
  | .map _ vaddr | .share vaddr => inferInstanceAs (Decidable (vaddr < 0x400000 → userLoadBase ≤ vaddr))
  | .create _ | .clone _ _ | .destroy _ | .activate _ | .unmap _ _ | .write _ _ => inferInstanceAs (Decidable True)

def Thread.busy (t : Thread) : Bool := t.job.isSome && !t.asleep

namespace Calls
variable {m w : Nat} (k : Calls m w) (T : Fin w)

def setThread (t : Option (Thread)) : Calls m w :=
  { k with threads := Function.update k.threads T t }

def onPaging (f : Paging m → Paging m) : Calls m w := { k with paging := f k.paging }

def setPipe (p : PipeId) (pipe : Pipe) : Calls m w := { k with pipes := Function.update k.pipes p pipe }

def enter : Calls m w := k.onPaging (·.activateAddressSpace (some k.space))

/-- The call goes on with `job`, unless it returns at once. -/
def start (job : Job) : Calls m w := k.setThread T (some { job := some job })

def ret : Calls m w := k.setThread T (some {})

/-! ## Starting a call -/

/-- `pipe_read` takes a reference and goes on. -/
def startPipeRead (p : PipeId) (buffer len : Nat) : Calls m w :=
  if buffer = 0 ∨ len = 0 then k
  else (k.setPipe p { k.pipes p with readers := (k.pipes p).readers + 1 }).start T (.pipeRead p buffer len 0)

def startPipeWrite (p : PipeId) (buffer len : Nat) : Calls m w :=
  if buffer = 0 ∨ len = 0 then k
  else (k.setPipe p { k.pipes p with writers := (k.pipes p).writers + 1 }).start T (.pipeWrite p buffer len 0)

def sysRead (buffer count : Nat) (contents : List UInt8) : Calls m w :=
  if !k.paging.userBufferValid buffer count then k
  else
    match k.streams.stdinPipe, k.streams.stdinNode with
    | some p, _ => k.startPipeRead T p buffer count
    | none, some _ => k.start T (.copyOut buffer (contents.take count))
    | none, none => if buffer = 0 ∨ count = 0 then k else k.start T (.keyboardRead buffer count 0)

def sysWrite (buffer count room : Nat) : Calls m w :=
  if !k.paging.userBufferValid buffer count then k
  else
    match k.streams.stdoutPipe, k.streams.stdoutNode with
    | some p, _ => k.startPipeWrite T p buffer count
    | none, some _ => k.start T (.copyIn buffer (min count room))
    | none, none => k.start T (.copyIn buffer count)

def sysReadFile (fd : Int) (buffer count : Nat) (contents : List UInt8) : Calls m w :=
  match Kernel.userFdIndex fd with
  | none => k
  | some i =>
    if !k.paging.userBufferValid buffer count then k
    else
      match k.openFiles i with
      | .pipeR p => k.startPipeRead T p buffer count
      | .file _ _ => k.start T (.copyOut buffer (contents.take count))
      | _ => k

def sysWriteFile (fd : Int) (buffer count : Nat) (room : Option Nat) : Calls m w :=
  match Kernel.userFdIndex fd with
  | none => k
  | some i =>
    if !k.paging.userBufferValid buffer count then k
    else
      match k.openFiles i, room with
      | .pipeW p, _ => k.startPipeWrite T p buffer count
      | .file _ _, some room => k.start T (.copyIn buffer (min count room))
      | _, _ => k

/-- What `sys_waitpid` does with a status. -/
def waited (t : Thread) (status : Nat) (exited : Option Int) : Calls m w :=
  match exited with
  | some v =>
    if status = 0 then k.ret T else k.setThread T
      (some { t with job := some (.copyOut status (int32Bytes v)), asleep := false })
  | none => k.ret T

def sysWaitpid (status : Nat) (nohang : Bool) (exited : Option Int) : Calls m w :=
  if status ≠ 0 ∧ !k.paging.userBufferValid status 4 then k
  else if exited.isSome || nohang then k.waited T {} status exited
  else k.setThread T (some { job := some (.waitpid status), asleep := true })

def sysPipe (fds : Nat) (p : PipeId) (rfd wfd : Int) : Calls m w :=
  if !k.paging.userBufferValid fds 8 then k
  else (k.setPipe p { buf := (k.pipes p).buf }).start T (.copyOut fds (int32Bytes rfd ++ int32Bytes wfd))

/-! ## Calls that change the address space -/

def sysMmap (npages : Nat) : Calls m w := { k with memory := (k.memory.extAlloc npages).2 }

def extRange (addr npages : Nat) : List (Fin 1024) :=
  (List.finRange 1024).filter fun i => (addr - userExtBase) / 4096 ≤ i ∧ i < (addr - userExtBase) / 4096 + npages

def sysMunmap (addr npages : Nat) : Calls m w :=
  match k.memory.extFree addr npages with
  | none => k
  | some memory =>
    { k with
      memory
      paging := (List.range npages).foldl (fun s i => s.unmapUserPage k.space (addr + i * 4096)) k.paging
      threads := fun T => (k.threads T).map fun t => { t with unmapped := extRange addr npages ++ t.unmapped } }

def touch (write : Bool) (addr : Nat) : Calls m w :=
  if k.paging.userReaches write addr then k
  else
    match k.paging.pageFault k.memory write addr with
    | (true, s) => { k with paging := s }
    | (false, s) => ({ k with paging := s } : Calls m w).setThread T none

/-- `process_exec_reset`, which refuses while there are other threads. -/
def sysExec (image : Fin m) (heapBase : Nat) : Calls m w :=
  if (∀ T', T' ≠ T → k.threads T' = none) ∧ image ≠ k.space ∧ (k.paging.spaces image).isSome ∧
    userLoadBase ≤ heapBase then
    { k with
      paging := (k.paging.activateAddressSpace (some image)).destroyUserAddressSpace k.space
      space := image
      memory := ⟨heapBase, heapBase, fun _ => false⟩ }
  else k

instance (o : Option (Thread)) : Decidable (o = none) := decidable_of_iff o.isNone Option.isNone_iff_eq_none

def perform : UserCall m w → Calls m w
  | .read buffer count contents => k.sysRead T buffer count contents
  | .write buffer count room => k.sysWrite T buffer count room
  | .readFile fd buffer count contents => k.sysReadFile T fd buffer count contents
  | .writeFile fd buffer count room => k.sysWriteFile T fd buffer count room
  | .waitpid status nohang exited => k.sysWaitpid T status nohang exited
  | .pipe fds p rfd wfd => k.sysPipe T fds p rfd wfd
  | .mmap npages => k.sysMmap npages
  | .munmap addr npages => k.sysMunmap addr npages
  | .sbrk increment => { k with memory := k.memory.sbrk increment }
  | .shm => k.onPaging fun s => (s.sharePage userShmBase).2
  | .fork child => if k.paging.spaces child = none then
    k.onPaging fun s => (s.cloneAddressSpace (some k.space) child).2 else k
  | .exec image heapBase => k.sysExec T image heapBase
  | .threadCreate T' => if k.threads T' = none then k.ret T' else k
  | .exit => k.setThread T none
  | .descriptors streams openFiles => { k with streams, openFiles }
  | .touch write addr => k.touch T write addr

/-! ## Going on with a call -/

def ringIndex (pos : Nat) : Fin pipeBufSize := ⟨pos % pipeBufSize, Nat.mod_lt _ (by decide)⟩

inductive Act
  | sleep
  | finish
  | store (addr : Nat) (v : UInt8) (next : Job)
  | load (addr : Nat) (next : Job)

def next : Job → Act
  | .pipeRead p buffer len got =>
    if got = 0 ∧ (k.pipes p).count = 0 ∧ 0 < (k.pipes p).writers then .sleep
    else if got < len ∧ 0 < (k.pipes p).count then
      .store (buffer + got) ((k.pipes p).buf (ringIndex (k.pipes p).readPos)) (.pipeRead p buffer len (got + 1))
    else .finish
  | .pipeWrite p buffer len put =>
    if len ≤ put ∨ (k.pipes p).readers = 0 then .finish
    else if (k.pipes p).count = pipeBufSize then .sleep
    else .load (buffer + put) (.pipeWrite p buffer len (put + 1))
  | .keyboardRead buffer count got =>
    match k.keyboard with
    | b :: _ => if got < count then .store (buffer + got) b (.keyboardRead buffer count (got + 1)) else .finish
    | [] => if got = 0 then .sleep else .finish
  | .copyOut buffer bytes =>
    match bytes with
    | b :: bytes => .store buffer b (.copyOut (buffer + 1) bytes)
    | [] => .finish
  | .copyIn buffer count =>
    match count with
    | count + 1 => .load buffer (.copyIn (buffer + 1) count)
    | 0 => .finish
  | .waitpid _ => .sleep

def consume : Job → Calls m w
  | .pipeRead p _ _ _ =>
    let pipe := k.pipes p
    k.setPipe p { pipe with readPos := (pipe.readPos + 1) % pipeBufSize, count := pipe.count - 1 }
  | .keyboardRead _ _ _ => { k with keyboard := k.keyboard.tail }
  | _ => k

def produce (v : UInt8) : Job → Calls m w
  | .pipeWrite p _ _ _ =>
    let pipe := k.pipes p
    k.setPipe p
      { pipe with
        buf := Function.update pipe.buf (ringIndex pipe.writePos) v
        writePos := (pipe.writePos + 1) % pipeBufSize
        count := pipe.count + 1 }
  | _ => k

/-- `pipe_close_read` and `pipe_close_write` for the reference held by the call. -/
def close : Job → Calls m w
  | .pipeRead p _ _ _ => k.setPipe p { k.pipes p with readers := (k.pipes p).readers - 1 }
  | .pipeWrite p _ _ _ => k.setPipe p { k.pipes p with writers := (k.pipes p).writers - 1 }
  | _ => k

def unlessHalted (f : Calls m w → Calls m w) : Calls m w := if k.paging.halted then k else f k

def advance (t : Thread) (job : Job) : Calls m w :=
  match k.next job with
  | .sleep => k.setThread T (some { t with asleep := true })
  | .finish => (k.close job).ret T
  | .store addr v job' =>
    (k.onPaging fun s => s.kernelStore k.memory addr v).unlessHalted fun k =>
      (k.consume job).setThread T (some { t with job := some job' })
  | .load addr job' =>
    (k.onPaging fun s => (s.kernelLoad k.memory addr).2).unlessHalted fun k' =>
      (k'.produce (k.paging.kernelLoad k.memory addr).1 job).setThread T (some { t with job := some job' })

/-! ## Runs -/

def free : Bool := decide (∀ T, ((k.threads T).elim false Thread.busy) = false)

def step (k : Calls m w) (e : CallEvent m w) : Calls m w :=
  if k.paging.halted then k
  else
    match e with
    | .call T c =>
      match k.threads T with
      | some t => if t.job.isNone && k.free then k.enter.perform T c else k
      | none => k
    | .go T =>
      match k.threads T with
      | some t =>
        match t.job with
        | some job =>
          if !t.asleep then k.enter.advance T t job
          else if k.free then k.setThread T (some { t with asleep := false }) else k
        | none => k
      | none => k
    | .waited T status =>
      match k.threads T with
      | some t =>
        match t.job with
        | some (.waitpid addr) => if k.free then k.waited T t addr status else k
        | _ => k
      | none => k
    | .killed T =>
      match k.threads T with
      | some t => if t.asleep && k.free then (t.job.elim k k.close).setThread T none else k
      | none => k
    | .key c =>
      if k.free ∧ k.keyboard.length + 1 < keyboardBufferSize then { k with keyboard := k.keyboard ++ [c] }
      else k
    | .pipe p contents => if k.free then k.setPipe p contents else k
    | .other op =>
      if k.free ∧ op.Avoids k.paging.activeSpace k.space ∧ op.InWindow then k.onPaging fun s => (s.step op).2 else k

def run (l : List (CallEvent m w)) : Calls m w := l.foldl step k

end Calls

end SystemsLab.MiniOs
