import SystemsLab.Tcp.Congestion
import SystemsLab.Tcp.Reassembly
import SystemsLab.Tcp.Segment

/-!
# One connection

`TcpConnection` of `tcp.rs`. A call returns the connection after it and the segments it hands to the serialiser.
-/

namespace SystemsLab.Tcp

def maxRetransmits : Nat := 12

def timeWaitMs : Nat := 2000

def persistIntervalMs : Nat := 500

def sndBufferCapacity : Nat := 262144

inductive TcpState
  | closed
  | listen
  | synSent
  | synReceived
  | established
  | finWait1
  | finWait2
  | closeWait
  | closing
  | lastAck
  | timeWait
deriving DecidableEq, Repr

structure SocketAddrV4 where
  ip : Ipv4Address
  port : UInt16
deriving DecidableEq, Repr

structure TcpStats where
  bytesSent : Nat := 0
  bytesReceived : Nat := 0
  segmentsSent : Nat := 0
  segmentsReceived : Nat := 0
  retransmissions : Nat := 0
  duplicateAcks : Nat := 0
  fastRetransmits : Nat := 0
  timeouts : Nat := 0
  invalidSegments : Nat := 0
  zeroWindowProbes : Nat := 0
  sackBlocksReceived : Nat := 0
  sackBlocksSent : Nat := 0
  pawsDiscards : Nat := 0
deriving DecidableEq, Repr

@[ext]
structure RetransmitSegment where
  seqNum : Seq
  endSeq : Seq
  flags : TcpFlags
  payload : List UInt8
  firstSentMs : Nat
  lastSentMs : Nat
  retransmits : Nat
  sacked : Bool
deriving DecidableEq, Repr

@[ext]
structure TcpConnection where
  localAddr : SocketAddrV4
  remote : SocketAddrV4
  state : TcpState
  sndUna : Seq
  sndNxt : Seq
  sndWnd : UInt16
  rcvNxt : Seq
  rcvWnd : UInt16
  rcvCapacity : Nat
  peerMss : UInt16
  localMss : UInt16
  rxBuffer : List UInt8
  txBuffer : List UInt8
  oooQueue : List Parked
  oooSegments : List Parked
  retransmitQueue : List RetransmitSegment
  congestion : CongestionControl
  rtt : RttEstimator
  stats : TcpStats
  currentTimeMs : Nat
  timeWaitEnteredMs : Option Nat
  finSent : Bool
  finReceived : Bool
  closeRequested : Bool
  aborted : Bool
  persistDeadlineMs : Option Nat
  lastAdvertisedWnd : UInt16
  sackPermitted : Bool
  peerSackPermitted : Bool
  tsEnabled : Bool
  tsRecent : Seq
  lastTsAck : Seq
  lastAckSent : Seq
deriving DecidableEq, Repr

namespace TcpConnection

/-! ## Construction -/

/-- The record that `new_server` and `new_client` share. -/
def fresh (state : TcpState) (localAddr remote : SocketAddrV4) (isn : Seq) : TcpConnection where
  localAddr := localAddr
  remote := remote
  state := state
  sndUna := isn
  sndNxt := isn
  sndWnd := 65535
  rcvNxt := 0
  rcvWnd := 65535
  rcvCapacity := 65535
  peerMss := 1460
  localMss := 1460
  rxBuffer := []
  txBuffer := []
  oooQueue := []
  oooSegments := []
  retransmitQueue := []
  congestion := CongestionControl.new 1460
  rtt := RttEstimator.new
  stats := {}
  currentTimeMs := 0
  timeWaitEnteredMs := none
  finSent := false
  finReceived := false
  closeRequested := false
  aborted := false
  persistDeadlineMs := none
  lastAdvertisedWnd := 65535
  sackPermitted := false
  peerSackPermitted := false
  tsEnabled := false
  tsRecent := 0
  lastTsAck := 0
  lastAckSent := 0

def newServer : SocketAddrV4 → SocketAddrV4 → Seq → TcpConnection := fresh .listen

def newClient : SocketAddrV4 → SocketAddrV4 → Seq → TcpConnection := fresh .closed

/-! ## Building segments -/

variable (c : TcpConnection) (seg : TcpSegment) (now : Nat)

def segment (seqNum ackNum : Seq) (flags : TcpFlags) (window : UInt16) (options : List TcpOption)
    (payload : List UInt8) : TcpSegment where
  srcPort := c.localAddr.port
  dstPort := c.remote.port
  seqNum := seqNum
  ackNum := ackNum
  flags := flags
  windowSize := window
  options := options
  payload := payload

/-- `now_ms as u32`. -/
def clock32 : Seq := BitVec.ofNat 32 now

def currentRcvWnd : UInt16 := UInt16.ofNat (min (c.rcvCapacity - c.rxBuffer.length) 65535)

def pushBlock (blocks : List (Seq × Seq)) (e : Parked) : List (Seq × Seq) :=
  match blocks.getLast? with
  | some last => if last.2 = e.1 then blocks.dropLast ++ [(last.1, e.stop)] else blocks ++ [(e.1, e.stop)]
  | none => [(e.1, e.stop)]

def buildSackBlocks : List (Seq × Seq) := (c.oooSegments.foldl pushBlock []).take 4

def sackBlocks : List (Seq × Seq) :=
  if c.sackPermitted ∧ c.oooSegments ≠ [] then c.buildSackBlocks else []

def replyOptions (val : Seq) : List TcpOption :=
  (if c.sackBlocks = [] then [] else [.sack c.sackBlocks]) ++
    (if c.tsEnabled then [.timestamp val c.tsRecent] else [])

def buildAck : TcpConnection × TcpSegment :=
  ({ c with
      stats := { c.stats with
        segmentsSent := c.stats.segmentsSent + 1
        sackBlocksSent := c.stats.sackBlocksSent + c.sackBlocks.length }
      lastAckSent := c.rcvNxt
      lastAdvertisedWnd := c.currentRcvWnd },
    c.segment c.sndNxt c.rcvNxt .ackOnly c.currentRcvWnd (c.replyOptions (clock32 c.currentTimeMs)) [])

/-! ## The send side -/

def trackForRetransmit (seq : Seq) (len : Nat) (flags : TcpFlags) (payload : List UInt8) (now : Nat) :
    TcpConnection :=
  { c with
    retransmitQueue := c.retransmitQueue ++
      [⟨seq, ahead seq len, flags, payload, now, now, 0, false⟩]
    congestion := c.congestion.recordSent len }

def sampleOf (rtt : RttEstimator) (e : RetransmitSegment) : RttEstimator :=
  if e.retransmits = 0 then rtt.updateSample (max (f64 ((now - e.firstSentMs : Nat) : ℚ)) 1) else rtt

def retireAcked (ackNum : Seq) (now : Nat) : TcpConnection :=
  { c with
    rtt := (c.retransmitQueue.filter fun e => seqLe e.endSeq ackNum).foldl (sampleOf now) c.rtt
    retransmitQueue := c.retransmitQueue.filter fun e => !seqLe e.endSeq ackNum }

def sendChunk (n : Nat) (flags : TcpFlags) (now : Nat) : TcpConnection × TcpSegment :=
  let chunk := c.txBuffer.take n
  ({ c with
      txBuffer := c.txBuffer.drop n
      sndNxt := ahead c.sndNxt chunk.length
      lastAdvertisedWnd := c.currentRcvWnd
      lastAckSent := c.rcvNxt
      stats := { c.stats with
        bytesSent := c.stats.bytesSent + chunk.length
        segmentsSent := c.stats.segmentsSent + 1 } }.trackForRetransmit c.sndNxt chunk.length flags chunk now,
    c.segment c.sndNxt c.rcvNxt flags c.currentRcvWnd [] chunk)

/-- Marks the first entry of the queue that is not sacked as sent once more, and returns it as it was. -/
def touchOldest (now : Nat) : List RetransmitSegment → Option (RetransmitSegment × List RetransmitSegment)
  | [] => none
  | e :: es =>
    if e.sacked then (touchOldest now es).map fun r => (r.1, e :: r.2)
    else some (e, { e with lastSentMs := now, retransmits := e.retransmits + 1 } :: es)

def retransmitOldest (fast : Bool) : TcpConnection × Option TcpSegment :=
  match touchOldest now c.retransmitQueue with
  | none => (c, none)
  | some (oldest, queue) =>
    if maxRetransmits ≤ oldest.retransmits then (c, none)
    else
      let options :=
        if oldest.flags.syn then .mss c.localMss :: if c.sackPermitted then [.sackPermitted] else []
        else c.replyOptions (clock32 now)
      ({ c with
          retransmitQueue := queue
          stats := { c.stats with
            retransmissions := c.stats.retransmissions + 1
            segmentsSent := c.stats.segmentsSent + 1
            fastRetransmits := c.stats.fastRetransmits + if fast then 1 else 0 } },
        some (c.segment oldest.seqNum c.rcvNxt oldest.flags c.currentRcvWnd options oldest.payload))

def emitFin : TcpConnection × Option TcpSegment :=
  let close (next : TcpState) : TcpConnection × Option TcpSegment :=
    ({ c with
        state := next
        sndNxt := ahead c.sndNxt 1
        finSent := true
        lastAckSent := c.rcvNxt
        stats := { c.stats with segmentsSent := c.stats.segmentsSent + 1 } }.trackForRetransmit c.sndNxt 1
          .finAck [] now,
      some (c.segment c.sndNxt c.rcvNxt .finAck c.currentRcvWnd [] []))
  if c.finSent then (c, none)
  else
    match c.state with
    | .established => close .finWait1
    | .closeWait => close .lastAck
    | _ => (c, none)

/-! ## The receive side -/

def inbound : Inbound := ⟨c.rcvNxt, c.rxBuffer, c.stats.bytesReceived, c.oooSegments⟩

/-- The entries of a `BTreeMap` after an insertion, in the order of their keys. -/
def btreeInsert (e : Parked) : List Parked → List Parked
  | [] => [e]
  | q :: qs =>
    if e.1.toNat < q.1.toNat then e :: q :: qs
    else if e.1 = q.1 then e :: qs
    else q :: btreeInsert e qs

/-- `sync_legacy_ooo_view`. -/
def legacyView (segments : List Parked) : List Parked := segments.foldl (fun m e => btreeInsert e m) []

def withInbound (r : Inbound) : TcpConnection :=
  { c with
    rcvNxt := r.rcvNxt
    rxBuffer := r.rxBuffer
    stats := { c.stats with bytesReceived := r.bytesReceived }
    oooSegments := r.oooSegments
    oooQueue := legacyView r.oooSegments }

/-- Cuts off what lies before `rcv_nxt`; nothing is left of a segment that lies there as a whole. -/
def trimLeft (seq : Seq) (payload : List UInt8) : Option Parked :=
  if payload = [] then none
  else if seqLe (ahead seq payload.length) c.rcvNxt then none
  else if seqLt seq c.rcvNxt then
    let offset := (seqDiff c.rcvNxt seq).toNat
    if payload.length ≤ offset then none else some (c.rcvNxt, payload.drop offset)
  else some (seq, payload)

def clipRight (e : Parked) : Option Parked :=
  let window := c.currentRcvWnd.toNat
  let offset := (seqDiff e.1 c.rcvNxt).toNat
  if window = 0 then none
  else if window ≤ offset then none
  else
    let payload := e.2.take (window - offset)
    if payload = [] then none else some (e.1, payload)

def acceptData (seq : Seq) (payload : List UInt8) : TcpConnection :=
  match (c.trimLeft seq payload).bind c.clipRight with
  | none => c
  | some e =>
    if e.1 = c.rcvNxt then c.withInbound (c.inbound.deliver e.2).drainOoo
    else c.withInbound (c.inbound.bufferOoo e)

/-! ## The application's calls -/

def write (data : List UInt8) : TcpConnection × Nat :=
  let accepted := min (sndBufferCapacity - c.txBuffer.length) data.length
  ({ c with txBuffer := c.txBuffer ++ data.take accepted }, accepted)

def read (n : Nat) : TcpConnection × List UInt8 :=
  if c.rxBuffer = [] then (c, [])
  else
    let c' := { c with rxBuffer := c.rxBuffer.drop n }
    ({ c' with rcvWnd := c'.currentRcvWnd }, c.rxBuffer.take n)

def initiateSynAt : TcpConnection × TcpSegment :=
  let options := [.mss c.localMss, .sackPermitted] ++ if c.tsEnabled then [.timestamp (clock32 now) 0] else []
  ({ c with
      currentTimeMs := now
      state := .synSent
      sndNxt := ahead c.sndNxt 1
      stats := { c.stats with segmentsSent := c.stats.segmentsSent + 1 } }.trackForRetransmit c.sndNxt 1
        .synOnly [] now,
    c.segment c.sndNxt 0 .synOnly c.currentRcvWnd options [])

def initiateCloseAt : TcpConnection × Option TcpSegment :=
  if c.state = .established ∨ c.state = .closeWait then
    let c := { c with currentTimeMs := now, closeRequested := true }
    if c.txBuffer = [] then c.emitFin now else (c, none)
  else ({ c with currentTimeMs := now }, none)

/-! ## Inbound segments: options, timestamps, resets -/

def markSacked (block : Seq × Seq) (e : RetransmitSegment) : RetransmitSegment :=
  if seqGe e.seqNum block.1 && seqLe e.endSeq block.2 then { e with sacked := true } else e

def applyOption (r : TcpConnection × Option (Seq × Seq)) : TcpOption → TcpConnection × Option (Seq × Seq)
  | .mss m => ({ r.1 with peerMss := m, congestion := { r.1.congestion with mss := m.toNat } }, r.2)
  | .sackPermitted => ({ r.1 with peerSackPermitted := true, sackPermitted := true }, r.2)
  | .sack blocks =>
    ({ r.1 with
        stats := { r.1.stats with sackBlocksReceived := r.1.stats.sackBlocksReceived + blocks.length }
        retransmitQueue := r.1.retransmitQueue.map fun e => blocks.foldl (fun e b => markSacked b e) e }, r.2)
  | .timestamp val ecr => (r.1, some (val, ecr))
  | _ => r

/-- What happens before the state is looked at: the clock, the count and the options. -/
def inspect : TcpConnection × Option (Seq × Seq) :=
  seg.options.foldl applyOption
    ({ c with currentTimeMs := now, stats := { c.stats with segmentsReceived := c.stats.segmentsReceived + 1 } },
      none)

def synchronized : Bool := !(c.state = .closed || c.state = .listen || c.state = .synSent)

def negotiate (ts : Option (Seq × Seq)) : TcpConnection :=
  if seg.flags.syn && !c.synchronized then
    match ts with
    | some (tsval, _) => { c with tsEnabled := true, tsRecent := tsval, lastAckSent := ahead seg.seqNum 1 }
    | none => { c with tsEnabled := false }
  else c

def intake : TcpConnection × Option (Seq × Seq) :=
  let r := c.inspect seg now
  let c := r.1.negotiate seg r.2
  (c, if c.tsEnabled then r.2 else none)

def pawsRejects : Option (Seq × Seq) → Bool
  | some (tsval, _) => c.synchronized && !seg.flags.rst && !seg.flags.syn && seqLt tsval c.tsRecent
  | none => false

def recordTimestamp : Option (Seq × Seq) → TcpConnection
  | some (tsval, ecr) =>
    let sample := (clock32 now).toNat - ecr.toNat
    { c with
      tsRecent := if seqGe tsval c.tsRecent && seqLe seg.seqNum c.lastAckSent then tsval else c.tsRecent
      lastTsAck := ecr
      rtt := if ecr ≠ 0 ∧ 0 < sample then c.rtt.updateSample (f64 (sample : ℚ)) else c.rtt }
  | none => c

def rstAcceptable : Bool :=
  match c.state with
  | .synSent => seg.flags.ack && seg.ackNum = c.sndNxt
  | .listen | .closed => false
  | _ =>
    let window := max c.currentRcvWnd.toNat 1
    seqGe seg.seqNum c.rcvNxt && seqLt seg.seqNum (ahead c.rcvNxt window)

def countInvalid : TcpConnection :=
  { c with stats := { c.stats with invalidSegments := c.stats.invalidSegments + 1 } }

def handleRst : TcpConnection :=
  if c.rstAcceptable seg then
    { c with state := .closed, retransmitQueue := [], txBuffer := [], oooSegments := [], oooQueue := [] }
  else c.countInvalid

/-! ## Inbound segments: one handler for each state -/

def takeAck (ackNum : Seq) (now : Nat) : TcpConnection :=
  { c with
    sndUna := ackNum
    congestion := c.congestion.onAck (seqDiff ackNum c.sndUna).toNat }.retireAcked ackNum now

def reply (seq : Seq) (flags : TcpFlags) (options : List TcpOption) : TcpConnection × TcpSegment :=
  ({ c with
      lastAckSent := c.rcvNxt
      stats := { c.stats with segmentsSent := c.stats.segmentsSent + 1 } },
    c.segment seq c.rcvNxt flags c.currentRcvWnd options [])

def onListen : TcpConnection × Option TcpSegment :=
  if seg.flags.syn then
    let c := { c with rcvNxt := ahead seg.seqNum 1, sndWnd := seg.windowSize, state := .synReceived }
    let options := .mss c.localMss :: ((if c.peerSackPermitted then [.sackPermitted] else []) ++
      if c.tsEnabled then [.timestamp (clock32 now) c.tsRecent] else [])
    let r := c.reply c.sndNxt .synAck options
    ({ r.1 with sndNxt := ahead c.sndNxt 1 }.trackForRetransmit c.sndNxt 1 .synAck [] now, some r.2)
  else (c, none)

def onSynSent : TcpConnection × Option TcpSegment :=
  if seg.flags.syn && seg.flags.ack then
    if seg.ackNum = c.sndNxt then
      let c := { c with rcvNxt := ahead seg.seqNum 1, sndWnd := seg.windowSize, state := .established }
      let r := (c.takeAck seg.ackNum now).reply c.sndNxt .ackOnly []
      (r.1, some r.2)
    else (c, none)
  else if seg.flags.syn then
    -- Simultaneous open. The SYN-ACK carries `snd_nxt`, one past the SYN it repeats.
    let r := { c with rcvNxt := ahead seg.seqNum 1, state := .synReceived }.reply c.sndNxt .synAck []
    (r.1, some r.2)
  else (c, none)

def onSynReceived : TcpConnection × Option TcpSegment :=
  if seg.flags.ack && seg.ackNum = c.sndNxt then
    let c := { c with sndWnd := seg.windowSize, state := .established }.takeAck seg.ackNum now
    if seg.payload = [] then (c, none)
    else
      let r := (c.acceptData seg.seqNum seg.payload).buildAck
      (r.1, some r.2)
  else (c, none)

def ackAcceptable (ackNum : Seq) : Bool := seqGt ackNum c.sndUna && seqLe ackNum c.sndNxt

def isDuplicateAck : Bool :=
  seg.ackNum = c.sndUna && seg.payload = [] && !seg.flags.syn && !seg.flags.fin && c.retransmitQueue ≠ []

def slideWindow : TcpConnection × Option TcpSegment :=
  if !seg.flags.ack then (c, none)
  else if c.ackAcceptable seg.ackNum then ({ c with sndWnd := seg.windowSize }.takeAck seg.ackNum now, none)
  else if c.isDuplicateAck seg then
    let r := c.congestion.onDupAck
    let c := { c with
      sndWnd := seg.windowSize
      stats := { c.stats with duplicateAcks := c.stats.duplicateAcks + 1 }
      congestion := r.1 }
    if r.2 then c.retransmitOldest now true else (c, none)
  else ({ c with sndWnd := seg.windowSize }, none)

def finSeq : Seq := ahead (ahead seg.seqNum (if seg.flags.syn then 1 else 0)) seg.payload.length

def finConsumed : Bool :=
  seg.flags.fin && finSeq seg = c.rcvNxt && !c.finReceived

def consumeFin : TcpConnection :=
  let c := { c with rcvNxt := ahead c.rcvNxt 1, finReceived := true }
  match c.state with
  | .established => { c with state := .closeWait }
  | .finWait1 => { c with state := .closing }
  | .finWait2 => { c with timeWaitEnteredMs := some now, state := .timeWait }
  | _ => c

def advanceClose : TcpConnection :=
  if c.finSent && seqGe c.sndUna c.sndNxt then
    match c.state with
    | .finWait1 => { c with state := .finWait2 }
    | .closing => { c with state := .timeWait, timeWaitEnteredMs := some now }
    | _ => c
  else c

def receive : TcpConnection :=
  let c := if seg.payload = [] then c else c.acceptData seg.seqNum seg.payload
  if c.finConsumed seg then c.consumeFin now else c

/-- Whether the segment took sequence space, seen from before `receive`. -/
def tookSpace : Bool :=
  seg.payload ≠ [] || c.finConsumed seg

/-- `Established`, `FinWait1` and `FinWait2`. -/
def onData : TcpConnection × Option TcpSegment :=
  if seg.flags.ack && seqGt seg.ackNum c.sndNxt then
    -- An acknowledgement of data never sent.
    let r := c.countInvalid.buildAck
    (r.1, some r.2)
  else
    let r := c.slideWindow seg now
    let c := r.1.receive seg now
    if r.1.tookSpace seg && r.2 = none then
      let a := c.buildAck
      (a.1.advanceClose now, some a.2)
    else (c.advanceClose now, r.2)

def onCloseWait : TcpConnection × Option TcpSegment :=
  let c :=
    if seg.flags.ack && c.ackAcceptable seg.ackNum then { c with sndWnd := seg.windowSize }.takeAck seg.ackNum now
      else c
  if seg.flags.fin then
    let r := c.buildAck
    (r.1, some r.2)
  else (c, none)

def onClosing : TcpConnection :=
  if seg.flags.ack && seqGe seg.ackNum c.sndNxt then
    { c.takeAck seg.ackNum now with state := .timeWait, timeWaitEnteredMs := some now }
  else c

def onLastAck : TcpConnection :=
  if seg.flags.ack && seqGe seg.ackNum c.sndNxt then { c.takeAck seg.ackNum now with state := .closed } else c

def onTimeWait : TcpConnection × Option TcpSegment :=
  if seg.flags.fin then
    let r := c.reply c.sndNxt .ackOnly []
    (r.1, some r.2)
  else (c, none)

def dispatch : TcpConnection × Option TcpSegment :=
  match c.state with
  | .listen => c.onListen seg now
  | .synSent => c.onSynSent seg now
  | .synReceived => c.onSynReceived seg now
  | .established | .finWait1 | .finWait2 => c.onData seg now
  | .closeWait => c.onCloseWait seg now
  | .closing => (c.onClosing seg now, none)
  | .lastAck => (c.onLastAck seg now, none)
  | .timeWait => c.onTimeWait seg
  | .closed => (c, none)

def discardOld : TcpConnection × TcpSegment :=
  { c with stats := { c.stats with
      pawsDiscards := c.stats.pawsDiscards + 1
      invalidSegments := c.stats.invalidSegments + 1 } }.buildAck

def handleSegmentAt : TcpConnection × Option TcpSegment :=
  let r := c.intake seg now
  if r.1.pawsRejects seg r.2 then
    let a := r.1.discardOld
    (a.1, some a.2)
  else
    let c := r.1.recordTimestamp seg now r.2
    if seg.flags.rst then (c.handleRst seg, none) else c.dispatch seg now

/-! ## The periodic pump -/

/-- Every round sends at least one byte, so the length of the send buffer bounds the rounds. -/
def transmit : Nat → TcpConnection → Nat → TcpConnection × List TcpSegment
  | 0, c, _ => (c, [])
  | n + 1, c, now =>
    let chunkSize := min (min (c.congestion.sendWindowAvailable c.sndWnd) c.peerMss.toNat) c.txBuffer.length
    if chunkSize = 0 then (c, [])
    else
      let r := c.sendChunk chunkSize { ack := true, psh := true } now
      if r.1.txBuffer = [] then (r.1, [r.2])
      else
        let rest := transmit n r.1 now
        (rest.1, r.2 :: rest.2)

/-- `Established` and `CloseWait`, where new data may go out. -/
def sending : Bool := c.state = .established || c.state = .closeWait

def transmitQueued : TcpConnection × List TcpSegment :=
  if c.sending ∧ c.txBuffer ≠ [] then transmit c.txBuffer.length c now else (c, [])

def deferredClose : TcpConnection × List TcpSegment :=
  if c.closeRequested && !c.finSent && c.txBuffer = [] && c.sending then
    let r := c.emitFin now
    (r.1, r.2.toList)
  else (c, [])

def rtoExpired : Bool :=
  match c.retransmitQueue with
  | [] => false
  | e :: _ => c.rtt.rtoMs ≤ now - e.lastSentMs

def exhausted : Bool :=
  match c.retransmitQueue with
  | [] => false
  | e :: _ => maxRetransmits ≤ e.retransmits

def abort : TcpConnection :=
  { c with aborted := true, state := .closed, retransmitQueue := [], txBuffer := [] }

def onRto : TcpConnection × List TcpSegment :=
  if c.rtoExpired now then
    let r := { c with
      congestion := c.congestion.onTimeout
      rtt := c.rtt.backoff
      stats := { c.stats with timeouts := c.stats.timeouts + 1 } }.retransmitOldest now false
    (r.1, r.2.toList)
  else (c, [])

def windowUpdate : TcpConnection × List TcpSegment :=
  if c.lastAdvertisedWnd < c.localMss && c.localMss ≤ c.currentRcvWnd &&
      !(c.state = .closed || c.state = .timeWait) then
    let r := c.buildAck
    (r.1, [r.2])
  else (c, [])

/-- One byte of real data, sent when the window leaves no room and nothing is in flight. -/
def persist (wasSending : Bool) (now : Nat) : TcpConnection × List TcpSegment :=
  if wasSending && c.txBuffer ≠ [] && c.congestion.sendWindowAvailable c.sndWnd = 0 && c.retransmitQueue = [] then
    match c.persistDeadlineMs with
    | none => ({ c with persistDeadlineMs := some (now + persistIntervalMs) }, [])
    | some due =>
      if due ≤ now then
        let r := { c with
          persistDeadlineMs := some (now + persistIntervalMs)
          stats := { c.stats with zeroWindowProbes := c.stats.zeroWindowProbes + 1 } }.sendChunk 1 .ackOnly now
        (r.1, [r.2])
      else (c, [])
  else ({ c with persistDeadlineMs := none }, [])

def expireTimeWait : TcpConnection :=
  match c.state, c.timeWaitEnteredMs with
  | .timeWait, some entered => if timeWaitMs ≤ now - entered then { c with state := .closed } else c
  | _, _ => c

def andThen (r : TcpConnection × List TcpSegment) (f : TcpConnection → TcpConnection × List TcpSegment) :
    TcpConnection × List TcpSegment :=
  ((f r.1).1, r.2 ++ (f r.1).2)

def sendPhase : TcpConnection × List TcpSegment :=
  andThen (c.transmitQueued now) (deferredClose · now)

def timerPhase (wasSending : Bool) (now : Nat) : TcpConnection × List TcpSegment :=
  let r := andThen (andThen (c.onRto now) windowUpdate) (persist · wasSending now)
  (r.1.expireTimeWait now, r.2)

def setClock : TcpConnection := { c with currentTimeMs := now }

def pollOutput : TcpConnection × List TcpSegment :=
  let c := c.setClock now
  if c.aborted || c.state = .closed then (c, [])
  else
    let sent := c.sendPhase now
    -- The peer is unreachable: abort rather than retransmit for ever.
    if sent.1.rtoExpired now && sent.1.exhausted then (sent.1.abort, sent.2)
    else andThen sent (timerPhase · c.sending now)

def sendDataAt (payload : List UInt8) (now : Nat) : TcpConnection × List TcpSegment :=
  let c := c.setClock now
  if c.state = .established then (c.write payload).1.pollOutput now else (c, [])

end TcpConnection

end SystemsLab.Tcp
