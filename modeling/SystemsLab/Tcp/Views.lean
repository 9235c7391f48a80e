import SystemsLab.Tcp.Run

/-!
# The two sides of a connection

What the results about each side speak of. Every step of a call either leaves a view alone or changes it by one of a
few operations.
-/

namespace SystemsLab.Tcp

/-- What the retransmission queue knows of a transmission apart from its marks and times. -/
@[ext]
structure Sent where
  seqNum : Seq
  endSeq : Seq
  flags : TcpFlags
  payload : List UInt8
deriving DecidableEq

def RetransmitSegment.sent (e : RetransmitSegment) : Sent := ⟨e.seqNum, e.endSeq, e.flags, e.payload⟩

@[ext]
structure SendSide where
  una : Seq
  nxt : Seq
  queue : List Sent
  inFlight : Nat
  tx : List UInt8
  bytesSent : Nat
  probes : Nat
  finSent : Bool
deriving DecidableEq

namespace SendSide

variable (s : SendSide)

def ack (a : Seq) : SendSide :=
  { s with
    una := a
    inFlight := s.inFlight - (seqDiff a s.una).toNat
    queue := s.queue.filter fun e => !seqLe e.endSeq a }

def push (len : Nat) (flags : TcpFlags) (payload : List UInt8) : SendSide :=
  { s with
    nxt := ahead s.nxt len
    queue := s.queue ++ [⟨s.nxt, ahead s.nxt len, flags, payload⟩]
    inFlight := (s.inFlight + len) % 2 ^ 32 }

def pushData (n : Nat) (flags : TcpFlags) : SendSide :=
  { s with tx := s.tx.drop n, bytesSent := s.bytesSent + (s.tx.take n).length }.push (s.tx.take n).length flags
    (s.tx.take n)

def pushProbe : SendSide := { s with probes := s.probes + 1 }.pushData 1 .ackOnly

def pushFin : SendSide := { s with finSent := true }.push 1 .finAck []

def clear : SendSide := { s with queue := [], tx := [] }

end SendSide

@[ext]
structure RecvSide where
  rcvNxt : Seq
  rx : List UInt8
  ooo : List Parked
  finReceived : Bool
deriving DecidableEq

/-- What decides the options of a reply, apart from the clock. -/
@[ext]
structure ReplySide where
  sackPermitted : Bool
  ooo : List Parked
  tsEnabled : Bool
  tsRecent : Seq
deriving DecidableEq

def TcpState.opening : TcpState → Bool
  | .listen | .synSent => true
  | _ => false

def TcpState.idle : TcpState → Bool
  | .listen | .synSent | .closed => true
  | _ => false

variable {st st' : TcpState}

def TcpState.Moves (st st' : TcpState) : Prop := st' = st ∨ st' = .closed ∨ st.idle = false ∧ st'.idle = false

namespace TcpState

theorem Moves.refl (st : TcpState) : st.Moves st := .inl rfl

theorem Moves.trans {st₁ st₂ st₃ : TcpState} (h₁ : st₁.Moves st₂) (h₂ : st₂.Moves st₃) : st₁.Moves st₃ := by
  rcases h₂ with rfl | h₂ | ⟨h₂, h₃⟩
  · exact h₁
  · exact .inr (.inl h₂)
  · rcases h₁ with rfl | rfl | ⟨h₁, -⟩
    · exact .inr (.inr ⟨h₂, h₃⟩)
    · cases h₂
    · exact .inr (.inr ⟨h₁, h₃⟩)

theorem Moves.eq_of_opening (h : st.Moves st') (ho : st'.opening = true) : st' = st := by
  rcases h with h | rfl | ⟨-, h⟩
  · exact h
  · cases ho
  · cases st' <;> cases ho <;> cases h

theorem Moves.opening_false (h : st.Moves st') (ho : st.opening = false) : st'.opening = false := by
  rw [← Bool.not_eq_true]
  intro ho'
  rw [h.eq_of_opening ho', ho] at ho'
  cases ho'

theorem Moves.idle (h : st.Moves st') (ho : st.idle = true) : st'.idle = true := by
  rcases h with rfl | rfl | ⟨h, -⟩
  · exact ho
  · rfl
  · rw [ho] at h; cases h

end TcpState

namespace TcpConnection

def sendSide (c : TcpConnection) : SendSide where
  una := c.sndUna
  nxt := c.sndNxt
  queue := c.retransmitQueue.map RetransmitSegment.sent
  inFlight := c.congestion.inFlight
  tx := c.txBuffer
  bytesSent := c.stats.bytesSent
  probes := c.stats.zeroWindowProbes
  finSent := c.finSent

def recvSide (c : TcpConnection) : RecvSide := ⟨c.rcvNxt, c.rxBuffer, c.oooSegments, c.finReceived⟩

def replySide (c : TcpConnection) : ReplySide := ⟨c.sackPermitted, c.oooSegments, c.tsEnabled, c.tsRecent⟩

structure Receiver where
  capacity : Nat
  rcvNxt : Seq
  rx : List UInt8
  ooo : List Parked
  queue : List Parked
  finReceived : Bool
  bytesReceived : Nat

def receiver (c : TcpConnection) : Receiver :=
  ⟨c.rcvCapacity, c.rcvNxt, c.rxBuffer, c.oooSegments, c.oooQueue, c.finReceived, c.stats.bytesReceived⟩

def Receiver.recvSide (r : Receiver) : RecvSide := ⟨r.rcvNxt, r.rx, r.ooo, r.finReceived⟩

/-- What a step that concerns the send side leaves alone. -/
structure KeepsRest (c d : TcpConnection) : Prop where
  receiver : d.receiver = c.receiver
  reply : d.replySide = c.replySide
  aborted : d.aborted = c.aborted
  state : c.state.Moves d.state

theorem KeepsRest.refl (c : TcpConnection) : KeepsRest c c := ⟨rfl, rfl, rfl, .refl _⟩

theorem KeepsRest.trans {c d e : TcpConnection} (h₁ : KeepsRest c d) (h₂ : KeepsRest d e) : KeepsRest c e :=
  ⟨h₂.receiver.trans h₁.receiver, h₂.reply.trans h₁.reply, h₂.aborted.trans h₁.aborted, h₁.state.trans h₂.state⟩

/-! ## Steps that leave the views alone -/

section
variable (c : TcpConnection) (seg : TcpSegment) (now : Nat) (seq : Seq) (payload : List UInt8) (os : List TcpOption)

@[simp] theorem buildAck_state : c.buildAck.1.state = c.state := rfl

@[simp] theorem buildAck_sendSide : c.buildAck.1.sendSide = c.sendSide := rfl

@[simp] theorem buildAck_receiver : c.buildAck.1.receiver = c.receiver := rfl

@[simp] theorem countInvalid_state : c.countInvalid.state = c.state := rfl

@[simp] theorem countInvalid_sendSide : c.countInvalid.sendSide = c.sendSide := rfl

@[simp] theorem reply_sendSide (flags : TcpFlags) (os : List TcpOption) :
    (c.reply seq flags os).1.sendSide = c.sendSide := rfl

theorem sent_markCovered (e : RetransmitSegment) : (markCovered os e).sent = e.sent := rfl

theorem map_sent_markCovered (q : List RetransmitSegment) :
    (q.map (markCovered os)).map RetransmitSegment.sent = q.map RetransmitSegment.sent := by
  rw [List.map_map]
  exact List.map_congr_left fun e _ => sent_markCovered os e

theorem optionsApplied_sendSide : (c.optionsApplied os).sendSide = c.sendSide := by
  simp only [sendSide, optionsApplied, map_sent_markCovered]

theorem touchOldest_sent (now : Nat) :
    ∀ {q : List RetransmitSegment} {r : RetransmitSegment × List RetransmitSegment}, touchOldest now q = some r →
      r.1 ∈ q ∧ r.2.map RetransmitSegment.sent = q.map RetransmitSegment.sent
  | [], r, h => by cases h
  | e :: q, r, h => by
    unfold touchOldest at h
    by_cases hs : e.sacked = true
    · simp only [hs, if_true, Option.map_eq_some_iff] at h
      obtain ⟨r', hr', rfl⟩ := h
      obtain ⟨hm, he⟩ := touchOldest_sent now hr'
      exact ⟨List.mem_cons_of_mem e hm, by rw [List.map_cons, List.map_cons, he]⟩
    · simp only [hs, Bool.false_eq_true, if_false, Option.some.injEq] at h
      subst h
      exact ⟨List.mem_cons_self, rfl⟩

theorem retransmitOldest_cases (fast : Bool) :
    (c.retransmitOldest now fast).1.state = c.state ∧ (c.retransmitOldest now fast).1.sendSide = c.sendSide ∧
      KeepsRest c (c.retransmitOldest now fast).1 ∧
      ∀ p, (c.retransmitOldest now fast).2 = some p →
        ∃ e ∈ c.retransmitQueue, p.seqNum = e.seqNum ∧ p.flags = e.flags ∧ p.payload = e.payload ∧
          p.options =
            if e.flags.syn then .mss c.localMss :: (if c.sackPermitted then [.sackPermitted] else [])
            else c.replyOptions (clock32 now) := by
  unfold retransmitOldest
  cases ht : touchOldest now c.retransmitQueue with
  | none => exact ⟨rfl, rfl, .refl c, fun p hp => by cases hp⟩
  | some r =>
    obtain ⟨hm, hq⟩ := touchOldest_sent now ht
    obtain ⟨oldest, queue⟩ := r
    simp only at hm hq ⊢
    split
    · exact ⟨rfl, rfl, .refl c, fun p hp => by cases hp⟩
    · refine ⟨rfl, ?_, ⟨rfl, rfl, rfl, .inl rfl⟩, ?_⟩
      · unfold sendSide
        rw [← hq]
      · intro p hp
        cases hp
        exact ⟨oldest, hm, rfl, rfl, rfl, rfl⟩

theorem acceptData_eq :
    ∃ (r : Inbound) (view : List Parked), c.acceptData seq payload =
      { c with
        rcvNxt := r.rcvNxt
        rxBuffer := r.rxBuffer
        stats := { c.stats with bytesReceived := r.bytesReceived }
        oooSegments := r.oooSegments
        oooQueue := view } := by
  unfold acceptData
  split
  · exact ⟨c.inbound, c.oooQueue, rfl⟩
  · split
    · exact ⟨_, _, rfl⟩
    · exact ⟨_, _, rfl⟩

theorem acceptData_receiver {d : TcpConnection} (h : d.receiver = c.receiver) :
    (d.acceptData seq payload).receiver = (c.acceptData seq payload).receiver := by
  have hcap : d.rcvCapacity = c.rcvCapacity := congrArg Receiver.capacity h
  have hfin : d.finReceived = c.finReceived := congrArg Receiver.finReceived h
  have hnext : d.rcvNxt = c.rcvNxt := congrArg Receiver.rcvNxt h
  have hin : d.inbound = c.inbound :=
    congrArg (fun r => (⟨r.rcvNxt, r.rx, r.bytesReceived, r.ooo⟩ : Inbound)) h
  have hwnd : d.currentRcvWnd = c.currentRcvWnd := by
    rw [currentRcvWnd, currentRcvWnd, hcap, show d.rxBuffer = c.rxBuffer from congrArg Receiver.rx h]
  have hfit : (d.trimLeft seq payload).bind d.clipRight = (c.trimLeft seq payload).bind c.clipRight := by
    unfold trimLeft clipRight
    rw [hnext, hwnd]
  unfold acceptData
  rw [hfit, hnext, hin]
  split
  · exact h
  · split <;> simp only [receiver, withInbound, hcap, hfin]

@[simp] theorem acceptData_state : (c.acceptData seq payload).state = c.state := by
  obtain ⟨r, v, h⟩ := c.acceptData_eq seq payload
  rw [h]

@[simp] theorem acceptData_sendSide : (c.acceptData seq payload).sendSide = c.sendSide := by
  obtain ⟨r, v, h⟩ := c.acceptData_eq seq payload
  rw [h]
  rfl

@[simp] theorem acceptData_finReceived : (c.acceptData seq payload).finReceived = c.finReceived := by
  obtain ⟨r, v, h⟩ := c.acceptData_eq seq payload
  rw [h]

@[simp] theorem acceptData_nil : c.acceptData seq [] = c := by
  unfold acceptData trimLeft
  rfl

@[simp] theorem stamped_sendSide : (c.stamped seg now).sendSide = c.sendSide := by
  obtain ⟨r, a, t, h⟩ := stamped_eq c seg now
  rw [h]
  exact (c.counted now).optionsApplied_sendSide seg.options

@[simp] theorem stamped_recvSide : (c.stamped seg now).recvSide = c.recvSide := by
  obtain ⟨r, a, t, h⟩ := stamped_eq c seg now
  rw [h]
  rfl

@[simp] theorem consumeFin_sendSide : (c.consumeFin now).sendSide = c.sendSide := by
  unfold consumeFin
  cases c.state <;> rfl

@[simp] theorem consumeFin_recvSide :
    (c.consumeFin now).recvSide = { c.recvSide with rcvNxt := ahead c.rcvNxt 1, finReceived := true } := by
  unfold consumeFin
  cases c.state <;> rfl

@[simp] theorem advanceClose_sendSide : (c.advanceClose now).sendSide = c.sendSide := by
  unfold advanceClose
  split
  · cases c.state <;> rfl
  · rfl

/-! ## Steps that change the send side -/

@[simp] theorem takeAck_state (a : Seq) : (c.takeAck a now).state = c.state := rfl

@[simp] theorem takeAck_sendSide (a : Seq) : (c.takeAck a now).sendSide = c.sendSide.ack a := by
  have hq : (c.retransmitQueue.filter fun e => !seqLe e.endSeq a).map RetransmitSegment.sent =
      (c.retransmitQueue.map RetransmitSegment.sent).filter fun e => !seqLe e.endSeq a := by
    rw [List.filter_map]
    rfl
  simp only [takeAck, retireAcked, sendSide, SendSide.ack, hq, CongestionControl.onAck_inFlight]

theorem trackForRetransmit_sendSide (len : Nat) (flags : TcpFlags) (payload : List UInt8) :
    (c.trackForRetransmit seq len flags payload now).sendSide =
      { c.sendSide with
        queue := c.sendSide.queue ++ [⟨seq, ahead seq len, flags, payload⟩]
        inFlight := (c.sendSide.inFlight + len) % 2 ^ 32 } := by
  simp [trackForRetransmit, sendSide, CongestionControl.recordSent, RetransmitSegment.sent]

theorem sendChunk_sendSide (n : Nat) (flags : TcpFlags) :
    (c.sendChunk n flags now).1.sendSide = c.sendSide.pushData n flags := by
  unfold sendChunk
  rw [trackForRetransmit_sendSide]
  rfl

end

/-! ## What an inbound segment does to the send side -/

def keeps : TcpState → TcpState → Bool
  | .synSent, .synReceived => true
  | .established, .closeWait => true
  | .finWait1, .finWait2 | .finWait1, .closing | .finWait1, .timeWait => true
  | .finWait2, .timeWait => true
  | s, s' => s = s'

theorem keeps_self (s : TcpState) : keeps s s = true := by cases s <;> rfl

end TcpConnection

open TcpConnection in
/-- The send side over one segment with acknowledgement number `a`; `passes` says that it gets looked at. -/
inductive SendStep (passes : Prop) (a : Seq) : TcpState → SendSide → TcpState → SendSide → Prop
  | keep {st st' s} (h : keeps st st' = true) : SendStep passes a st s st' s
  | opened {st s} (h : st = .synSent ∨ st = .synReceived) (ha : a = s.nxt) :
      SendStep passes a st s .established (s.ack a)
  | ack {st st' s} (h : st = .established ∨ st = .finWait1 ∨ st = .finWait2 ∨ st = .closeWait)
      (hk : keeps st st' = true)
    (ha : seqGt a s.una = true ∧ seqLe a s.nxt = true) : SendStep passes a st s st' (s.ack a)
  | closed {st st' s} (h : st = .closing ∧ st' = .timeWait ∨ st = .lastAck ∧ st' = .closed) (hp : passes)
    (ha : seqGe a s.nxt = true) : SendStep passes a st s st' (s.ack a)
  | listen {s} : SendStep passes a .listen s .synReceived (s.push 1 .synAck [])
  | reset {st s} (h : st ≠ .listen ∧ st ≠ .closed) : SendStep passes a st s .closed s.clear

theorem SendStep.imp {p q : Prop} {a : Seq} {st st' : TcpState} {s s' : SendSide} (h : SendStep p a st s st' s')
    (hpq : p → q) :
    SendStep q a st s st' s' := by
  cases h with
  | keep h => exact .keep h
  | opened h ha => exact .opened h ha
  | ack h hk ha => exact .ack h hk ha
  | closed h hp ha => exact .closed h (hpq hp) ha
  | listen => exact .listen
  | reset h => exact .reset h

namespace TcpConnection

section
variable (c : TcpConnection) (seg : TcpSegment) (now : Nat)

theorem ackAcceptable_iff {a : Seq} :
    c.ackAcceptable a = true ↔ seqGt a c.sendSide.una = true ∧ seqLe a c.sendSide.nxt = true :=
  iff_of_eq (Bool.and_eq_true _ _)

theorem slideWindow_cases :
    (c.slideWindow seg now).1.state = c.state ∧ KeepsRest c (c.slideWindow seg now).1 ∧
      ((c.slideWindow seg now).1.sendSide = c.sendSide ∨
        (c.ackAcceptable seg.ackNum = true ∧ (c.slideWindow seg now).1.sendSide = c.sendSide.ack seg.ackNum)) := by
  unfold slideWindow
  split
  · exact ⟨rfl, .refl c, .inl rfl⟩
  · split
    · rename_i ha
      exact ⟨rfl, ⟨rfl, rfl, rfl, .inl rfl⟩, .inr ⟨ha, takeAck_sendSide _ _ _⟩⟩
    · split
      · simp only
        split
        · obtain ⟨h₁, h₂, h₃, -⟩ := retransmitOldest_cases { c with
            sndWnd := seg.windowSize
            stats := { c.stats with duplicateAcks := c.stats.duplicateAcks + 1 }
            congestion := c.congestion.onDupAck.1 } now true
          refine ⟨h₁, ⟨h₃.receiver, h₃.reply, h₃.aborted, h₃.state⟩, .inl (h₂.trans ?_)⟩
          simp [sendSide]
        · refine ⟨rfl, ⟨rfl, rfl, rfl, .inl rfl⟩, .inl ?_⟩
          simp [sendSide]
      · exact ⟨rfl, ⟨rfl, rfl, rfl, .inl rfl⟩, .inl rfl⟩

theorem slideWindow_answers {p : TcpSegment} (h : (c.slideWindow seg now).2 = some p) :
    seg.payload = [] ∧ seg.flags.fin = false ∧ ∃ d : TcpConnection, d.retransmitQueue = c.retransmitQueue ∧
      d.replySide = c.replySide ∧ (d.retransmitOldest now true).2 = some p := by
  unfold slideWindow at h
  split at h
  · cases h
  · split at h
    · cases h
    · split at h
      · rename_i hd
        simp only [isDuplicateAck, Bool.and_eq_true, Bool.not_eq_true', decide_eq_true_eq] at hd
        refine ⟨hd.1.1.1.2, hd.1.2, ?_⟩
        simp only at h
        split at h
        · refine ⟨_, ?_, ?_, h⟩ <;> rfl
        · cases h
      · cases h

theorem receive_eq :
    c.receive seg now =
      if (c.acceptData seg.seqNum seg.payload).finConsumed seg then
        (c.acceptData seg.seqNum seg.payload).consumeFin now
      else c.acceptData seg.seqNum seg.payload := by
  unfold receive
  by_cases hp : seg.payload = []
  · simp [hp]
  · simp only [hp, if_false]

@[simp] theorem receive_sendSide : (c.receive seg now).sendSide = c.sendSide := by
  rw [receive_eq]
  split <;> simp

section
variable (h : c.state = .established ∨ c.state = .finWait1 ∨ c.state = .finWait2)
include h

theorem consumeFin_keeps :
    (c.consumeFin now).state = .closeWait ∧ c.state = .established ∨
      (c.consumeFin now).state = .closing ∧ c.state = .finWait1 ∨
      (c.consumeFin now).state = .timeWait ∧ c.state = .finWait2 := by
  unfold consumeFin
  rcases h with h | h | h <;> simp [h]

theorem receive_state :
    (c.receive seg now).state = c.state ∨
      (c.receive seg now).state = .closeWait ∧ c.state = .established ∨
      (c.receive seg now).state = .closing ∧ c.state = .finWait1 ∨
      (c.receive seg now).state = .timeWait ∧ c.state = .finWait2 := by
  rw [receive_eq]
  split
  · have := (c.acceptData seg.seqNum seg.payload).consumeFin_keeps now (by simpa using h)
    simp only [acceptData_state] at this
    exact .inr this
  · exact .inl (c.acceptData_state _ _)

end

theorem advanceClose_state :
    (c.advanceClose now).state = c.state ∨ (c.advanceClose now).state = .finWait2 ∧ c.state = .finWait1 ∨
      (c.advanceClose now).state = .timeWait ∧ c.state = .closing := by
  unfold advanceClose
  split
  · cases hs : c.state <;> simp [hs]
  · exact .inl rfl

theorem advanceClose_views :
    (c.advanceClose now).receiver = c.receiver ∧ (c.advanceClose now).replySide = c.replySide := by
  unfold advanceClose
  split
  · cases c.state <;> exact ⟨rfl, rfl⟩
  · exact ⟨rfl, rfl⟩

theorem advanceClose_receive_keeps (h : c.state = .established ∨ c.state = .finWait1 ∨ c.state = .finWait2)
    {d : TcpConnection} (hd : d.state = (c.receive seg now).state) :
    keeps c.state (d.advanceClose now).state = true := by
  have hr := c.receive_state seg now h
  have ha := d.advanceClose_state now
  rw [hd] at ha
  rcases hr with hr | ⟨hr, hc⟩ | ⟨hr, hc⟩ | ⟨hr, hc⟩
  · rcases ha with ha | ⟨ha, hb⟩ | ⟨ha, hb⟩
    · rw [ha, hr]; exact keeps_self _
    · rw [ha, ← hr, hb]; rfl
    · rw [hr] at hb; simp [hb] at h
  · simp only [hr, reduceCtorEq, and_false, or_false] at ha
    rw [ha, hc]; rfl
  · simp only [hr, reduceCtorEq, and_false, and_true, false_or] at ha
    rcases ha with ha | ha <;> rw [ha, hc] <;> rfl
  · simp only [hr, reduceCtorEq, and_false, or_false] at ha
    rw [ha, hc]; rfl

/-! ## Before the state is looked at -/

def taken : TcpConnection := (c.intake seg now).1.recordTimestamp seg now (c.intake seg now).2

theorem negotiate_eq (ts : Option (Seq × Seq)) :
    ∃ (e : Bool) (r a : Seq), c.negotiate seg ts = { c with tsEnabled := e, tsRecent := r, lastAckSent := a } := by
  unfold negotiate
  split
  · cases ts <;> exact ⟨_, _, _, rfl⟩
  · exact ⟨_, _, _, rfl⟩

theorem intake_fst_eq :
    ∃ (e : Bool) (r a : Seq), (c.intake seg now).1 =
      { c.arrived seg now with tsEnabled := e, tsRecent := r, lastAckSent := a } := by
  unfold intake
  rw [inspect_eq]
  exact negotiate_eq _ _ _

theorem taken_eq :
    ∃ (e : Bool) (r a l : Seq) (t : RttEstimator), c.taken seg now =
      { c.arrived seg now with tsEnabled := e, tsRecent := r, lastAckSent := a, lastTsAck := l, rtt := t } := by
  obtain ⟨e, r, a, h⟩ := c.intake_fst_eq seg now
  obtain ⟨r', l, t, h'⟩ := recordTimestamp_eq (c.intake seg now).1 seg now (c.intake seg now).2
  refine ⟨e, r', a, l, t, ?_⟩
  unfold taken
  rw [h', h]

theorem taken_state : (c.taken seg now).state = c.state := by
  obtain ⟨_, _, _, _, _, h⟩ := c.taken_eq seg now
  rw [h]
  rfl

theorem taken_sendSide : (c.taken seg now).sendSide = c.sendSide := by
  obtain ⟨_, _, _, _, _, h⟩ := c.taken_eq seg now
  rw [h]
  exact (c.counted now).optionsApplied_sendSide seg.options

theorem taken_receiver : (c.taken seg now).receiver = c.receiver := by
  obtain ⟨_, _, _, _, _, h⟩ := c.taken_eq seg now
  rw [h]
  rfl

theorem discardOld_views :
    (c.intake seg now).1.discardOld.1.state = c.state ∧ (c.intake seg now).1.discardOld.1.sendSide = c.sendSide ∧
      (c.intake seg now).1.discardOld.1.receiver = c.receiver := by
  obtain ⟨_, _, _, h⟩ := c.intake_fst_eq seg now
  rw [h]
  exact ⟨rfl, (c.counted now).optionsApplied_sendSide seg.options, rfl⟩

theorem handleSegmentAt_eq :
    c.handleSegmentAt seg now =
      if (c.intake seg now).1.pawsRejects seg (c.intake seg now).2 then
        ((c.intake seg now).1.discardOld.1, some (c.intake seg now).1.discardOld.2)
      else if seg.flags.rst then ((c.taken seg now).handleRst seg, none)
      else (c.taken seg now).dispatch seg now := rfl

def Passes (c : TcpConnection) (seg : TcpSegment) (now : Nat) : Prop :=
  seg.flags.ack = true ∧ seg.flags.rst = false ∧ (c.intake seg now).1.pawsRejects seg (c.intake seg now).2 = false

theorem rstAcceptable_state (h : c.rstAcceptable seg = true) : c.state ≠ .listen ∧ c.state ≠ .closed := by
  unfold rstAcceptable at h
  cases hs : c.state <;> simp [hs] at h ⊢

/-! ## The phases of the pump -/

theorem transmit_invariant {P : TcpConnection → List TcpSegment → Prop}
    (step : ∀ c sent k, P c sent → 0 < k → k ≤ c.congestion.sendWindowAvailable c.sndWnd → k ≤ c.txBuffer.length →
      P (c.sendChunk k { ack := true, psh := true } now).1
        (sent ++ [(c.sendChunk k { ack := true, psh := true } now).2])) :
    ∀ (n : Nat) (c : TcpConnection) (sent : List TcpSegment), P c sent →
      P (transmit n c now).1 (sent ++ (transmit n c now).2)
  | 0, c, sent, h => by simpa [transmit] using h
  | n + 1, c, sent, h => by
    unfold transmit
    simp only
    split
    · simpa using h
    · rename_i hk
      have hs := step c sent _ h (Nat.pos_of_ne_zero hk) (by omega) (by omega)
      split
      · exact hs
      · have ih := transmit_invariant step n _ _ hs
        rw [List.append_assoc] at ih
        exact ih

theorem emitFin_cases :
    c.emitFin now = (c, none) ∨
      (c.finSent = false ∧
        (c.state = .established ∧ (c.emitFin now).1.state = .finWait1 ∨
          c.state = .closeWait ∧ (c.emitFin now).1.state = .lastAck) ∧
        (c.emitFin now).1.sendSide = c.sendSide.pushFin ∧ KeepsRest c (c.emitFin now).1 ∧
        (c.emitFin now).2 = some (c.segment c.sndNxt c.rcvNxt .finAck c.currentRcvWnd [] [])) := by
  unfold emitFin
  simp only
  split
  · exact .inl rfl
  · rename_i hf
    rw [Bool.not_eq_true] at hf
    cases hs : c.state with
    | established =>
      exact .inr ⟨hf, .inl ⟨rfl, rfl⟩, trackForRetransmit_sendSide _ _ _ _ _ _,
        ⟨rfl, rfl, rfl, .inr (.inr ⟨by rw [hs]; rfl, rfl⟩)⟩, rfl⟩
    | closeWait =>
      exact .inr ⟨hf, .inr ⟨rfl, rfl⟩, trackForRetransmit_sendSide _ _ _ _ _ _,
        ⟨rfl, rfl, rfl, .inr (.inr ⟨by rw [hs]; rfl, rfl⟩)⟩, rfl⟩
    | _ => exact .inl rfl

theorem deferredClose_cases :
    c.deferredClose now = (c, []) ∨
      (c.txBuffer = [] ∧ c.finSent = false ∧
        (c.state = .established ∧ (c.deferredClose now).1.state = .finWait1 ∨
          c.state = .closeWait ∧ (c.deferredClose now).1.state = .lastAck) ∧
        (c.deferredClose now).1.sendSide = c.sendSide.pushFin ∧ KeepsRest c (c.deferredClose now).1 ∧
        (c.deferredClose now).2 = [c.segment c.sndNxt c.rcvNxt .finAck c.currentRcvWnd [] []]) := by
  unfold deferredClose
  split
  · rename_i h
    simp only [Bool.and_eq_true, decide_eq_true_eq] at h
    rcases c.emitFin_cases now with he | ⟨h₁, h₂, h₃, h₄, h₅⟩
    · rw [he]; exact .inl rfl
    · exact .inr ⟨h.1.2, h₁, h₂, h₃, h₄, congrArg Option.toList h₅⟩
  · exact .inl rfl

theorem windowUpdate_views :
    c.windowUpdate.1.state = c.state ∧ c.windowUpdate.1.sendSide = c.sendSide ∧ KeepsRest c c.windowUpdate.1 := by
  unfold windowUpdate
  split <;> exact ⟨rfl, rfl, rfl, rfl, rfl, .inl rfl⟩

theorem onRto_views :
    (c.onRto now).1.state = c.state ∧ (c.onRto now).1.sendSide = c.sendSide ∧ KeepsRest c (c.onRto now).1 := by
  unfold onRto
  split
  · obtain ⟨h₁, h₂, h₃, -⟩ := retransmitOldest_cases { c with
      congestion := c.congestion.onTimeout
      rtt := c.rtt.backoff
      stats := { c.stats with timeouts := c.stats.timeouts + 1 } } now false
    exact ⟨h₁, h₂, ⟨h₃.receiver, h₃.reply, h₃.aborted, h₃.state⟩⟩
  · exact ⟨rfl, rfl, .refl c⟩

theorem persist_cases (wasSending : Bool) :
    (c.persist wasSending now).1.state = c.state ∧ KeepsRest c (c.persist wasSending now).1 ∧
      ((c.persist wasSending now).1.sendSide = c.sendSide ∧ (c.persist wasSending now).2 = [] ∨
        wasSending = true ∧ c.txBuffer ≠ [] ∧ c.retransmitQueue = [] ∧
          (c.persist wasSending now).1.sendSide = c.sendSide.pushProbe ∧
          (c.persist wasSending now).2 =
            [c.segment c.sndNxt c.rcvNxt .ackOnly c.currentRcvWnd [] (c.txBuffer.take 1)]) := by
  unfold persist
  split
  · rename_i h
    simp only [Bool.and_eq_true, decide_eq_true_eq] at h
    obtain ⟨⟨⟨hw, htx⟩, -⟩, hq⟩ := h
    cases c.persistDeadlineMs with
    | none => exact ⟨rfl, ⟨rfl, rfl, rfl, .inl rfl⟩, .inl ⟨rfl, rfl⟩⟩
    | some due =>
      simp only
      split
      · exact ⟨rfl, ⟨rfl, rfl, rfl, .inl rfl⟩, .inr ⟨hw, htx, hq, sendChunk_sendSide _ _ _ _, rfl⟩⟩
      · exact ⟨rfl, ⟨rfl, rfl, rfl, .inl rfl⟩, .inl ⟨rfl, rfl⟩⟩
  · exact ⟨rfl, ⟨rfl, rfl, rfl, .inl rfl⟩, .inl ⟨rfl, rfl⟩⟩

theorem expireTimeWait_views :
    ((c.expireTimeWait now).state = c.state ∨ c.state = .timeWait ∧ (c.expireTimeWait now).state = .closed) ∧
      (c.expireTimeWait now).sendSide = c.sendSide ∧ KeepsRest c (c.expireTimeWait now) := by
  unfold expireTimeWait
  split
  · rename_i hs _
    split
    · exact ⟨.inr ⟨hs, rfl⟩, rfl, rfl, rfl, rfl, .inr (.inl rfl)⟩
    · exact ⟨.inl rfl, rfl, .refl c⟩
  · exact ⟨.inl rfl, rfl, .refl c⟩

theorem sendPhase_keepsRest : KeepsRest c (c.sendPhase now).1 := by
  have hqueued : KeepsRest c (c.transmitQueued now).1 := by
    unfold transmitQueued
    split
    · refine transmit_invariant (P := fun d _ => KeepsRest c d) now ?_ _ c [] (.refl c)
      intro d _ k h _ _ _
      exact h.trans ⟨rfl, rfl, rfl, .inl rfl⟩
    · exact .refl c
  refine hqueued.trans ?_
  change KeepsRest _ (deferredClose _ now).1
  rcases (c.transmitQueued now).1.deferredClose_cases now with he | ⟨-, -, -, -, hrest, -⟩
  · rw [he]; exact .refl _
  · exact hrest

theorem timerPhase_cases (wasSending : Bool) :
    KeepsRest c (c.timerPhase wasSending now).1 ∧
      ((c.timerPhase wasSending now).1.state = c.state ∨ c.state = .timeWait ∧
        (c.timerPhase wasSending now).1.state = .closed) ∧
      ((c.timerPhase wasSending now).1.sendSide = c.sendSide ∨
        wasSending = true ∧ c.sendSide.tx ≠ [] ∧ c.sendSide.queue = [] ∧
          (c.timerPhase wasSending now).1.sendSide = c.sendSide.pushProbe) := by
  obtain ⟨hr, hrs, hrk⟩ := c.onRto_views now
  obtain ⟨hu, hus, huk⟩ := (c.onRto now).1.windowUpdate_views
  obtain ⟨hp, hpk, hps⟩ := (c.onRto now).1.windowUpdate.1.persist_cases now wasSending
  obtain ⟨he, hes, hek⟩ := ((c.onRto now).1.windowUpdate.1.persist wasSending now).1.expireTimeWait_views now
  refine ⟨((hrk.trans huk).trans hpk).trans hek, ?_, ?_⟩
  · rw [hp, hu, hr] at he
    exact he
  · rw [← hrs, ← hus]
    rcases hps with ⟨hps, -⟩ | ⟨hw, htx, hq, hps, -⟩
    · exact .inl (hes.trans hps)
    · exact .inr ⟨hw, htx, congrArg (List.map RetransmitSegment.sent) hq, hes.trans hps⟩

/-- A probe leaves only a connection that may still send: once the queue is drained for the FIN there is nothing to
probe with. -/
theorem pollOutput_invariant {P : TcpConnection → List TcpSegment → Prop}
    (start : P (c.setClock now) [])
    (chunk : ∀ d sent k, P d sent → d.state = .established ∨ d.state = .closeWait → 0 < k →
      k ≤ d.congestion.sendWindowAvailable d.sndWnd → k ≤ d.txBuffer.length →
      P (d.sendChunk k { ack := true, psh := true } now).1
      (sent ++ [(d.sendChunk k { ack := true, psh := true } now).2]))
    (fin : ∀ d sent, P d sent → P (d.emitFin now).1 (sent ++ (d.emitFin now).2.toList))
    (abort : ∀ d sent, P d sent → P d.abort sent)
    (rto : ∀ d sent, P d sent → P (d.onRto now).1 (sent ++ (d.onRto now).2))
    (update : ∀ d sent, P d sent → P d.windowUpdate.1 (sent ++ d.windowUpdate.2))
    (probe : ∀ d sent b, P d sent → (b = true → d.txBuffer ≠ [] → d.state = .established ∨ d.state = .closeWait) →
      P (d.persist b now).1 (sent ++ (d.persist b now).2))
    (expire : ∀ d sent, P d sent → P (d.expireTimeWait now) sent) :
    P (c.pollOutput now).1 (c.pollOutput now).2 := by
  unfold pollOutput
  generalize c.setClock now = c at start ⊢
  simp only
  split
  · exact start
  · have hqueued : P (c.transmitQueued now).1 (c.transmitQueued now).2 ∧
        (c.transmitQueued now).1.state = c.state := by
      unfold transmitQueued
      split
      · rename_i hs
        refine transmit_invariant (P := fun d sent => P d sent ∧ d.state = c.state) now ?_ _ c [] ⟨start, rfl⟩
        rintro d sent k ⟨hd, hst⟩ hpos hav htx
        refine ⟨chunk d sent k hd ?_ hpos hav htx, hst⟩
        rw [hst]
        simpa [sending] using hs.1
      · exact ⟨start, rfl⟩
    have hsend : P (c.sendPhase now).1 (c.sendPhase now).2 ∧
        ((c.sendPhase now).1.txBuffer ≠ [] → (c.sendPhase now).1.state = c.state) := by
      simp only [sendPhase, andThen, deferredClose]
      split
      · rename_i hclose
        simp only [Bool.and_eq_true, decide_eq_true_eq] at hclose
        refine ⟨fin _ _ hqueued.1, fun htx => ?_⟩
        rcases (c.transmitQueued now).1.emitFin_cases now with he | ⟨-, -, hside, -⟩
        · simpa only [he] using hqueued.2
        · exact absurd ((congrArg SendSide.tx hside).trans hclose.1.2) htx
      · simpa using ⟨hqueued.1, fun _ => hqueued.2⟩
    split
    · exact abort _ _ hsend.1
    · obtain ⟨hr, hrs, -⟩ := (c.sendPhase now).1.onRto_views now
      obtain ⟨hu, hus, -⟩ := ((c.sendPhase now).1.onRto now).1.windowUpdate_views
      have htimer := probe _ _ c.sending (update _ _ (rto _ _ hsend.1)) fun hs htx => by
        rw [hu, hr, hsend.2 fun he => htx ((congrArg SendSide.tx (hus.trans hrs)).trans he)]
        simpa [sending] using hs
      simpa only [timerPhase, andThen, List.append_assoc] using expire _ _ htimer

end

end TcpConnection

end SystemsLab.Tcp
