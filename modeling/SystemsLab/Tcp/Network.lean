import SystemsLab.Tcp.Stream

/-!
# A client and a server over a lossy network

The network may deliver any segment sent so far at any time, again or never. A reader gets the front of what the
other side has written, and all of it once the FIN is there.
-/

namespace SystemsLab.Tcp

structure Endpoint where
  conn : TcpConnection
  written : List UInt8
  returned : List UInt8
  drained : List UInt8

namespace Call

def accepted (c : TcpConnection) : Call → List UInt8
  | .write data => data.take (c.write data).2
  | .sendData payload _ => if c.state = .established then payload.take (c.write payload).2 else []
  | _ => []

def readOut (c : TcpConnection) : Call → List UInt8
  | .read n => (c.read n).2
  | _ => []

def isLocal : Call → Bool
  | .handleSegment _ _ | .initiateSyn _ => false
  | _ => true

end Call

namespace Endpoint

/-- What the call drains is what `bytes_sent` counts, from the front of the send buffer; it is recorded until the
FIN is out. -/
def call (x : Endpoint) (k : Call) : Endpoint where
  conn := (x.conn.call k).1
  written := x.written ++ k.accepted x.conn
  returned := x.returned ++ k.readOut x.conn
  drained :=
    if x.conn.finSent then x.drained
    else x.drained ++
      (x.conn.txBuffer ++ k.accepted x.conn).take ((x.conn.call k).1.stats.bytesSent - x.conn.stats.bytesSent)

def received (x : Endpoint) : List UInt8 := x.returned ++ x.conn.rxBuffer

def stream (x : Endpoint) (isn : Seq) (passive : Bool) : Stream := ⟨isn, passive, x.drained, x.conn.finSent⟩

end Endpoint

/-- The segment arrives as `q`. The options may have been padded on the way, and nothing depends on them. -/
def TcpSegment.ArrivesAs (p q : TcpSegment) : Prop := ∃ os, q = { p with options := os }

/-- The two ends, whether the client has been opened, and every segment sent in each direction. -/
structure Net where
  client : Endpoint
  server : Endpoint
  opened : Bool
  toServer : List TcpSegment
  toClient : List TcpSegment

namespace Net

def start (clientAddr serverAddr : SocketAddrV4) (clientIsn serverIsn : Seq) : Net where
  client := ⟨.newClient clientAddr serverAddr clientIsn, [], [], []⟩
  server := ⟨.newServer serverAddr clientAddr serverIsn, [], [], []⟩
  opened := false
  toServer := []
  toClient := []

def clientCall (n : Net) (k : Call) : Net :=
  { n with client := n.client.call k, toServer := n.toServer ++ (n.client.conn.call k).2 }

def serverCall (n : Net) (k : Call) : Net :=
  { n with server := n.server.call k, toClient := n.toClient ++ (n.server.conn.call k).2 }

/-- The client is opened once, and a segment that arrives was sent by the other end. -/
inductive Step : Net → Net → Prop
  | client {n : Net} (k : Call) (hk : k.isLocal = true) : Step n (n.clientCall k)
  | server {n : Net} (k : Call) (hk : k.isLocal = true) : Step n (n.serverCall k)
  | opens {n : Net} (now : Nat) (h : n.opened = false) :
      Step n { n.clientCall (.initiateSyn now) with opened := true }
  | toClient {n : Net} {p q : TcpSegment} (now : Nat) (hp : p ∈ n.toClient) (hq : p.ArrivesAs q) :
    Step n (n.clientCall (.handleSegment q now))
  | toServer {n : Net} {p q : TcpSegment} (now : Nat) (hp : p ∈ n.toServer) (hq : p.ArrivesAs q) :
    Step n (n.serverCall (.handleSegment q now))

inductive Reachable (clientAddr serverAddr : SocketAddrV4) (clientIsn serverIsn : Seq) : Net → Prop
  | start : Reachable clientAddr serverAddr clientIsn serverIsn (start clientAddr serverAddr clientIsn serverIsn)
  | step {n n' : Net} (h : Reachable clientAddr serverAddr clientIsn serverIsn n) (hs : Step n n') :
    Reachable clientAddr serverAddr clientIsn serverIsn n'

end Net

/-! ## One end -/

theorem SendStep.counters {p : Prop} {a : Seq} {st st' : TcpState} {s s' : SendSide}
    (h : SendStep p a st s st' s') :
    s'.bytesSent = s.bytesSent ∧ s'.finSent = s.finSent := by
  cases h <;> exact ⟨rfl, rfl⟩

namespace Endpoint

variable {x : Endpoint} {isn : Seq} {passive : Bool} {g : Stream} {k : Call} {seg : TcpSegment} {now : Nat}

def Sends (x : Endpoint) (isn : Seq) (passive : Bool) : Prop :=
  Sending (x.stream isn passive) x.written x.conn.state x.conn.sendSide

def Receives (x : Endpoint) (g : Stream) : Prop := Receiving g x.returned x.conn.state x.conn.recvSide

structure SendsOn (x : Endpoint) (isn : Seq) (passive : Bool) (k : Call) : Prop where
  sends : (x.call k).Sends isn passive
  grows : (x.stream isn passive).Grows ((x.call k).stream isn passive)
  genuine : ∀ p ∈ (x.conn.call k).2, p.Of ((x.call k).stream isn passive)

theorem stream_call_of_keep (hb : (x.conn.call k).1.stats.bytesSent = x.conn.stats.bytesSent)
    (hf : (x.conn.call k).1.finSent = x.conn.finSent) : (x.call k).stream isn passive = x.stream isn passive := by
  have hd : (x.call k).drained = x.drained := by
    unfold call
    simp only [hb, Nat.sub_self, List.take_zero, List.append_nil, ite_self]
  unfold stream
  rw [hd]
  exact congrArg _ hf

theorem stream_call_of_pumped {g' : Stream} {s : SendSide} {sent : List TcpSegment} {w : List UInt8}
    (htx : s.tx = x.conn.txBuffer ++ k.accepted x.conn) (hb : s.bytesSent = x.conn.stats.bytesSent)
    (h : Pumped (x.stream isn passive) w s (x.conn.call k).1 sent g') : (x.call k).stream isn passive = g' := by
  obtain ⟨n, -, hg, hbs, -⟩ := h.drained
  have hbs' : (x.conn.call k).1.stats.bytesSent = x.conn.stats.bytesSent + n := by rw [← hb]; exact hbs
  refine Stream.ext h.grows.isn.symm h.grows.passive.symm ?_ h.sending.finSent
  change (if x.conn.finSent then _ else _) = g'.bytes
  by_cases hf : x.conn.finSent = true
  · rw [if_pos hf]
    exact (h.grows.closed hf).2.symm
  · rw [if_neg hf, hbs', Nat.add_sub_cancel_left, ← htx]
    exact hg.symm

theorem sendsOn_of_pumped {s : SendSide} (htx : s.tx = x.conn.txBuffer ++ k.accepted x.conn)
    (hb : s.bytesSent = x.conn.stats.bytesSent)
    (h : ∃ g', Pumped (x.stream isn passive) (x.written ++ k.accepted x.conn) s (x.conn.call k).1
      (x.conn.call k).2 g') :
    x.SendsOn isn passive k := by
  obtain ⟨g', h⟩ := h
  have hg := stream_call_of_pumped htx hb h
  exact ⟨by unfold Sends; rw [hg]; exact h.sending, by rw [hg]; exact h.grows, by rw [hg]; exact h.genuine⟩

theorem sendsOn_of_keep (hb : (x.conn.call k).1.stats.bytesSent = x.conn.stats.bytesSent)
    (hf : (x.conn.call k).1.finSent = x.conn.finSent)
    (h : Sending (x.stream isn passive) (x.written ++ k.accepted x.conn) (x.conn.call k).1.state
      (x.conn.call k).1.sendSide)
    (hp : ∀ p ∈ (x.conn.call k).2, p.Of (x.stream isn passive)) : x.SendsOn isn passive k := by
  have hg := @stream_call_of_keep x isn passive k hb hf
  exact ⟨by unfold Sends; rw [hg]; exact h, by rw [hg]; exact .refl _, by rw [hg]; exact hp⟩

theorem sendsOn_handleSegment (h : x.Sends isn passive)
    (hopen : x.conn.state = .synSent → seg.flags.syn = true → seg.flags.ack = true) :
    x.SendsOn isn passive (.handleSegment seg now) := by
  have hstep := (x.conn.handleSegmentAt_turn seg now).send
  obtain ⟨hb, hf⟩ := hstep.counters
  refine sendsOn_of_keep hb hf ?_ ?_
  · rw [show x.written ++ Call.accepted x.conn (.handleSegment seg now) = x.written from List.append_nil _]
    exact Sending.step h hstep
  · intro p hp
    exact Sending.answer h hopen (Option.mem_toList.mp hp)

theorem sending_write (h : x.Sends isn passive) (data : List UInt8) :
    Sending (x.stream isn passive) (x.written ++ data.take (x.conn.write data).2) (x.conn.write data).1.state
      (x.conn.write data).1.sendSide := by
  refine ⟨h.taken.trans (List.prefix_append _ _), ?_, h.finSent, h.nxt, h.queue, h.writing, h.passive⟩
  refine h.stored.imp_right fun hall => ?_
  rw [← hall, List.append_assoc]
  rfl

theorem sendsOn_local (h : x.Sends isn passive) (hk : k.isLocal = true) : x.SendsOn isn passive k := by
  cases k with
  | handleSegment seg now | initiateSyn now => cases hk
  | write data => exact sendsOn_of_keep rfl rfl (sending_write h data) (fun p hp => by cases hp)
  | read n =>
    have hc : (x.conn.read n).1.sendSide = x.conn.sendSide ∧ (x.conn.read n).1.state = x.conn.state := by
      unfold TcpConnection.read
      split <;> exact ⟨rfl, rfl⟩
    refine sendsOn_of_keep (congrArg SendSide.bytesSent hc.1) (congrArg SendSide.finSent hc.1) ?_
      (fun p hp => by cases hp)
    change Sending _ (x.written ++ []) (x.conn.read n).1.state (x.conn.read n).1.sendSide
    rw [hc.1, hc.2, List.append_nil]
    exact h
  | pollOutput now =>
    refine sendsOn_of_pumped (s := x.conn.sendSide) (List.append_nil _).symm rfl ?_
    rw [show x.written ++ Call.accepted x.conn (.pollOutput now) = x.written from List.append_nil _]
    exact pollOutput_pumped h
  | initiateClose now =>
    refine sendsOn_of_pumped (s := x.conn.sendSide) (List.append_nil _).symm rfl ?_
    rw [show x.written ++ Call.accepted x.conn (.initiateClose now) = x.written from List.append_nil _]
    exact initiateCloseAt_pumped h
  | sendData payload now =>
    by_cases hs : x.conn.state = .established
    · have hacc : Call.accepted x.conn (.sendData payload now) = payload.take (x.conn.write payload).2 := if_pos hs
      have hcall : x.conn.call (.sendData payload now) = ((x.conn.setClock now).write payload).1.pollOutput now :=
        if_pos hs
      refine sendsOn_of_pumped (s := ((x.conn.setClock now).write payload).1.sendSide) ?_ rfl ?_
      · rw [hacc]; rfl
      · rw [hacc, hcall]
        exact pollOutput_pumped (sending_write h payload)
    · have hacc : Call.accepted x.conn (.sendData payload now) = [] := if_neg hs
      have hcall : x.conn.call (.sendData payload now) = (x.conn.setClock now, []) := if_neg hs
      refine sendsOn_of_keep (by rw [hcall]; rfl) (by rw [hcall]; rfl) ?_ (by rw [hcall]; intro p hp; cases hp)
      rw [hacc, hcall, List.append_nil]
      exact h

theorem receives_local (h : x.Receives g) (hk : k.isLocal = true) : (x.call k).Receives g := by
  have hkeep : ∀ d : TcpConnection, TcpConnection.KeepsReceiver x.conn d →
      Receiving g x.returned d.state d.recvSide := by
    intro d hd
    rw [show d.recvSide = x.conn.recvSide from congrArg TcpConnection.Receiver.recvSide hd.receiver]
    rcases h with ⟨hi, hb⟩ | ⟨ho, hs⟩
    · exact .inl ⟨hd.state.idle hi, hb⟩
    · exact .inr ⟨hd.state.opening_false ho, hs⟩
  have hret : k.readOut x.conn = [] → (x.call k).returned = x.returned := by
    intro he
    unfold call
    simp only [he, List.append_nil]
  unfold Receives
  cases k with
  | handleSegment seg now | initiateSyn now => cases hk
  | write data => rw [hret rfl]; exact h
  | read n =>
    obtain ⟨hr, hst, hout⟩ := x.conn.read_recvSide n
    have hall : (x.call (.read n)).returned ++ (x.conn.read n).1.recvSide.rx =
        x.returned ++ x.conn.recvSide.rx := by
      rw [hr]
      change (x.returned ++ (x.conn.read n).2) ++ x.conn.rxBuffer.drop n = _
      rw [hout, List.append_assoc, List.take_append_drop]
      rfl
    change Receiving g _ (x.conn.read n).1.state (x.conn.read n).1.recvSide
    rw [hst]
    rcases h with ⟨hi, h₁, h₂, h₃, h₄⟩ | ⟨ho, hs⟩
    · have hrx : x.conn.rxBuffer = [] := h₂
      refine .inl ⟨hi, ?_, ?_, ?_, ?_⟩
      · change x.returned ++ (x.conn.read n).2 = []
        rw [hout, h₁, hrx]
        simp
      · rw [hr]
        change x.conn.rxBuffer.drop n = []
        rw [hrx]
        simp
      · rw [hr]; exact h₃
      · rw [hr]; exact h₄
    · refine .inr ⟨ho, ?_, ?_, ?_, ?_⟩
      · rw [hall, hr]; exact hs.next
      · rw [hall]; exact hs.front
      · rw [hr]; exact hs.parked
      · rw [hall, hr]; exact hs.fin
  | pollOutput now => rw [hret rfl]; exact hkeep _ (x.conn.pollOutput_keepsReceiver now)
  | initiateClose now => rw [hret rfl]; exact hkeep _ (x.conn.initiateCloseAt_keepsReceiver now)
  | sendData payload now => rw [hret rfl]; exact hkeep _ (x.conn.sendDataAt_keepsReceiver now payload)

theorem receives_handleSegment (hlen : g.bytes.length < 2 ^ 31) (h : x.Receives g) (hseg : seg.Of g) :
    (x.call (.handleSegment seg now)).Receives g := by
  have hstep := Receiving.step hlen h hseg (x.conn.handleSegmentAt_turn seg now).receive
  unfold Receives
  rw [show (x.call (.handleSegment seg now)).returned = x.returned from List.append_nil _]
  exact hstep

structure Unopened (x : Endpoint) (isn : Seq) : Prop where
  state : x.conn.state = .closed
  nxt : x.conn.sndNxt = isn
  drained : x.drained = []
  finSent : x.conn.finSent = false
  stored : x.conn.txBuffer = x.written
  returned : x.returned = []
  recvSide : x.conn.rxBuffer = [] ∧ x.conn.oooSegments = [] ∧ x.conn.finReceived = false

section
variable (h : x.Unopened isn)
include h

theorem Unopened.of_views (hst : (x.conn.call k).1.state = .closed)
    (hs : (x.conn.call k).1.sendSide = { x.conn.sendSide with tx := x.conn.txBuffer ++ k.accepted x.conn })
    (hr : (x.conn.call k).1.recvSide = x.conn.recvSide) (hout : k.readOut x.conn = []) :
    (x.call k).Unopened isn := by
  have hb : (x.conn.call k).1.stats.bytesSent = x.conn.stats.bytesSent := congrArg SendSide.bytesSent hs
  refine ⟨hst, (congrArg SendSide.nxt hs).trans h.nxt, ?_,
    (congrArg SendSide.finSent hs).trans h.finSent, ?_, ?_, ?_⟩
  · unfold call
    simp only [hb, Nat.sub_self, List.take_zero, List.append_nil, ite_self]
    exact h.drained
  · refine (congrArg SendSide.tx hs).trans ?_
    change x.conn.txBuffer ++ k.accepted x.conn = x.written ++ k.accepted x.conn
    rw [h.stored]
  · unfold call
    simp only [hout, List.append_nil]
    exact h.returned
  · exact ⟨(congrArg RecvSide.rx hr).trans h.recvSide.1, (congrArg RecvSide.ooo hr).trans h.recvSide.2.1,
      (congrArg RecvSide.finReceived hr).trans h.recvSide.2.2⟩

theorem Unopened.local (hk : k.isLocal = true) : (x.call k).Unopened isn := by
  have hne : ¬ (x.conn.state = .established ∨ x.conn.state = .closeWait) := by rw [h.state]; decide
  have hsame : ∀ d : TcpConnection, d.sendSide = x.conn.sendSide →
      d.sendSide = { x.conn.sendSide with tx := x.conn.txBuffer ++ [] } := by
    intro d hd
    rw [hd, List.append_nil]
    rfl
  cases k with
  | handleSegment seg now | initiateSyn now => cases hk
  | write data => exact h.of_views h.state rfl rfl rfl
  | read n =>
    have hc : x.conn.read n = (x.conn, []) := if_pos h.recvSide.1
    have hcall : x.conn.call (.read n) = (x.conn, []) := by simp only [TcpConnection.call, hc]
    exact h.of_views (by rw [hcall]; exact h.state) (by rw [hcall]; exact hsame _ rfl) (by rw [hcall])
      (by unfold Call.readOut; simp only [hc])
  | pollOutput now =>
    have hcall : x.conn.call (.pollOutput now) = (x.conn.setClock now, []) := by
      have hcl : (x.conn.setClock now).state = .closed := h.state
      unfold TcpConnection.call TcpConnection.pollOutput
      simp [hcl]
    exact h.of_views (by rw [hcall]; exact h.state) (by rw [hcall]; exact hsame _ rfl) (by rw [hcall]; rfl) rfl
  | initiateClose now =>
    have hcall : x.conn.call (.initiateClose now) = ({ x.conn with currentTimeMs := now }, []) := by
      unfold TcpConnection.call TcpConnection.initiateCloseAt
      simp only [if_neg hne]
      rfl
    exact h.of_views (by rw [hcall]; exact h.state) (by rw [hcall]; exact hsame _ rfl) (by rw [hcall]; rfl) rfl
  | sendData payload now =>
    have hs : x.conn.state ≠ .established := fun hs => hne (.inl hs)
    have hacc : Call.accepted x.conn (.sendData payload now) = [] := if_neg hs
    have hcall : x.conn.call (.sendData payload now) = (x.conn.setClock now, []) := if_neg hs
    exact h.of_views (by rw [hcall]; exact h.state) (by rw [hcall, hacc]; exact hsame _ rfl)
      (by rw [hcall]; rfl) rfl

theorem Unopened.handleSegment : (x.call (.handleSegment seg now)).Unopened isn := by
  have hsend := (x.conn.handleSegmentAt_turn seg now).send
  have hrecv := (x.conn.handleSegmentAt_turn seg now).receive
  rw [h.state] at hsend
  have hviews : (x.conn.handleSegmentAt seg now).1.state = .closed ∧
      (x.conn.handleSegmentAt seg now).1.sendSide = x.conn.sendSide := by
    generalize (x.conn.handleSegmentAt seg now).1.state =
      st', (x.conn.handleSegmentAt seg now).1.sendSide = s' at hsend
    cases hsend with
    | keep hk => exact ⟨(keeps_writing hk).2.2.2 (.inr rfl), rfl⟩
    | opened hst => rcases hst with hst | hst <;> cases hst
    | ack hst => rcases hst with hst | hst | hst | hst <;> cases hst
    | closed hst => rcases hst with ⟨hst, -⟩ | ⟨hst, -⟩ <;> cases hst
    | reset hst => exact absurd rfl hst.2
  refine h.of_views hviews.1 ?_ ?_ rfl
  · refine hviews.2.trans ?_
    change _ = { x.conn.sendSide with tx := x.conn.txBuffer ++ [] }
    rw [List.append_nil]
    rfl
  · cases hrecv with
    | keep _ hr => exact congrArg TcpConnection.Receiver.recvSide hr
    | opened hs => rw [h.state] at hs; cases hs
    | reset _ hr =>
      refine (congrArg TcpConnection.Receiver.recvSide hr).trans ?_
      change { x.conn.recvSide with ooo := [] } = _
      rw [← h.recvSide.2.1]
      rfl
    | early hs => rw [h.state] at hs; cases hs
    | data hs => rcases hs with hs | hs | hs <;> rw [h.state] at hs <;> cases hs

theorem Unopened.sendsOn (hs : x.Sends isn false) : x.SendsOn isn false (.initiateSyn now) := by
  have hside : (x.conn.call (.initiateSyn now)).1.sendSide = x.conn.sendSide.push 1 .synOnly [] :=
    TcpConnection.trackForRetransmit_sendSide _ _ _ _ _ _
  refine sendsOn_of_keep rfl rfl ?_ ?_
  · rw [hside, show x.written ++ Call.accepted x.conn (.initiateSyn now) = x.written from List.append_nil _]
    unfold Sends at hs
    rw [h.state] at hs
    exact hs.opened h.nxt h.drained h.finSent h.stored rfl
  · intro p hp
    rw [List.mem_singleton.mp hp]
    exact ⟨fun _ => ⟨h.nxt, rfl, rfl, (fun h => by cases h)⟩, fun h => absurd rfl h, (fun h => by cases h)⟩

theorem Unopened.receives : (x.call (.initiateSyn now)).Receives g := by
  refine .inl ⟨rfl, ?_, h.recvSide.1, h.recvSide.2.1, h.recvSide.2.2⟩
  rw [show (x.call (.initiateSyn now)).returned = x.returned from List.append_nil _]
  exact h.returned

end

end Endpoint

/-! ## Both ends -/

namespace Net

variable {clientAddr serverAddr : SocketAddrV4} {clientIsn serverIsn : Seq} {n n' : Net} {k : Call}

def up (n : Net) (clientIsn : Seq) : Stream := n.client.stream clientIsn false

def down (n : Net) (serverIsn : Seq) : Stream := n.server.stream serverIsn true

/-- The two ends fit each other. What a receiver has depends on the sequence numbers of the stream not wrapping
around. -/
structure Coherent (clientIsn serverIsn : Seq) (n : Net) : Prop where
  client : n.client.Sends clientIsn false
  server : n.server.Sends serverIsn true
  unopened : n.opened = false → n.client.Unopened clientIsn
  toServer : ∀ p ∈ n.toServer, p.Of (n.up clientIsn)
  toClient : ∀ p ∈ n.toClient, p.Of (n.down serverIsn)
  atServer : n.client.drained.length < 2 ^ 31 → n.server.Receives (n.up clientIsn)
  atClient : n.server.drained.length < 2 ^ 31 → n.client.Receives (n.down serverIsn)

theorem coherent_start : Coherent clientIsn serverIsn (start clientAddr serverAddr clientIsn serverIsn) := by
  refine ⟨?_, ?_, ?_, ?_, ?_, ?_, ?_⟩
  · exact ⟨List.nil_prefix, .inl rfl, rfl, .inl ⟨rfl, rfl, rfl, .inr rfl⟩, (fun e he => by cases he),
      (fun h => by cases h), fun h => by cases h⟩
  · exact ⟨List.nil_prefix, .inr rfl, rfl, .inl ⟨rfl, rfl, rfl, .inl rfl⟩, (fun e he => by cases he), fun _ => rfl,
      fun _ h => by cases h⟩
  · intro _; exact ⟨rfl, rfl, rfl, rfl, rfl, rfl, rfl, rfl, rfl⟩
  · intro p hp; cases hp
  · intro p hp; cases hp
  · intro _; exact .inl ⟨rfl, rfl, rfl, rfl, rfl⟩
  · intro _; exact .inl ⟨rfl, rfl, rfl, rfl, rfl⟩

theorem of_arrivesAs {p q : TcpSegment} {g : Stream} (h : p.ArrivesAs q) (hp : p.Of g) : q.Of g := by
  obtain ⟨os, rfl⟩ := h
  exact hp

section
variable (h : Coherent clientIsn serverIsn n)
include h

theorem Coherent.clientCall (hs : n.client.SendsOn clientIsn false k)
    (hr : n.server.drained.length < 2 ^ 31 → (n.client.call k).Receives (n.down serverIsn)) {opened : Bool}
    (ho : opened = false → (n.client.call k).Unopened clientIsn) :
    Coherent clientIsn serverIsn { n.clientCall k with opened := opened } := by
  refine ⟨hs.sends, h.server, ho, ?_, h.toClient, ?_, hr⟩
  · intro p hp
    rcases List.mem_append.mp hp with hp | hp
    · exact (h.toServer p hp).mono hs.grows
    · exact hs.genuine p hp
  · intro hlen
    have hle : n.client.drained.length ≤ (n.client.call k).drained.length := hs.grows.bytes.length_le
    exact Receiving.mono (h.atServer (Nat.lt_of_le_of_lt hle hlen)) hs.grows

theorem Coherent.serverCall (hs : n.server.SendsOn serverIsn true k)
    (hr : n.client.drained.length < 2 ^ 31 → (n.server.call k).Receives (n.up clientIsn)) :
    Coherent clientIsn serverIsn (n.serverCall k) := by
  refine ⟨h.client, hs.sends, h.unopened, h.toServer, ?_, hr, ?_⟩
  · intro p hp
    rcases List.mem_append.mp hp with hp | hp
    · exact (h.toClient p hp).mono hs.grows
    · exact hs.genuine p hp
  · intro hlen
    have hle : n.server.drained.length ≤ (n.server.call k).drained.length := hs.grows.bytes.length_le
    exact Receiving.mono (h.atClient (Nat.lt_of_le_of_lt hle hlen)) hs.grows

theorem Coherent.step (hstep : Step n n') : Coherent clientIsn serverIsn n' := by
  cases hstep with
  | client k hk =>
    exact h.clientCall (Endpoint.sendsOn_local h.client hk)
      (fun hlen => Endpoint.receives_local (h.atClient hlen) hk)
      (fun ho => (h.unopened ho).local hk)
  | server k hk =>
    exact h.serverCall (Endpoint.sendsOn_local h.server hk)
      (fun hlen => Endpoint.receives_local (h.atServer hlen) hk)
  | opens now ho =>
    exact h.clientCall ((h.unopened ho).sendsOn h.client) (fun _ => (h.unopened ho).receives) (fun h => by cases h)
  | toClient now hp hq =>
    have hof := of_arrivesAs hq (h.toClient _ hp)
    -- The server answers a SYN and never sends one of its own, so a client does not meet a simultaneous open.
    exact h.clientCall (Endpoint.sendsOn_handleSegment h.client fun _ hsyn => (hof.syn hsyn).2.2.2 rfl)
      (fun hlen => Endpoint.receives_handleSegment hlen (h.atClient hlen) hof)
        (fun ho => (h.unopened ho).handleSegment)
  | toServer now hp hq =>
    have hof := of_arrivesAs hq (h.toServer _ hp)
    exact h.serverCall (Endpoint.sendsOn_handleSegment h.server fun hs => absurd hs (h.server.passive rfl))
      (fun hlen => Endpoint.receives_handleSegment hlen (h.atServer hlen) hof)

end

theorem Reachable.coherent (h : Reachable clientAddr serverAddr clientIsn serverIsn n) :
    Coherent clientIsn serverIsn n := by
  induction h with
  | start => exact coherent_start
  | step _ hs ih => exact ih.step hs

end Net

theorem received_of_receives {x y : Endpoint} {isn : Seq} {passive : Bool} (hr : x.Receives (y.stream isn passive))
    (hs : y.Sends isn passive) :
    x.received <+: y.written ∧ (x.conn.finReceived = true → x.received = y.drained) := by
  rcases hr with ⟨-, h₁, h₂, -, h₄⟩ | ⟨-, h⟩
  · have hnil : x.received = [] := by
      unfold Endpoint.received
      rw [h₁, show x.conn.rxBuffer = [] from h₂]
      rfl
    refine ⟨by rw [hnil]; exact List.nil_prefix, ?_⟩
    intro hf
    rw [show x.conn.finReceived = false from h₄] at hf
    cases hf
  · exact ⟨h.front.trans hs.taken, fun hf => (h.fin hf).2⟩

/-- The stream in each direction arrives as it was written. -/
theorem stream_integrity {clientAddr serverAddr : SocketAddrV4} {clientIsn serverIsn : Seq} {n : Net}
    (h : Net.Reachable clientAddr serverAddr clientIsn serverIsn n) (hup : n.client.drained.length < 2 ^ 31)
    (hdown : n.server.drained.length < 2 ^ 31) :
    (n.client.received <+: n.server.written ∧
      (n.client.conn.finReceived = true → n.client.received = n.server.drained)) ∧
      (n.server.received <+: n.client.written ∧
        (n.server.conn.finReceived = true → n.server.received = n.client.drained)) :=
  ⟨received_of_receives (h.coherent.atClient hdown) h.coherent.server,
    received_of_receives (h.coherent.atServer hup) h.coherent.client⟩

/-! ## Schedules -/

/-- A segment that arrives is named by its position among those sent so far. -/
inductive Event
  | client (k : Call)
  | server (k : Call)
  | opens (now : Nat)
  | toClient (i now : Nat)
  | toServer (i now : Nat)

namespace Net

def perform (n : Net) : Event → Net
  | .client k => if k.isLocal then n.clientCall k else n
  | .server k => if k.isLocal then n.serverCall k else n
  | .opens now => if n.opened then n else { n.clientCall (.initiateSyn now) with opened := true }
  | .toClient i now => match n.toClient[i]? with
    | some p => n.clientCall (.handleSegment p now)
    | none => n
  | .toServer i now => match n.toServer[i]? with
    | some p => n.serverCall (.handleSegment p now)
    | none => n

theorem Reachable.perform {clientAddr serverAddr : SocketAddrV4} {clientIsn serverIsn : Seq} {n : Net}
    (h : Reachable clientAddr serverAddr clientIsn serverIsn n) (ev : Event) :
    Reachable clientAddr serverAddr clientIsn serverIsn (n.perform ev) := by
  unfold Net.perform
  cases ev with
  | client k =>
    simp only
    split
    · rename_i hk; exact h.step (.client k hk)
    · exact h
  | server k =>
    simp only
    split
    · rename_i hk; exact h.step (.server k hk)
    · exact h
  | opens now =>
    simp only
    split
    · exact h
    · rename_i ho; exact h.step (.opens now (by simpa using ho))
  | toClient i now =>
    simp only
    split
    · rename_i p hp; exact h.step (.toClient now (List.mem_of_getElem? hp) ⟨p.options, rfl⟩)
    · exact h
  | toServer i now =>
    simp only
    split
    · rename_i p hp; exact h.step (.toServer now (List.mem_of_getElem? hp) ⟨p.options, rfl⟩)
    · exact h

theorem Reachable.performAll {clientAddr serverAddr : SocketAddrV4} {clientIsn serverIsn : Seq}
    (evs : List Event) {n : Net}
    (h : Reachable clientAddr serverAddr clientIsn serverIsn n) :
    Reachable clientAddr serverAddr clientIsn serverIsn (evs.foldl Net.perform n) := by
  induction evs generalizing n with
  | nil => exact h
  | cons ev evs ih => exact ih (h.perform ev)

end Net

/-- A handshake, five bytes in two segments that arrive in the wrong order, and the FIN. -/
def exchange : Net :=
  [.opens 0, .toServer 0 1, .toClient 0 2, .toServer 1 3, .client (.write [1, 2, 3]), .client (.pollOutput 4),
    .client (.write [4, 5]), .client (.pollOutput 5), .toServer 3 6, .toServer 2 7, .toServer 2 8,
    .server (.read 4), .client (.initiateClose 9), .toServer 4 10].foldl Net.perform
      (.start peerAddr serverAddr 4294967295 1000)

theorem exchange_arrives :
    exchange.server.conn.finReceived = true ∧ exchange.server.returned = [1, 2, 3, 4] ∧
      exchange.server.received = exchange.client.drained := by
  have hfin : exchange.server.conn.finReceived = true ∧ exchange.server.returned = [1, 2, 3, 4] := by decide +kernel
  have h : Net.Reachable peerAddr serverAddr 4294967295 1000 exchange := .performAll _ .start
  exact ⟨hfin.1, hfin.2, (stream_integrity h (by decide +kernel) (by decide +kernel)).2.2 hfin.1⟩

end SystemsLab.Tcp
