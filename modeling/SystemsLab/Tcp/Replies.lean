import SystemsLab.Tcp.Turn

/-!
# What a connection answers

Four SACK blocks and a timestamp take 44 bytes, and the header has room for 40: a call fails to return exactly when
it answers from such a connection.
-/

namespace SystemsLab.Tcp

theorem TcpSegment.Plain.serialises {p : TcpSegment} (h : p.Plain) : p.Serialises :=
  (serialises_iff h.known).mpr h.fits

namespace TcpConnection

def OptionsOverflow (c : TcpConnection) : Prop :=
  c.sackPermitted = true ∧ c.tsEnabled = true ∧ 4 ≤ c.buildSackBlocks.length

instance (c : TcpConnection) : Decidable c.OptionsOverflow := inferInstanceAs (Decidable (_ ∧ _))

section
variable {c d : TcpConnection} {seg : TcpSegment} {now : Nat} {val : Seq}

theorem length_buildSackBlocks_le : c.buildSackBlocks.length ≤ 4 := List.length_take_le _ _

theorem replyOptions_known : ∀ o ∈ c.replyOptions val, o.Known := by
  intro o ho
  unfold replyOptions at ho
  rcases List.mem_append.mp ho with ho | ho
  · split at ho
    · cases ho
    · rw [List.mem_singleton.mp ho]; trivial
  · split at ho
    · rw [List.mem_singleton.mp ho]; trivial
    · cases ho

theorem replyOptions_fits_iff : optionsSize (c.replyOptions val) ≤ tcpMaxOptionsLen ↔ ¬ c.OptionsOverflow := by
  have hlen := c.length_buildSackBlocks_le
  unfold replyOptions OptionsOverflow sackBlocks tcpMaxOptionsLen optionsSize
  by_cases hp : c.sackPermitted = true ∧ c.oooSegments ≠ []
  · rw [if_pos hp]
    by_cases hb : c.buildSackBlocks = []
    · cases ht : c.tsEnabled <;> simp [hb, TcpOption.size]
    · cases ht : c.tsEnabled <;> simp [hb, hp.1, TcpOption.size] <;> omega
  · have hno : ¬ (c.sackPermitted = true ∧ c.tsEnabled = true ∧ 4 ≤ c.buildSackBlocks.length) := by
      intro h
      obtain ⟨hs, -, h4⟩ := h
      have hooo : c.oooSegments = [] := by
        by_contra hne
        exact hp ⟨hs, hne⟩
      unfold buildSackBlocks at h4
      rw [hooo] at h4
      simp at h4
    rw [if_neg hp]
    rw [iff_true_intro hno]
    cases c.tsEnabled <;> simp [TcpOption.size]

theorem serialises_of_reply {p : TcpSegment} (h : p.options = c.replyOptions val) :
    p.Serialises ↔ ¬ c.OptionsOverflow := by
  rw [TcpSegment.serialises_iff (by rw [h]; exact replyOptions_known), h, replyOptions_fits_iff]

theorem serialises_buildAck : c.buildAck.2.Serialises ↔ ¬ c.OptionsOverflow :=
  @serialises_of_reply c (clock32 c.currentTimeMs) c.buildAck.2 rfl

/-! ## Every segment a call sends -/

theorem Emits.append {ps qs : List TcpSegment} (hp : c.Emits ps) (hq : c.Emits qs) : c.Emits (ps ++ qs) := by
  intro p h
  rcases List.mem_append.mp h with h | h
  · exact hp p h
  · exact hq p h

def Pumps (c : TcpConnection) (r : TcpConnection × List TcpSegment) : Prop :=
  r.1.replySide = c.replySide ∧ c.Emits r.2

theorem Pumps.trans {d e : TcpConnection} {sent out : List TcpSegment} (h : c.Pumps (d, sent))
    (hf : d.Pumps (e, out)) :
    c.Pumps (e, sent ++ out) :=
  ⟨hf.1.trans h.1, h.2.append (hf.2.of_replySide h.1)⟩

theorem pumps_emitFin : c.Pumps ((c.emitFin now).1, (c.emitFin now).2.toList) := by
  rcases c.emitFin_cases now with h | ⟨-, -, -, hs, hp⟩
  · rw [h]; exact ⟨rfl, .nil⟩
  · refine ⟨hs.reply, ?_⟩
    rw [hp]
    exact emits_bare rfl

theorem pumps_onRto : c.Pumps (c.onRto now) := by
  refine ⟨(c.onRto_views now).2.2.reply, ?_⟩
  unfold onRto
  split
  · exact (emits_retransmitOldest false).of_replySide rfl
  · exact .nil

theorem pumps_windowUpdate : c.Pumps c.windowUpdate := by
  refine ⟨c.windowUpdate_views.2.2.reply, ?_⟩
  unfold windowUpdate
  split
  · exact emits_buildAck
  · exact .nil

theorem pumps_persist (wasSending : Bool) : c.Pumps (c.persist wasSending now) := by
  obtain ⟨-, hs, h⟩ := c.persist_cases now wasSending
  refine ⟨hs.reply, ?_⟩
  rcases h with ⟨-, h⟩ | ⟨-, -, -, -, h⟩
  · rw [h]; exact .nil
  · rw [h]; exact emits_bare rfl

theorem pumps_pollOutput : c.Pumps (c.pollOutput now) := by
  refine c.pollOutput_invariant now (P := fun d sent => c.Pumps (d, sent)) ⟨rfl, .nil⟩ ?_ ?_ ?_ ?_ ?_ ?_ ?_
  · exact fun d sent k h _ _ _ _ => ⟨h.1, h.2.append (emits_bare rfl)⟩
  · exact fun d sent h => h.trans pumps_emitFin
  · exact fun d sent h => h
  · exact fun d sent h => h.trans pumps_onRto
  · exact fun d sent h => h.trans pumps_windowUpdate
  · exact fun d sent b h _ => h.trans (pumps_persist b)
  · exact fun d sent h => ⟨(d.expireTimeWait_views now).2.2.reply.trans h.1, h.2⟩

theorem emits_call (k : Call) : (c.call k).1.Emits (c.call k).2 := by
  cases k with
  | handleSegment seg now => exact (c.handleSegmentAt_turn seg now).speaks.emits
  | write data | read n => exact .nil
  | pollOutput now => exact pumps_pollOutput.2.of_replySide pumps_pollOutput.1.symm
  | initiateClose now =>
    unfold TcpConnection.call initiateCloseAt
    simp only
    split
    · split
      · rcases emitFin_cases { c with currentTimeMs := now, closeRequested := true } now with h | ⟨-, -, -, -, hp⟩
        · rw [h]; exact .nil
        · rw [hp]; exact emits_bare rfl
      · exact .nil
    · exact .nil
  | initiateSyn now =>
    intro p hp
    rw [List.mem_singleton.mp hp]
    refine .inl ⟨.inl rfl, ?_, ?_⟩
    · simp only [initiateSynAt, segment]
      cases c.tsEnabled <;> simp [TcpOption.Known]
    · simp only [initiateSynAt, segment]
      cases c.tsEnabled <;> simp [optionsSize, TcpOption.size, tcpMaxOptionsLen]
  | sendData payload now =>
    unfold TcpConnection.call sendDataAt
    simp only
    split
    · exact pumps_pollOutput.2.of_replySide pumps_pollOutput.1.symm
    · exact .nil

theorem returns_of_not_overflow {k : Call} (h : ¬ (c.call k).1.OptionsOverflow) : c.Returns k := by
  intro p hp
  rcases emits_call k p hp with hplain | ⟨-, v, hv⟩
  · exact hplain.serialises
  · exact (serialises_of_reply hv).mpr h

/-- The replies fit exactly when the connection does not have both four blocks and a timestamp to send, and a call
returns exactly when it sends no options of a connection that does. -/
theorem replies_fit_iff (c : TcpConnection) :
    (c.buildAck.2.Serialises ∧ (∀ now fast p, (c.retransmitOldest now fast).2 = some p → p.Serialises) ↔
      ¬ c.OptionsOverflow) ∧
      ∀ k, c.Returns k ↔
        ((c.call k).1.OptionsOverflow → ∀ p ∈ (c.call k).2, p.flags.syn = false → p.options = []) := by
  refine ⟨⟨?_, ?_⟩, ?_⟩
  · intro h
    exact serialises_buildAck.mp h.1
  · intro h
    refine ⟨serialises_buildAck.mpr h, ?_⟩
    intro now fast p hp
    rcases emits_retransmitOldest fast p (Option.mem_toList.mpr hp) with hplain | ⟨-, v, hv⟩
    · exact hplain.serialises
    · exact (serialises_of_reply hv).mpr h
  · intro k
    constructor
    · intro h ho p hp hsyn
      rcases emits_call k p hp with hplain | ⟨-, v, hv⟩
      · exact hplain.bare.resolve_left (by rw [hsyn]; decide)
      · exact absurd ho ((serialises_of_reply hv).mp (h p hp))
    · intro h
      by_cases ho : (c.call k).1.OptionsOverflow
      · intro p hp
        rcases emits_call k p hp with hplain | ⟨hsyn, -⟩
        · exact hplain.serialises
        · exact (TcpSegment.plain_of_bare (h ho p hp hsyn)).serialises
      · exact returns_of_not_overflow ho

end

end TcpConnection

/-- A server after one-byte segments that leave three holes. -/
def threeHoles : TcpConnection :=
  (handshaken [.sackPermitted, .timestamp 1 0]).callAll
    [.handleSegment (fromPeer 10 1001 .ackOnly [] [1]) 1, .handleSegment (fromPeer 20 1001 .ackOnly [] [2]) 2,
      .handleSegment (fromPeer 30 1001 .ackOnly [] [3]) 3]

/-- A byte behind a fourth hole makes it answer with 44 bytes of options, which the serialiser refuses. -/
theorem fourth_hole_panics :
    Reachable (fun _ => False) threeHoles ∧
      (threeHoles.handleSegmentAt (fromPeer 40 1001 .ackOnly [] [4]) 4).2.map
          (fun p => trySerializeWithOptions serverAddr.ip peerAddr.ip p) =
        some (.error (.optionsTooLong 44 40)) ∧
      ¬ threeHoles.Returns (.handleSegment (fromPeer 40 1001 .ackOnly [] [4]) 4) := by
  have hreach : Reachable (fun _ => False) (handshaken [.sackPermitted, .timestamp 1 0]) :=
    .callAll (.server _ _ _) (opens_of_none rfl) (by decide +kernel)
  have herr : (threeHoles.handleSegmentAt (fromPeer 40 1001 .ackOnly [] [4]) 4).2.map
      (fun p => trySerializeWithOptions serverAddr.ip peerAddr.ip p) = some (.error (.optionsTooLong 44 40)) := by
    decide +kernel
  refine ⟨hreach.callAll (opens_of_none rfl) (by decide +kernel), herr, ?_⟩
  intro h
  obtain ⟨p, hp, he⟩ := Option.map_eq_some_iff.mp herr
  obtain ⟨bytes, hb⟩ := h p (Option.mem_toList.mpr hp) serverAddr.ip peerAddr.ip
  rw [he] at hb
  cases hb

/-! ## Which segments are answered -/

namespace TcpConnection

def answering (c : TcpConnection) : Bool :=
  match c.state with
  | .established | .finWait1 | .finWait2 | .closeWait | .closing | .lastAck | .timeWait => true
  | _ => false

def Answered (r : TcpConnection × Option TcpSegment) : Prop :=
  r.1.state = .closed ∨ ∃ p, r.2 = some p ∧ p.Serialises ∧ p.ackNum = r.1.rcvNxt

/-- The options of a reply from `c` do not fit once those of `seg` are taken in. -/
def ReplyOverflows (c : TcpConnection) (seg : TcpSegment) : Prop :=
  (c.sackPermitted = true ∨ .sackPermitted ∈ seg.options) ∧ c.tsEnabled = true ∧ 4 ≤ c.buildSackBlocks.length

/-- Whether `c` answers the segment. Every reply but the one in `TimeWait` carries options. -/
def Heard (c : TcpConnection) (seg : TcpSegment) : Prop :=
  if c.pawsRejects seg (c.timestampOf seg) then ¬ c.ReplyOverflows seg
  else
    match c.state with
    | .established | .finWait1 | .finWait2 =>
      if seg.flags.ack = true ∧ seqGt seg.ackNum c.sndNxt = true then ¬ c.ReplyOverflows seg
      else
        (seg.payload ≠ [] ∨ c.finConsumed seg = true) ∧ ¬ (c.acceptData seg.seqNum seg.payload).ReplyOverflows seg
    | .closeWait => seg.flags.fin = true ∧ ¬ c.ReplyOverflows seg
    | .lastAck => seg.flags.ack = true ∧ seqGe seg.ackNum c.sndNxt = true
    | .timeWait => seg.flags.fin = true
    | _ => False

section
variable {c d d' : TcpConnection} {seg : TcpSegment} {now : Nat}

theorem optionsOverflow_congr (h : d'.replySide = d.replySide) : d'.OptionsOverflow ↔ d.OptionsOverflow := by
  rw [← not_iff_not, ← @replyOptions_fits_iff d' 0, ← @replyOptions_fits_iff d 0, replyOptions_congr h]

theorem not_answered_none (h : d.state ≠ .closed) : ¬ Answered (d, none) := by
  rintro (hc | ⟨p, hp, -⟩)
  · exact h hc
  · cases hp

theorem answered_buildAck_iff (hst : d'.state ≠ .closed) (hrecv : d'.receiver = d.receiver) :
    Answered (d', some d.buildAck.2) ↔ ¬ d.OptionsOverflow := by
  rw [← serialises_buildAck]
  constructor
  · rintro (hc | ⟨p, hp, hs, -⟩)
    · exact absurd hc hst
    · cases hp; exact hs
  · intro hs
    exact .inr ⟨_, rfl, hs, (congrArg Receiver.rcvNxt hrecv).symm⟩

theorem finConsumed_congr (h : d.recvSide = c.recvSide) : d.finConsumed seg = c.finConsumed seg := by
  have hn : d.rcvNxt = c.rcvNxt := congrArg RecvSide.rcvNxt h
  have hf : d.finReceived = c.finReceived := congrArg RecvSide.finReceived h
  unfold finConsumed
  rw [hn, hf]

theorem overflows_iff (hs : d.sackPermitted = (c.sackPermitted || decide (.sackPermitted ∈ seg.options)))
    (ht : d.tsEnabled = c.tsEnabled) (ho : d.oooSegments = c.oooSegments) :
    d.OptionsOverflow ↔ c.ReplyOverflows seg := by
  simp [OptionsOverflow, ReplyOverflows, buildSackBlocks, hs, ht, ho]

theorem stamped_overflows : (c.stamped seg now).OptionsOverflow ↔ c.ReplyOverflows seg := by
  obtain ⟨_, _, _, h⟩ := stamped_eq c seg now
  rw [h]
  exact overflows_iff rfl rfl rfl

theorem receive_overflows (h : d.receiver = c.receiver) (hr : d.replySide = (c.stamped seg now).replySide) :
    (d.receive seg now).OptionsOverflow ↔ (c.acceptData seg.seqNum seg.payload).ReplyOverflows seg := by
  have haccept := congrArg Receiver.ooo (acceptData_receiver c seg.seqNum seg.payload h)
  obtain ⟨r, view, hd⟩ := d.acceptData_eq seg.seqNum seg.payload
  obtain ⟨r', view', hc⟩ := c.acceptData_eq seg.seqNum seg.payload
  obtain ⟨_, _, _, hst⟩ := stamped_eq c seg now
  rw [hst] at hr
  have hreply : (d.receive seg now).replySide = (d.acceptData seg.seqNum seg.payload).replySide := by
    rw [receive_eq]
    split
    · unfold consumeFin
      cases (d.acceptData seg.seqNum seg.payload).state <;> rfl
    · rfl
  refine (optionsOverflow_congr hreply).trans (overflows_iff ?_ ?_ haccept)
  · rw [hd, hc]
    exact congrArg ReplySide.sackPermitted hr
  · rw [hd, hc]
    exact congrArg ReplySide.tsEnabled hr

theorem answered_onData_iff (hs : c.state = .established ∨ c.state = .finWait1 ∨ c.state = .finWait2)
    (ho : seg.payload ≠ [] ∨ seg.flags.fin = true) :
    Answered (c.onData seg now) ↔
      if seg.flags.ack = true ∧ seqGt seg.ackNum c.sndNxt = true then ¬ c.OptionsOverflow
      else
        (seg.payload ≠ [] ∨ c.finConsumed seg = true) ∧
          ¬ ((c.slideWindow seg now).1.receive seg now).OptionsOverflow := by
  have hkeeps : ∀ d : TcpConnection, d.state = ((c.slideWindow seg now).1.receive seg now).state →
      (d.advanceClose now).state ≠ .closed := by
    intro d hd hcl
    have hst := (c.slideWindow_cases seg now).1
    have hk := advanceClose_receive_keeps (c.slideWindow seg now).1 seg now (by rw [hst]; exact hs) hd
    rw [hcl, hst] at hk
    rcases hs with hs | hs | hs <;> rw [hs] at hk <;> cases hk
  have hresp : (c.slideWindow seg now).2 = none := by
    cases hr : (c.slideWindow seg now).2 with
    | none => rfl
    | some p =>
      obtain ⟨hp, hf, -⟩ := c.slideWindow_answers seg now hr
      rw [hp, hf] at ho
      simp at ho
  have hfin : (c.slideWindow seg now).1.finConsumed seg = c.finConsumed seg :=
    finConsumed_congr (congrArg Receiver.recvSide (c.slideWindow_cases seg now).2.1.receiver)
  unfold onData
  by_cases hb : seg.flags.ack = true ∧ seqGt seg.ackNum c.sndNxt = true
  · rw [if_pos hb, if_pos (by simpa using hb)]
    refine answered_buildAck_iff ?_ rfl
    rw [buildAck_state, countInvalid_state]
    rcases hs with hs | hs | hs <;> rw [hs] <;> decide
  · rw [if_neg hb, if_neg (by simpa using hb)]
    simp only [hresp, decide_true, Bool.and_true, tookSpace, hfin]
    by_cases ht : seg.payload ≠ [] ∨ c.finConsumed seg = true
    · rw [if_pos (by simpa using ht)]
      simp only [ht, true_and]
      exact answered_buildAck_iff (hkeeps _ rfl) (advanceClose_views _ now).1
    · rw [if_neg (by simpa using ht)]
      simp only [ht, false_and, iff_false]
      exact not_answered_none (hkeeps _ rfl)

theorem answered_onCloseWait_iff (hs : c.state = .closeWait) :
    Answered (c.onCloseWait seg now) ↔ seg.flags.fin = true ∧ ¬ c.OptionsOverflow := by
  have hkept : ∃ d : TcpConnection, (if seg.flags.ack && c.ackAcceptable seg.ackNum then
      { c with sndWnd := seg.windowSize }.takeAck seg.ackNum now else c) = d ∧ d.state ≠ .closed ∧
      d.replySide = c.replySide := by
    refine ⟨_, rfl, ?_⟩
    split
    · exact ⟨by rw [takeAck_state, hs]; decide, rfl⟩
    · exact ⟨by rw [hs]; decide, rfl⟩
  obtain ⟨d, hd, hst, hreply⟩ := hkept
  unfold onCloseWait
  rw [hd]
  by_cases hf : seg.flags.fin = true
  · simp only [hf, if_true, true_and]
    exact (answered_buildAck_iff hst rfl).trans (optionsOverflow_congr hreply).not
  · simp only [hf, Bool.false_eq_true, if_false, false_and, iff_false]
    exact not_answered_none hst

theorem answered_onTimeWait_iff (hs : c.state = .timeWait) :
    Answered (c.onTimeWait seg) ↔ seg.flags.fin = true := by
  unfold onTimeWait
  by_cases hf : seg.flags.fin = true
  · simp only [hf, if_true, iff_true]
    exact .inr ⟨_, rfl, (TcpSegment.plain_of_bare rfl).serialises, rfl⟩
  · simp only [hf, Bool.false_eq_true, if_false, iff_false]
    exact not_answered_none (by rw [hs]; decide)

theorem answered_onLastAck_iff (hs : c.state = .lastAck) :
    Answered (c.onLastAck seg now, none) ↔ seg.flags.ack = true ∧ seqGe seg.ackNum c.sndNxt = true := by
  unfold onLastAck
  by_cases hb : seg.flags.ack = true ∧ seqGe seg.ackNum c.sndNxt = true
  · simp only [hb, Bool.and_self, if_true, and_self, iff_true]
    exact .inl rfl
  · have hbb : (seg.flags.ack && seqGe seg.ackNum c.sndNxt) = false := by simpa using hb
    simp only [hbb, Bool.false_eq_true, if_false, hb, iff_false]
    exact not_answered_none (by rw [hs]; decide)

theorem answered_iff (hs : c.answering = true) (hr : seg.flags.rst = false)
    (ho : seg.payload ≠ [] ∨ seg.flags.fin = true) :
    Answered (c.handleSegmentAt seg now) ↔ c.Heard seg := by
  have hsy : c.synchronized = true := by
    unfold answering at hs
    unfold synchronized
    cases hst : c.state <;> rw [hst] at hs <;> first | rfl | cases hs
  have hlive : c.state ≠ .closed := by
    intro hcl
    rw [answering, hcl] at hs
    cases hs
  unfold Heard
  by_cases hp : c.pawsRejects seg (c.timestampOf seg) = true
  · rw [if_pos hp, handleSegmentAt_of_paws hsy hp]
    have hkept : (c.arrived seg now).discardOld.1.state ≠ .closed := hlive
    exact Iff.trans (answered_buildAck_iff hkept rfl) (not_congr (overflows_iff rfl rfl rfl))
  · rw [if_neg hp]
    rw [Bool.not_eq_true] at hp
    rw [handleSegmentAt_of_passed hsy hp hr]
    have hfin : (c.stamped seg now).finConsumed seg = c.finConsumed seg :=
      finConsumed_congr (stamped_recvSide c seg now)
    have hslide := ((c.stamped seg now).slideWindow_cases seg now).2.1
    have hstamped : (c.stamped seg now).receiver = c.receiver := by
      obtain ⟨_, _, _, h⟩ := stamped_eq c seg now
      rw [h]
      rfl
    have hdata := @answered_onData_iff (c.stamped seg now) seg now
    rw [stamped_state, hfin, stamped_sndNxt, stamped_overflows,
      receive_overflows (hslide.receiver.trans hstamped) hslide.reply] at hdata
    unfold dispatch
    rw [stamped_state]
    cases hst : c.state with
    | established => exact hdata (.inl hst) ho
    | finWait1 => exact hdata (.inr (.inl hst)) ho
    | finWait2 => exact hdata (.inr (.inr hst)) ho
    | closeWait =>
      exact (answered_onCloseWait_iff (stamped_state.trans hst)).trans (and_congr_right' stamped_overflows.not)
    | closing =>
      refine iff_of_false (not_answered_none ?_) id
      unfold onClosing
      split
      · intro hcl; cases hcl
      · rw [stamped_state, hst]; decide
    | lastAck =>
      have := @answered_onLastAck_iff (c.stamped seg now) seg now (stamped_state.trans hst)
      rw [stamped_sndNxt] at this
      exact this
    | timeWait => exact answered_onTimeWait_iff (stamped_state.trans hst)
    | listen | synSent | synReceived => rw [answering, hst] at hs; cases hs
    | closed => exact absurd hst hlive

end

end TcpConnection

open TcpConnection

def halfClosed : TcpConnection :=
  (handshaken []).callAll
    [.handleSegment (fromPeer 1 1001 .ackOnly [] [7]) 1, .handleSegment (fromPeer 2 1001 .finAck [] []) 2]

def bothClosing : TcpConnection :=
  (handshaken []).callAll [.initiateClose 1, .handleSegment (fromPeer 1 1001 .finAck [] []) 2]

/-- Neither the byte nor the FIN sent again is answered, so a peer that lost the acknowledgement repeats them until
it gives up. -/
theorem repeated_segments_unanswered :
    (Reachable (fun _ => False) halfClosed ∧ halfClosed.state = .closeWait ∧
      ¬ TcpConnection.Answered (halfClosed.handleSegmentAt (fromPeer 1 1001 .ackOnly [] [7]) 3)) ∧
    (Reachable (fun _ => False) bothClosing ∧ bothClosing.state = .closing ∧
      ¬ TcpConnection.Answered (bothClosing.handleSegmentAt (fromPeer 1 1001 .finAck [] []) 3)) := by
  have hreach : Reachable (fun _ => False) (handshaken []) :=
    .callAll (.server _ _ _) (opens_of_none rfl) (by decide +kernel)
  have hsilent : (halfClosed.handleSegmentAt (fromPeer 1 1001 .ackOnly [] [7]) 3).1.state ≠ .closed ∧
      (halfClosed.handleSegmentAt (fromPeer 1 1001 .ackOnly [] [7]) 3).2 = none ∧
      (bothClosing.handleSegmentAt (fromPeer 1 1001 .finAck [] []) 3).1.state ≠ .closed ∧
      (bothClosing.handleSegmentAt (fromPeer 1 1001 .finAck [] []) 3).2 = none := by decide +kernel
  obtain ⟨h₁, h₂, h₃, h₄⟩ := hsilent
  refine ⟨⟨hreach.callAll (opens_of_none rfl) (by decide +kernel), by decide +kernel, ?_⟩,
    hreach.callAll (opens_of_none rfl) (by decide +kernel), by decide +kernel, ?_⟩
  · rintro (hc | ⟨p, hp, -⟩)
    · exact h₁ hc
    · rw [h₂] at hp; cases hp
  · rintro (hc | ⟨p, hp, -⟩)
    · exact h₃ hc
    · rw [h₄] at hp; cases hp

theorem new_data_answered :
    TcpConnection.Answered ((handshaken []).handleSegmentAt (fromPeer 1 1001 .ackOnly [] [7]) 1) := by
  refine (answered_iff (by decide +kernel) rfl (.inl (by decide))).mpr ?_
  have hp : (handshaken []).pawsRejects (fromPeer 1 1001 .ackOnly [] [7])
      ((handshaken []).timestampOf (fromPeer 1 1001 .ackOnly [] [7])) = false := by decide +kernel
  have hs : (handshaken []).state = .established := by decide +kernel
  unfold Heard
  rw [hp, hs]
  exact ⟨.inl (by decide), fun h => absurd h.2.1 (by decide +kernel)⟩

end SystemsLab.Tcp
