import SystemsLab.Tcp.Views

/-!
# What one segment makes a connection do

`TcpConnection.Turn` says at once what an inbound segment can do, so the handlers of the states are gone through
once.
-/

namespace SystemsLab.Tcp

structure TcpSegment.Plain (p : TcpSegment) : Prop where
  bare : p.flags.syn = true ∨ p.options = []
  known : ∀ o ∈ p.options, o.Known
  fits : optionsSize p.options ≤ tcpMaxOptionsLen

theorem TcpSegment.plain_of_bare {p : TcpSegment} (h : p.options = []) : p.Plain := by
  refine ⟨.inr h, ?_, ?_⟩
  · rw [h]; intro o ho; cases ho
  · rw [h]; decide

/-- An acknowledgement that carries nothing, a retransmission, the SYN-ACK of a server, or that of a client whose
peer opens at the same time. -/
def Answers (st : TcpState) (s : SendSide) (seg p : TcpSegment) : Prop :=
  p.flags.syn = false ∧ p.flags.fin = false ∧ p.payload = [] ∨
    (∃ e ∈ s.queue, p.seqNum = e.seqNum ∧ p.flags = e.flags ∧ p.payload = e.payload) ∨
    st = .listen ∧ p.seqNum = s.nxt ∧ p.flags = .synAck ∧ p.payload = [] ∨
    st = .synSent ∧ seg.flags.syn = true ∧ seg.flags.ack = false

namespace TcpConnection

def Emits (c : TcpConnection) (ps : List TcpSegment) : Prop :=
  ∀ p ∈ ps, p.Plain ∨ p.flags.syn = false ∧ ∃ val, p.options = c.replyOptions val

inductive ReceiverStep (c : TcpConnection) (seg : TcpSegment) (now : Nat) (c' : TcpConnection) : Prop
  | keep (hst : c.state.Moves c'.state) (h : c'.receiver = c.receiver)
  | opened (hs : c.state.opening = true) (hsyn : seg.flags.syn = true) (hst : c'.state.opening = false)
    (h : c'.receiver = { c.receiver with rcvNxt := ahead seg.seqNum 1 })
  | reset (hst : c'.state = .closed) (h : c'.receiver = { c.receiver with ooo := [], queue := [] })
  | early (hs : c.state = .synReceived) (hst : c'.state.opening = false) (d : TcpConnection)
      (hd : d.receiver = c.receiver)
    (h : c'.receiver = (d.acceptData seg.seqNum seg.payload).receiver)
  | data (hs : c.state = .established ∨ c.state = .finWait1 ∨ c.state = .finWait2) (hst : c'.state.opening = false)
    (d : TcpConnection) (hd : d.receiver = c.receiver) (h : c'.receiver = (d.receive seg now).receiver)

/-- The answer is fit to be sent by the connection after the turn, and is one of those the send side before it
allows. -/
structure Speaks (c : TcpConnection) (seg : TcpSegment) (r : TcpConnection × Option TcpSegment) : Prop where
  emits : r.1.Emits r.2.toList
  answers : ∀ p, r.2 = some p → Answers c.state c.sendSide seg p

structure Turn (passes : Prop) (c : TcpConnection) (seg : TcpSegment) (now : Nat)
    (r : TcpConnection × Option TcpSegment) : Prop where
  send : SendStep passes seg.ackNum c.state c.sendSide r.1.state r.1.sendSide
  receive : ReceiverStep c seg now r.1
  speaks : Speaks c seg r

section
variable {c d d' : TcpConnection} {seg p : TcpSegment} {now : Nat} {val : Seq}

/-! ## Answers -/

theorem Emits.nil : c.Emits [] := by intro p hp; cases hp

theorem emits_bare (h : p.options = []) : c.Emits [p] := by
  intro q hq
  rw [List.mem_singleton.mp hq]
  exact .inl (TcpSegment.plain_of_bare h)

theorem replyOptions_congr (h : c.replySide = d.replySide) : c.replyOptions val = d.replyOptions val := by
  have hs : c.sackPermitted = d.sackPermitted := congrArg ReplySide.sackPermitted h
  have ho : c.oooSegments = d.oooSegments := congrArg ReplySide.ooo h
  have he : c.tsEnabled = d.tsEnabled := congrArg ReplySide.tsEnabled h
  have hr : c.tsRecent = d.tsRecent := congrArg ReplySide.tsRecent h
  have hb : c.sackBlocks = d.sackBlocks := by
    unfold sackBlocks buildSackBlocks
    rw [hs, ho]
  unfold replyOptions
  rw [hb, he, hr]

theorem Emits.of_replySide {ps : List TcpSegment} (h : c.Emits ps) (he : c.replySide = d.replySide) :
    d.Emits ps := by
  intro p hp
  rcases h p hp with h | ⟨hs, v, hv⟩
  · exact .inl h
  · exact .inr ⟨hs, v, hv.trans (replyOptions_congr he)⟩

theorem emits_buildAck : c.Emits [c.buildAck.2] := by
  intro p hp
  rw [List.mem_singleton.mp hp]
  exact .inr ⟨rfl, _, rfl⟩

theorem emits_retransmitOldest (fast : Bool) : c.Emits (c.retransmitOldest now fast).2.toList := by
  intro p hp
  obtain ⟨-, -, -, h⟩ := c.retransmitOldest_cases now fast
  obtain ⟨e, -, -, hf, -, ho⟩ := h p (Option.mem_toList.mp hp)
  by_cases hsyn : e.flags.syn = true
  · rw [if_pos hsyn] at ho
    refine .inl ⟨.inl (by rw [hf]; exact hsyn), ?_, ?_⟩ <;> rw [ho] <;> split <;>
      simp [TcpOption.Known, optionsSize, TcpOption.size, tcpMaxOptionsLen]
  · rw [if_neg hsyn] at ho
    exact .inr ⟨by rw [hf]; simpa using hsyn, _, ho⟩

theorem speaks_none : Speaks c seg (d, none) := ⟨.nil, fun p h => by cases h⟩

theorem speaks_ack (h : d'.replySide = d.replySide) : Speaks c seg (d', some d.buildAck.2) :=
  ⟨emits_buildAck.of_replySide h.symm, by rintro p ⟨⟩; exact .inl ⟨rfl, rfl, rfl⟩⟩

theorem speaks_reply {seq : Seq} : Speaks c seg (d', some (d.reply seq .ackOnly []).2) :=
  ⟨emits_bare rfl, by rintro p ⟨⟩; exact .inl ⟨rfl, rfl, rfl⟩⟩

theorem speaks_slideWindow (h : (c.slideWindow seg now).2 = some p)
    (hd : ∀ e : TcpConnection, e.replySide = c.replySide → seg.payload = [] → seg.flags.fin = false →
      d.replySide = e.replySide) :
    Speaks c seg (d, some p) := by
  obtain ⟨hp, hf, e, hq, hreply, he⟩ := c.slideWindow_answers seg now h
  have hsent : e.Emits [p] := by simpa [he] using @emits_retransmitOldest e now true
  refine ⟨hsent.of_replySide (hd e hreply hp hf).symm, ?_⟩
  rintro _ ⟨⟩
  obtain ⟨-, -, -, hr⟩ := e.retransmitOldest_cases now true
  obtain ⟨x, hx, h₁, h₂, h₃, -⟩ := hr p he
  exact .inr (.inl ⟨x.sent, List.mem_map_of_mem (hq ▸ hx), h₁, h₂, h₃⟩)

theorem receive_of_empty (hp : seg.payload = []) (hf : seg.flags.fin = false) : c.receive seg now = c := by
  unfold receive finConsumed
  simp [hp, hf]

/-! ## The handlers -/

theorem opening_of_keeps {st st' : TcpState} (h : keeps st st' = true) (hst : st.opening = false) :
    st'.opening = false := by
  cases st <;> cases hst <;> cases st' <;> first | rfl | cases h

theorem Turn.quiet {passes : Prop} : Turn passes c seg now (c, none) :=
  ⟨.keep (keeps_self _), .keep (.refl _) rfl, speaks_none⟩

theorem onData_turn (hs : c.state = .established ∨ c.state = .finWait1 ∨ c.state = .finWait2) :
    Turn (seg.flags.ack = true) c seg now (c.onData seg now) := by
  have hopen : c.state.opening = false := by rcases hs with hs | hs | hs <;> rw [hs] <;> rfl
  obtain ⟨hst, hrest, hside⟩ := c.slideWindow_cases seg now
  have hturn : ∀ {d : TcpConnection} {reply : Option TcpSegment},
      d.state = ((c.slideWindow seg now).1.receive seg now).state →
      d.sendSide = (c.slideWindow seg now).1.sendSide →
        d.receiver = ((c.slideWindow seg now).1.receive seg now).receiver →
      Speaks c seg (d.advanceClose now, reply) → Turn (seg.flags.ack = true) c seg now
        (d.advanceClose now, reply) := by
    intro d reply hd hs' hrecv hsp
    have hk := advanceClose_receive_keeps (c.slideWindow seg now).1 seg now (by rw [hst]; exact hs) hd
    rw [hst] at hk
    refine ⟨?_, .data hs (opening_of_keeps hk hopen) _ hrest.receiver
      ((advanceClose_views d now).1.trans hrecv), hsp⟩
    rw [advanceClose_sendSide, hs']
    rcases hside with hside | ⟨ha, hside⟩
    · rw [hside]
      exact .keep hk
    · rw [hside]
      exact .ack (by tauto) hk (c.ackAcceptable_iff.mp ha)
  unfold onData
  split
  · exact ⟨.keep (keeps_self _), .keep (.refl _) rfl, speaks_ack rfl⟩
  · simp only
    split
    · exact hturn rfl (by simp) rfl (speaks_ack (advanceClose_views _ now).2)
    · refine hturn rfl (by simp) rfl ?_
      cases hr : (c.slideWindow seg now).2 with
      | none => exact speaks_none
      | some p =>
        refine speaks_slideWindow hr fun e he hp hf => ?_
        rw [(advanceClose_views _ now).2, receive_of_empty hp hf, hrest.reply, he]

theorem dispatch_turn : Turn (seg.flags.ack = true) c seg now (c.dispatch seg now) := by
  unfold dispatch
  cases hs : c.state with
  | listen =>
    simp only [onListen]
    split
    · rename_i hsyn
      refine ⟨?_, .opened (by rw [hs]; rfl) hsyn rfl rfl, ?_, ?_⟩
      · rw [trackForRetransmit_sendSide, hs]
        exact .listen
      · intro p hp
        rw [List.mem_singleton.mp hp]
        refine .inl ⟨.inl rfl, ?_, ?_⟩ <;> simp only [reply, segment] <;> cases c.peerSackPermitted <;>
          cases c.tsEnabled <;>
          simp [TcpOption.Known, optionsSize, TcpOption.size, tcpMaxOptionsLen]
      · rintro p ⟨⟩
        exact .inr (.inr (.inl ⟨hs, rfl, rfl, rfl⟩))
    · exact .quiet
  | synSent =>
    simp only [onSynSent]
    split
    · rename_i hf
      simp only [Bool.and_eq_true] at hf
      split
      · rename_i ha
        refine ⟨?_, .opened (by rw [hs]; rfl) hf.1 rfl rfl, speaks_reply⟩
        rw [reply_sendSide, takeAck_sendSide]
        exact .opened (.inl hs) ha
      · exact .quiet
    · rename_i hf
      split
      · rename_i hsyn
        refine ⟨.keep (by rw [hs]; rfl), .opened (by rw [hs]; rfl) hsyn rfl rfl, emits_bare rfl, ?_⟩
        rintro p ⟨⟩
        exact .inr (.inr (.inr ⟨hs, hsyn, by simpa [hsyn] using hf⟩))
      · exact .quiet
  | synReceived =>
    simp only [onSynReceived]
    split
    · rename_i ha
      have hn : seg.ackNum = c.sndNxt := of_decide_eq_true ((Bool.and_eq_true _ _).mp ha).2
      split
      · rename_i hp
        refine ⟨?_, .early hs rfl c rfl (by rw [hp, acceptData_nil]; rfl), speaks_none⟩
        rw [takeAck_sendSide]
        exact .opened (.inr hs) hn
      · refine ⟨?_, .early hs ?_ _ ?_ (buildAck_receiver _), speaks_ack rfl⟩
        · rw [buildAck_sendSide, acceptData_sendSide, takeAck_sendSide, buildAck_state, acceptData_state]
          exact .opened (.inr hs) hn
        · rw [buildAck_state, acceptData_state, takeAck_state]; rfl
        · rfl
    · exact .quiet
  | established => exact onData_turn (.inl hs)
  | finWait1 => exact onData_turn (.inr (.inl hs))
  | finWait2 => exact onData_turn (.inr (.inr hs))
  | closeWait =>
    simp only [onCloseWait]
    by_cases ha : (seg.flags.ack && c.ackAcceptable seg.ackNum) = true
    · have hack : SendStep (seg.flags.ack = true) seg.ackNum c.state c.sendSide c.state
          (c.sendSide.ack seg.ackNum) :=
        .ack (by simp [hs]) (keeps_self _) (c.ackAcceptable_iff.mp ((Bool.and_eq_true _ _).mp ha).2)
      simp only [ha, if_true]
      split
      · refine ⟨?_, .keep (.refl _) rfl, speaks_ack rfl⟩
        rw [buildAck_sendSide, takeAck_sendSide]; exact hack
      · refine ⟨?_, .keep (.refl _) rfl, speaks_none⟩
        rw [takeAck_sendSide]; exact hack
    · simp only [ha, Bool.false_eq_true, if_false]
      split
      · exact ⟨.keep (keeps_self _), .keep (.refl _) rfl, speaks_ack rfl⟩
      · exact .quiet
  | closing =>
    simp only [onClosing]
    split
    · rename_i ha
      rw [Bool.and_eq_true] at ha
      refine ⟨?_, .keep (.inr (.inr ⟨by rw [hs]; rfl, rfl⟩)) rfl, speaks_none⟩
      exact takeAck_sendSide c now seg.ackNum ▸ .closed (.inl ⟨hs, rfl⟩) ha.1 ha.2
    · exact .quiet
  | lastAck =>
    simp only [onLastAck]
    split
    · rename_i ha
      rw [Bool.and_eq_true] at ha
      refine ⟨?_, .keep (.inr (.inl rfl)) rfl, speaks_none⟩
      exact takeAck_sendSide c now seg.ackNum ▸ .closed (.inr ⟨hs, rfl⟩) ha.1 ha.2
    · exact .quiet
  | timeWait =>
    simp only [onTimeWait]
    split
    · exact ⟨.keep (keeps_self _), .keep (.refl _) rfl, speaks_reply⟩
    · exact .quiet
  | closed => exact .quiet

end

section
variable (c : TcpConnection) (seg : TcpSegment) (now : Nat)

theorem handleSegmentAt_turn : Turn (c.Passes seg now) c seg now (c.handleSegmentAt seg now) := by
  have hst := c.taken_state seg now
  have hsend := c.taken_sendSide seg now
  have hrecv := c.taken_receiver seg now
  rw [handleSegmentAt_eq]
  split
  · obtain ⟨h₁, h₂, h₃⟩ := c.discardOld_views seg now
    exact ⟨by rw [h₁, h₂]; exact .keep (keeps_self _), .keep (.inl h₁) h₃, speaks_ack rfl⟩
  · rename_i hpaws
    split
    · unfold handleRst
      split
      · rename_i hrst
        refine ⟨?_, .reset rfl (by rw [← hrecv]; rfl), speaks_none⟩
        rw [← hsend]
        exact .reset (by rw [← hst]; exact rstAcceptable_state _ seg hrst)
      · refine ⟨?_, .keep (.inl hst) hrecv, speaks_none⟩
        rw [countInvalid_state, countInvalid_sendSide, hst, hsend]
        exact .keep (keeps_self _)
    · rename_i hrst
      obtain ⟨h, hstep, hemits, hanswers⟩ : Turn _ (c.taken seg now) seg now _ := dispatch_turn
      rw [hst, hsend] at h hanswers
      refine ⟨h.imp fun ha => ⟨ha, by simpa using hrst, by simpa using hpaws⟩, ?_, hemits, hanswers⟩
      cases hstep with
      | keep h₁ h₂ => exact .keep (by rw [← hst]; exact h₁) (h₂.trans hrecv)
      | opened h₁ h₂ h₃ h₄ => exact .opened (by rw [← hst]; exact h₁) h₂ h₃ (by rw [h₄, hrecv])
      | reset h₁ h₂ => exact .reset h₁ (by rw [h₂, hrecv])
      | early h₁ h₂ d h₃ h₄ => exact .early (hst.symm.trans h₁) h₂ d (h₃.trans hrecv) h₄
      | data h₁ h₂ d h₃ h₄ => exact .data (by rw [← hst]; exact h₁) h₂ d (h₃.trans hrecv) h₄

end

end TcpConnection

end SystemsLab.Tcp
