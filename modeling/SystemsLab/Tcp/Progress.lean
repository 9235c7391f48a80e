import SystemsLab.Tcp.Buffering
import SystemsLab.Tcp.Replies

/-!
# Progress of the sender

A connection with data to send and nothing outstanding sends some of it at the next `poll_output`, unless the peer's
maximum segment size is zero or the window leaves no room and no probe is due.
-/

namespace SystemsLab.Tcp

def InOrder : Seq → List TcpSegment → List UInt8 → Prop
  | _, [], bytes => bytes = []
  | seq, p :: ps, bytes =>
    p.seqNum = seq ∧ p.payload ≠ [] ∧ ∃ rest, bytes = p.payload ++ rest ∧
      InOrder (ahead seq p.payload.length) ps rest

theorem InOrder.snoc {p : TcpSegment} (hp : p.payload ≠ []) :
    ∀ {ps : List TcpSegment} {seq : Seq} {bytes : List UInt8}, InOrder seq ps bytes →
      p.seqNum = ahead seq bytes.length →
      InOrder seq (ps ++ [p]) (bytes ++ p.payload)
  | [], seq, _, rfl, hseq => ⟨by simpa using hseq, hp, [], by simp, rfl⟩
  | q :: ps, seq, _, ⟨hq, hne, rest, rfl, h⟩, hseq => by
    refine ⟨hq, hne, rest ++ p.payload, List.append_assoc .., h.snoc hp ?_⟩
    rw [ahead_ahead, ← List.length_append]
    exact hseq

namespace TcpConnection

/-- The call returns, and sends some of the queued bytes, in order. -/
def SendsNew (c : TcpConnection) (now : Nat) : Prop :=
  c.Returns (.pollOutput now) ∧ ∃ n, 0 < n ∧ n ≤ c.txBuffer.length ∧
    (c.pollOutput now).1.txBuffer = c.txBuffer.drop n ∧
    ∃ ps, ps.Sublist (c.pollOutput now).2 ∧ InOrder c.sndNxt ps (c.txBuffer.take n)

variable {c d : TcpConnection} {now : Nat}

/-! ## The send phase -/

/-- A phase that sends without options and puts what it sent behind what was outstanding. -/
structure Sends (now : Nat) (c : TcpConnection) (r : TcpConnection × List TcpSegment) : Prop where
  queue : ∃ added, r.1.retransmitQueue = c.retransmitQueue ++ added ∧
    ∀ e ∈ added, e.retransmits = 0 ∧ e.lastSentMs = now
  rtt : r.1.rtt = c.rtt
  bare : ∀ p ∈ r.2, p.options = []

theorem Sends.nil (c : TcpConnection) : Sends now c (c, []) := ⟨⟨[], by simp, nofun⟩, rfl, nofun⟩

theorem Sends.trans {sent out : List TcpSegment} {e : TcpConnection} (h : Sends now c (d, sent))
    (h' : Sends now d (e, out)) :
    Sends now c (e, sent ++ out) := by
  obtain ⟨new, hq, hnew⟩ := h.queue
  obtain ⟨new', hq', hnew'⟩ := h'.queue
  exact ⟨⟨new ++ new', by rw [← List.append_assoc, ← hq]; exact hq', List.forall_mem_append.mpr ⟨hnew, hnew'⟩⟩,
    h'.rtt.trans h.rtt, List.forall_mem_append.mpr ⟨h.bare, h'.bare⟩⟩

theorem sends_tracked {flags : TcpFlags} {payload : List UInt8} {seq : Seq} {len : Nat} {p : TcpSegment}
    (hq : d.retransmitQueue = c.retransmitQueue) (hr : d.rtt = c.rtt) (hp : p.options = []) :
    Sends now c (d.trackForRetransmit seq len flags payload now, [p]) :=
  ⟨⟨_, congrArg (· ++ _) hq, by simp⟩, hr, by simpa using hp⟩

theorem sends_transmitQueued (c : TcpConnection) (now : Nat) : Sends now c (c.transmitQueued now) := by
  unfold transmitQueued
  split
  · refine transmit_invariant now (P := fun d sent => Sends now c (d, sent))
      (fun d sent k h _ _ _ => ?_) _ c [] (.nil c)
    exact h.trans (sends_tracked rfl rfl rfl)
  · exact .nil c

theorem sends_deferredClose (c : TcpConnection) (now : Nat) : Sends now c (c.deferredClose now) := by
  unfold deferredClose emitFin
  split
  · split
    · exact .nil c
    · cases c.state <;> first | exact .nil c | exact sends_tracked rfl rfl rfl
  · exact .nil c

theorem sends_sendPhase (c : TcpConnection) (now : Nat) : Sends now c (c.sendPhase now) :=
  (c.sends_transmitQueued now).trans (sends_deferredClose _ now)

theorem deferredClose_keeps (c : TcpConnection) (now : Nat) :
    (c.deferredClose now).1.txBuffer = c.txBuffer ∧
      (c.deferredClose now).1.lastAdvertisedWnd = c.lastAdvertisedWnd ∧
      (c.deferredClose now).1.currentRcvWnd = c.currentRcvWnd := by
  unfold deferredClose emitFin
  split
  · split
    · exact ⟨rfl, rfl, rfl⟩
    · cases c.state <;> exact ⟨rfl, rfl, rfl⟩
  · exact ⟨rfl, rfl, rfl⟩

/-- After some rounds of the transmit loop, started at `c`: the first `n` bytes are on their way. -/
structure Transmitted (c c' : TcpConnection) (ps : List TcpSegment) (n : Nat) : Prop where
  le : n ≤ c.txBuffer.length
  tx : c'.txBuffer = c.txBuffer.drop n
  next : c'.sndNxt = ahead c.sndNxt n
  carried : InOrder c.sndNxt ps (c.txBuffer.take n)
  tracked : 0 < n → c'.retransmitQueue ≠ [] ∧ c'.lastAdvertisedWnd = c'.currentRcvWnd
  same : c'.state = c.state ∧ c'.closeRequested = c.closeRequested ∧ c'.finSent = c.finSent

theorem Transmitted.sendChunk {c' : TcpConnection} {ps : List TcpSegment} {n k : Nat}
    (h : Transmitted c c' ps n) (hk : 0 < k) (hle : k ≤ c'.txBuffer.length) (flags : TcpFlags) (now : Nat) :
    Transmitted c (c'.sendChunk k flags now).1 (ps ++ [(c'.sendChunk k flags now).2]) (n + k) := by
  have hlen : k ≤ c.txBuffer.length - n := by rw [← List.length_drop, ← h.tx]; exact hle
  have htake : c'.txBuffer.take k ≠ [] := by
    intro h0
    rw [List.take_eq_nil_iff] at h0
    rcases h0 with rfl | h0
    · exact hk.ne rfl
    · rw [h0, List.length_nil] at hle
      omega
  refine ⟨by have := h.le; omega, ?_, ?_, ?_, fun _ =>
    ⟨List.append_ne_nil_of_right_ne_nil _ (List.cons_ne_nil _ _), rfl⟩, h.same⟩
  · change c'.txBuffer.drop k = _
    rw [h.tx, List.drop_drop]
  · change ahead c'.sndNxt (c'.txBuffer.take k).length = _
    rw [h.next, ahead_ahead, List.length_take, Nat.min_eq_left hle]
  · rw [List.take_add, ← h.tx]
    refine h.carried.snoc htake ?_
    change c'.sndNxt = _
    rw [h.next, List.length_take, Nat.min_eq_left h.le]

theorem transmitted_nil (c : TcpConnection) : Transmitted c c [] 0 :=
  ⟨Nat.zero_le _, rfl, by simp, by simp [InOrder], nofun, rfl, rfl, rfl⟩

theorem transmit_transmitted (c : TcpConnection) (now k : Nat) :
    ∃ n, Transmitted c (transmit k c now).1 (transmit k c now).2 n := by
  refine transmit_invariant now (P := fun c' ps => ∃ n, Transmitted c c' ps n) ?_ k c [] ⟨0, transmitted_nil c⟩
  rintro c' ps k ⟨n, h⟩ hk - hle
  exact ⟨_, h.sendChunk hk hle { ack := true, psh := true } now⟩

theorem transmitQueued_same (c : TcpConnection) (now : Nat) :
    (c.transmitQueued now).1.state = c.state ∧ (c.transmitQueued now).1.closeRequested = c.closeRequested ∧
      (c.transmitQueued now).1.finSent = c.finSent := by
  rw [transmitQueued]
  split
  · exact (c.transmit_transmitted now _).elim fun _ h => h.same
  · exact ⟨rfl, rfl, rfl⟩

theorem exhausted_of_fresh (h : ∀ e ∈ c.retransmitQueue, e.retransmits = 0 ∧ e.lastSentMs = now) :
    c.exhausted = false := by
  unfold exhausted
  split
  · rfl
  · rename_i e _ hq
    rw [(h e (hq ▸ List.mem_cons_self)).1]
    decide

/-! ## The timers -/

/-- The window has opened by a whole segment since the peer last heard of it. -/
def UpdateDue (c : TcpConnection) : Prop := c.lastAdvertisedWnd < c.localMss ∧ c.localMss ≤ c.currentRcvWnd

theorem windowUpdate_idle (h : ¬ c.UpdateDue) : c.windowUpdate = (c, []) := by
  refine if_neg fun hdue => h ?_
  simp only [Bool.and_eq_true, decide_eq_true_eq] at hdue
  exact hdue.1

theorem timerPhase_sendSide_of_queued (h : c.retransmitQueue ≠ []) (wasSending : Bool) :
    (c.timerPhase wasSending now).1.sendSide = c.sendSide :=
  (c.timerPhase_cases now wasSending).2.2.resolve_right fun ⟨_, _, hq, _⟩ => h (List.map_eq_nil_iff.mp hq)

theorem timerPhase_silent (hne : c.retransmitQueue ≠ [])
    (hfresh : ∀ e ∈ c.retransmitQueue, e.retransmits = 0 ∧ e.lastSentMs = now) (hrto : 0 < c.rtt.rtoMs)
    (hwnd : c.lastAdvertisedWnd = c.currentRcvWnd) (wasSending : Bool) : (c.timerPhase wasSending now).2 = [] := by
  have hexpired : c.rtoExpired now = false := by
    unfold rtoExpired
    split
    · rfl
    · rename_i e _ hq
      rw [(hfresh e (hq ▸ List.mem_cons_self)).2]
      simpa [Nat.pos_iff_ne_zero] using hrto
  have hidle : ¬ c.UpdateDue := fun h => absurd (hwnd ▸ h.1) (UInt16.not_lt.mpr h.2)
  have hout : c.onRto now = (c, []) := if_neg (by rw [hexpired]; decide)
  simp only [timerPhase, andThen, hout, windowUpdate_idle hidle, persist, hne, decide_false, Bool.and_false,
    Bool.false_eq_true, if_false, List.append_nil]

/-! ## One poll -/

/-- Data waits and nothing is outstanding. The estimator keeps its timeout at 200 ms or more. -/
structure Ready (c : TcpConnection) : Prop where
  sending : c.sending = true
  live : c.aborted = false
  data : c.txBuffer ≠ []
  idle : c.retransmitQueue = []
  timeout : 0 < c.rtt.rtoMs

def chunkSize (c : TcpConnection) : Nat :=
  min (min (c.congestion.sendWindowAvailable c.sndWnd) c.peerMss.toNat) c.txBuffer.length

theorem transmit_of_chunkSize_zero (h : c.chunkSize = 0) : ∀ k, transmit k c now = (c, [])
  | 0 => rfl
  | _ + 1 => if_pos h

theorem transmit_ne_nil (h : c.chunkSize ≠ 0) (k now : Nat) : (transmit (k + 1) c now).2 ≠ [] := by
  rw [chunkSize] at h
  rw [transmit]
  dsimp only
  rw [if_neg h]
  split <;> exact List.cons_ne_nil _ _

theorem Ready.pollOutput (h : c.Ready) : c.pollOutput now =
    if ((c.setClock now).sendPhase now).1.rtoExpired now && ((c.setClock now).sendPhase now).1.exhausted then
      (((c.setClock now).sendPhase now).1.abort, ((c.setClock now).sendPhase now).2)
    else andThen ((c.setClock now).sendPhase now) (timerPhase · true now) := by
  have hopen : ((c.setClock now).aborted || decide ((c.setClock now).state = .closed)) = false := by
    change (c.aborted || decide (c.state = .closed)) = false
    have hsend := h.sending
    rw [h.live]
    cases hs : c.state <;> simp [TcpConnection.sending, hs] at hsend ⊢
  rw [TcpConnection.pollOutput, hopen]
  change _ = ite _ _ (andThen _ (timerPhase · _ now))
  rw [show (c.setClock now).sending = true from h.sending]
  rfl

theorem Ready.transmitQueued (h : c.Ready) :
    (c.setClock now).transmitQueued now = transmit c.txBuffer.length (c.setClock now) now :=
  if_pos ⟨h.sending, h.data⟩

theorem returns_of_bare {k : Call} (h : ∀ p ∈ (c.call k).2, p.options = []) : c.Returns k := fun p hp =>
  (TcpSegment.plain_of_bare (h p hp)).serialises

theorem Ready.sendsNew_of_room (hc : c.Ready) (hchunk : c.chunkSize ≠ 0) : c.SendsNew now := by
  obtain ⟨n, h⟩ := (c.setClock now).transmit_transmitted now c.txBuffer.length
  have hpos : 0 < n := by
    rcases Nat.eq_zero_or_pos n with rfl | hpos
    · obtain ⟨k, hk⟩ := Nat.exists_eq_succ_of_ne_zero (List.length_pos_iff.mpr hc.data).ne'
      have hcarried := h.carried
      rw [hk] at hcarried
      obtain ⟨p, ps, hps⟩ := List.exists_cons_of_ne_nil (transmit_ne_nil (c := c.setClock now) hchunk k now)
      rw [hps] at hcarried
      obtain ⟨-, hne, rest, hbytes, -⟩ := hcarried
      exact absurd (List.append_eq_nil_iff.mp hbytes.symm).1 hne
    · exact hpos
  rw [← hc.transmitQueued] at h
  obtain ⟨hne, hwnd⟩ := h.tracked hpos
  have hsent := (c.setClock now).sends_sendPhase now
  obtain ⟨htx, hadvertised, hcurrent⟩ := deferredClose_keeps ((c.setClock now).transmitQueued now).1 now
  have hfresh : ∀ e ∈ ((c.setClock now).sendPhase now).1.retransmitQueue, e.retransmits = 0 ∧
      e.lastSentMs = now := by
    obtain ⟨new, hqueue, hnew⟩ := hsent.queue
    rw [hqueue, show (c.setClock now).retransmitQueue = [] from hc.idle]
    exact hnew
  have hqueued : ((c.setClock now).sendPhase now).1.retransmitQueue ≠ [] := by
    obtain ⟨fin, hqueue, -⟩ := (sends_deferredClose ((c.setClock now).transmitQueued now).1 now).queue
    exact fun h0 => hne (List.append_eq_nil_iff.mp (hqueue.symm.trans h0)).1
  have hsilent := timerPhase_silent hqueued hfresh (by rw [hsent.rtt]; exact hc.timeout)
    (hadvertised.trans (hwnd.trans hcurrent.symm)) true
  have hpoll : c.pollOutput now = andThen ((c.setClock now).sendPhase now) (timerPhase · true now) := by
    rw [hc.pollOutput, exhausted_of_fresh hfresh, Bool.and_false]
    rfl
  have hout : (c.pollOutput now).2 = ((c.setClock now).sendPhase now).2 := by
    rw [hpoll, andThen, hsilent, List.append_nil]
  refine ⟨returns_of_bare fun p hp => hsent.bare p (hout ▸ hp), n, hpos, h.le, ?_, _, ?_, h.carried⟩
  · rw [hpoll]
    exact (congrArg SendSide.tx (timerPhase_sendSide_of_queued hqueued true)).trans (htx.trans h.tx)
  · rw [hout]
    exact List.sublist_append_left _ _

theorem Ready.pollOutput_of_chunkSize_zero (hc : c.Ready) (hchunk : c.chunkSize = 0) (now : Nat) :
    (c.pollOutput now).1.sendSide = ((c.setClock now).windowUpdate.1.persist true now).1.sendSide ∧
      (c.pollOutput now).2 = (c.setClock now).windowUpdate.2 ++
        ((c.setClock now).windowUpdate.1.persist true now).2 := by
  have hphase : (c.setClock now).sendPhase now = (c.setClock now, []) := by
    have hqueued : (c.setClock now).transmitQueued now = (c.setClock now, []) := by
      rw [hc.transmitQueued]
      exact transmit_of_chunkSize_zero (c := c.setClock now) hchunk _
    rw [sendPhase, hqueued, andThen]
    rcases (c.setClock now).deferredClose_cases now with hd | ⟨hd, -⟩
    · rw [hd]
      rfl
    · exact absurd hd hc.data
  have hrto : (c.setClock now).rtoExpired now = false := by
    have hqueue : (c.setClock now).retransmitQueue = [] := hc.idle
    rw [rtoExpired, hqueue]
  have hnone : (c.setClock now).onRto now = (c.setClock now, []) := if_neg (by rw [hrto]; decide)
  rw [hc.pollOutput, hphase, hrto]
  change (timerPhase (c.setClock now) true now).1.sendSide = _ ∧ (timerPhase (c.setClock now) true now).2 = _
  rw [timerPhase, hnone]
  exact ⟨(expireTimeWait_views _ now).2.1, rfl⟩

theorem Ready.returns_iff (hc : c.Ready) (hchunk : c.chunkSize = 0) :
    c.Returns (.pollOutput now) ↔ ¬ (c.UpdateDue ∧ c.OptionsOverflow) := by
  have hout := (hc.pollOutput_of_chunkSize_zero hchunk now).2
  have hprobe : ∀ p ∈ ((c.setClock now).windowUpdate.1.persist true now).2, p.Serialises := by
    intro p hp
    rcases ((c.setClock now).windowUpdate.1.persist_cases now true).2.2 with ⟨-, h⟩ | ⟨-, -, -, -, h⟩
    · rw [h] at hp; cases hp
    · rw [h, List.mem_singleton] at hp
      exact (TcpSegment.plain_of_bare (hp ▸ rfl)).serialises
  unfold Returns
  rw [show (c.call (.pollOutput now)).2 = _ from hout, List.forall_mem_append, and_iff_left hprobe]
  by_cases hdue : c.UpdateDue
  · have hlive : (c.setClock now).windowUpdate = ((c.setClock now).buildAck.1, [(c.setClock now).buildAck.2]) := by
      refine if_pos ?_
      have hsend := hc.sending
      have hst : (c.setClock now).state ≠ .closed ∧ (c.setClock now).state ≠ .timeWait := by
        change c.state ≠ .closed ∧ c.state ≠ .timeWait
        constructor <;> intro hs <;> simp [TcpConnection.sending, hs] at hsend
      have hopened : (c.setClock now).UpdateDue := hdue
      simpa [hst, UpdateDue] using hopened
    simp only [hlive, List.forall_mem_singleton, serialises_buildAck, hdue, true_and]
    rfl
  · rw [windowUpdate_idle (c := c.setClock now) hdue]
    simp [hdue]

theorem windowUpdate_keeps (c : TcpConnection) :
    c.windowUpdate.1.congestion = c.congestion ∧ c.windowUpdate.1.sndWnd = c.sndWnd ∧
      c.windowUpdate.1.persistDeadlineMs = c.persistDeadlineMs ∧
        c.windowUpdate.1.retransmitQueue = c.retransmitQueue := by
  unfold windowUpdate
  split <;> exact ⟨rfl, rfl, rfl, rfl⟩

theorem persist_of_due (htx : c.txBuffer ≠ []) (hq : c.retransmitQueue = [])
    (hroom : c.congestion.sendWindowAvailable c.sndWnd = 0)
    {due : Nat} (hdue : c.persistDeadlineMs = some due) (hnow : due ≤ now) :
    (c.persist true now).1.sendSide = c.sendSide.pushProbe ∧
      (c.persist true now).2 = [c.segment c.sndNxt c.rcvNxt .ackOnly c.currentRcvWnd [] (c.txBuffer.take 1)] := by
  have h : (true && decide (c.txBuffer ≠ []) && decide (c.congestion.sendWindowAvailable c.sndWnd = 0) &&
      decide (c.retransmitQueue = [])) = true := by
    simp [htx, hq, hroom]
  rw [persist, if_pos h, hdue]
  dsimp only
  rw [if_pos hnow]
  exact ⟨sendChunk_sendSide _ _ _ _, rfl⟩

theorem persist_of_not_due
    (h : ¬ (c.congestion.sendWindowAvailable c.sndWnd = 0 ∧ ∃ due ≤ now, c.persistDeadlineMs = some due)) :
    (c.persist true now).1.sendSide = c.sendSide := by
  rw [persist]
  split
  · rename_i hcond
    simp only [Bool.and_eq_true, decide_eq_true_eq] at hcond
    split
    · rfl
    · rename_i due hdue
      rw [if_neg (fun hle => h ⟨hcond.1.2, due, hle, hdue⟩)]
  · rfl

theorem Ready.sendsNew_of_probe (hc : c.Ready) (hroom : c.congestion.sendWindowAvailable c.sndWnd = 0) {due : Nat}
    (hdue : c.persistDeadlineMs = some due) (hnow : due ≤ now) (hfits : ¬ (c.UpdateDue ∧ c.OptionsOverflow)) :
    c.SendsNew now := by
  have hchunk : c.chunkSize = 0 := by rw [chunkSize, hroom]; simp
  obtain ⟨hside, hout⟩ := hc.pollOutput_of_chunkSize_zero hchunk now
  obtain ⟨hcong, hwnd, hdeadline, hqueue⟩ := (c.setClock now).windowUpdate_keeps
  have hkept : (c.setClock now).windowUpdate.1.sendSide = c.sendSide := (windowUpdate_views _).2.1
  have htx : (c.setClock now).windowUpdate.1.txBuffer = c.txBuffer := congrArg SendSide.tx hkept
  obtain ⟨hprobe, hsent⟩ := persist_of_due (c := (c.setClock now).windowUpdate.1) (htx ▸ hc.data)
    (hqueue.trans hc.idle)
    (by rw [hcong, hwnd]; exact hroom) (hdeadline.trans hdue) hnow
  rw [hprobe, hkept] at hside
  refine ⟨(hc.returns_iff hchunk).mpr hfits, 1, Nat.one_pos, List.length_pos_iff.mpr hc.data,
    congrArg SendSide.tx hside, _, hout ▸ List.sublist_append_right _ _, ?_⟩
  rw [hsent, htx]
  refine ⟨congrArg SendSide.nxt hkept, ?_, [], (List.append_nil _).symm, rfl⟩
  change c.txBuffer.take 1 ≠ []
  simp [hc.data]

theorem Ready.not_sendsNew (hc : c.Ready) (hchunk : c.chunkSize = 0)
    (hprobe : ¬ (c.congestion.sendWindowAvailable c.sndWnd = 0 ∧ ∃ due ≤ now, c.persistDeadlineMs = some due)) :
    ¬ c.SendsNew now := by
  rintro ⟨-, n, hpos, hle, htx, -⟩
  obtain ⟨hcong, hwnd, hdeadline, -⟩ := (c.setClock now).windowUpdate_keeps
  have hside := (hc.pollOutput_of_chunkSize_zero hchunk now).1
  rw [persist_of_not_due (by rw [hcong, hwnd, hdeadline]; exact hprobe), (windowUpdate_views _).2.1] at hside
  have hlen := congrArg List.length ((congrArg SendSide.tx hside).symm.trans htx)
  rw [List.length_drop] at hlen
  change c.txBuffer.length = _ at hlen
  omega

theorem sendsNew_iff (hc : c.Ready) :
    c.SendsNew now ↔
      0 < c.peerMss.toNat ∧ c.congestion.inFlight < min c.congestion.cwnd c.sndWnd.toNat ∨
        min c.congestion.cwnd c.sndWnd.toNat ≤ c.congestion.inFlight ∧
          (∃ due ≤ now, c.persistDeadlineMs = some due) ∧
          ¬ (c.UpdateDue ∧ c.OptionsOverflow) := by
  have hroom : c.congestion.sendWindowAvailable c.sndWnd =
      min c.congestion.cwnd c.sndWnd.toNat - c.congestion.inFlight := rfl
  have hlen := List.length_pos_iff.mpr hc.data
  have hchunk : c.chunkSize = 0 ↔
      ¬ (0 < c.peerMss.toNat ∧ c.congestion.inFlight < min c.congestion.cwnd c.sndWnd.toNat) := by
    rw [chunkSize, hroom]
    omega
  constructor
  · intro h
    by_contra hno
    obtain ⟨hnone, hprobe⟩ := not_or.mp hno
    have hzero := hchunk.mpr hnone
    refine hc.not_sendsNew hzero ?_ h
    rintro ⟨hfull, hdue⟩
    exact hprobe ⟨by omega, hdue, (hc.returns_iff hzero).mp h.1⟩
  · rintro (hsome | ⟨hle, ⟨due, hdue, hd⟩, hfits⟩)
    · exact hc.sendsNew_of_room (hchunk.not.mpr (not_not.mpr hsome))
    · exact hc.sendsNew_of_probe (by omega) hd hdue hfits

end TcpConnection

/-- A server whose client announced a maximum segment size of zero, with a byte to send. -/
def wedged : TcpConnection := (handshaken [.mss 0]).callAll [.write [1]]

theorem zero_mss_wedges :
    Reachable (fun _ => False) wedged ∧ wedged.Ready ∧ 0 < wedged.sndWnd ∧ ∀ now, ¬ wedged.SendsNew now := by
  have hready : wedged.Ready := by constructor <;> decide +kernel
  refine ⟨.callAll (.callAll (.server _ _ _) (opens_of_none rfl) (by decide +kernel)) (opens_of_none rfl)
    (by decide +kernel), hready, by decide +kernel, fun now => hready.not_sendsNew (by decide +kernel) ?_⟩
  have hroom : wedged.congestion.sendWindowAvailable wedged.sndWnd ≠ 0 := by decide +kernel
  exact fun h => hroom h.1

theorem sendsNew_small_segments : ((handshaken [.mss 1]).callAll [.write [1, 2]]).SendsNew 5 :=
  (TcpConnection.sendsNew_iff (by constructor <;> decide +kernel)).mpr (.inl (by decide +kernel))

/-! ## A peer that keeps its window closed -/

def ZeroWindowAck (c : TcpConnection) (p : TcpSegment) : Prop :=
  p.flags = .ackOnly ∧ p.ackNum = c.sndUna ∧ p.windowSize = 0 ∧ p.payload = []

instance (c : TcpConnection) (p : TcpSegment) : Decidable (ZeroWindowAck c p) := inferInstanceAs (Decidable (_ ∧ _))

/-- Calls of `poll_output` from `t` on; the peer acknowledges in this way every segment sent, of which it still owes
`owed`. -/
def Answered : Nat → Nat → TcpConnection → List Call → Prop
  | _, _, _, [] => True
  | owed, t, c, .pollOutput now :: ks => owed = 0 ∧ t ≤ now ∧
    Answered (c.pollOutput now).2.length now (c.pollOutput now).1 ks
  | owed, t, c, .handleSegment p now :: ks =>
    0 < owed ∧ t ≤ now ∧ ZeroWindowAck c p ∧
      Answered (owed - 1 + (c.handleSegmentAt p now).2.toList.length) now (c.handleSegmentAt p now).1 ks
  | _, _, _, _ => False

instance decidableAnswered : ∀ owed t c ks, Decidable (Answered owed t c ks)
  | _, _, _, [] => .isTrue trivial
  | _, _, c, .pollOutput now :: ks =>
    have := decidableAnswered (c.pollOutput now).2.length now (c.pollOutput now).1 ks
    inferInstanceAs (Decidable (_ ∧ _ ∧ _))
  | owed, _, c, .handleSegment p now :: ks =>
    have := decidableAnswered (owed - 1 + (c.handleSegmentAt p now).2.toList.length) now
      (c.handleSegmentAt p now).1 ks
    inferInstanceAs (Decidable (_ ∧ _ ∧ _ ∧ _))
  | _, _, _, .write _ :: _ | _, _, _, .read _ :: _ | _, _, _, .initiateClose _ :: _ | _, _, _, .initiateSyn _ :: _
  | _, _, _, .sendData _ _ :: _ => .isFalse id

namespace TcpConnection

variable {c : TcpConnection}

def Alive (c : TcpConnection) : Prop := c.state = .established ∧ c.aborted = false

/-- The options of its replies fit, with SACK permitted or not. -/
def Fits (c : TcpConnection) : Prop := c.tsEnabled = false ∨ c.buildSackBlocks.length < 4

theorem Fits.not_overflow (h : c.Fits) : ¬ c.OptionsOverflow := by
  rintro ⟨-, hts, hblocks⟩
  rcases h with h | h
  · rw [hts] at h; cases h
  · omega

/-- A close is pending and all that is queued can go out. -/
def Finishes (c : TcpConnection) : Prop :=
  c.closeRequested = true ∧ c.finSent = false ∧
    (c.txBuffer = [] ∨ 0 < c.peerMss.toNat ∧ c.txBuffer.length ≤ c.congestion.sendWindowAvailable c.sndWnd)

def Survives (c : TcpConnection) : Call → Prop
  | .pollOutput now => ¬ (c.rtoExpired now = true ∧ c.exhausted = true) ∧ ¬ c.Finishes
  | _ => True

instance (c : TcpConnection) : Decidable c.Finishes := inferInstanceAs (Decidable (_ ∧ _))

instance (c : TcpConnection) : ∀ k, Decidable (c.Survives k)
  | .pollOutput _ => inferInstanceAs (Decidable (¬ _ ∧ ¬ _))
  | .handleSegment _ _ | .write _ | .read _ | .initiateClose _ | .initiateSyn _ | .sendData _ _ => .isTrue trivial

theorem advanceClose_established (h : c.state = .established) (now : Nat) : c.advanceClose now = c := by
  rw [advanceClose, h]
  split <;> rfl

theorem Alive.answer (h : c.Alive) (hf : c.Fits) {p : TcpSegment} (hp : ZeroWindowAck c p) (now : Nat) :
    (c.handleSegmentAt p now).1.Alive ∧ (c.handleSegmentAt p now).1.Fits := by
  have hsync : c.synchronized = true := by simp [synchronized, h.1]
  cases hpaws : c.pawsRejects p (c.timestampOf p) with
  | true =>
    rw [handleSegmentAt_of_paws hsync hpaws]
    exact ⟨h, hf⟩
  | false =>
    rw [handleSegmentAt_of_passed hsync hpaws (by rw [hp.1]; rfl)]
    obtain ⟨_, _, _, hstamp⟩ := stamped_eq c p now
    have hd : (c.stamped p now).Alive ∧ (c.stamped p now).Fits := by rw [hstamp]; exact ⟨h, hf⟩
    generalize c.stamped p now = d at hd
    obtain ⟨hst, hrest, -⟩ := d.slideWindow_cases p now
    have hslide : (d.slideWindow p now).1.Alive ∧ (d.slideWindow p now).1.Fits := by
      refine ⟨⟨hst.trans hd.1.1, hrest.aborted.trans hd.1.2⟩, ?_⟩
      have hfits := hd.2
      rwa [Fits, buildSackBlocks, show d.tsEnabled = _ from (congrArg ReplySide.tsEnabled hrest.reply).symm,
        show d.oooSegments = _ from (congrArg ReplySide.ooo hrest.reply).symm] at hfits
    -- Nothing but the acknowledgement number is there to be read.
    have hreceive : (d.slideWindow p now).1.receive p now = (d.slideWindow p now).1 :=
      receive_of_empty hp.2.2.2 (by rw [hp.1]; rfl)
    rw [dispatch, hd.1.1]
    dsimp only
    rw [onData]
    split
    · exact hd
    · dsimp only
      rw [hreceive]
      split
      · rw [advanceClose_established (by exact hslide.1.1)]
        exact hslide
      · rw [advanceClose_established hslide.1.1]
        exact hslide

theorem timerPhase_alive (c : TcpConnection) (wasSending : Bool) (now : Nat) :
    (c.timerPhase wasSending now).1.Alive ↔ c.Alive := by
  obtain ⟨hrest, hst, -⟩ := c.timerPhase_cases now wasSending
  have hsame : (c.timerPhase wasSending now).1.state = .established ↔ c.state = .established := by
    rcases hst with h | ⟨hwait, h⟩
    · exact h.congr_left
    · exact iff_of_false (fun he => absurd (h.symm.trans he) (by decide)) fun he =>
        absurd (hwait.symm.trans he) (by decide)
  rw [Alive, Alive, hrest.aborted, hsame]

/-- The loop empties the queue exactly if the window has room for all of it. -/
theorem transmit_drains : ∀ {k : Nat} {c : TcpConnection}, c.txBuffer.length ≤ k → c.txBuffer ≠ [] →
    ((transmit k c now).1.txBuffer = [] ↔
      0 < c.peerMss.toNat ∧ c.txBuffer.length ≤ c.congestion.sendWindowAvailable c.sndWnd)
  | 0, _, hk, hne => absurd (List.length_eq_zero_iff.mp (Nat.le_zero.mp hk)) hne
  | k + 1, c, hk, hne => by
    have hpos := List.length_pos_iff.mpr hne
    have hsize : c.chunkSize = min
        (min (c.congestion.sendWindowAvailable c.sndWnd) c.peerMss.toNat) c.txBuffer.length := rfl
    by_cases hchunk : c.chunkSize = 0
    · rw [transmit_of_chunkSize_zero hchunk]
      exact iff_of_false hne (by omega)
    rw [transmit, ← hsize]
    dsimp only
    rw [if_neg hchunk]
    have htx : (c.sendChunk c.chunkSize { ack := true, psh := true } now).1.txBuffer =
        c.txBuffer.drop c.chunkSize := rfl
    split
    · rename_i hdone
      rw [htx, List.drop_eq_nil_iff] at hdone
      exact iff_of_true (htx.trans (List.drop_eq_nil_iff.mpr hdone)) (by omega)
    · rename_i hmore
      have hroom : (c.sendChunk c.chunkSize { ack := true, psh := true } now).1.congestion.sendWindowAvailable
          (c.sendChunk c.chunkSize { ack := true, psh := true } now).1.sndWnd =
            c.congestion.sendWindowAvailable c.sndWnd - c.chunkSize := by
        have hwnd := c.sndWnd.toNat_lt
        change min c.congestion.cwnd c.sndWnd.toNat -
          (c.congestion.inFlight + (c.txBuffer.take c.chunkSize).length) % 2 ^ 32 = _
        rw [CongestionControl.sendWindowAvailable] at hsize ⊢
        have hbound : min c.congestion.cwnd c.sndWnd.toNat < 2 ^ 16 := by omega
        generalize min c.congestion.cwnd c.sndWnd.toNat = w at hsize hbound ⊢
        rw [List.length_take, Nat.min_eq_left (by omega), Nat.mod_eq_of_lt (by omega)]
        omega
      have hleft : (c.txBuffer.drop c.chunkSize).length = c.txBuffer.length - c.chunkSize := List.length_drop
      refine (transmit_drains (by rw [htx]; omega) hmore).trans ?_
      rw [hroom, htx, hleft]
      exact and_congr_right fun _ => by omega

theorem transmitQueued_drains (h : c.state = .established) :
    (c.transmitQueued now).1.txBuffer = [] ↔
      c.txBuffer = [] ∨ 0 < c.peerMss.toNat ∧ c.txBuffer.length ≤ c.congestion.sendWindowAvailable c.sndWnd := by
  have hsending : c.sending = true := by rw [sending, h]; rfl
  by_cases hdata : c.txBuffer = []
  · rw [transmitQueued, if_neg fun hne => hne.2 hdata]
    exact iff_of_true hdata (.inl hdata)
  · rw [transmitQueued, if_pos ⟨hsending, hdata⟩, transmit_drains le_rfl hdata, or_iff_right hdata]

theorem sendPhase_established (h : c.state = .established) (now : Nat) :
    ((c.setClock now).sendPhase now).1.state = .established ↔ ¬ c.Finishes := by
  have hdrains : ((c.setClock now).transmitQueued now).1.txBuffer = [] ↔ _ := transmitQueued_drains h
  have hfinishes : (c.setClock now).Finishes ↔ c.Finishes := Iff.rfl
  obtain ⟨hstate, hclose, hfin⟩ := (c.setClock now).transmitQueued_same now
  replace hstate : ((c.setClock now).transmitQueued now).1.state = .established := hstate.trans h
  have hsending : ((c.setClock now).transmitQueued now).1.sending = true := by rw [sending, hstate]; rfl
  change (deferredClose _ now).1.state = _ ↔ _
  rw [deferredClose, hclose, hfin, hsending]
  by_cases hf : c.Finishes
  · rw [if_pos (by simpa [hdrains, Finishes, and_assoc] using hfinishes.mpr hf)]
    have hemit : (((c.setClock now).transmitQueued now).1.emitFin now).1.state = .finWait1 := by
      rw [emitFin, hfin, show (c.setClock now).finSent = false from hf.2.1, hstate]
      rfl
    simp [hemit, hf]
  · rw [if_neg (by simpa [hdrains, Finishes] using hfinishes.not.mpr hf)]
    exact iff_of_true hstate hf

theorem sendPhase_outOfRetries (c : TcpConnection) (now : Nat) :
    (((c.setClock now).sendPhase now).1.rtoExpired now && ((c.setClock now).sendPhase now).1.exhausted) = true ↔
      c.rtoExpired now = true ∧ c.exhausted = true := by
  obtain ⟨⟨added, hqueue, hfresh⟩, hrtt, -⟩ := (c.setClock now).sends_sendPhase now
  have hq : (c.setClock now).retransmitQueue = c.retransmitQueue := rfl
  rw [Bool.and_eq_true, rtoExpired, exhausted, hqueue, hrtt, hq, rtoExpired, exhausted]
  cases c.retransmitQueue with
  | nil =>
    cases added with
    | nil => simp
    | cons e es => simp [hfresh e List.mem_cons_self, maxRetransmits]
  | cons e es => rfl

theorem Alive.pollOutput_iff (h : c.Alive) (now : Nat) :
    (c.pollOutput now).1.Alive ↔ c.Survives (.pollOutput now) := by
  have hopen : ((c.setClock now).aborted || decide ((c.setClock now).state = .closed)) = false := by
    change (c.aborted || decide (c.state = .closed)) = false
    rw [h.1, h.2]
    rfl
  rw [pollOutput, hopen, Survives]
  dsimp only [Bool.false_eq_true, if_false]
  by_cases hout : c.rtoExpired now = true ∧ c.exhausted = true
  · rw [if_neg Bool.false_ne_true, if_pos ((c.sendPhase_outOfRetries now).mpr hout)]
    exact iff_of_false (fun h => TcpState.noConfusion h.1) fun h => h.1 hout
  · rw [if_neg Bool.false_ne_true, if_neg (fun h => hout ((c.sendPhase_outOfRetries now).mp h))]
    have hstate := sendPhase_established h.1 now
    have haborted := ((c.setClock now).sendPhase_keepsRest now).aborted.trans h.2
    exact (timerPhase_alive _ _ now).trans
      ⟨fun halive => ⟨hout, hstate.mp halive.1⟩, fun hno => ⟨hstate.mpr hno.2, haborted⟩⟩

theorem Fits.pollOutput (h : c.Fits) (now : Nat) : (c.pollOutput now).1.Fits := by
  have hreply := (pumps_pollOutput : c.Pumps (c.pollOutput now)).1
  rwa [Fits, buildSackBlocks, show (c.pollOutput now).1.tsEnabled = _ from congrArg ReplySide.tsEnabled hreply,
    show (c.pollOutput now).1.oooSegments = _ from congrArg ReplySide.ooo hreply]

end TcpConnection

/-- Against a peer that answers everything with a closed window a connection whose options fit keeps returning and
stays established exactly as long as no `poll_output` finds its oldest transmission out of retries, or a close
pending and room for all that is queued. -/
theorem closed_window_survives_iff {ks : List Call} {c : TcpConnection} {owed t : Nat} (hc : c.Alive) (hf : c.Fits)
    (hks : Answered owed t c ks) :
    Along TcpConnection.after (fun c k => c.Returns k ∧ (c.call k).1.state = .established ∧
      (c.call k).1.aborted = false) c ks ↔
      Along TcpConnection.after TcpConnection.Survives c ks := by
  -- On the calls, with what is owed: the options go on fitting, whether or not the connection lives.
  induction ks generalizing c owed t with
  | nil => exact Iff.rfl
  | cons k ks ih =>
    have hreturns (hfits : (c.call k).1.Fits) : c.Returns k :=
      TcpConnection.returns_of_not_overflow hfits.not_overflow
    cases k with
    | pollOutput now =>
      have hfits : (c.call (.pollOutput now)).1.Fits := hf.pollOutput now
      have hstep := (and_iff_right (hreturns hfits)).trans (hc.pollOutput_iff now)
      refine (and_congr_left' hstep).trans (and_congr_right fun hlives => ?_)
      exact ih (c := (c.pollOutput now).1) ((hc.pollOutput_iff now).mpr hlives) hfits hks.2.2
    | handleSegment p now =>
      obtain ⟨halive, hfits⟩ := hc.answer hf hks.2.2.1 now
      exact and_congr (iff_of_true ⟨hreturns hfits, halive⟩ trivial)
        (ih (c := (c.handleSegmentAt p now).1) halive hfits hks.2.2.2)
    | _ => exact (show False from hks).elim

def closedWindow : TcpSegment := { fromPeer 1 1001 .ackOnly [] [] with windowSize := 0 }

def closedOut : TcpConnection := (handshaken []).callAll [.handleSegment closedWindow 0, .write [1, 2]]

/-- A probe at 500 ms is answered, and two minutes later sent and answered once more. -/
def probed : List Call :=
  [.pollOutput 0, .pollOutput 500, .handleSegment closedWindow 500, .pollOutput 120000,
    .handleSegment closedWindow 120000]

theorem closed_window_survives_probed :
    (closedOut.callAll probed).sndNxt = ahead closedOut.sndNxt 1 ∧
      Along TcpConnection.after (fun c k => c.Returns k ∧ (c.call k).1.state = .established ∧
        (c.call k).1.aborted = false)
        closedOut probed :=
  ⟨by decide +kernel, (closed_window_survives_iff ⟨by decide +kernel, by decide +kernel⟩
    (.inl (by decide +kernel)) (show Answered 0 0 closedOut probed by decide +kernel)).mpr (by decide +kernel)⟩

/-- A probe at 500 ms, then twelve retransmissions of it a minute apart, each answered. -/
def probing : List Call :=
  [.pollOutput 0, .pollOutput 500, .handleSegment closedWindow 500] ++
    (List.range 12).flatMap fun i => [.pollOutput ((i + 2) * 60000), .handleSegment closedWindow ((i + 2) * 60000)]

theorem answering_peer_given_up :
    Reachable (fun _ => False) closedOut ∧ closedOut.Alive ∧ closedOut.txBuffer ≠ [] ∧
      Answered 0 0 closedOut (probing ++ [.pollOutput 840000]) ∧
      (closedOut.callAll probing).Alive ∧ ((closedOut.callAll probing).pollOutput 840000).1.aborted = true := by
  refine ⟨.callAll (.callAll (.server _ _ _) (opens_of_none rfl) (by decide +kernel)) (opens_of_none rfl)
    (by decide +kernel), ?_, ?_, ?_, ?_, ?_⟩
  · exact ⟨by decide +kernel, by decide +kernel⟩
  · decide +kernel
  · decide +kernel
  · exact ⟨by decide +kernel, by decide +kernel⟩
  · decide +kernel

end SystemsLab.Tcp
