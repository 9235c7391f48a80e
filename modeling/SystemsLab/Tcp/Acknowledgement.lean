import SystemsLab.Tcp.Accounting
import SystemsLab.Tcp.Rejection

/-!
# The acknowledgement law

The arms for `Closing` and `LastAck` test only that the number is not before `snd_nxt`: they drop a partial
acknowledgement and take one beyond `snd_nxt`.
-/

namespace SystemsLab.Tcp

variable {Q : Seq → Seq → Prop}

namespace TcpConnection

def synced (c : TcpConnection) : Bool :=
  match c.state with
  | .established | .finWait1 | .finWait2 | .closeWait | .closing | .lastAck => true
  | _ => false

def awaitingLast (c : TcpConnection) : Prop := c.state = .closing ∨ c.state = .lastAck

instance (c : TcpConnection) : Decidable c.awaitingLast := inferInstanceAs (Decidable (_ ∨ _))

/-- It has the ACK flag, is no reset and is no old duplicate. -/
structure Acknowledges (c : TcpConnection) (seg : TcpSegment) : Prop where
  synced : c.synced = true
  ack : seg.flags.ack = true
  rst : seg.flags.rst = false
  paws : c.pawsRejects seg (c.timestampOf seg) = false

/-- What should have happened to `c` when it is `c'` after the segment. -/
structure AckLaw (c c' : TcpConnection) (seg : TcpSegment) : Prop where
  taken : seqGt seg.ackNum c.sndUna = true → seqLe seg.ackNum c.sndNxt = true →
    c'.sndUna = seg.ackNum ∧
      c'.retransmitQueue.map RetransmitSegment.sent =
        (c.retransmitQueue.filter fun e => !seqLe e.endSeq seg.ackNum).map RetransmitSegment.sent ∧
      c'.congestion.inFlight + (seqDiff seg.ackNum c.sndUna).toNat = c.congestion.inFlight
  refused : seqGt seg.ackNum c.sndNxt = true →
    c'.state = c.state ∧ c'.sndUna = c.sndUna ∧ c'.retransmitQueue = c.retransmitQueue

/-- In `Closing` and `LastAck` the segment acknowledges all or nothing, and one beyond `snd_nxt` marks no entry of
the queue. -/
structure AckLawful (c : TcpConnection) (seg : TcpSegment) : Prop where
  whole : c.awaitingLast → seqGt seg.ackNum c.sndUna = true → seqLe seg.ackNum c.sndNxt = true →
    seg.ackNum = c.sndNxt
  beyond : seqGt seg.ackNum c.sndNxt = true →
    ¬ c.awaitingLast ∧ ∀ e ∈ c.retransmitQueue, sackCovers seg.options e = true → e.sacked = true

section
variable {c : TcpConnection} {seg : TcpSegment} {now : Nat}

theorem synced_iff : c.synced = true ↔
    (c.state = .established ∨ c.state = .finWait1 ∨ c.state = .finWait2) ∨ c.state = .closeWait ∨
      c.awaitingLast := by
  unfold synced awaitingLast
  cases c.state <;> simp

theorem synchronized_of_synced (h : c.synced = true) : c.synchronized = true := by
  unfold synced at h
  unfold synchronized
  cases hs : c.state <;> rw [hs] at h <;> first | rfl | cases h

theorem Acknowledges.over (h : c.Acknowledges seg) : c.state.over = false := by
  have hsync := h.synced
  unfold TcpConnection.synced at hsync
  cases hs : c.state <;> rw [hs] at hsync <;> first | rfl | cases hsync

theorem Acknowledges.handle_eq (h : c.Acknowledges seg) :
    c.handleSegmentAt seg now = (c.stamped seg now).dispatch seg now :=
  handleSegmentAt_of_passed (synchronized_of_synced h.synced) h.paws h.rst

theorem ackLaw_of_taken {c' : TcpConnection} (hb : c.sendSide.Balanced) (hle : seqLe seg.ackNum c.sndNxt = true)
    (hc : c'.sendSide = c.sendSide.ack seg.ackNum) : AckLaw c c' seg := by
  constructor
  · intro hgt _
    have hj := hb.acked_le hgt hle
    have hf := congrArg SendSide.inFlight hc
    refine ⟨congrArg SendSide.una hc, (congrArg SendSide.queue hc).trans List.filter_map, ?_⟩
    change c'.sendSide.inFlight + _ = c.sendSide.inFlight
    rw [hf]
    exact Nat.sub_add_cancel hj
  · intro hgt
    rw [seqGt_eq_not_seqLe, hle] at hgt
    cases hgt

section
variable (hack : seg.flags.ack = true) (ha : c.ackAcceptable seg.ackNum = true)
include hack ha

theorem slideWindow_of_acceptable : (c.slideWindow seg now).1.sendSide = c.sendSide.ack seg.ackNum := by
  unfold slideWindow
  rw [hack, ha]
  exact takeAck_sendSide _ _ _

theorem onData_of_acceptable : (c.onData seg now).1.sendSide = c.sendSide.ack seg.ackNum := by
  have hle := (c.ackAcceptable_iff.mp ha).2
  have hng : seqGt seg.ackNum c.sndNxt = false := by rw [seqGt_eq_not_seqLe]; exact congrArg (!·) hle
  unfold onData
  rw [hng, Bool.and_false]
  simp only [Bool.false_eq_true, if_false]
  split <;> simp [slideWindow_of_acceptable hack ha]

theorem onCloseWait_of_acceptable : (c.onCloseWait seg now).1.sendSide = c.sendSide.ack seg.ackNum := by
  unfold onCloseWait
  rw [hack, ha]
  simp only [Bool.and_self, if_true]
  split
  · rw [buildAck_sendSide, takeAck_sendSide]; rfl
  · rw [takeAck_sendSide]; rfl

end

theorem dispatch_of_beyond (hs : (c.state = .established ∨ c.state = .finWait1 ∨ c.state = .finWait2) ∨
    c.state = .closeWait)
    (hack : seg.flags.ack = true) (hgt : seqGt seg.ackNum c.sndNxt = true) :
    (c.dispatch seg now).1.state = c.state ∧ (c.dispatch seg now).1.sndUna = c.sndUna ∧
      (c.dispatch seg now).1.retransmitQueue = c.retransmitQueue := by
  rcases hs with hs | hs
  · rw [dispatch_of_transferring (by simp only [transferring, Bool.or_eq_true, decide_eq_true_eq]; tauto)]
    unfold onData
    rw [hack, hgt]
    exact ⟨rfl, rfl, rfl⟩
  · have hna : c.ackAcceptable seg.ackNum = false := by
      rw [seqGt_eq_not_seqLe, Bool.not_eq_true'] at hgt
      unfold ackAcceptable
      rw [hgt, Bool.and_false]
    unfold dispatch onCloseWait
    simp only [hs, hna, Bool.and_false, Bool.false_eq_true, if_false]
    split <;> exact ⟨hs, rfl, rfl⟩

theorem dispatch_of_awaiting (hs : c.awaitingLast) (hack : seg.flags.ack = true) :
    (seqGe seg.ackNum c.sndNxt = true →
      (c.dispatch seg now).1.sendSide = c.sendSide.ack seg.ackNum ∧ (c.dispatch seg now).1.state ≠ c.state) ∧
    (seqGe seg.ackNum c.sndNxt = false → (c.dispatch seg now).1 = c) := by
  unfold dispatch
  rcases hs with hs | hs <;> simp only [hs, onClosing, onLastAck, hack, Bool.true_and]
  · constructor
    · intro hge
      rw [if_pos hge]
      exact ⟨takeAck_sendSide c now seg.ackNum, fun h => by cases h⟩
    · intro hge
      simp [hge]
  · constructor
    · intro hge
      rw [if_pos hge]
      exact ⟨takeAck_sendSide c now seg.ackNum, fun h => by cases h⟩
    · intro hge
      simp [hge]

theorem dispatch_of_acceptable (hs : c.synced = true) (hl : ¬ c.awaitingLast) (hack : seg.flags.ack = true)
    (ha : c.ackAcceptable seg.ackNum = true) : (c.dispatch seg now).1.sendSide = c.sendSide.ack seg.ackNum := by
  rcases synced_iff.mp hs with hs | hs | hs
  · rw [dispatch_of_transferring (by simp only [transferring, Bool.or_eq_true, decide_eq_true_eq]; tauto)]
    exact onData_of_acceptable hack ha
  · unfold dispatch
    rw [hs]
    exact onCloseWait_of_acceptable hack ha
  · exact absurd hs hl

theorem awaitingLast_stamped : (c.stamped seg now).awaitingLast ↔ c.awaitingLast := by
  unfold awaitingLast
  rw [stamped_state]

theorem synced_stamped : (c.stamped seg now).synced = c.synced := by
  unfold synced
  rw [stamped_state]

theorem ackLaw_iff_of_inFlight (hb : c.sendSide.Balanced) (h : c.Acknowledges seg)
    (hgt : seqGt seg.ackNum c.sndUna = true)
    (hle : seqLe seg.ackNum c.sndNxt = true) :
    AckLaw c (c.handleSegmentAt seg now).1 seg ↔ (c.awaitingLast → seg.ackNum = c.sndNxt) := by
  rw [h.handle_eq]
  by_cases hl : c.awaitingLast
  · obtain ⟨htake, hdrop⟩ := @dispatch_of_awaiting (c.stamped seg now) seg now (awaitingLast_stamped.mpr hl) h.ack
    rw [stamped_sndNxt] at htake hdrop
    constructor
    · intro hlaw _
      by_contra hne
      -- A partial acknowledgement is dropped, so `snd_una` stays where it was.
      have hge : seqGe seg.ackNum c.sndNxt = false := by
        rw [← Bool.not_eq_true]
        exact fun hge => hne (eq_of_seqLe_of_seqGe hle hge)
      have hu := (hlaw.taken hgt hle).1
      rw [hdrop hge, stamped_sndUna] at hu
      rw [seqGt_eq_not_seqLe, hu, seqLe_refl] at hgt
      cases hgt
    · intro hall
      have hge : seqGe seg.ackNum c.sndNxt = true := by rw [hall hl]; exact seqGe_refl _
      have hside := (htake hge).1
      rw [stamped_sendSide] at hside
      exact ackLaw_of_taken hb hle hside
  · refine iff_of_true (ackLaw_of_taken hb hle ?_) (fun hl' => absurd hl' hl)
    have ha : (c.stamped seg now).ackAcceptable seg.ackNum = true := by
      rw [ackAcceptable_iff, stamped_sendSide]
      exact ⟨hgt, hle⟩
    rw [dispatch_of_acceptable (synced_stamped.trans h.synced)
      (fun hl' => hl (awaitingLast_stamped.mp hl')) h.ack ha, stamped_sendSide]

theorem ackLaw_iff_of_beyond (h : c.Acknowledges seg) (hgt : seqGt seg.ackNum c.sndNxt = true) :
    (c.handleSegmentAt seg now).1.state = c.state ∧ (c.handleSegmentAt seg now).1.sndUna = c.sndUna ∧
        (c.handleSegmentAt seg now).1.retransmitQueue = c.retransmitQueue ↔
      ¬ c.awaitingLast ∧ ∀ e ∈ c.retransmitQueue, sackCovers seg.options e = true → e.sacked = true := by
  rw [h.handle_eq]
  by_cases hl : c.awaitingLast
  · have hge : seqGe seg.ackNum (c.stamped seg now).sndNxt = true := by
      rw [stamped_sndNxt]
      exact seqGe_of_seqGt hgt
    obtain ⟨htake, -⟩ := @dispatch_of_awaiting (c.stamped seg now) seg now (awaitingLast_stamped.mpr hl) h.ack
    have hst := (htake hge).2
    rw [stamped_state] at hst
    exact iff_of_false (fun hkept => hst hkept.1) (fun hkept => hkept.1 hl)
  · have hs : (c.state = .established ∨ c.state = .finWait1 ∨ c.state = .finWait2) ∨ c.state = .closeWait := by
      rcases synced_iff.mp h.synced with hs | hs | hs
      · exact .inl hs
      · exact .inr hs
      · exact absurd hs hl
    obtain ⟨hst, hu, hq⟩ := @dispatch_of_beyond (c.stamped seg now) seg now (by rw [stamped_state]; exact hs) h.ack
      (by rw [stamped_sndNxt]; exact hgt)
    rw [hst, hu, hq, stamped_state, stamped_sndUna, stamped_retransmitQueue, map_markCovered_eq_self]
    simp only [true_and, hl, not_false_eq_true]

theorem ackLaw_iff (hb : c.sendSide.Balanced) (h : c.Acknowledges seg) :
    AckLaw c (c.handleSegmentAt seg now).1 seg ↔ c.AckLawful seg := by
  by_cases hle : seqLe seg.ackNum c.sndNxt = true
  · have hng : ¬ seqGt seg.ackNum c.sndNxt = true := by rw [seqGt_eq_not_seqLe, hle]; decide
    by_cases hgt : seqGt seg.ackNum c.sndUna = true
    · rw [ackLaw_iff_of_inFlight hb h hgt hle]
      exact ⟨fun hw => ⟨fun hl _ _ => hw hl, fun hg => absurd hg hng⟩, fun hw hl => hw.whole hl hgt hle⟩
    · exact iff_of_true ⟨fun hg => absurd hg hgt, fun hg => absurd hg hng⟩
        ⟨fun _ hg => absurd hg hgt, fun hg => absurd hg hng⟩
  · have hgt : seqGt seg.ackNum c.sndNxt = true := by rw [seqGt_eq_not_seqLe]; simpa using hle
    constructor
    · intro hlaw
      exact ⟨fun _ _ hle' => absurd hle' hle, fun _ => (ackLaw_iff_of_beyond h hgt).mp (hlaw.refused hgt)⟩
    · intro hlaw
      exact ⟨fun _ hle' => absurd hle' hle, fun _ => (ackLaw_iff_of_beyond h hgt).mpr (hlaw.beyond hgt)⟩

theorem leaves_awaiting (hl : c.awaitingLast) (hr : seg.flags.rst = false)
    (hst : (c.handleSegmentAt seg now).1.state ≠ c.state) :
    c.Acknowledges seg ∧ seqGe seg.ackNum c.sndNxt = true := by
  have hsync : c.synced = true := synced_iff.mpr (.inr (.inr hl))
  have hsy := synchronized_of_synced hsync
  by_cases hp : c.pawsRejects seg (c.timestampOf seg) = true
  · rw [handleSegmentAt_of_paws hsy hp] at hst
    exact absurd rfl hst
  · rw [Bool.not_eq_true] at hp
    rw [handleSegmentAt_of_passed hsy hp hr] at hst
    by_cases hack : seg.flags.ack = true
    · refine ⟨⟨hsync, hack, hr, hp⟩, ?_⟩
      obtain ⟨-, hdrop⟩ := @dispatch_of_awaiting (c.stamped seg now) seg now (awaitingLast_stamped.mpr hl) hack
      by_contra hge
      rw [Bool.not_eq_true] at hge
      rw [hdrop (by rw [stamped_sndNxt]; exact hge), stamped_state] at hst
      exact hst rfl
    · rw [Bool.not_eq_true] at hack
      have hkeep : ((c.stamped seg now).dispatch seg now).1 = c.stamped seg now := by
        unfold dispatch
        rcases hl with hl | hl <;> simp [hl, onClosing, onLastAck, hack]
      rw [hkeep, stamped_state] at hst
      exact absurd rfl hst

end

/-- The order of `snd_una` and `snd_nxt`, the law itself for a segment that acknowledges, and that what ends the
wait for the last acknowledgement acknowledges everything sent. -/
structure Obeys (c : TcpConnection) (k : Call) : Prop where
  ordered : seqLe (c.call k).1.sndUna (c.call k).1.sndNxt = true
  law : ∀ seg now, k = .handleSegment seg now → c.Acknowledges seg → AckLaw c (c.call k).1 seg
  last : ∀ seg now, k = .handleSegment seg now → c.awaitingLast → seg.flags.rst = false →
    (c.call k).1.state ≠ c.state → seg.flags.ack = true ∧ seg.ackNum = c.sndNxt

def Lawful (c : TcpConnection) (k : Call) : Prop :=
  ∀ seg now, k = .handleSegment seg now → c.Acknowledges seg → c.AckLawful seg

section
variable {c : TcpConnection} {k : Call}

theorem ordered_seqLe : Ordered fun u n => seqLe u n = true := by
  intro s hb
  have hbound := hb.bound
  rw [hb.nxt_eq, ← ahead_zero s.una, ahead_ahead, seqLe_ahead (by omega) (by omega)]
  omega

theorem Acknowledges.balanced {seg : TcpSegment} (h : c.Acknowledges seg) (hc : c.Settled Q) :
    c.sendSide.Balanced :=
  (Accounted.balanced hc h.over).1

theorem AckLawful.eq_of_seqGe {seg : TcpSegment} (h : c.AckLawful seg) (hl : c.awaitingLast)
    (hge : seqGe seg.ackNum c.sndNxt = true) : seg.ackNum = c.sndNxt := by
  refine eq_of_seqLe_of_seqGe ?_ hge
  by_contra hle
  exact (h.beyond (by rw [seqGt_eq_not_seqLe]; simpa using hle)).1 hl

theorem Lawful.leaves (h : c.Lawful k) : k.Leaves Q c := by
  cases k with
  | handleSegment seg now =>
    intro hl hp hge hne
    have hsync : c.synced = true := synced_iff.mpr (.inr (.inr hl))
    have hpaws := hp.2.2
    rw [intake_eq (.inl (synchronized_of_synced hsync)), pawsRejects_arrived] at hpaws
    exact absurd ((h seg now rfl ⟨hsync, hp.1, hp.2.1, hpaws⟩).eq_of_seqGe hl hge) hne
  | _ => trivial

section
variable (hc : c.Settled fun u n => seqLe u n = true) (hk : k.Opens (fun c => c.sndUna = c.sndNxt) c)
include hc hk

theorem Settled.call_of_lawful (hl : c.Lawful k) : (c.call k).1.Settled fun u n => seqLe u n = true :=
  hc.call ordered_seqLe hk hl.leaves

theorem obeys_iff : c.Obeys k ↔ c.Lawful k := by
  constructor
  · intro h seg now he hack
    have hlaw := h.law seg now he hack
    rw [he] at hlaw
    exact (ackLaw_iff (hack.balanced hc) hack).mp hlaw
  · intro h
    refine ⟨(hc.call_of_lawful hk h).order ordered_seqLe, ?_, ?_⟩
    · intro seg now he hack
      rw [he]
      exact (ackLaw_iff (hack.balanced hc) hack).mpr (h seg now he hack)
    · intro seg now he hl hr hst
      rw [he] at hst
      obtain ⟨hack, hge⟩ := leaves_awaiting hl hr hst
      exact ⟨hack.ack, (h seg now he hack).eq_of_seqGe hl hge⟩

end

end

end TcpConnection

open TcpConnection

def New (c : TcpConnection) : Prop := ∃ a b isn, c = newServer a b isn ∨ c = newClient a b isn

theorem New.settled {c : TcpConnection} (h : New c) : c.Settled Q := by
  obtain ⟨a, b, isn, rfl | rfl⟩ := h
  · exact settled_fresh .listen a b isn
  · exact settled_fresh .closed a b isn

/-- A run that opens its connection only when nothing is outstanding obeys the law exactly when every segment of it
is lawful. -/
theorem run_obeys_iff {c : TcpConnection} {ks : List Call} (hc : New c)
    (hopen : Along after (fun c k => k.Opens (fun c => c.sndUna = c.sndNxt) c) c ks) :
    Along after Obeys c ks ↔ Along after Lawful c ks :=
  along_congr (I := TcpConnection.Settled fun u n => seqLe u n = true) (fun _ _ hc hk => obeys_iff hc hk)
    (fun _ _ hc hk hl => hc.call_of_lawful hk hl) hc.settled hopen

/-- Both sides have closed: three bytes and the FIN of the server are in flight. -/
def lastAckServer : TcpConnection :=
  (handshaken []).callAll
    [.write [1, 2, 3], .pollOutput 1, .handleSegment (fromPeer 1 1001 .finAck [] []) 2, .initiateClose 3]

/-- An acknowledgement of two bytes is dropped, and one of 3995 bytes never sent ends the connection. -/
theorem lastAck_breaks_law :
    Reachable (fun _ => False) lastAckServer ∧ lastAckServer.state = .lastAck ∧
      (lastAckServer.Acknowledges (fromPeer 2 1003 .ackOnly [] []) ∧
        seqGt 1003 lastAckServer.sndUna = true ∧ seqLe 1003 lastAckServer.sndNxt = true ∧
        (lastAckServer.handleSegmentAt (fromPeer 2 1003 .ackOnly [] []) 4).1.sndUna = 1001) ∧
      (lastAckServer.Acknowledges (fromPeer 2 5000 .ackOnly [] []) ∧ seqGt 5000 lastAckServer.sndNxt = true ∧
        (lastAckServer.handleSegmentAt (fromPeer 2 5000 .ackOnly [] []) 4).1.state = .closed ∧
        seqLe (lastAckServer.handleSegmentAt (fromPeer 2 5000 .ackOnly [] []) 4).1.sndUna
          (lastAckServer.handleSegmentAt (fromPeer 2 5000 .ackOnly [] []) 4).1.sndNxt = false) := by
  have hreach : Reachable (fun _ => False) (handshaken []) :=
    .callAll (.server _ _ _) (opens_of_none rfl) (by decide +kernel)
  refine ⟨hreach.callAll (opens_of_none rfl) (by decide +kernel), by decide +kernel, ⟨?_, ?_⟩, ?_, ?_⟩
  · exact ⟨by decide +kernel, rfl, rfl, by decide +kernel⟩
  · decide +kernel
  · exact ⟨by decide +kernel, rfl, rfl, by decide +kernel⟩
  · decide +kernel

theorem lawful_of_seqLe {c : TcpConnection} {seg : TcpSegment} {now : Nat} (hle : seqLe seg.ackNum c.sndNxt = true)
    (hl : c.awaitingLast → seg.ackNum = c.sndNxt) : c.Lawful (.handleSegment seg now) := by
  intro seg' now' he _
  cases he
  refine ⟨fun ha _ _ => hl ha, ?_⟩
  intro hgt
  rw [seqGt_eq_not_seqLe, hle] at hgt
  cases hgt

theorem passive_close_obeys :
    Along after Obeys (newServer serverAddr peerAddr 1000)
      (handshake [] ++ [.handleSegment (fromPeer 1 1001 .finAck [] []) 1, .initiateClose 2,
        .handleSegment (fromPeer 2 1002 .ackOnly [] []) 3]) := by
  refine (run_obeys_iff ⟨_, _, _, .inl rfl⟩ ?_).mpr ⟨?_, ?_, ?_, ?_, ?_, trivial⟩
  · exact ⟨trivial, trivial, trivial, trivial, trivial, trivial⟩
  · exact lawful_of_seqLe (by decide +kernel) (by decide +kernel)
  · exact lawful_of_seqLe (by decide +kernel) (by decide +kernel)
  · exact lawful_of_seqLe (by decide +kernel) (by decide +kernel)
  · intro seg now he; cases he
  · exact lawful_of_seqLe (by decide +kernel) (by decide +kernel)

end SystemsLab.Tcp
