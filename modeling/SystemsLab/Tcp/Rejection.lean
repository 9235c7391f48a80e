import SystemsLab.Tcp.Replies

/-!
# Rejected segments

A reset outside the window, an old duplicate, or an acknowledgement of data never sent. By then the segment's
options have been applied already.
-/

namespace SystemsLab.Tcp

namespace TcpConnection

/-- `c'` with the clock, the statistics, `last_ack_sent` and `last_advertised_wnd` of `c`. -/
def bookkeepingOf (c c' : TcpConnection) : TcpConnection :=
  { c' with
    currentTimeMs := c.currentTimeMs
    stats := c.stats
    lastAckSent := c.lastAckSent
    lastAdvertisedWnd := c.lastAdvertisedWnd }

def Agrees (c c' : TcpConnection) : Prop := bookkeepingOf c c' = c

theorem Agrees.peerMss_eq {c c' : TcpConnection} (h : Agrees c c') : c'.peerMss = c.peerMss := by
  have e : (bookkeepingOf c c').peerMss = c.peerMss := by rw [show bookkeepingOf c c' = c from h]
  exact e

theorem agrees_countInvalid (c c' : TcpConnection) : Agrees c c'.countInvalid ↔ Agrees c c' := Iff.rfl

theorem agrees_buildAck (c c' : TcpConnection) : Agrees c c'.buildAck.1 ↔ Agrees c c' := Iff.rfl

theorem agrees_discardOld (c c' : TcpConnection) : Agrees c c'.discardOld.1 ↔ Agrees c c' := Iff.rfl

def transferring (c : TcpConnection) : Bool := c.state = .established || c.state = .finWait1 || c.state = .finWait2

def Rejects (c : TcpConnection) (seg : TcpSegment) : Prop :=
  seg.flags.rst = true ∧ c.rstAcceptable seg = false ∨
    c.pawsRejects seg (c.timestampOf seg) = true ∨
    c.transferring = true ∧ seg.flags.rst = false ∧ seg.flags.ack = true ∧ seqGt seg.ackNum c.sndNxt = true

instance (c : TcpConnection) (seg : TcpSegment) : Decidable (c.Rejects seg) := inferInstanceAs (Decidable (_ ∨ _))

/-- The options say nothing that the connection does not have already. -/
structure OptionsInert (c : TcpConnection) (os : List TcpOption) : Prop where
  mss : ∀ m, lastMss os = some m → m = c.peerMss ∧ m.toNat = c.congestion.mss
  permitted : .sackPermitted ∈ os → c.sackPermitted = true ∧ c.peerSackPermitted = true
  blocks : ∀ e ∈ c.retransmitQueue, sackCovers os e = true → e.sacked = true

def TimestampInert (c : TcpConnection) (seg : TcpSegment) (now : Nat) : Prop :=
  ∀ tsval ecr, c.timestampOf seg = some (tsval, ecr) →
    (seqGe tsval c.tsRecent = true → seqLe seg.seqNum c.lastAckSent = true → tsval = c.tsRecent) ∧
      ecr = c.lastTsAck ∧
      (ecr ≠ 0 → 0 < (clock32 now).toNat - ecr.toNat →
        c.rtt.updateSample (f64 (((clock32 now).toNat - ecr.toNat : Nat) : ℚ)) = c.rtt)

section
variable {c : TcpConnection} {seg : TcpSegment} {now : Nat}

theorem map_markCovered_eq_self (os : List TcpOption) (q : List RetransmitSegment) :
    q.map (markCovered os) = q ↔ ∀ e ∈ q, sackCovers os e = true → e.sacked = true := by
  conv_lhs => rhs; rw [← List.map_id q]
  rw [List.map_inj_left]
  apply forall₂_congr
  intro e _
  simp [markCovered, RetransmitSegment.ext_iff]

theorem optionsInert_iff {os : List TcpOption} :
    c.OptionsInert os ↔
      (lastMss os).getD c.peerMss = c.peerMss ∧
        (∀ e ∈ c.retransmitQueue, sackCovers os e = true → e.sacked = true) ∧
        ((lastMss os).map UInt16.toNat).getD c.congestion.mss = c.congestion.mss ∧
        (c.sackPermitted || decide (.sackPermitted ∈ os)) = c.sackPermitted ∧
        (c.peerSackPermitted || decide (.sackPermitted ∈ os)) = c.peerSackPermitted := by
  simp only [Bool.or_eq_left_iff_imp, decide_eq_true_eq]
  constructor
  · intro h
    refine ⟨?_, h.blocks, ?_, fun hp => (h.permitted hp).1, fun hp => (h.permitted hp).2⟩
    · cases hm : lastMss os with
      | none => rfl
      | some m => exact (h.mss m hm).1
    · cases hm : lastMss os with
      | none => rfl
      | some m => exact (h.mss m hm).2
  · intro ⟨h₁, h₂, h₃, h₄, h₅⟩
    refine ⟨?_, fun hp => ⟨h₄ hp, h₅ hp⟩, h₂⟩
    intro m hm
    rw [hm] at h₁ h₃
    exact ⟨h₁, h₃⟩

theorem rstAcceptable_stamped : (c.stamped seg now).rstAcceptable seg = c.rstAcceptable seg := by
  simp [rstAcceptable, currentRcvWnd]

theorem dispatch_of_transferring (h : c.transferring = true) : c.dispatch seg now = c.onData seg now := by
  unfold transferring at h
  unfold dispatch
  cases hs : c.state <;> simp [hs] at h ⊢

theorem agrees_arrived : Agrees c (c.arrived seg now) ↔ c.OptionsInert seg.options := by
  unfold Agrees
  rw [TcpConnection.ext_iff, optionsInert_iff]
  simp only [bookkeepingOf, arrived, counted, optionsApplied, true_and, and_true, map_markCovered_eq_self,
    CongestionControl.ext_iff]

theorem agrees_stamped : Agrees c (c.stamped seg now) ↔ c.OptionsInert seg.options ∧ c.TimestampInert seg now := by
  unfold stamped TimestampInert
  cases hts : c.timestampOf seg with
  | none => simp [recordTimestamp, agrees_arrived]
  | some t =>
    obtain ⟨tsval, ecr⟩ := t
    rw [← @agrees_arrived c seg now]
    unfold Agrees
    rw [TcpConnection.ext_iff, TcpConnection.ext_iff]
    have hforall : ∀ P : Seq → Seq → Prop, (∀ v e, some (tsval, ecr) = some (v, e) → P v e) ↔ P tsval ecr := by
      intro P
      constructor
      · intro h; exact h tsval ecr rfl
      · intro h v e hve; cases hve; exact h
    simp only [bookkeepingOf, recordTimestamp, arrived, counted, optionsApplied, true_and, and_true, hforall,
      ite_eq_right_iff, Bool.and_eq_true, and_imp]
    constructor
    · rintro ⟨h₁, h₂, h₃, h₄, h₅, h₆, h₇, h₈⟩
      exact ⟨⟨h₁, h₂, h₃, h₅, h₆⟩, h₇, h₈, h₄⟩
    · rintro ⟨⟨h₁, h₂, h₃, h₅, h₆⟩, h₇, h₈, h₄⟩
      exact ⟨h₁, h₂, h₃, h₄, h₅, h₆, h₇, h₈⟩

theorem returns_iff_of_ack {d d' : TcpConnection} (h : c.handleSegmentAt seg now = (d', some d.buildAck.2)) :
    c.Returns (.handleSegment seg now) ↔ ¬ d.OptionsOverflow := by
  simp [Returns, call, h, serialises_buildAck]

/-- A rejected segment changes only the bookkeeping exactly when its options are inert, unless it was an old
duplicate its timestamp is, and the answer to it can be built. -/
theorem rejected_agrees_iff (hs : c.synchronized = true) (hr : c.Rejects seg) :
    c.Returns (.handleSegment seg now) ∧ Agrees c (c.handleSegmentAt seg now).1 ↔
      c.OptionsInert seg.options ∧ (c.pawsRejects seg (c.timestampOf seg) = false → c.TimestampInert seg now) ∧
        (seg.flags.rst = false → ¬ c.ReplyOverflows seg) := by
  by_cases hp : c.pawsRejects seg (c.timestampOf seg) = true
  · have hrst : seg.flags.rst = false := by
      cases hts : c.timestampOf seg with
      | none => simp [hts, pawsRejects] at hp
      | some ts =>
        simp only [hts, pawsRejects, Bool.and_eq_true, Bool.not_eq_true'] at hp
        exact hp.1.1.2
    have hcall := @handleSegmentAt_of_paws c seg now hs hp
    have hreturns : c.Returns (.handleSegment seg now) ↔ ¬ c.ReplyOverflows seg :=
      Iff.trans (returns_iff_of_ack hcall) (not_congr (overflows_iff rfl rfl rfl))
    rw [hreturns, hcall, ← @agrees_arrived c seg now]
    simp only [hp, hrst, Bool.true_eq_false, false_implies, forall_const, true_and, agrees_discardOld, and_comm]
  · rw [Bool.not_eq_true] at hp
    simp only [hp, forall_const, ← and_assoc, ← agrees_stamped]
    by_cases hrst : seg.flags.rst = true
    · have ha : (c.stamped seg now).rstAcceptable seg = false := by
        rw [rstAcceptable_stamped]
        simpa [Rejects, hrst, hp] using hr
      have hcall := @handleSegmentAt_of_rst c seg now hs hrst
      have hreturns : c.Returns (.handleSegment seg now) := by simp [Returns, call, hcall]
      rw [hcall]
      simp only [hreturns, hrst, handleRst, ha, Bool.false_eq_true, Bool.true_eq_false, if_false,
        agrees_countInvalid, false_implies, true_and, and_true]
    · rw [Bool.not_eq_true] at hrst
      obtain ⟨ht, -, hack, hgt⟩ : c.transferring = true ∧ seg.flags.rst = false ∧ seg.flags.ack = true ∧
          seqGt seg.ackNum c.sndNxt = true := by
        simpa [Rejects, hrst, hp] using hr
      have hcall := @handleSegmentAt_of_passed c seg now hs hp hrst
      rw [dispatch_of_transferring (by simpa [transferring] using ht), onData,
        if_pos (by simp [hack, hgt])] at hcall
      have hreturns : c.Returns (.handleSegment seg now) ↔ ¬ c.ReplyOverflows seg :=
        (returns_iff_of_ack hcall).trans (not_congr stamped_overflows)
      rw [hreturns, hcall]
      simp only [hrst, forall_const, agrees_buildAck, agrees_countInvalid, and_comm]

end

def strayReset : TcpSegment := fromPeer 100000 0 { rst := true } [.mss 1] []

/-- It is ignored as a reset, and still shrinks every later segment of the connection to one byte. -/
theorem strayReset_sets_mss :
    Reachable (fun _ => False) (handshaken []) ∧ (handshaken []).synchronized = true ∧
      (handshaken []).Rejects strayReset ∧
      ((handshaken []).handleSegmentAt strayReset 1).1.peerMss = 1 ∧
      ¬ Agrees (handshaken []) ((handshaken []).handleSegmentAt strayReset 1).1 := by
  have hmss : ((handshaken []).handleSegmentAt strayReset 1).1.peerMss = 1 := by decide +kernel
  refine ⟨.callAll (.server _ _ _) (opens_of_none rfl) (by decide +kernel), by decide +kernel,
    by decide +kernel, hmss, ?_⟩
  intro h
  have hkept : (handshaken []).peerMss = 1460 := by decide +kernel
  have := h.peerMss_eq
  rw [hmss, hkept] at this
  cases this

theorem bare_reset_agrees :
    Agrees (handshaken []) ((handshaken []).handleSegmentAt { strayReset with options := [] } 1).1 := by
  refine ((rejected_agrees_iff (by decide +kernel) (by decide +kernel)).mpr
    ⟨⟨?_, ?_, ?_⟩, ?_, fun h => Bool.noConfusion h⟩).2
  · intro m hm; cases hm
  · intro h; cases h
  · intro e _ h; cases h
  · intro _ v e h
    have : (handshaken []).timestampOf { strayReset with options := [] } = none := by decide +kernel
    rw [this] at h
    cases h

end TcpConnection

end SystemsLab.Tcp
