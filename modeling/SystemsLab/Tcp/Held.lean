import SystemsLab.Tcp.Buffering
import SystemsLab.Tcp.Replies

/-!
# Data parked ahead of its turn

`buffer_ooo` first drops the segments that a new one covers and then checks the bound on the queue, so that a
segment refused for its size takes covered bytes with it.
-/

namespace SystemsLab.Tcp

def Held (ooo : List Parked) (n : Seq) : Prop := ∃ e ∈ ooo, ∃ i < e.2.length, n = ahead e.1 i

/-- The queue lies in the window behind `rcv_nxt`. Only a FIN, which takes one number more, can bring `rcv_nxt` up
to a parked segment. -/
def RecvSide.Windowed (r : RecvSide) : Prop :=
  ∀ e ∈ r.ooo, ∃ m, e.1 = ahead r.rcvNxt m ∧ m + e.2.length ≤ 2 ^ 16 ∧ (r.finReceived = false → 0 < m)

namespace TcpConnection

/-- From `c` to `c'` every byte held is still held or was delivered. -/
def KeepsHeld (c c' : TcpConnection) : Prop :=
  ∀ n, Held c.oooSegments n → Held c'.oooSegments n ∨ seqLt n c'.rcvNxt = true

/-- What is left of the segment is parked, covers bytes that nothing else holds, and is refused for its size. -/
def Discards (c : TcpConnection) (seq : Seq) (payload : List UInt8) : Prop :=
  ∃ e, c.fitted seq payload = some e ∧ e.1 ≠ c.rcvNxt ∧ c.inbound.covered e = false ∧ c.inbound.refused e ∧
    ∃ n, Held c.oooSegments n ∧ ¬ Held (c.inbound.uncovered e) n

section
variable {c : TcpConnection} {seq : Seq} {payload : List UInt8} {e : Parked}

theorem Windowed.within (h : c.recvSide.Windowed) : ∀ e ∈ c.oooSegments, e.Within c.rcvNxt 0 (2 ^ 16) := by
  intro e he
  obtain ⟨m, hm, hle, -⟩ := h e he
  exact ⟨m, hm, Nat.zero_le m, hle⟩

theorem acceptData_drained (h : c.recvSide.Windowed) (hf : c.fitted seq payload = some e) (he : e.1 = c.rcvNxt) :
    ∃ n, Inbound.Drained c.rcvNxt (2 ^ 16) (fun _ _ => True) (c.inbound.deliver e.2) e.2.length
      (c.acceptData seq payload).inbound n := by
  obtain ⟨m, -, hlt, -⟩ := fitted_within hf
  rw [acceptData_of_next hf he]
  exact @Inbound.drainOoo_drained c.rcvNxt 0 (2 ^ 16) (fun _ _ => True) (by decide) (c.inbound.deliver e.2) _ rfl
    (Nat.zero_le _) (by omega) (Windowed.within h) (fun _ _ _ _ _ _ _ _ _ => trivial) trivial

end

end TcpConnection

theorem Reachable.windowed {c : TcpConnection} (h : Reachable (fun c => c.oooSegments = []) c) :
    c.recvSide.Windowed := by
  have hcap : c.rcvCapacity ≤ 65535 := h.buffers.capacity
  intro e he
  obtain ⟨m, hm, -, hle, hpos⟩ := h.buffers.placed e he
  exact ⟨m, hm, hle.trans ((Nat.sub_le _ _).trans (hcap.trans (by decide))), hpos⟩

namespace TcpConnection

section
variable {c : TcpConnection} {seq : Seq} {payload : List UInt8} {e : Parked}

theorem held_mono {p q : List Parked} {n : Seq} (h : p ⊆ q) (hn : Held p n) : Held q n := by
  obtain ⟨e, he, hi⟩ := hn
  exact ⟨e, h he, hi⟩

theorem held_of_covers {q : Parked} {n : Seq} (hq : q.Within c.rcvNxt 0 (2 ^ 16))
    (he : e.Within c.rcvNxt 0 (2 ^ 16))
    (h₁ : seqLe e.1 q.1 = true) (h₂ : seqLe q.stop e.stop = true) (hn : Held [q] n) : Held [e] n := by
  obtain ⟨mq, hmq, -, hlq⟩ := hq
  obtain ⟨me, hme, -, hle⟩ := he
  obtain ⟨q', hq', i, hi, rfl⟩ := hn
  rw [List.mem_singleton] at hq'
  subst hq'
  unfold Parked.stop at h₂
  rw [hme, hmq, seqLe_ahead (by omega) (by omega)] at h₁
  rw [hme, hmq, ahead_ahead, ahead_ahead, seqLe_ahead (by omega) (by omega)] at h₂
  refine ⟨e, List.mem_singleton_self e, mq + i - me, by omega, ?_⟩
  rw [hmq, hme, ahead_ahead, ahead_ahead]
  congr 1
  omega

theorem keepsHeld_of_next (h : c.recvSide.Windowed) (hf : c.fitted seq payload = some e) (he : e.1 = c.rcvNxt) :
    KeepsHeld c (c.acceptData seq payload) := by
  obtain ⟨n, hd⟩ := acceptData_drained h hf he
  rintro x ⟨q, hq, i, hi, rfl⟩
  rcases hd.gone q hq with hk | ⟨m, hm, hle⟩
  · exact .inl ⟨q, hk, i, hi, rfl⟩
  · right
    have hr : (c.acceptData seq payload).rcvNxt = ahead c.rcvNxt n := hd.rcvNxt
    have hb := hd.le
    rw [hr, hm, ahead_ahead, seqLt_ahead (by omega) (by omega)]
    omega

theorem keepsHeld_of_ahead (h : c.recvSide.Windowed) (hf : c.fitted seq payload = some e) (he : e.1 ≠ c.rcvNxt) :
    KeepsHeld c (c.acceptData seq payload) ↔
      (c.inbound.covered e = false → c.inbound.refused e → ∀ n,
        Held c.oooSegments n → Held (c.inbound.uncovered e) n) := by
  obtain ⟨me, hme, hlt, -⟩ := fitted_within hf
  rw [acceptData_of_ahead hf he]
  cases hc : c.inbound.covered e with
  | true =>
    refine iff_of_true ?_ (fun h => by cases h)
    rw [Inbound.bufferOoo_of_covered hc]
    exact fun n hn => .inl hn
  | false =>
    by_cases hr : c.inbound.refused e
    · have hq : (c.withInbound (c.inbound.bufferOoo e)).oooSegments = c.inbound.uncovered e :=
        Inbound.bufferOoo_of_refused hc hr
      have hrn : (c.withInbound (c.inbound.bufferOoo e)).rcvNxt = c.rcvNxt := Inbound.bufferOoo_rcvNxt
      unfold KeepsHeld
      rw [hq, hrn]
      constructor
      · intro hk _ _ n hn
        refine (hk n hn).resolve_right ?_
        -- Nothing parked lies before `rcv_nxt`, which has not moved.
        obtain ⟨q, hq, i, hi, rfl⟩ := hn
        obtain ⟨m, hm, hle, -⟩ := h q hq
        change q.1 = ahead c.rcvNxt m at hm
        have hlt := @seqLt_ahead c.rcvNxt (m + i) 0 (by omega) (by omega)
        rw [ahead_zero] at hlt
        rw [hm, ahead_ahead, hlt]
        omega
      · intro hk n hn
        exact .inl (hk rfl hr n hn)
    · refine iff_of_true ?_ (fun _ hr' => absurd hr' hr)
      rintro n ⟨q, hq, hi⟩
      left
      by_cases hu : q ∈ c.inbound.uncovered e
      · exact ⟨q, (Inbound.mem_bufferOoo hc hr).mpr (.inl hu), hi⟩
      · have hcov : seqLe e.1 q.1 = true ∧ seqLe q.stop e.stop = true := by
          have hq' : q ∈ c.inbound.oooSegments := hq
          simpa [Inbound.uncovered, hq'] using hu
        have hheld := held_of_covers (Windowed.within h q hq) ⟨me, hme, Nat.zero_le me, by omega⟩ hcov.1 hcov.2
          ⟨q, List.mem_singleton_self q, hi⟩
        exact held_mono (fun x hx => (Inbound.mem_bufferOoo hc hr).mpr (.inr (List.mem_singleton.mp hx))) hheld

theorem keepsHeld_iff (h : Reachable (fun c => c.oooSegments = []) c) :
    KeepsHeld c (c.acceptData seq payload) ↔ ¬ c.Discards seq payload := by
  have hw := h.windowed
  unfold Discards
  cases hf : c.fitted seq payload with
  | none =>
    refine iff_of_true ?_ (fun ⟨e, he, _⟩ => by cases he)
    rw [acceptData_of_none hf]
    exact fun n hn => .inl hn
  | some e =>
    by_cases he : e.1 = c.rcvNxt
    · refine iff_of_true (keepsHeld_of_next hw hf he) ?_
      rintro ⟨e', he', hne, -⟩
      cases he'
      exact hne he
    · rw [keepsHeld_of_ahead hw hf he]
      constructor
      · rintro hk ⟨e', he', -, hc, hr, n, hn, hnot⟩
        cases he'
        exact hnot (hk hc hr n hn)
      · intro hk hc hr n hn
        by_contra hnot
        exact hk ⟨e, rfl, he, hc, hr, n, hn, hnot⟩

end

end TcpConnection

/-! ## A byte that gets lost -/

namespace Inbound

def Succeeds (q e : Parked) : Prop := seqLt q.1 e.1 = true ∧ seqLe e.stop q.stop = false ∧ seqLe e.1 q.1 = false

theorem bufferOoo_snoc {r : Inbound} {e : Parked} (h : ∀ q ∈ r.oooSegments, Succeeds q e)
    (hs : r.oooSegments.Pairwise Succeeds) (hb : r.oooBytes + e.2.length ≤ maxOooBytes) :
    (r.bufferOoo e).oooSegments = r.oooSegments ++ [e] := by
  have hc : r.covered e = false := by
    unfold covered
    rw [List.any_eq_false]
    intro q hq
    simp [(h q hq).2.1]
  have hu : r.uncovered e = r.oooSegments := by
    unfold uncovered
    rw [List.filter_eq_self]
    intro q hq
    simp [(h q hq).2.2]
  unfold bufferOoo
  simp only [hc, Bool.false_eq_true, if_false, hu]
  rw [if_neg (Nat.not_lt.mpr hb)]
  refine List.Pairwise.insertionSort_eq
    (List.pairwise_append.mpr ⟨hs.imp fun h => h.1, List.pairwise_singleton _ _, ?_⟩)
  intro q hq x hx
  rw [List.mem_singleton.mp hx]
  exact (h q hq).1

end Inbound

namespace TcpConnection

structure Quiet (c : TcpConnection) : Prop where
  state : c.state = .established
  timestamps : c.tsEnabled = false
  sndUna : c.sndUna = 1001
  sndNxt : c.sndNxt = 1001
  rcvNxt : c.rcvNxt = 1
  rx : c.rxBuffer = []
  capacity : c.rcvCapacity = 65535

def dataAt (e : Parked) : Call := .handleSegment (fromPeer e.1 1001 .ackOnly [] e.2) 1

abbrev dataSegment (e : Parked) : TcpSegment := fromPeer e.1 1001 .ackOnly [] e.2

section
variable {c : TcpConnection} {e : Parked} {m : Nat}

section
variable (h : c.Quiet)
include h

theorem Quiet.window : c.currentRcvWnd = 65535 := by
  unfold currentRcvWnd
  rw [h.capacity, h.rx]
  rfl

theorem Quiet.fitted (he : e.1 = ahead 1 m) (hne : e.2 ≠ []) (hm : m + e.2.length < 2 ^ 16) :
    c.fitted e.1 e.2 = some e := by
  have hlen := List.length_pos_of_ne_nil hne
  have hcmp : ∀ j, j < 2 ^ 16 → (seqLe (ahead 1 j) c.rcvNxt = true ↔ j ≤ 0) ∧
      (seqLt (ahead 1 j) c.rcvNxt = true ↔ j < 0) := by
    intro j hj
    rw [h.rcvNxt, ← ahead_zero (1 : Seq), ahead_ahead]
    rw [Nat.zero_add]
    exact ⟨seqLe_ahead (by omega) (by omega), seqLt_ahead (by omega) (by omega)⟩
  have htrim : c.trimLeft e.1 e.2 = some e := by
    unfold trimLeft
    rw [if_neg hne, he, ahead_ahead, if_neg (by rw [(hcmp _ hm).1]; omega),
      if_neg (by rw [(hcmp m (by omega)).2]; omega), ← he]
  have hoff : (seqDiff e.1 c.rcvNxt).toNat = m := by
    rw [h.rcvNxt, he]
    unfold seqDiff
    rw [ahead_sub_self, BitVec.toNat_ofNat, Nat.mod_eq_of_lt (by omega)]
  unfold TcpConnection.fitted
  rw [htrim, Option.bind_some]
  unfold clipRight
  simp only [h.window, hoff]
  have hw : (65535 : UInt16).toNat = 65535 := rfl
  rw [hw, if_neg (by decide), if_neg (by omega), List.take_of_length_le (by omega), if_neg hne]

theorem Quiet.onData (hne : e.2 ≠ []) :
    (c.onData (dataSegment e) 1).1 =
      ({ c with sndWnd := 65535 }.acceptData e.1 e.2).buildAck.1 := by
  have hslide : c.slideWindow (dataSegment e) 1 = ({ c with sndWnd := 65535 }, none) := by
    have ha : c.ackAcceptable 1001 = false := by unfold ackAcceptable; rw [h.sndUna, h.sndNxt]; decide
    have hd : c.isDuplicateAck (dataSegment e) = false := by simp [isDuplicateAck, fromPeer, hne]
    unfold slideWindow
    rw [hd]
    simp only [fromPeer, ha]
    rfl
  have hst : ({ c with sndWnd := 65535 }.acceptData e.1 e.2).buildAck.1.state = .established := by
    rw [buildAck_state, acceptData_state]
    exact h.state
  have hadv : ∀ d : TcpConnection, d.state = .established → d.advanceClose 1 = d := by
    intro d hd
    unfold advanceClose
    rw [hd]
    split <;> rfl
  have hrecv : ({ c with sndWnd := 65535 } : TcpConnection).receive (dataSegment e) 1 =
      { c with sndWnd := 65535 }.acceptData e.1 e.2 := by
    rw [receive_eq]
    exact if_neg (by simp [finConsumed, fromPeer, TcpFlags.ackOnly])
  unfold TcpConnection.onData
  rw [if_neg (by rw [h.sndNxt]; change ¬ (true && seqGt 1001 1001) = true; decide), hslide]
  simp only [hrecv]
  rw [if_pos (by simp [tookSpace, fromPeer, hne])]
  exact hadv _ hst

theorem Quiet.stamped : (c.stamped (dataSegment e) 1).Quiet := by
  exact ⟨stamped_state.trans h.state, stamped_tsEnabled.trans h.timestamps, stamped_sndUna.trans h.sndUna,
    stamped_sndNxt.trans h.sndNxt, stamped_rcvNxt.trans h.rcvNxt, stamped_rxBuffer.trans h.rx,
    stamped_rcvCapacity.trans h.capacity⟩

theorem Quiet.handle :
    c.handleSegmentAt (dataSegment e) 1 =
      (c.stamped (dataSegment e) 1).onData (dataSegment e) 1 := by
  have hts : c.timestampOf (dataSegment e) = none := by
    unfold timestampOf
    split <;> rfl
  rw [handleSegmentAt_of_passed (by unfold synchronized; rw [h.state]; rfl) (by rw [hts]; rfl) rfl]
  unfold dispatch
  rw [stamped_state, h.state]

theorem Quiet.dataAt (he : e.1 = ahead 1 m) (hpos : 0 < m) (hne : e.2 ≠ []) (hm : m + e.2.length < 2 ^ 16) :
    (c.call (TcpConnection.dataAt e)).1.Quiet ∧
      (c.call (TcpConnection.dataAt e)).1.oooSegments = (c.inbound.bufferOoo e).oooSegments := by
  have hq : (c.stamped (dataSegment e) 1).Quiet := h.stamped
  have hin : (c.stamped (dataSegment e) 1).inbound = c.inbound := by
    obtain ⟨_, _, _, hs⟩ := stamped_eq c (dataSegment e) 1
    rw [hs]
    rfl
  have hnext : e.1 ≠ (1 : Seq) := by
    rw [he, ← ahead_zero (1 : Seq), ahead_ahead]
    intro heq
    rw [ahead_inj (by omega) (by omega)] at heq
    omega
  have hq' : ({ c.stamped (dataSegment e) 1 with sndWnd := 65535 } : TcpConnection).Quiet :=
    ⟨hq.state, hq.timestamps, hq.sndUna, hq.sndNxt, hq.rcvNxt, hq.rx, hq.capacity⟩
  have hcall : (c.call (TcpConnection.dataAt e)).1 =
      ({ c.stamped (dataSegment e) 1 with sndWnd := 65535 }.withInbound (c.inbound.bufferOoo e)).buildAck.1 := by
    unfold TcpConnection.dataAt TcpConnection.call
    simp only [h.handle, hq.onData hne]
    rw [acceptData_of_ahead (hq'.fitted he hne hm) (by rw [hq'.rcvNxt]; exact hnext)]
    change (({ c.stamped (dataSegment e) 1 with sndWnd := 65535 } : TcpConnection).withInbound
      ((c.stamped (dataSegment e) 1).inbound.bufferOoo e)).buildAck.1 = _
    rw [hin]
  rw [hcall]
  refine ⟨⟨hq.state, hq.timestamps, hq.sndUna, hq.sndNxt, ?_, ?_, hq.capacity⟩, rfl⟩
  · exact Inbound.bufferOoo_rcvNxt.trans h.rcvNxt
  · exact Inbound.bufferOoo_rxBuffer.trans h.rx

end

theorem Quiet.callAll {mayOpen : TcpConnection → Prop} :
    ∀ (es : List Parked) {c : TcpConnection}, c.Quiet → Reachable mayOpen c →
    (c.oooSegments ++ es).Pairwise Inbound.Succeeds →
    ((c.oooSegments ++ es).map fun e => e.2.length).sum ≤ Inbound.maxOooBytes →
    (∀ e ∈ es, ∃ m, e.1 = ahead 1 m ∧ 0 < m ∧ e.2 ≠ [] ∧ m + e.2.length < 2 ^ 16) →
    (c.callAll (es.map TcpConnection.dataAt)).Quiet ∧ Reachable mayOpen (c.callAll (es.map TcpConnection.dataAt)) ∧
      (c.callAll (es.map TcpConnection.dataAt)).oooSegments = c.oooSegments ++ es
  | [], c, h, hr, _, _, _ => ⟨h, hr, (List.append_nil _).symm⟩
  | e :: es, c, h, hr, hp, hb, hw => by
    obtain ⟨m, he, hpos, hne, hm⟩ := hw e List.mem_cons_self
    obtain ⟨hq, hooo⟩ := h.dataAt he hpos hne hm
    obtain ⟨hold, -, hcross⟩ := List.pairwise_append.mp hp
    have hsnoc : (c.call (TcpConnection.dataAt e)).1.oooSegments = c.oooSegments ++ [e] := by
      rw [hooo]
      refine Inbound.bufferOoo_snoc (fun q hq => hcross q hq e List.mem_cons_self) hold ?_
      change (c.oooSegments.map fun e => e.2.length).sum + e.2.length ≤ _
      simp only [List.map_append, List.sum_append, List.map_cons, List.sum_cons] at hb
      omega
    have hret : c.Returns (TcpConnection.dataAt e) := returns_of_not_overflow fun ho => by
      have := ho.2.1
      rw [hq.timestamps] at this
      cases this
    have ih := Quiet.callAll es hq (.call _ hr trivial hret)
      (by rw [hsnoc, List.append_assoc]; exact hp) (by rw [hsnoc, List.append_assoc]; exact hb)
      (fun x hx => hw x (List.mem_cons_of_mem e hx))
    rw [hsnoc, List.append_assoc] at ih
    exact ih

end

end TcpConnection

def zeros (n : Nat) : List UInt8 := List.replicate n 0

@[simp] theorem length_zeros (n : Nat) : (zeros n).length = n := List.length_replicate

theorem zeros_ne_nil {n : Nat} (h : 0 < n) : zeros n ≠ [] :=
  List.ne_nil_of_length_pos (by rw [length_zeros]; exact h)

def crowd : List Parked :=
  [(5, zeros 5), (11, zeros 60000), (12, zeros 60000), (13, zeros 60000), (14, zeros 60000)]

def crowded : TcpConnection := (handshaken [.sackPermitted]).callAll (crowd.map TcpConnection.dataAt)

theorem crowded_parks : crowded.Quiet ∧ Reachable (fun _ => False) crowded ∧ crowded.oooSegments = crowd := by
  have hq : (handshaken [.sackPermitted]).Quiet := by constructor <;> decide +kernel
  have hooo : (handshaken [.sackPermitted]).oooSegments = [] := by decide +kernel
  have hr : Reachable (fun _ => False) (handshaken [.sackPermitted]) :=
    .callAll (.server _ _ _) (opens_of_none rfl) (by decide +kernel)
  have h := hq.callAll crowd hr ?_ ?_ ?_
  · rw [hooo] at h
    exact h
  · rw [hooo]
    simp only [List.nil_append, crowd, List.pairwise_cons, List.mem_cons, List.not_mem_nil, or_false,
      forall_eq_or_imp, forall_eq, Inbound.Succeeds, Parked.stop, length_zeros, List.Pairwise.nil, and_true,
      false_implies, implies_true]
    decide
  · rw [hooo]
    simp only [List.nil_append, crowd, List.map_cons, List.map_nil, length_zeros]
    decide
  · simp only [crowd, List.mem_cons, List.not_mem_nil, or_false, forall_eq_or_imp, forall_eq, length_zeros]
    exact ⟨⟨4, by decide, by decide, zeros_ne_nil (by decide), by decide⟩,
      ⟨10, by decide, by decide, zeros_ne_nil (by decide), by decide⟩,
      ⟨11, by decide, by decide, zeros_ne_nil (by decide), by decide⟩,
      ⟨12, by decide, by decide, zeros_ne_nil (by decide), by decide⟩,
      ⟨13, by decide, by decide, zeros_ne_nil (by decide), by decide⟩⟩

theorem crowd_tail_at {e : Parked} (he : e ∈ crowd.tail) :
    ∃ m, e.1 = ahead 1 m ∧ 10 ≤ m ∧ m + e.2.length < 2 ^ 31 := by
  simp only [crowd, List.tail_cons, List.mem_cons, List.not_mem_nil, or_false] at he
  rcases he with rfl | rfl | rfl | rfl
  · exact ⟨10, rfl, by decide, by simp only [length_zeros]; decide⟩
  · exact ⟨11, rfl, by decide, by simp only [length_zeros]; decide⟩
  · exact ⟨12, rfl, by decide, by simp only [length_zeros]; decide⟩
  · exact ⟨13, rfl, by decide, by simp only [length_zeros]; decide⟩

theorem acceptData_crowd {c : TcpConnection} (hq : c.Quiet) (hooo : c.oooSegments = crowd) :
    (c.acceptData 4 (zeros 30000)).oooSegments = crowd.tail ∧ (c.acceptData 4 (zeros 30000)).rcvNxt = 1 := by
  have hfit : c.fitted 4 (zeros 30000) = some (4, zeros 30000) :=
    TcpConnection.Quiet.fitted (e := (4, zeros 30000)) (m := 3) hq rfl (zeros_ne_nil (by decide))
      (by simp only [length_zeros]; decide)
  have hin : c.inbound.oooSegments = crowd := hooo
  have hcov : c.inbound.covered (4, zeros 30000) = false := by
    unfold Inbound.covered
    rw [hin]
    simp only [crowd, List.any_cons, List.any_nil, Parked.stop, length_zeros]
    decide
  have hunc : c.inbound.uncovered (4, zeros 30000) = crowd.tail := by
    have hout : seqLe (ahead 11 60000) (ahead 4 30000) = false ∧ seqLe (ahead 12 60000) (ahead 4 30000) = false ∧
        seqLe (ahead 13 60000) (ahead 4 30000) = false ∧ seqLe (ahead 14 60000) (ahead 4 30000) = false ∧
        (seqLe 4 5 && seqLe (ahead 5 5) (ahead 4 30000)) = true := by decide
    unfold Inbound.uncovered
    rw [hin]
    simp only [crowd, List.filter_cons, List.filter_nil, Parked.stop, length_zeros, List.tail_cons, hout,
      Bool.and_false, Bool.not_false, Bool.not_true, if_true, Bool.false_eq_true, if_false]
  have href : c.inbound.refused (4, zeros 30000) := by
    unfold Inbound.refused Inbound.oooBytes
    rw [hunc]
    simp only [crowd, List.tail_cons, List.map_cons, List.map_nil, length_zeros]
    decide
  rw [TcpConnection.acceptData_of_ahead hfit (by rw [hq.rcvNxt]; decide)]
  exact ⟨(Inbound.bufferOoo_of_refused hcov href).trans hunc, Inbound.bufferOoo_rcvNxt.trans hq.rcvNxt⟩

/-- Bytes that every acknowledgement has reported are gone after a segment that covers them. -/
theorem covered_bytes_lost :
    Reachable (fun _ => False) crowded ∧ Held crowded.oooSegments 5 ∧ (5, 10) ∈ crowded.buildSackBlocks ∧
      ¬ Held (crowded.acceptData 4 (zeros 30000)).oooSegments 5 ∧
      seqLt 5 (crowded.acceptData 4 (zeros 30000)).rcvNxt = false := by
  obtain ⟨hq, hr, hooo⟩ := crowded_parks
  obtain ⟨hafter, hnext⟩ := acceptData_crowd hq hooo
  unfold TcpConnection.buildSackBlocks
  rw [hafter, hnext, hooo]
  refine ⟨hr, ?_, ?_, ?_, by decide⟩
  · exact ⟨(5, zeros 5), List.mem_cons_self, 0, by simp only [length_zeros]; decide, rfl⟩
  · simp only [crowd, List.foldl_cons, List.foldl_nil, TcpConnection.pushBlock, Parked.stop, length_zeros]
    decide
  · rintro ⟨e, he, i, hi, h5⟩
    obtain ⟨m, hm, hlo, hhi⟩ := crowd_tail_at he
    rw [hm, ahead_ahead, show (5 : Seq) = ahead 1 4 from rfl, ahead_inj (by omega) (by omega)] at h5
    omega

def oneHole : TcpConnection := (handshaken []).callAll [.handleSegment (fromPeer 5 1001 .ackOnly [] [5]) 1]

theorem filled_hole_keeps : TcpConnection.KeepsHeld oneHole (oneHole.acceptData 1 [1, 2, 3, 4]) := by
  have hr : Reachable (fun c => c.oooSegments = []) (handshaken []) :=
    .callAll (.server _ _ _) (opens_of_none rfl) (by decide +kernel)
  have hfit : oneHole.fitted 1 [1, 2, 3, 4] = some (1, [1, 2, 3, 4]) ∧ oneHole.rcvNxt = 1 := by decide +kernel
  have hhole : Reachable (fun c => c.oooSegments = []) oneHole := hr.callAll (opens_of_none rfl) (by decide +kernel)
  refine (TcpConnection.keepsHeld_iff hhole).mpr ?_
  rintro ⟨e, he, hne, -⟩
  rw [hfit.1] at he
  cases he
  exact hne hfit.2.symm

end SystemsLab.Tcp
