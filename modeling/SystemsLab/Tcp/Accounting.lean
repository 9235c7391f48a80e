import SystemsLab.Tcp.Turn

/-!
# The sender's account

The retransmission queue tiles the sequence space up to `snd_nxt`, `snd_una` lies in its first tile, and the
congestion controller counts from `snd_una` to `snd_nxt`.
-/

namespace SystemsLab.Tcp

variable {c : TcpConnection} {d : TcpConnection}

/-! ## A queue that tiles the sequence space -/

def Sent.len (e : Sent) : Nat := e.payload.length + if e.flags.syn || e.flags.fin then 1 else 0

def Tiles : Seq → List Sent → Seq → Prop
  | a, [], b => a = b
  | a, e :: es, b => e.seqNum = a ∧ e.endSeq = ahead a e.len ∧ Tiles e.endSeq es b

def span (es : List Sent) : Nat := (es.map Sent.len).sum

@[simp] theorem span_nil : span [] = 0 := rfl

@[simp] theorem span_cons (e : Sent) (es : List Sent) : span (e :: es) = e.len + span es := rfl

theorem Tiles.stop_eq : ∀ {es : List Sent} {a b : Seq}, Tiles a es b → b = ahead a (span es)
  | [], a, b, h => by rw [span_nil, ahead_zero]; exact h.symm
  | e :: es, a, b, ⟨_, he, h⟩ => by rw [h.stop_eq, he, ahead_ahead, span_cons]

theorem Tiles.snoc :
    ∀ {es : List Sent} {a b : Seq} {e : Sent}, Tiles a es b → e.seqNum = b → e.endSeq = ahead b e.len →
    Tiles a (es ++ [e]) e.endSeq
  | [], a, b, e, h, h₁, h₂ => by
    have hab : a = b := h
    subst hab
    exact ⟨h₁, h₂, rfl⟩
  | _ :: _, _, _, _, ⟨hs, he, h⟩, h₁, h₂ => ⟨hs, he, h.snoc h₁ h₂⟩

theorem Tiles.filter_eq_self : ∀ {es : List Sent} {a b c : Seq} {m k : Nat}, Tiles a es b → a = ahead c k →
    k + span es < 2 ^ 31 → (es = [] ∨ m < k) → es.filter (fun e => !seqLe e.endSeq (ahead c m)) = es
  | [], _, _, _, _, _, _, _, _, _ => rfl
  | e :: es, a, b, c, m, k, ⟨_, he, h⟩, ha, hspan, hm => by
    have hmk : m < k := by simpa using hm
    rw [span_cons] at hspan
    have hend : e.endSeq = ahead c (k + e.len) := by rw [he, ha, ahead_ahead]
    have hkeep : seqLe e.endSeq (ahead c m) = false := by
      rw [← Bool.not_eq_true, hend, seqLe_ahead (by omega) (by omega)]
      omega
    have ih := @Tiles.filter_eq_self es e.endSeq b c m (k + e.len) h hend (by omega) (.inr (by omega))
    rw [List.filter_cons, hkeep, ih]
    rfl

theorem Tiles.retire : ∀ {es : List Sent} {a b : Seq} {m : Nat}, Tiles a es b → span es < 2 ^ 31 → m ≤ span es →
    ∃ d ≤ m, Tiles (ahead a d) (es.filter fun e => !seqLe e.endSeq (ahead a m)) b ∧
      d + span (es.filter fun e => !seqLe e.endSeq (ahead a m)) = span es ∧
      ((es.filter fun e => !seqLe e.endSeq (ahead a m)) = [] → d = m) ∧
      ∀ e ∈ (es.filter fun e => !seqLe e.endSeq (ahead a m)).head?, m - d < e.len
  | [], a, b, m, h, _, hm => by
    refine ⟨0, Nat.zero_le m, ?_, rfl, ?_, ?_⟩
    · rw [ahead_zero]; exact h
    · intro _; exact (Nat.le_zero.mp hm).symm
    · intro e he; cases he
  | e :: es, a, b, m, ⟨hs, he, h⟩, hspan, hm => by
    rw [span_cons] at hspan hm
    have hle : seqLe e.endSeq (ahead a m) = true ↔ e.len ≤ m := by rw [he, seqLe_ahead (by omega) (by omega)]
    by_cases hlm : e.len ≤ m
    · -- The first transmission is acknowledged in full; the rest is retired from its end on.
      obtain ⟨d, hd, ht, hsum, hnil, hhead⟩ := @Tiles.retire es e.endSeq b (m - e.len) h (by omega) (by omega)
      have hpt : ahead e.endSeq (m - e.len) = ahead a m := by rw [he, ahead_ahead]; congr 1; omega
      rw [hpt] at ht hsum hnil hhead
      rw [List.filter_cons, hle.mpr hlm]
      refine ⟨e.len + d, by omega, ?_, ?_, ?_, ?_⟩
      · rw [← ahead_ahead, ← he]; exact ht
      · rw [span_cons, ← hsum]; simp only [Bool.not_true, Bool.false_eq_true, if_false]; omega
      · intro hz; have := hnil hz; omega
      · intro x hx; have := hhead x hx; omega
    · -- It is not, and nothing behind it is.
      have hkeep : seqLe e.endSeq (ahead a m) = false := by rw [← Bool.not_eq_true, hle]; exact hlm
      have hrest := @Tiles.filter_eq_self es e.endSeq b a m e.len h he (by omega) (.inr (by omega))
      rw [List.filter_cons, hkeep, hrest]
      refine ⟨0, Nat.zero_le m, ?_, by simp, ?_, ?_⟩
      · rw [ahead_zero]; exact ⟨hs, he, h⟩
      · intro hz; cases hz
      · intro x hx
        simp only [Bool.not_false, if_true, List.head?_cons, Option.mem_def, Option.some.injEq] at hx
        subst hx
        omega

/-! ## The balance -/

/-- The account at an offset `k` into the first tile. -/
structure SendSide.Balanced (s : SendSide) : Prop where
  tiles : ∃ a k, Tiles a s.queue s.nxt ∧ s.una = ahead a k ∧ k + s.inFlight = span s.queue ∧
    (s.queue = [] → k = 0) ∧
    ∀ e ∈ s.queue.head?, k < e.len
  small : ∀ e ∈ s.queue, e.len ≤ 2 ^ 16
  bound : s.inFlight ≤ 2 ^ 16

namespace SendSide

variable {s : SendSide}

section
variable (h : s.Balanced)
include h

theorem Balanced.span_lt : span s.queue < 2 ^ 31 := by
  obtain ⟨a, k, _, _, hsum, hnil, hhead⟩ := h.tiles
  have hb := h.bound
  cases hq : s.queue with
  | nil => simp
  | cons e es =>
    have hk := hhead e (by rw [hq]; rfl)
    have he := h.small e (by rw [hq]; exact List.mem_cons_self)
    rw [← hq]
    omega

theorem Balanced.nxt_eq : s.nxt = ahead s.una s.inFlight := by
  obtain ⟨a, k, ht, hu, hsum, -, -⟩ := h.tiles
  rw [ht.stop_eq, hu, ahead_ahead, hsum]

theorem Balanced.inFlight_eq : s.inFlight = (s.nxt - s.una).toNat := by
  have hb := h.bound
  rw [h.nxt_eq, ahead_sub_self, BitVec.toNat_ofNat, Nat.mod_eq_of_lt (by omega)]

theorem Balanced.eq_iff : s.una = s.nxt ↔ s.inFlight = 0 := by
  rw [h.inFlight_eq]
  constructor
  · intro e; rw [e]; simp
  · intro e
    have := ahead_sub s.nxt s.una
    rw [e, ahead_zero] at this
    exact this

theorem Balanced.queue_eq_nil_iff : s.queue = [] ↔ s.inFlight = 0 := by
  obtain ⟨a, k, ht, hu, hsum, hnil, hhead⟩ := h.tiles
  cases hq : s.queue with
  | nil =>
    have := hnil hq
    rw [hq, span_nil] at hsum
    simp only [true_iff]
    omega
  | cons e es =>
    have hk := hhead e (by rw [hq]; rfl)
    rw [hq, span_cons] at hsum
    simp only [reduceCtorEq, false_iff]
    omega

theorem Balanced.ack {j : Nat} (hj : j ≤ s.inFlight) :
    (s.ack (ahead s.una j)).Balanced ∧ (s.ack (ahead s.una j)).inFlight = s.inFlight - j := by
  obtain ⟨a, k, ht, hu, hsum, hnil, hhead⟩ := h.tiles
  have hb := h.bound
  have hpt : ahead s.una j = ahead a (k + j) := by rw [hu, ahead_ahead]
  have hfl : (s.ack (ahead s.una j)).inFlight = s.inFlight - j := by
    change s.inFlight - (ahead s.una j - s.una).toNat = s.inFlight - j
    rw [ahead_sub_self, BitVec.toNat_ofNat, Nat.mod_eq_of_lt (by omega)]
  obtain ⟨d, hd, ht', hsum', hnil', hhead'⟩ := ht.retire h.span_lt (show k + j ≤ span s.queue by omega)
  rw [← hpt] at ht' hsum' hnil' hhead'
  refine ⟨⟨⟨ahead a d, k + j - d, ht', ?_, ?_, ?_, ?_⟩, ?_, ?_⟩, hfl⟩
  · change ahead s.una j = _
    rw [hpt, ahead_ahead]; congr 1; omega
  · rw [hfl]
    change _ = span (s.queue.filter _)
    omega
  · intro hq; have := hnil' hq; omega
  · exact hhead'
  · intro e he; exact h.small e (List.mem_of_mem_filter he)
  · rw [hfl]; omega

theorem Balanced.push {len : Nat} {flags : TcpFlags} {payload : List UInt8}
    (hlen : len = payload.length + if flags.syn || flags.fin then 1 else 0) (hpos : 0 < len)
    (hroom : s.inFlight + len ≤ 2 ^ 16) :
    (s.push len flags payload).Balanced ∧ (s.push len flags payload).inFlight = s.inFlight + len := by
  obtain ⟨a, k, ht, hu, hsum, hnil, hhead⟩ := h.tiles
  have hfl : (s.push len flags payload).inFlight = s.inFlight + len := Nat.mod_eq_of_lt (by omega)
  have hl : (⟨s.nxt, ahead s.nxt len, flags, payload⟩ : Sent).len = len := hlen.symm
  have hspan : span (s.queue ++ [⟨s.nxt, ahead s.nxt len, flags, payload⟩]) = span s.queue + len := by
    simp [span, hl]
  refine ⟨⟨⟨a, k, ht.snoc rfl (by rw [hl]), hu, ?_, ?_, ?_⟩, ?_, ?_⟩, hfl⟩
  · rw [hfl]
    exact (by omega : k + (s.inFlight + len) = span s.queue + len).trans hspan.symm
  · intro hq; simp [SendSide.push] at hq
  · intro e he
    cases hq : s.queue with
    | nil =>
      have hk := hnil hq
      simp only [SendSide.push, hq, List.nil_append, List.head?_cons, Option.mem_def, Option.some.injEq] at he
      subst he
      rw [hl, hk]; exact hpos
    | cons x xs =>
      simp only [SendSide.push, hq, List.cons_append, List.head?_cons, Option.mem_def, Option.some.injEq] at he
      subst he
      exact hhead x (by rw [hq]; rfl)
  · intro e he
    simp only [SendSide.push, List.mem_append, List.mem_singleton] at he
    rcases he with he | rfl
    · exact h.small e he
    · rw [hl]; omega
  · rw [hfl]; exact hroom

theorem Balanced.acked_le {a : Seq} (hgt : seqGt a s.una = true) (hle : seqLe a s.nxt = true) :
    (seqDiff a s.una).toNat ≤ s.inFlight := by
  have hb := h.bound
  unfold seqDiff
  have hhalf : (a - s.una).toNat < 2 ^ 31 := by
    simp only [seqGt, decide_eq_true_eq] at hgt
    rw [BitVec.toInt_eq_toNat_cond] at hgt
    split at hgt
    · omega
    · have := (a - s.una).isLt
      omega
  rw [h.nxt_eq, ← ahead_sub a s.una, seqLe_ahead (by omega) (by omega)] at hle
  exact hle

end

end SendSide

/-! ## Along a run -/

/-- Nothing before the SYN, the SYN, a full window, and the FIN on top of it. -/
def TcpState.room : TcpState → Nat
  | .listen => 0
  | .synSent | .synReceived => 1
  | .established | .closeWait => 2 ^ 16 - 1
  | _ => 2 ^ 16

def TcpState.over : TcpState → Bool
  | .closed | .timeWait => true
  | _ => false

/-- The account is balanced, or the connection was torn down with something outstanding. What is known of `snd_una`
and `snd_nxt` then is a parameter. -/
def Accounted (Q : Seq → Seq → Prop) (st : TcpState) (s : SendSide) : Prop :=
  (s.Balanced ∧ s.inFlight ≤ st.room) ∨ (st.over = true ∧ s.una ≠ s.nxt ∧ Q s.una s.nxt)

section
variable {Q : Seq → Seq → Prop} {st st' : TcpState} {s s' : SendSide} {a : Seq}

open TcpConnection in
theorem keeps_room (h : keeps st st' = true) : st.room ≤ st'.room := by
  cases st <;> cases st' <;> first | decide | cases h

open TcpConnection in
theorem keeps_over (h : keeps st st' = true) (ho : st.over = true) : st'.over = true := by
  cases st <;> cases ho <;> cases st' <;> first | rfl | cases h

theorem Accounted.balanced (h : Accounted Q st s) (ho : st.over = false) : s.Balanced ∧ s.inFlight ≤ st.room := by
  rcases h with h | ⟨h, -, -⟩
  · exact h
  · rw [ho] at h; cases h

theorem SendSide.Balanced.clear (h : s.Balanced) (he : s.una = s.nxt) : s.clear.Balanced := by
  have hz := h.eq_iff.mp he
  refine ⟨⟨s.nxt, 0, rfl, ?_, ?_, fun _ => rfl, ?_⟩, ?_, h.bound⟩
  · rw [ahead_zero]; exact he
  · change 0 + s.inFlight = 0; omega
  · intro e h; cases h
  · intro e h; cases h

def Ordered (Q : Seq → Seq → Prop) : Prop := ∀ s : SendSide, s.Balanced → Q s.una s.nxt

theorem Accounted.order (hQ : Ordered Q) (h : Accounted Q st s) : Q s.una s.nxt := by
  rcases h with ⟨hb, -⟩ | ⟨-, -, hq⟩
  · exact hQ s hb
  · exact hq

theorem Accounted.clear (hQ : Ordered Q) (h : Accounted Q st s) : Accounted Q .closed s.clear := by
  by_cases he : s.una = s.nxt
  · rcases h with ⟨hb, -⟩ | ⟨-, hne, -⟩
    · exact .inl ⟨hb.clear he, hb.bound⟩
    · exact absurd he hne
  · have hq := h.order hQ
    exact .inr ⟨rfl, he, hq⟩

theorem SendSide.Balanced.ack_all (h : s.Balanced) (ha : a = s.nxt) :
    (s.ack a).Balanced ∧ (s.ack a).inFlight = 0 := by
  have := h.ack (Nat.le_refl s.inFlight)
  rw [← h.nxt_eq, ← ha, Nat.sub_self] at this
  exact this

theorem SendStep.accounted {p : Prop} (hQ : Ordered Q) (hstep : SendStep p a st s st' s') (h : Accounted Q st s)
    (hbeyond : st = .closing ∨ st = .lastAck → p → seqGe a s.nxt = true → a ≠ s.nxt → Q a s.nxt) :
    Accounted Q st' s' := by
  cases hstep with
  | keep hk =>
    rcases h with ⟨hb, hr⟩ | ⟨ho, hne⟩
    · exact .inl ⟨hb, hr.trans (keeps_room hk)⟩
    · exact .inr ⟨keeps_over hk ho, hne⟩
  | opened hst ha =>
    obtain ⟨hb, -⟩ := h.balanced (by rcases hst with rfl | rfl <;> rfl)
    obtain ⟨hb', hz⟩ := hb.ack_all ha
    exact .inl ⟨hb', by rw [hz]; exact Nat.zero_le _⟩
  | ack hst hk ha =>
    obtain ⟨hb, hr⟩ := h.balanced (by rcases hst with rfl | rfl | rfl | rfl <;> rfl)
    obtain ⟨hb', hf⟩ := hb.ack (hb.acked_le ha.1 ha.2)
    rw [seqDiff, ahead_sub] at hb' hf
    have := keeps_room hk
    exact .inl ⟨hb', by rw [hf]; omega⟩
  | closed hst hp ha =>
    obtain ⟨hb, -⟩ := h.balanced (by rcases hst with ⟨rfl, -⟩ | ⟨rfl, -⟩ <;> rfl)
    by_cases he : a = s.nxt
    · obtain ⟨hb', hz⟩ := hb.ack_all he
      exact .inl ⟨hb', by rw [hz]; exact Nat.zero_le _⟩
    · exact .inr ⟨by rcases hst with ⟨-, rfl⟩ | ⟨-, rfl⟩ <;> rfl, he, hbeyond (by tauto) hp ha he⟩
  | listen =>
    obtain ⟨hb, hr⟩ := h.balanced rfl
    have hz : s.inFlight = 0 := Nat.le_zero.mp hr
    obtain ⟨hb', hf⟩ := @SendSide.Balanced.push s hb 1 .synAck [] rfl (by decide) (by omega)
    exact .inl ⟨hb', by rw [hf, hz]; exact Nat.le_refl 1⟩
  | reset _ => exact h.clear hQ

end

namespace TcpConnection

section
variable {Q : Seq → Seq → Prop} {c : TcpConnection} {now : Nat}

def Settled (Q : Seq → Seq → Prop) (c : TcpConnection) : Prop := Accounted Q c.state c.sendSide

theorem Accounted.of_eq {st : TcpState} {s s' : SendSide} (h : Accounted Q st s) (hu : s'.una = s.una)
    (hn : s'.nxt = s.nxt) (hq : s'.queue = s.queue) (hf : s'.inFlight = s.inFlight) : Accounted Q st s' := by
  rcases h with ⟨⟨ht, hs, hb⟩, hr⟩ | ⟨ho, hne⟩
  · refine .inl ⟨⟨?_, ?_, ?_⟩, ?_⟩
    · rw [hu, hn, hq, hf]; exact ht
    · rw [hq]; exact hs
    · rw [hf]; exact hb
    · rw [hf]; exact hr
  · exact .inr ⟨ho, by rw [hu, hn]; exact hne⟩

theorem sending_iff : c.sending = true ↔ c.state = .established ∨ c.state = .closeWait := by simp [sending]

theorem over_of_sending (h : c.state = .established ∨ c.state = .closeWait) : c.state.over = false := by
  rcases h with h | h <;> rw [h] <;> rfl

theorem room_of_sending (h : c.state = .established ∨ c.state = .closeWait) : c.state.room = 2 ^ 16 - 1 := by
  rcases h with h | h <;> rw [h] <;> rfl

theorem sendSide_pushData {s : SendSide} (h : s.Balanced) {n : Nat} {flags : TcpFlags}
    (hf : flags.syn = false ∧ flags.fin = false)
    (hn : 0 < n) (htx : s.tx ≠ []) (hroom : s.inFlight + (s.tx.take n).length ≤ 2 ^ 16) :
    (s.pushData n flags).Balanced ∧ (s.pushData n flags).inFlight = s.inFlight + (s.tx.take n).length := by
  have hb : ({ s with tx := s.tx.drop n, bytesSent := s.bytesSent + (s.tx.take n).length } : SendSide).Balanced :=
    ⟨h.tiles, h.small, h.bound⟩
  have hpos : 0 < (s.tx.take n).length := by
    have := List.length_pos_of_ne_nil htx
    rw [List.length_take]; omega
  exact hb.push (by simp [hf.1, hf.2]) hpos hroom

theorem sendChunk_room {k : Nat} (hk : k ≤ c.congestion.sendWindowAvailable c.sndWnd) (hpos : 0 < k) :
    c.sendSide.inFlight + k ≤ min c.congestion.cwnd c.sndWnd.toNat := by
  unfold CongestionControl.sendWindowAvailable at hk
  change c.congestion.inFlight + k ≤ _
  omega

structure SendsWithin (Q : Seq → Seq → Prop) (c d : TcpConnection) : Prop where
  settled : d.Settled Q
  state : d.state = c.state
  finSent : d.finSent = c.finSent
  probes : d.sendSide.probes = c.sendSide.probes
  cwnd : d.congestion.cwnd = c.congestion.cwnd
  wnd : d.sndWnd = c.sndWnd
  within : d.sendSide = c.sendSide ∨ d.sendSide.inFlight ≤ min c.congestion.cwnd c.sndWnd.toNat

theorem SendsWithin.refl (h : c.Settled Q) : SendsWithin Q c c := ⟨h, rfl, rfl, rfl, rfl, rfl, .inl rfl⟩

theorem SendsWithin.sendChunk {k : Nat} (h : SendsWithin Q c d) (hs : c.sending = true) (hpos : 0 < k)
    (hav : k ≤ d.congestion.sendWindowAvailable d.sndWnd) (htx : k ≤ d.txBuffer.length) :
    SendsWithin Q c (d.sendChunk k { ack := true, psh := true } now).1 := by
  have hds : d.state = .established ∨ d.state = .closeWait := by rw [h.state]; exact sending_iff.mp hs
  have hroom := room_of_sending hds
  obtain ⟨hb, -⟩ := Accounted.balanced h.settled (over_of_sending hds)
  have hfit := d.sendChunk_room hav hpos
  have hw := d.sndWnd.toNat_lt
  have hlen : (d.sendSide.tx.take k).length = k := by rw [List.length_take]; exact Nat.min_eq_left htx
  have hne : d.sendSide.tx ≠ [] := by
    intro he
    have : d.txBuffer.length = 0 := by rw [show d.txBuffer = [] from he]; rfl
    omega
  obtain ⟨hb', hf⟩ := @sendSide_pushData _ hb k { ack := true, psh := true } ⟨rfl, rfl⟩ hpos hne
    (by rw [hlen]; omega)
  rw [hlen] at hf
  refine ⟨.inl ?_, h.state, h.finSent, ?_, h.cwnd, h.wnd, .inr ?_⟩
  · rw [sendChunk_sendSide, hf]
    refine ⟨hb', ?_⟩
    change _ ≤ d.state.room
    omega
  · rw [sendChunk_sendSide]; exact h.probes
  · rw [sendChunk_sendSide, hf, ← h.cwnd, ← h.wnd]; exact hfit

section
variable (h : c.Settled Q)
include h

theorem transmitQueued_sendsWithin : SendsWithin Q c (c.transmitQueued now).1 := by
  unfold transmitQueued
  split
  · rename_i hs
    exact transmit_invariant (P := fun d _ => SendsWithin Q c d) now
      (fun d _ k hd hpos hav htx => hd.sendChunk hs.1 hpos hav htx) _ c [] (.refl h)
  · exact .refl h

theorem Settled.pushFin (hs : c.state = .established ∨ c.state = .closeWait)
    (hd : d.state = .finWait1 ∨ d.state = .lastAck) (hside : d.sendSide = c.sendSide.pushFin) : d.Settled Q := by
  obtain ⟨hb, hr⟩ := Accounted.balanced h (over_of_sending hs)
  rw [room_of_sending hs] at hr
  have hroom : c.sendSide.inFlight + 1 ≤ 2 ^ 16 := by omega
  have hb₀ : ({ c.sendSide with finSent := true } : SendSide).Balanced := ⟨hb.tiles, hb.small, hb.bound⟩
  obtain ⟨hb', hf⟩ := @SendSide.Balanced.push _ hb₀ 1 .finAck [] rfl (by decide) hroom
  refine .inl ?_
  rw [hside]
  refine ⟨hb', hf.le.trans (hroom.trans ?_)⟩
  rcases hd with hd | hd <;> rw [hd] <;> exact Nat.le_refl _

theorem Settled.emitFin : (c.emitFin now).1.Settled Q := by
  rcases c.emitFin_cases now with he | ⟨-, hst, hside, -⟩
  · rw [he]; exact h
  · exact h.pushFin (by tauto) (by tauto) hside

theorem Settled.of_views (hst : d.state = c.state) (hside : d.sendSide = c.sendSide) : d.Settled Q := by
  unfold Settled
  rw [hst, hside]
  exact h

theorem Settled.pushProbe (hs : c.state.over = false ∧ 1 ≤ c.state.room) (htx : c.sendSide.tx ≠ [])
    (hq : c.sendSide.queue = [])
    (hst : d.state = c.state) (hside : d.sendSide = c.sendSide.pushProbe) : d.Settled Q := by
  obtain ⟨hb, -⟩ := Accounted.balanced h hs.1
  have hz : c.sendSide.inFlight = 0 := hb.queue_eq_nil_iff.mp hq
  have hone : (c.sendSide.tx.take 1).length = 1 := by
    have := List.length_pos_of_ne_nil htx
    rw [List.length_take]
    exact Nat.min_eq_left this
  have hb₀ : ({ c.sendSide with probes := c.sendSide.probes + 1 } : SendSide).Balanced :=
    ⟨hb.tiles, hb.small, hb.bound⟩
  obtain ⟨hb', hf⟩ := @sendSide_pushData _ hb₀ 1 .ackOnly ⟨rfl, rfl⟩ Nat.one_pos htx (by
    change c.sendSide.inFlight + (c.sendSide.tx.take 1).length ≤ _
    omega)
  refine .inl ?_
  rw [hside, hst]
  refine ⟨hb', hf.le.trans ?_⟩
  change c.sendSide.inFlight + (c.sendSide.tx.take 1).length ≤ _
  have := hs.2
  omega

end

theorem Settled.abort (h : c.Settled Q) (hQ : Ordered Q) : c.abort.Settled Q := Accounted.clear hQ h

theorem Settled.pollOutput (hQ : Ordered Q) (h : c.Settled Q) : (c.pollOutput now).1.Settled Q := by
  refine c.pollOutput_invariant now (P := fun d _ => d.Settled Q) h ?_ (fun d _ h => h.emitFin)
    (fun d _ h => h.abort hQ) ?_ ?_ ?_ ?_
  · exact fun d _ k h hst hpos hav htx =>
      ((SendsWithin.refl h).sendChunk (sending_iff.mpr hst) hpos hav htx).settled
  · exact fun d _ h => h.of_views (d.onRto_views now).1 (d.onRto_views now).2.1
  · exact fun d _ h => h.of_views d.windowUpdate_views.1 d.windowUpdate_views.2.1
  · intro d _ b h hs
    obtain ⟨hst, -, ⟨hside, -⟩ | ⟨hb, htx, hq, hside, -⟩⟩ := d.persist_cases now b
    · exact h.of_views hst hside
    · have hsend := hs hb htx
      exact h.pushProbe ⟨over_of_sending hsend, by rw [room_of_sending hsend]; decide⟩ htx
        (congrArg (List.map RetransmitSegment.sent) hq) hst hside
  · intro d _ h
    obtain ⟨hst | ⟨hwait, hcl⟩, hside, -⟩ := d.expireTimeWait_views now
    · exact h.of_views hst hside
    · unfold Settled at h ⊢
      rw [hwait] at h
      rw [hcl, hside]
      exact h

end

end TcpConnection

def Call.Leaves (Q : Seq → Seq → Prop) (c : TcpConnection) : Call → Prop
  | .handleSegment seg now =>
    c.state = .closing ∨ c.state = .lastAck → c.Passes seg now → seqGe seg.ackNum c.sndNxt = true →
      seg.ackNum ≠ c.sndNxt → Q seg.ackNum c.sndNxt
  | _ => True

namespace TcpConnection

section
variable {Q : Seq → Seq → Prop} {c : TcpConnection} {now : Nat}

theorem Settled.call (hQ : Ordered Q) (h : c.Settled Q) {k : Call} (hk : k.Opens (fun c => c.sndUna = c.sndNxt) c)
    (hl : k.Leaves Q c) : (c.call k).1.Settled Q := by
  cases k with
  | handleSegment seg now => exact (c.handleSegmentAt_turn seg now).send.accounted hQ h hl
  | write data => exact Accounted.of_eq h rfl rfl rfl rfl
  | read n =>
    refine h.of_views ?_ ?_
    · unfold TcpConnection.call read; simp only; split <;> rfl
    · unfold TcpConnection.call read; simp only; split <;> rfl
  | pollOutput now => exact Settled.pollOutput hQ h
  | initiateClose now =>
    unfold TcpConnection.call initiateCloseAt
    simp only
    split
    · split
      · exact Settled.emitFin (c := { c with currentTimeMs := now, closeRequested := true }) h
      · exact h
    · exact h
  | initiateSyn now =>
    have he : c.sendSide.una = c.sendSide.nxt := hk
    rcases h with ⟨hb, -⟩ | ⟨-, hne, -⟩
    · have hz := hb.eq_iff.mp he
      obtain ⟨hb', hf⟩ := @SendSide.Balanced.push _ hb 1 .synOnly [] rfl (by decide) (by omega)
      have hside : (c.call (.initiateSyn now)).1.sendSide = c.sendSide.push 1 .synOnly [] :=
        trackForRetransmit_sendSide _ _ _ _ _ _
      refine .inl ?_
      rw [hside]
      refine ⟨hb', ?_⟩
      rw [hf, hz]
      exact Nat.le_refl 1
    · exact absurd he hne
  | sendData payload now =>
    unfold TcpConnection.call sendDataAt
    simp only
    split
    · exact Settled.pollOutput hQ (Accounted.of_eq (s := (c.setClock now).sendSide) h rfl rfl rfl rfl)
    · exact h

theorem settled_fresh (st : TcpState) (a b : SocketAddrV4) (isn : Seq) : (fresh st a b isn).Settled Q := by
  refine .inl ⟨⟨⟨isn, 0, rfl, (ahead_zero _).symm, rfl, fun _ => rfl, ?_⟩, ?_, Nat.zero_le _⟩, Nat.zero_le _⟩
  · intro e h; cases h
  · intro e h; cases h

end

end TcpConnection

namespace TcpConnection

structure AccountHolds (c : TcpConnection) : Prop where
  contiguous : c.retransmitQueue.IsChain fun e e' => e.endSeq = e'.seqNum
  last : ∀ e ∈ c.retransmitQueue.getLast?, e.endSeq = c.sndNxt
  empty : c.retransmitQueue = [] ↔ c.sndUna = c.sndNxt
  first : ∀ e ∈ c.retransmitQueue.head?, seqLe e.seqNum c.sndUna = true ∧ seqLt c.sndUna e.endSeq = true
  length : ∀ e ∈ c.retransmitQueue,
    (seqDiff e.endSeq e.seqNum).toNat = e.payload.length + if e.flags.syn || e.flags.fin then 1 else 0
  inFlight : c.congestion.inFlight = (seqDiff c.sndNxt c.sndUna).toNat

theorem isChain_of_tiles : ∀ {es : List RetransmitSegment} {a b : Seq}, Tiles a (es.map RetransmitSegment.sent) b →
    es.IsChain (fun e e' => e.endSeq = e'.seqNum) ∧ (∀ e ∈ es.getLast?, e.endSeq = b) ∧
      ∀ e ∈ es, e.endSeq = ahead e.seqNum e.sent.len
  | [], _, _, _ => ⟨.nil, (fun e h => by cases h), (fun e h => by cases h)⟩
  | [e], a, b, ⟨hs, he, h⟩ => by
    refine ⟨.singleton e, ?_, ?_⟩
    · intro x hx; cases hx; exact h
    · intro x hx
      rw [List.mem_singleton] at hx
      subst hx
      rw [show x.seqNum = a from hs]
      exact he
  | e :: e' :: es, a, b, ⟨hs, he, h⟩ => by
    obtain ⟨hc, hl, hlen⟩ := isChain_of_tiles h
    refine ⟨.cons_cons h.1.symm hc, ?_, ?_⟩
    · intro x hx
      rw [List.getLast?_cons_cons] at hx
      exact hl x hx
    · intro x hx
      rcases List.mem_cons.mp hx with rfl | hx
      · rw [show x.seqNum = a from hs]; exact he
      · exact hlen x hx

theorem accountHolds_of_balanced (h : c.sendSide.Balanced) : c.AccountHolds := by
  have hspan := h.span_lt
  obtain ⟨a, k, ht, hu, hsum, hnil, hhead⟩ := h.tiles
  obtain ⟨hc, hl, hlen⟩ := isChain_of_tiles ht
  have hq : c.retransmitQueue = [] ↔ c.sendSide.queue = [] := by simp [sendSide]
  refine ⟨hc, hl, ?_, ?_, ?_, h.inFlight_eq⟩
  · rw [hq, h.queue_eq_nil_iff]; exact h.eq_iff.symm
  · intro e he
    obtain ⟨es, hes⟩ : ∃ es, c.retransmitQueue = e :: es := by
      cases hr : c.retransmitQueue with
      | nil => rw [hr] at he; cases he
      | cons x xs => rw [hr] at he; cases he; exact ⟨xs, rfl⟩
    have hqe : c.sendSide.queue = e.sent :: es.map RetransmitSegment.sent := by simp [sendSide, hes]
    have hk := hhead e.sent (by rw [hqe]; rfl)
    rw [hqe] at ht hspan
    rw [span_cons] at hspan
    obtain ⟨hs, hend, -⟩ := ht
    have h₁ : e.seqNum = ahead a 0 := by rw [ahead_zero]; exact hs
    have h₂ : c.sndUna = ahead a k := hu
    have h₃ : e.endSeq = ahead a e.sent.len := hend
    rw [h₁, h₂, h₃, seqLe_ahead (by omega) (by omega), seqLt_ahead (by omega) (by omega)]
    exact ⟨Nat.zero_le k, hk⟩
  · intro e he
    have hsm := h.small e.sent (List.mem_map_of_mem he)
    rw [hlen e he]
    unfold seqDiff
    rw [ahead_sub_self, BitVec.toNat_ofNat, Nat.mod_eq_of_lt (by omega)]
    rfl

theorem pollOutput_sendSide (c : TcpConnection) (now : Nat) :
    (c.pollOutput now).1.sendSide = c.sendSide ∨
      (c.pollOutput now).1.sendSide = ((c.setClock now).sendPhase now).1.sendSide.clear ∨
      (c.pollOutput now).1.sendSide = ((c.setClock now).sendPhase now).1.sendSide ∨
      (c.pollOutput now).1.sendSide = ((c.setClock now).sendPhase now).1.sendSide.pushProbe := by
  unfold pollOutput
  simp only
  split
  · exact .inl rfl
  · split
    · exact .inr (.inl rfl)
    · exact .inr (.inr ((timerPhase_cases _ _ _).2.2.imp_right fun h => h.2.2.2))

theorem sendPhase_within {Q : Seq → Seq → Prop} {now : Nat} (h : c.Settled Q) :
    (c.sendPhase now).1.sendSide.probes = c.sendSide.probes ∧
      ((c.sendPhase now).1.sendSide.bytesSent = c.sendSide.bytesSent ∨
        (c.sendPhase now).1.sendSide.inFlight ≤
          min c.congestion.cwnd c.sndWnd.toNat +
            if (c.sendPhase now).1.sendSide.finSent && !c.sendSide.finSent then 1 else 0) := by
  have hw := @transmitQueued_sendsWithin Q c now h
  unfold sendPhase andThen
  rcases (c.transmitQueued now).1.deferredClose_cases now with he | ⟨-, hfin, -, hside, -⟩
  · simp only [he]
    refine ⟨hw.probes, ?_⟩
    rcases hw.within with hs | hs
    · exact .inl (congrArg SendSide.bytesSent hs)
    · exact .inr (hs.trans (Nat.le_add_right _ _))
  · simp only [hside]
    refine ⟨hw.probes, ?_⟩
    have hc : c.sendSide.finSent = false := hw.finSent.symm.trans hfin
    rcases hw.within with hs | hs
    · exact .inl (show (c.transmitQueued now).1.sendSide.bytesSent = _ by rw [hs])
    · right
      have hf : (c.transmitQueued now).1.sendSide.pushFin.finSent = true := rfl
      rw [hf, hc]
      exact (Nat.mod_le _ _).trans (Nat.add_le_add_right hs 1)

theorem pollOutput_within {Q : Seq → Seq → Prop} {now : Nat} (h : c.Settled Q)
    (hsent : c.stats.bytesSent < (c.pollOutput now).1.stats.bytesSent)
    (hprobe : (c.pollOutput now).1.stats.zeroWindowProbes = c.stats.zeroWindowProbes) :
    (c.pollOutput now).1.congestion.inFlight ≤
      min c.congestion.cwnd c.sndWnd.toNat + if (c.pollOutput now).1.finSent && !c.finSent then 1 else 0 := by
  have h₀ : (c.setClock now).Settled Q := h
  obtain ⟨hp, hb⟩ := @sendPhase_within _ Q now h₀
  change c.sendSide.bytesSent < (c.pollOutput now).1.sendSide.bytesSent at hsent
  change (c.pollOutput now).1.sendSide.probes = c.sendSide.probes at hprobe
  change (c.pollOutput now).1.sendSide.inFlight ≤
    _ + if (c.pollOutput now).1.sendSide.finSent && !c.sendSide.finSent then 1 else 0
  change _ = c.sendSide.probes at hp
  change _ = c.sendSide.bytesSent ∨ _ ≤ min c.congestion.cwnd c.sndWnd.toNat + _ at hb
  rcases c.pollOutput_sendSide now with he | he | he | he <;> rw [he] at hsent hprobe ⊢
  · omega
  · rcases hb with hb | hb
    · change _ < ((c.setClock now).sendPhase now).1.sendSide.bytesSent at hsent; omega
    · exact hb
  · rcases hb with hb | hb
    · omega
    · exact hb
  · change ((c.setClock now).sendPhase now).1.sendSide.probes + 1 = _ at hprobe
    omega

end TcpConnection

theorem Reachable.settled (h : Reachable (fun c => c.sndUna = c.sndNxt) c) : c.Settled fun _ _ => True := by
  refine h.invariant (fun a b isn => TcpConnection.settled_fresh .listen a b isn)
    (fun a b isn => TcpConnection.settled_fresh .closed a b isn) ?_
  intro c k hc hk
  refine TcpConnection.Settled.call (fun _ _ => trivial) hc hk ?_
  cases k with
  | handleSegment seg now => exact fun _ _ _ _ => trivial
  | _ => trivial

/-- The sender's account in every state but `Closed` and `TimeWait`, for connections opened only when nothing is
outstanding. -/
theorem sender_accounting {c : TcpConnection} (h : Reachable (fun c => c.sndUna = c.sndNxt) c) :
    (c.state ≠ .closed → c.state ≠ .timeWait → c.AccountHolds) ∧
      ∀ now, c.stats.bytesSent < (c.pollOutput now).1.stats.bytesSent →
        (c.pollOutput now).1.stats.zeroWindowProbes = c.stats.zeroWindowProbes →
        (c.pollOutput now).1.congestion.inFlight ≤
          min c.congestion.cwnd c.sndWnd.toNat + if (c.pollOutput now).1.finSent && !c.finSent then 1 else 0 := by
  refine ⟨?_, fun now => TcpConnection.pollOutput_within h.settled⟩
  intro hcl htw
  have ho : c.state.over = false := by
    cases hs : c.state with
    | closed => exact absurd hs hcl
    | timeWait => exact absurd hs htw
    | _ => rfl
  exact TcpConnection.accountHolds_of_balanced (Accounted.balanced h.settled ho).1

/-- Three bytes are in flight and two more are queued. -/
def sendingServer : TcpConnection := (handshaken []).callAll [.write [1, 2, 3], .pollOutput 3, .write [4, 5]]

theorem sender_accounting_sending :
    sendingServer.congestion.inFlight = 3 ∧ sendingServer.AccountHolds ∧
      (sendingServer.pollOutput 4).1.congestion.inFlight ≤
        min sendingServer.congestion.cwnd sendingServer.sndWnd.toNat := by
  have hreach : Reachable (fun c => c.sndUna = c.sndNxt) sendingServer :=
    .callAll (.callAll (.server _ _ _) (opens_of_none rfl) (by decide +kernel)) (opens_of_none rfl)
      (by decide +kernel)
  obtain ⟨hholds, hbound⟩ := sender_accounting hreach
  refine ⟨by decide +kernel, hholds (by decide +kernel) (by decide +kernel), ?_⟩
  exact (hbound 4 (by decide +kernel) (by decide +kernel)).trans_eq (by rw [if_neg (by decide +kernel)]; rfl)

def reopened : TcpConnection :=
  (TcpConnection.newClient peerAddr serverAddr 0).callAll
    [.initiateSyn 0, .handleSegment ⟨80, 49152, 0, 1, { rst := true, ack := true }, 0, [], []⟩ 1, .initiateSyn 2]

/-- A server whose peer opens a window of three bytes, with three bytes and a close queued behind it. -/
def closingServer : TcpConnection :=
  (handshaken []).callAll
    [.handleSegment { fromPeer 1 1001 .ackOnly [] [] with windowSize := 3 } 1, .write [1, 2, 3], .initiateClose 2]

/-- A byte is unanswered for five seconds, and one more is queued. -/
def lateServer : TcpConnection :=
  (handshaken [.mss 1]).callAll [.write [1], .pollOutput 3, .write [2]]

/-- Opened again after a teardown, the connection has a queue that starts after `snd_una`. A timeout in the call
that sends the FIN shrinks the window under the data just sent. -/
theorem account_exceptions :
    (Reachable (fun _ => True) reopened ∧ reopened.state = .synSent ∧ ¬ reopened.AccountHolds) ∧
      (Reachable (fun _ => True) closingServer ∧
        closingServer.stats.bytesSent < (closingServer.pollOutput 3).1.stats.bytesSent ∧
        (closingServer.pollOutput 3).1.stats.zeroWindowProbes = closingServer.stats.zeroWindowProbes ∧
        (closingServer.pollOutput 3).1.congestion.inFlight = 4 ∧
        min (closingServer.pollOutput 3).1.congestion.cwnd (closingServer.pollOutput 3).1.sndWnd.toNat = 3) ∧
      Reachable (fun _ => True) lateServer ∧
      lateServer.stats.bytesSent < (lateServer.pollOutput 5000).1.stats.bytesSent ∧
      (lateServer.pollOutput 5000).1.stats.zeroWindowProbes = lateServer.stats.zeroWindowProbes ∧
      (lateServer.pollOutput 5000).1.congestion.inFlight = 2 ∧
      min (lateServer.pollOutput 5000).1.congestion.cwnd (lateServer.pollOutput 5000).1.sndWnd.toNat = 1 := by
  have hs : ∀ os ks, (TcpConnection.newServer serverAddr peerAddr 1000).allFit (handshake os) = true →
      ks.all (fun k => !k.isOpen) = true → (handshaken os).allFit ks = true →
      Reachable (fun _ => True) ((handshaken os).callAll ks) := by
    intro os ks h₁ h₂ h₃
    exact .callAll (.callAll (.server _ _ _) (fun k _ c => opens_of_any k c) h₁) (opens_of_none h₂) h₃
  refine ⟨⟨.callAll (.client _ _ _) (fun k _ c => opens_of_any k c) (by decide +kernel), by decide +kernel, ?_⟩,
    ⟨hs _ _ (by decide +kernel) rfl (by decide +kernel), ?_⟩,
    hs _ _ (by decide +kernel) rfl (by decide +kernel), ?_⟩
  · intro h
    have hfirst := h.first ⟨1, 2, .synOnly, [], 2, 2, 0, false⟩ (by decide +kernel)
    exact absurd hfirst.1 (by decide +kernel)
  · decide +kernel
  · decide +kernel

end SystemsLab.Tcp
