import SystemsLab.Tcp.Delivery
import SystemsLab.Tcp.Run
import Mathlib.Algebra.Order.BigOperators.Group.List

/-!
# The receive buffers are bounded

The bytes in order fit the receive capacity, and what is parked lies inside the window behind them. The right edge
of the window carries the bound: only reading moves it.
-/

namespace SystemsLab.Tcp

variable {e : Parked}

def Apart (a b : Parked) : Prop :=
  (seqLe a.1 b.1 && seqLe b.stop a.stop) = false ∧ (seqLe b.1 a.1 && seqLe a.stop b.stop) = false

theorem apart_comm {a b : Parked} (h : Apart a b) : Apart b a := ⟨h.2, h.1⟩

namespace Inbound

/-! ## Draining -/

theorem drainPass_sublist : ∀ (es : List Parked) (r : Inbound), (r.drainPass es).2.1.Sublist es ∧
    ((r.drainPass es).2.2 = true → (r.drainPass es).2.1.length < es.length)
  | [], _ => ⟨.slnil, nofun⟩
  | e :: es, r => by
    rw [drainPass]
    split
    · have h := (drainPass_sublist es r).1
      exact ⟨h.cons e, fun _ => Nat.lt_succ_of_le h.length_le⟩
    split
    · have h := (drainPass_sublist es (r.deliver (e.2.drop (seqDiff r.rcvNxt e.1).toNat))).1
      exact ⟨h.cons e, fun _ => Nat.lt_succ_of_le h.length_le⟩
    · obtain ⟨h, hlt⟩ := drainPass_sublist es r
      exact ⟨h.cons_cons e, fun hf => Nat.succ_lt_succ (hlt hf)⟩

theorem drainLoop_sublist : ∀ (k : Nat) (r : Inbound), (drainLoop k r).oooSegments.Sublist r.oooSegments
  | 0, r => List.Sublist.refl _
  | k + 1, r => by
    have h := (drainPass_sublist r.oooSegments r).1
    rw [drainLoop]
    dsimp only
    split
    · exact (drainLoop_sublist k _).trans h
    · exact h

theorem drainLoop_stable :
    ∀ (k m : Nat) (r : Inbound), r.oooSegments.length < k → r.oooSegments.length < m → drainLoop k r = drainLoop m r
  | k + 1, m + 1, r, hk, hm => by
    rw [drainLoop, drainLoop]
    dsimp only
    split
    · rename_i hf
      have hlt := (drainPass_sublist r.oooSegments r).2 hf
      exact drainLoop_stable k m _ (hlt.trans_le (Nat.le_of_lt_succ hk)) (hlt.trans_le (Nat.le_of_lt_succ hm))
    · rfl

theorem due_in_range {n : Seq} (hstop : ¬ seqLe e.stop n = true) (hdue : seqLe e.1 n = true) :
    (seqDiff n e.1).toNat ≤ e.2.length := by
  by_contra hlt
  have hback : e.1 - n = -(seqDiff n e.1) := by rw [seqDiff]; grind
  have hleft : e.stop - n = BitVec.ofNat 32 e.2.length - seqDiff n e.1 := by rw [Parked.stop, ahead, seqDiff]; grind
  rw [seqLe, decide_eq_true_eq, hleft] at hstop
  rw [seqLe, decide_eq_true_eq, hback] at hdue
  have hd := (seqDiff n e.1).isLt
  rw [BitVec.toInt_eq_toNat_cond, BitVec.toNat_sub, BitVec.toNat_ofNat] at hstop
  rw [BitVec.toInt_eq_toNat_cond, BitVec.toNat_neg] at hdue
  split at hstop <;> split at hdue <;> omega

def drainPassChecked (r : Inbound) : List Parked → Option (Inbound × List Parked × Bool)
  | [] => some (r, [], false)
  | e :: rest =>
    if seqLe e.stop r.rcvNxt then (drainPassChecked r rest).map fun out => (out.1, out.2.1, true)
    else if seqLe e.1 r.rcvNxt then
      let offset := (seqDiff r.rcvNxt e.1).toNat
      if offset ≤ e.2.length then (drainPassChecked (r.deliver (e.2.drop offset)) rest).map fun out =>
        (out.1, out.2.1, true) else none
    else (drainPassChecked r rest).map fun out => (out.1, e :: out.2.1, out.2.2)

/-- `drain_ooo` with the check of the slice index that Rust makes. -/
def drainLoopChecked : Nat → Inbound → Option Inbound
  | 0, r => some r
  | n + 1, r => do
    let out ← r.drainPassChecked r.oooSegments
    let r := { out.1 with oooSegments := out.2.1 }
    if out.2.2 then drainLoopChecked n r else some r

theorem drainPassChecked_eq : ∀ (es : List Parked) (r : Inbound), r.drainPassChecked es = some (r.drainPass es)
  | [], _ => rfl
  | e :: es, r => by
    rw [drainPassChecked, drainPass]
    split
    · rw [drainPassChecked_eq es r]
      rfl
    split
    · rename_i hstop hdue
      dsimp only
      rw [if_pos (due_in_range hstop hdue), drainPassChecked_eq es]
      rfl
    · rw [drainPassChecked_eq es r]
      rfl

theorem drainLoopChecked_eq : ∀ (k : Nat) (r : Inbound), drainLoopChecked k r = some (drainLoop k r)
  | 0, _ => rfl
  | k + 1, r => by
    rw [drainLoopChecked, drainPassChecked_eq, drainLoop]
    dsimp only [Option.bind_eq_bind, Option.bind_some]
    split
    · exact drainLoopChecked_eq k _
    · rfl

end Inbound

/-! ## Parking -/

theorem pairwise_orderedInsert {α : Type} {R : α → α → Prop} [DecidableRel R] {a : α} :
    ∀ {l : List α}, l.Pairwise R →
    (∀ b ∈ l, R a b ∨ R b a) → (∀ b ∈ l, ∀ c ∈ l, R a b → R b c → R a c) → (l.orderedInsert R a).Pairwise R
  | [], _, _, _ => List.pairwise_singleton R a
  | b :: l, h, htotal, htrans => by
    obtain ⟨hb, hl⟩ := List.pairwise_cons.mp h
    rw [List.orderedInsert]
    split
    · rename_i hab
      refine List.pairwise_cons.mpr ⟨fun c hc => ?_, h⟩
      rcases List.mem_cons.mp hc with rfl | hc
      · exact hab
      · exact htrans b List.mem_cons_self c (List.mem_cons_of_mem b hc) hab (hb c hc)
    · rename_i hab
      refine List.pairwise_cons.mpr ⟨fun c hc => ?_,
        pairwise_orderedInsert hl (fun c hc => htotal c (List.mem_cons_of_mem b hc))
        fun c hc d hd => htrans c (List.mem_cons_of_mem b hc) d (List.mem_cons_of_mem b hd)⟩
      rcases (List.mem_orderedInsert R).mp hc with rfl | hc
      · exact (htotal b List.mem_cons_self).resolve_left hab
      · exact hb c hc

section
variable {b : Seq} {a c : Parked}

theorem seqLt_iff_of_within {m n : Nat} (hm : m ≤ 2 ^ 16) (hn : n ≤ 2 ^ 16) :
    seqLt (ahead b m) (ahead b n) = true ↔ m < n :=
  seqLt_ahead (by omega) (by omega)

theorem Apart.lt_or_lt (h : Apart a c) (ha : a.Within b 0 (2 ^ 16)) (hc : c.Within b 0 (2 ^ 16)) :
    seqLt a.1 c.1 = true ∨ seqLt c.1 a.1 = true := by
  obtain ⟨m, hm, -, hml⟩ := ha
  obtain ⟨n, hn, -, hnl⟩ := hc
  have hstops : Parked.stop a = ahead b (m + a.2.length) ∧ Parked.stop c = ahead b (n + c.2.length) := by
    rw [Parked.stop, Parked.stop, hm, hn, ahead_ahead, ahead_ahead]
    exact ⟨rfl, rfl⟩
  rw [hm, hn, seqLt_iff_of_within (by omega) (by omega), seqLt_iff_of_within (by omega) (by omega)]
  by_contra hno
  obtain rfl : m = n := by omega
  rw [Apart, hstops.1, hstops.2, hm, hn, seqLe_refl, Bool.true_and, Bool.true_and] at h
  have hcover {i j : Nat} (hi : i ≤ 2 ^ 16) (hj : j ≤ 2 ^ 16)
      (hij : seqLe (ahead b i) (ahead b j) = false) : j < i := by
    rw [← Bool.not_eq_true, seqLe_ahead (by omega) (by omega)] at hij
    omega
  have h₁ := hcover (by omega) (by omega) h.1
  have h₂ := hcover (by omega) (by omega) h.2
  omega

theorem pairwise_insertionSort_starts : ∀ {l : List Parked}, (∀ e ∈ l, e.Within b 0 (2 ^ 16)) → l.Pairwise Apart →
    (l.insertionSort fun a c => seqLt a.1 c.1 = true).Pairwise fun a c => seqLt a.1 c.1 = true
  | [], _, _ => .nil
  | a :: l, hw, hapart => by
    obtain ⟨ha, hl⟩ := List.pairwise_cons.mp hapart
    have hrest : ∀ {c}, c ∈ l.insertionSort (fun a c => seqLt a.1 c.1 = true) → c ∈ l :=
      fun hc => (List.mem_insertionSort _).mp hc
    have hwl : ∀ e ∈ l, Parked.Within b 0 (2 ^ 16) e := fun e he => hw e (List.mem_cons_of_mem a he)
    refine pairwise_orderedInsert (pairwise_insertionSort_starts hwl hl) (fun c hc => ?_) fun c hc d hd h₁ h₂ => ?_
    · exact (ha c (hrest hc)).lt_or_lt (hw a List.mem_cons_self) (hwl c (hrest hc))
    · obtain ⟨m, hm, -, hml⟩ := hw a List.mem_cons_self
      obtain ⟨n, hn, -, hnl⟩ := hwl c (hrest hc)
      obtain ⟨k, hk, -, hkl⟩ := hwl d (hrest hd)
      rw [hm, hn, seqLt_iff_of_within (by omega) (by omega)] at h₁
      rw [hn, hk, seqLt_iff_of_within (by omega) (by omega)] at h₂
      rw [hm, hk, seqLt_iff_of_within (by omega) (by omega)]
      exact h₁.trans h₂

end

namespace Inbound

structure Ordered (q : List Parked) : Prop where
  bytes : (q.map fun e => e.2.length).sum ≤ maxOooBytes
  starts : q.Pairwise fun a c => seqLt a.1 c.1 = true
  apart : q.Pairwise Apart

theorem Ordered.sublist {p q : List Parked} (h : Ordered q) (hs : p.Sublist q) : Ordered p :=
  ⟨(List.Sublist.sum_le_sum (hs.map _) fun _ _ => Nat.zero_le _).trans h.bytes, h.starts.sublist hs,
    h.apart.sublist hs⟩

theorem Ordered.bufferOoo {r : Inbound} {b : Seq} (h : Ordered r.oooSegments)
    (hw : ∀ q ∈ r.oooSegments, q.Within b 0 (2 ^ 16))
    (he : e.Within b 0 (2 ^ 16)) : Ordered (r.bufferOoo e).oooSegments := by
  have hsub : (r.uncovered e).Sublist r.oooSegments := List.filter_sublist
  cases hc : r.covered e with
  | true => rw [bufferOoo_of_covered hc]; exact h
  | false =>
    by_cases hr : r.refused e
    · exact h.sublist (bufferOoo_of_refused hc hr ▸ hsub)
    · have hooo : (r.bufferOoo e).oooSegments = (r.uncovered e ++ [e]).insertionSort fun a c =>
          seqLt a.1 c.1 = true := by
        rw [refused] at hr
        rw [Inbound.bufferOoo, hc]
        simp only [Bool.false_eq_true, if_false]
        rw [if_neg hr]
      have hapart : (r.uncovered e ++ [e]).Pairwise Apart := by
        refine List.pairwise_append.mpr ⟨h.apart.sublist hsub, List.pairwise_singleton _ _, fun q hq x hx => ?_⟩
        rw [List.mem_singleton.mp hx]
        have hnot := List.any_eq_false.mp hc q (hsub.subset hq)
        have hkeep := (List.mem_filter.mp hq).2
        exact ⟨Bool.not_eq_true _ ▸ hnot, (Bool.not_eq_true' _).mp hkeep⟩
      have hperm := List.perm_insertionSort (fun a c : Parked => seqLt a.1 c.1 = true) (r.uncovered e ++ [e])
      refine ⟨?_, ?_, ?_⟩
      · have hsum := (hperm.map fun q : Parked => q.2.length).sum_eq
        rw [hooo, hsum, List.map_append, List.sum_append]
        rw [refused, oooBytes] at hr
        simpa using hr
      · rw [hooo]
        refine pairwise_insertionSort_starts (b := b) (fun q hq => ?_) hapart
        rcases List.mem_append.mp hq with hq | hq
        · exact hw q (hsub.subset hq)
        · rw [List.mem_singleton.mp hq]
          exact he
      · rw [hooo]
        exact (hperm.pairwise_iff apart_comm).mpr hapart

end Inbound

/-! ## The legacy view -/

namespace TcpConnection

theorem btreeInsert_perm : ∀ {m : List Parked}, (∀ q ∈ m, q.1 ≠ e.1) → (btreeInsert e m).Perm (e :: m)
  | [], _ => .refl _
  | q :: m, h => by
    rw [btreeInsert]
    split
    · exact .refl _
    · rw [if_neg fun he => h q List.mem_cons_self he.symm]
      exact ((btreeInsert_perm fun x hx => h x (List.mem_cons_of_mem q hx)).cons q).trans (.swap e q m)

theorem legacyView_perm {segments : List Parked} (h : segments.Pairwise fun a c => a.1 ≠ c.1) :
    (legacyView segments).Perm segments := by
  suffices hfold : ∀ m : List Parked, (∀ e ∈ segments, ∀ q ∈ m, q.1 ≠ e.1) →
      (segments.foldl (fun m e => btreeInsert e m) m).Perm (segments ++ m) by
    have hnil := hfold [] (by simp)
    rw [List.append_nil] at hnil
    exact hnil
  induction segments with
  | nil => exact fun m _ => .refl m
  | cons e es ih =>
    intro m hm
    obtain ⟨he, hes⟩ := List.pairwise_cons.mp h
    have hins := btreeInsert_perm (hm e List.mem_cons_self)
    refine (ih hes (btreeInsert e m) fun x hx q hq => ?_).trans ((hins.append_left es).trans List.perm_middle)
    rcases List.mem_cons.mp (hins.mem_iff.mp hq) with rfl | hq
    · exact he x hx
    · exact hm x (List.mem_cons_of_mem e hx) q hq

/-! ## One connection -/

structure Receiver.Bounded (r : Receiver) : Prop where
  room : r.rx.length ≤ r.capacity
  capacity : r.capacity ≤ 65535
  ordered : Inbound.Ordered r.ooo
  placed : ∀ e ∈ r.ooo, ∃ m, e.1 = ahead r.rcvNxt m ∧ e.2 ≠ [] ∧ m + e.2.length ≤ r.capacity - r.rx.length ∧
    (r.finReceived = false → 0 < m)
  legacy : r.queue = legacyView r.ooo

abbrev Buffers (c : TcpConnection) : Prop := c.receiver.Bounded

variable {c c' : TcpConnection} {seg : TcpSegment} {now : Nat}

theorem fitted_room {seq : Seq} {payload : List UInt8} (h : c.fitted seq payload = some e) :
    ∃ m, e.1 = ahead c.rcvNxt m ∧ e.2 ≠ [] ∧ m + e.2.length ≤ c.rcvCapacity - c.rxBuffer.length := by
  obtain ⟨e₀, -, hclip⟩ := Option.bind_eq_some_iff.mp h
  obtain ⟨h₁, hne, h₂, hlt⟩ := clipRight_eq_some hclip
  have hwindow : c.currentRcvWnd.toNat = min (c.rcvCapacity - c.rxBuffer.length) 65535 :=
    UInt16.toNat_ofNat_of_lt' (Nat.lt_succ_of_le (Nat.min_le_right _ _))
  refine ⟨(seqDiff e₀.1 c.rcvNxt).toNat, ?_, hne, ?_⟩
  · rw [h₁]
    exact (ahead_sub _ _).symm
  · rw [h₂, List.length_take]
    omega

theorem Receiver.Bounded.within (h : c.Buffers) :
    ∀ e ∈ c.oooSegments, e.Within c.rcvNxt 0 (c.rcvCapacity - c.rxBuffer.length) := by
  intro e he
  obtain ⟨m, hm, -, hle, -⟩ := h.placed e he
  exact ⟨m, hm, Nat.zero_le m, hle⟩

theorem within_mono {b : Seq} {hi hi' : Nat} (h : e.Within b 0 hi) (hle : hi ≤ hi') : e.Within b 0 hi' := by
  obtain ⟨m, hm, hlo, hend⟩ := h
  exact ⟨m, hm, hlo, hend.trans hle⟩

theorem Receiver.Bounded.drained (h : c.Buffers) (bytes : List UInt8)
    (hle : bytes.length ≤ c.rcvCapacity - c.rxBuffer.length) :
    ∃ n, Inbound.Drained c.rcvNxt (c.rcvCapacity - c.rxBuffer.length)
      (fun n rx => rx.length = c.rxBuffer.length + n)
      (c.inbound.deliver bytes) bytes.length (c.inbound.deliver bytes).drainOoo n := by
  have hcap : c.rcvCapacity ≤ 65535 := h.capacity
  have hspan : c.rcvCapacity - c.rxBuffer.length < 0 + 2 ^ 31 := by omega
  refine Inbound.drainOoo_drained hspan rfl (Nat.zero_le _) hle h.within ?_ (List.length_append ..)
  intro e _ m n rx _ hmn hlt hrx
  rw [List.length_append, List.length_drop, hrx]
  omega

theorem Receiver.Bounded.acceptData (h : c.Buffers) (seq : Seq) (payload : List UInt8) :
    (c.acceptData seq payload).Buffers := by
  have hcap : c.rcvCapacity ≤ 65535 := h.capacity
  cases hf : c.fitted seq payload with
  | none => rw [acceptData_of_none hf]; exact h
  | some e =>
    obtain ⟨m, hm, hne, hle⟩ := fitted_room hf
    by_cases he : e.1 = c.rcvNxt
    · obtain ⟨n, hd⟩ := h.drained e.2 (by omega)
      have hrx := hd.bytes
      have hn := hd.le
      have hroom : c.rxBuffer.length ≤ c.rcvCapacity := h.room
      rw [acceptData_of_next hf he]
      refine ⟨?_, hcap, h.ordered.sublist (Inbound.drainLoop_sublist _ _), fun q hq => ?_, rfl⟩
      · change (c.inbound.deliver e.2).drainOoo.rxBuffer.length ≤ c.rcvCapacity
        omega
      · obtain ⟨k, hk, hlo, hend⟩ := hd.after q hq
        obtain ⟨-, -, hqne, -⟩ := h.placed q (hd.kept hq)
        refine ⟨k - n, ?_, hqne, ?_, fun _ => by omega⟩
        · change q.1 = ahead (c.inbound.deliver e.2).drainOoo.rcvNxt (k - n)
          rw [hk, hd.rcvNxt, ahead_ahead, Nat.add_sub_cancel' (by omega)]
        · change _ ≤ c.rcvCapacity - (c.inbound.deliver e.2).drainOoo.rxBuffer.length
          omega
    · rw [acceptData_of_ahead hf he]
      have hwithin : e.Within c.rcvNxt 0 (2 ^ 16) := ⟨m, hm, Nat.zero_le m, by omega⟩
      have hroom : (c.inbound.bufferOoo e).rxBuffer.length ≤ c.rcvCapacity := by
        rw [Inbound.bufferOoo_rxBuffer]
        exact h.room
      refine ⟨hroom, hcap,
        h.ordered.bufferOoo (fun q hq => within_mono (h.within q hq) (by omega)) hwithin, fun q hq => ?_, rfl⟩
      change ∃ m, q.1 = ahead (c.inbound.bufferOoo e).rcvNxt m ∧ _ ∧
        m + _ ≤ _ - (c.inbound.bufferOoo e).rxBuffer.length ∧ _
      rw [Inbound.bufferOoo_rcvNxt, Inbound.bufferOoo_rxBuffer]
      rcases Inbound.mem_of_mem_bufferOoo hq with hq | rfl
      · exact h.placed q hq
      · refine ⟨m, hm, hne, hle, fun _ => Nat.pos_of_ne_zero ?_⟩
        rintro rfl
        exact he (hm.trans (ahead_zero _))

theorem Receiver.Bounded.consumeFin (h : c.Buffers) (hfin : c.finReceived = false) (now : Nat) :
    (c.consumeFin now).Buffers := by
  have hmoved : ({ c.receiver with rcvNxt := ahead c.rcvNxt 1, finReceived := true } : Receiver).Bounded := by
    refine ⟨h.room, h.capacity, h.ordered, fun e he => ?_, h.legacy⟩
    obtain ⟨m, hm, hne, hle, hpos⟩ := h.placed e he
    refine ⟨m - 1, ?_, hne, (Nat.add_le_add_right (Nat.sub_le m 1) _).trans hle, nofun⟩
    rw [ahead_ahead, Nat.add_sub_cancel' (hpos hfin)]
    exact hm
  rw [TcpConnection.consumeFin]
  dsimp only
  split <;> exact hmoved

def Sound (c : TcpConnection) : Prop := c.Buffers ∧ (c.state.opening = true → c.oooSegments = [])

theorem Receiver.Bounded.of_nil {r : Receiver} (hroom : r.rx.length ≤ r.capacity) (hcap : r.capacity ≤ 65535)
    (hooo : r.ooo = [])
    (hqueue : r.queue = []) : r.Bounded := by
  refine ⟨hroom, hcap, ⟨?_, ?_, ?_⟩, ?_, ?_⟩ <;> simp [hooo, hqueue, legacyView]

/-! ## Every call -/

theorem Receiver.Bounded.receive (h : c.Buffers) (seg : TcpSegment) (now : Nat) : (c.receive seg now).Buffers := by
  rw [receive_eq]
  split
  · rename_i hfin
    simp only [finConsumed, Bool.and_eq_true, Bool.not_eq_true'] at hfin
    exact (h.acceptData _ _).consumeFin hfin.2 now
  · exact h.acceptData _ _

theorem Sound.of_bounded (h : c'.Buffers) (hst : c'.state.opening = false) : c'.Sound :=
  ⟨h, fun hopen => by rw [hst] at hopen; cases hopen⟩

theorem Sound.keep (h : c.Sound) (hk : KeepsReceiver c c') : c'.Sound := by
  refine ⟨by rw [Buffers, hk.receiver]; exact h.1, fun hst => ?_⟩
  rw [hk.state.eq_of_opening hst] at hst
  exact (congrArg Receiver.ooo hk.receiver).trans (h.2 hst)

theorem Sound.handleSegmentAt (h : c.Sound) : (c.handleSegmentAt seg now).1.Sound := by
  cases (c.handleSegmentAt_turn seg now).receive with
  | keep hst hr => exact h.keep ⟨hr, hst⟩
  | opened hs _ hst hr =>
    have hnil := h.2 hs
    have hlegacy : c.oooQueue = [] := by
      have := h.1.legacy
      simpa [receiver, hnil, legacyView] using this
    refine .of_bounded ?_ hst
    rw [Buffers, hr]
    exact .of_nil h.1.room h.1.capacity hnil hlegacy
  | reset hst hr =>
    refine .of_bounded ?_ (by rw [hst]; rfl)
    rw [Buffers, hr]
    exact .of_nil h.1.room h.1.capacity rfl rfl
  | early _ hst d hd hr =>
    have hb : d.Buffers := by rw [Buffers, hd]; exact h.1
    refine .of_bounded ?_ hst
    rw [Buffers, hr]
    exact hb.acceptData _ _
  | data _ hst d hd hr =>
    have hb : d.Buffers := by rw [Buffers, hd]; exact h.1
    refine .of_bounded ?_ hst
    rw [Buffers, hr]
    exact hb.receive seg now

theorem Receiver.Bounded.read (h : c.Buffers) (n : Nat) : (c.read n).1.Buffers := by
  rw [TcpConnection.read]
  split
  · exact h
  · have hroom : c.rxBuffer.length ≤ c.rcvCapacity := h.room
    have hless : (c.rxBuffer.drop n).length ≤ c.rxBuffer.length := by rw [List.length_drop]; omega
    refine ⟨hless.trans hroom, h.capacity, h.ordered, fun e he => ?_, h.legacy⟩
    obtain ⟨m, hm, hne, hle, hpos⟩ := h.placed e he
    exact ⟨m, hm, hne, hle.trans (Nat.sub_le_sub_left hless _), hpos⟩

theorem Sound.call (h : c.Sound) {k : Call} (hk : k.Opens (fun c => c.oooSegments = []) c) :
    (c.call k).1.Sound := by
  cases k with
  | handleSegment seg now => exact h.handleSegmentAt
  | write data => exact h
  | read n =>
    obtain ⟨hr, hst, -⟩ := c.read_recvSide n
    refine ⟨h.1.read n, fun hopen => (congrArg RecvSide.ooo hr).trans (h.2 ?_)⟩
    exact (congrArg TcpState.opening hst).symm.trans hopen
  | pollOutput now => exact h.keep (c.pollOutput_keepsReceiver now)
  | initiateClose now => exact h.keep (c.initiateCloseAt_keepsReceiver now)
  | initiateSyn now => exact ⟨h.1, fun _ => hk⟩
  | sendData payload now => exact h.keep (c.sendDataAt_keepsReceiver now payload)

end TcpConnection

theorem Reachable.buffers {c : TcpConnection} (h : Reachable (fun c => c.oooSegments = []) c) : c.Buffers := by
  refine (h.invariant (P := TcpConnection.Sound) ?_ ?_ fun c k hc hk => hc.call hk).1
  · exact fun _ _ _ => ⟨.of_nil (Nat.zero_le _) le_rfl rfl rfl, fun _ => rfl⟩
  · exact fun _ _ _ => ⟨.of_nil (Nat.zero_le _) le_rfl rfl rfl, fun _ => rfl⟩

/-- What is buffered is bounded and in order, and draining ends by itself, slices in range and leaves nothing that
is due. A parked segment starts after `rcv_nxt`, and no earlier than it once a FIN has been taken. -/
theorem receive_buffers_bounded {c : TcpConnection} (h : Reachable (fun c => c.oooSegments = []) c) :
    c.rxBuffer.length ≤ c.rcvCapacity ∧ c.inbound.oooBytes ≤ Inbound.maxOooBytes ∧
      (∀ e ∈ c.oooSegments, e.2 ≠ [] ∧ ∃ m,
        e.1 = ahead c.rcvNxt m ∧ m + e.2.length ≤ 65535 ∧ (c.finReceived = false → 0 < m)) ∧
      c.oooSegments.Pairwise (fun a b => a.1 ≠ b.1 ∧ seqLt a.1 b.1 = true ∧ Apart a b) ∧
        c.oooQueue.Perm c.oooSegments ∧
      ∀ seq payload e, c.fitted seq payload = some e → e.1 = c.rcvNxt →
        (∀ k, c.oooSegments.length < k →
          Inbound.drainLoopChecked k (c.inbound.deliver e.2) = some (c.inbound.deliver e.2).drainOoo) ∧
        ∀ q ∈ (c.acceptData seq payload).oooSegments, seqLe q.1 (c.acceptData seq payload).rcvNxt = false := by
  have hb := h.buffers
  have hcap : c.rcvCapacity ≤ 65535 := hb.capacity
  have hstarts : c.oooSegments.Pairwise fun a b => a.1 ≠ b.1 := hb.ordered.starts.imp fun hlt heq => by
    rw [heq, seqLt, BitVec.sub_self] at hlt
    exact absurd hlt (by decide)
  refine ⟨hb.room, hb.ordered.bytes, fun e he => ?_, hstarts.and (hb.ordered.starts.and hb.ordered.apart), ?_,
    fun seq payload e hf he => ⟨?_, ?_⟩⟩
  · obtain ⟨m, hm, hne, hle, hpos⟩ := hb.placed e he
    exact ⟨hne, m, hm, hle.trans ((Nat.sub_le _ _).trans hcap), hpos⟩
  · rw [show c.oooQueue = TcpConnection.legacyView c.oooSegments from hb.legacy]
    exact TcpConnection.legacyView_perm hstarts
  · intro k hk
    rw [Inbound.drainLoopChecked_eq, Inbound.drainOoo, Inbound.drainLoop_stable k _ _ hk (Nat.lt_succ_self _)]
  · obtain ⟨m, -, -, hle⟩ := TcpConnection.fitted_room hf
    obtain ⟨n, hd⟩ := hb.drained e.2 (by omega)
    rw [TcpConnection.acceptData_of_next hf he]
    intro q hq
    obtain ⟨k, hk, hlo, hend⟩ := hd.after q hq
    change seqLe q.1 (c.inbound.deliver e.2).drainOoo.rcvNxt = false
    rw [hk, hd.rcvNxt, ← Bool.not_eq_true, seqLe_ahead (by omega) (by omega)]
    omega

theorem receive_buffers_one_hole :
    ((handshaken []).callAll [.handleSegment (fromPeer 5 1001 .ackOnly [] [5]) 1]).rxBuffer.length ≤ 65535 :=
  (receive_buffers_bounded (.callAll (.callAll (.server _ _ _) (opens_of_none rfl) (by decide +kernel))
    (opens_of_none rfl)
    (by decide +kernel))).1

/-- A peer that sends the byte behind its FIN first. -/
def dataBehindFin : TcpConnection :=
  (handshaken []).callAll [.handleSegment (fromPeer 2 1001 .ackOnly [] [5]) 1,
    .handleSegment (fromPeer 1 1001 .finAck [] []) 1]

theorem fin_reaches_parked :
    Reachable (fun _ => False) dataBehindFin ∧ dataBehindFin.oooSegments = [(dataBehindFin.rcvNxt, [5])] :=
  ⟨.callAll (.callAll (.server _ _ _) (opens_of_none rfl) (by decide +kernel)) (opens_of_none rfl)
    (by decide +kernel), by decide +kernel⟩

end SystemsLab.Tcp
