import SystemsLab.Lib.Slice
import SystemsLab.Tcp.Seq
import Mathlib.Data.List.Sort

/-!
# Reassembly of the inbound stream

`buffer_ooo` and `drain_ooo` of `tcp.rs`: the next sequence number, the bytes in order, and the segments that
arrived ahead of their turn.
-/

namespace SystemsLab.Tcp

/-- A segment parked ahead of `rcv_nxt`: where it starts, and its bytes. -/
abbrev Parked := Seq × List UInt8

def Parked.stop (e : Parked) : Seq := ahead e.1 e.2.length

structure Inbound where
  rcvNxt : Seq
  rxBuffer : List UInt8
  bytesReceived : Nat
  oooSegments : List Parked
deriving DecidableEq, Repr

namespace Inbound

def maxOooBytes : Nat := 262144

def oooBytes (r : Inbound) : Nat := (r.oooSegments.map fun e => e.2.length).sum

def covered (r : Inbound) (e : Parked) : Bool := r.oooSegments.any fun q => seqLe q.1 e.1 && seqLe e.stop q.stop

def uncovered (r : Inbound) (e : Parked) : List Parked :=
  r.oooSegments.filter fun q => !(seqLe e.1 q.1 && seqLe q.stop e.stop)

def bufferOoo (r : Inbound) (e : Parked) : Inbound :=
  if r.covered e then r
  else
    let r := { r with oooSegments := r.uncovered e }
    -- The covered segments are gone by now, also when the bound refuses their replacement.
    if maxOooBytes < r.oooBytes + e.2.length then r
    else { r with oooSegments := (r.oooSegments ++ [e]).insertionSort fun a b => seqLt a.1 b.1 = true }

def deliver (r : Inbound) (fresh : List UInt8) : Inbound :=
  { r with
    rxBuffer := r.rxBuffer ++ fresh
    rcvNxt := ahead r.rcvNxt fresh.length
    bytesReceived := r.bytesReceived + fresh.length }

/-- It drops what was delivered, delivers what has become contiguous and keeps the rest; the flag says that it did
something. -/
def drainPass (r : Inbound) : List Parked → Inbound × List Parked × Bool
  | [] => (r, [], false)
  | e :: rest =>
    if seqLe e.stop r.rcvNxt then
      let out := drainPass r rest
      (out.1, out.2.1, true)
    else if seqLe e.1 r.rcvNxt then
      let out := drainPass (r.deliver (e.2.drop (seqDiff r.rcvNxt e.1).toNat)) rest
      (out.1, out.2.1, true)
    else
      let out := drainPass r rest
      (out.1, e :: out.2.1, out.2.2)

def drainLoop : Nat → Inbound → Inbound
  | 0, r => r
  | n + 1, r =>
    let out := r.drainPass r.oooSegments
    let r := { out.1 with oooSegments := out.2.1 }
    if out.2.2 then drainLoop n r else r

def drainOoo (r : Inbound) : Inbound := drainLoop (r.oooSegments.length + 1) r

end Inbound

/-! ## What the scans do

Seen from a base `b`, a scan moves `rcv_nxt` from one offset to a later one. What the bytes in order are is a
parameter `I` of the offset and the bytes so far. -/

def Parked.Within (b : Seq) (lo hi : Nat) (e : Parked) : Prop :=
  ∃ m, e.1 = ahead b m ∧ lo ≤ m ∧ m + e.2.length ≤ hi

def Parked.Before (b : Seq) (n : Nat) (e : Parked) : Prop := ∃ m, e.1 = ahead b m ∧ m + e.2.length ≤ n

def Parked.Extends (b : Seq) (I : Nat → List UInt8 → Prop) (e : Parked) : Prop :=
  ∀ m n rx, e.1 = ahead b m → m ≤ n → n < m + e.2.length → I n rx → I (m + e.2.length) (rx ++ e.2.drop (n - m))

namespace Inbound

/-- The result of a scan over `es`, started with `rcv_nxt` at offset `n`. -/
structure Scanned (b : Seq) (hi : Nat) (I : Nat → List UInt8 → Prop) (es : List Parked) (n : Nat)
    (out : Inbound × List Parked × Bool) (n' : Nat) : Prop where
  rcvNxt : out.1.rcvNxt = ahead b n'
  mono : n ≤ n'
  le : n' ≤ hi
  bytes : I n' out.1.rxBuffer
  kept : out.2.1.Sublist es
  gone : ∀ e ∈ es, e ∈ out.2.1 ∨ e.Before b n'
  idle : out.2.2 = false → n' = n ∧ out.2.1 = es ∧ ∀ e ∈ es, e.Within b (n + 1) hi
  moved : out.2.2 = true → out.2.1.length < es.length

section
variable {b : Seq} {lo hi : Nat} {I : Nat → List UInt8 → Prop}

theorem Scanned.drop {es : List Parked} {e : Parked} {n n₁ n' : Nat} {out : Inbound × List Parked × Bool}
    (h : Scanned b hi I es n₁ out n') (hn : n ≤ n₁) (he : e.Before b n') :
    Scanned b hi I (e :: es) n (out.1, out.2.1, true) n' := by
  refine ⟨h.rcvNxt, hn.trans h.mono, h.le, h.bytes, h.kept.cons e, fun x hx => ?_, fun hf => (by cases hf),
    fun _ => Nat.lt_succ_of_le h.kept.length_le⟩
  rcases List.mem_cons.mp hx with rfl | hx
  · exact .inr he
  · exact h.gone x hx

theorem drainPass_scanned (hhi : hi < lo + 2 ^ 31) :
    ∀ (es : List Parked) (r : Inbound) (n : Nat), r.rcvNxt = ahead b n → lo ≤ n → n ≤ hi →
      (∀ e ∈ es, e.Within b lo hi) → (∀ e ∈ es, e.Extends b I) → I n r.rxBuffer →
      ∃ n', Scanned b hi I es n (r.drainPass es) n'
  | [], r, n, hr, _, hn, _, _, hi => by
    refine ⟨n, hr, Nat.le_refl n, hn, hi, .slnil, ?_, ?_, ?_⟩
    · intro e he; cases he
    · intro _; exact ⟨rfl, rfl, fun e he => by cases he⟩
    · intro h; cases h
  | e :: es, r, n, hr, hlo, hn, hw, hext, hi => by
    obtain ⟨m, hm, hlm, hmh⟩ := hw e List.mem_cons_self
    have hw' : ∀ e ∈ es, Parked.Within b lo _ e := fun x hx => hw x (List.mem_cons_of_mem e hx)
    have hext' : ∀ e ∈ es, Parked.Extends b I e := fun x hx => hext x (List.mem_cons_of_mem e hx)
    have hstop : e.stop = ahead b (m + e.2.length) := by unfold Parked.stop; rw [hm, ahead_ahead]
    have hpast : seqLe e.stop r.rcvNxt = true ↔ m + e.2.length ≤ n := by
      rw [hstop, hr, seqLe_ahead (by omega) (by omega)]
    have hdue : seqLe e.1 r.rcvNxt = true ↔ m ≤ n := by rw [hm, hr, seqLe_ahead (by omega) (by omega)]
    unfold drainPass
    by_cases h₁ : m + e.2.length ≤ n
    · rw [if_pos (hpast.mpr h₁)]
      obtain ⟨n', h⟩ := drainPass_scanned hhi es r n hr hlo hn hw' hext' hi
      exact ⟨n', h.drop (Nat.le_refl n) ⟨m, hm, h₁.trans h.mono⟩⟩
    · rw [if_neg (fun hc => h₁ (hpast.mp hc))]
      by_cases h₂ : m ≤ n
      · rw [if_pos (hdue.mpr h₂)]
        have hoff : (seqDiff r.rcvNxt e.1).toNat = n - m := by rw [hr, hm, toNat_seqDiff_ahead h₂ (by omega)]
        have hnext : (r.deliver (e.2.drop (seqDiff r.rcvNxt e.1).toNat)).rcvNxt = ahead b (m + e.2.length) := by
          rw [hoff]
          unfold deliver
          simp only [hr, ahead_ahead, List.length_drop]
          congr 1
          omega
        have hbytes : I (m + e.2.length) (r.deliver (e.2.drop (seqDiff r.rcvNxt e.1).toNat)).rxBuffer := by
          rw [hoff]
          exact hext e List.mem_cons_self m n _ hm h₂ (by omega) hi
        obtain ⟨n', h⟩ := drainPass_scanned hhi es _ _ hnext (by omega) hmh hw' hext' hbytes
        exact ⟨n', h.drop (by omega) ⟨m, hm, h.mono⟩⟩
      · rw [if_neg (fun hc => h₂ (hdue.mp hc))]
        obtain ⟨n', h⟩ := drainPass_scanned hhi es r n hr hlo hn hw' hext' hi
        refine ⟨n', h.rcvNxt, h.mono, h.le, h.bytes, h.kept.cons_cons e, ?_, ?_, ?_⟩
        · intro x hx
          rcases List.mem_cons.mp hx with rfl | hx
          · exact .inl List.mem_cons_self
          · exact (h.gone x hx).imp_left (List.mem_cons_of_mem e)
        · intro hf
          obtain ⟨hn', hk, ha⟩ := h.idle hf
          refine ⟨hn', congrArg (e :: ·) hk, ?_⟩
          intro x hx
          rcases List.mem_cons.mp hx with rfl | hx
          · exact ⟨m, hm, by omega, hmh⟩
          · exact ha x hx
        · intro hf; exact Nat.succ_lt_succ (h.moved hf)

/-- The result of `drain_ooo` when `rcv_nxt` starts at offset `n` and ends at `n'`. -/
structure Drained (b : Seq) (hi : Nat) (I : Nat → List UInt8 → Prop) (r : Inbound) (n : Nat) (r' : Inbound)
    (n' : Nat) :
    Prop where
  rcvNxt : r'.rcvNxt = ahead b n'
  mono : n ≤ n'
  le : n' ≤ hi
  bytes : I n' r'.rxBuffer
  kept : r'.oooSegments ⊆ r.oooSegments
  gone : ∀ e ∈ r.oooSegments, e ∈ r'.oooSegments ∨ e.Before b n'
  after : ∀ e ∈ r'.oooSegments, e.Within b (n' + 1) hi

theorem drainLoop_drained (hhi : hi < lo + 2 ^ 31) :
    ∀ (k : Nat) (r : Inbound) (n : Nat), r.oooSegments.length < k → r.rcvNxt = ahead b n → lo ≤ n → n ≤ hi →
      (∀ e ∈ r.oooSegments, e.Within b lo hi) → (∀ e ∈ r.oooSegments, e.Extends b I) → I n r.rxBuffer →
      ∃ n', Drained b hi I r n (drainLoop k r) n'
  | 0, r, n, hk, _, _, _, _, _, _ => absurd hk (Nat.not_lt_zero _)
  | k + 1, r, n, hk, hr, hlo, hn, hw, hext, hI => by
    obtain ⟨n₁, h⟩ := drainPass_scanned hhi r.oooSegments r n hr hlo hn hw hext hI
    unfold drainLoop
    simp only
    by_cases hf : (r.drainPass r.oooSegments).2.2 = true
    · rw [if_pos hf]
      have hlen := h.moved hf
      obtain ⟨n', h'⟩ := drainLoop_drained hhi k
        { (r.drainPass r.oooSegments).1 with oooSegments := (r.drainPass r.oooSegments).2.1 } n₁ (by
          change (r.drainPass r.oooSegments).2.1.length < k
          omega) h.rcvNxt (hlo.trans h.mono) h.le (fun e he => hw e (h.kept.subset he))
        (fun e he => hext e (h.kept.subset he)) h.bytes
      refine ⟨n', h'.rcvNxt, h.mono.trans h'.mono, h'.le, h'.bytes, fun e he => h.kept.subset (h'.kept he),
        ?_, h'.after⟩
      intro e he
      rcases h.gone e he with hk' | ⟨m, hm, hle⟩
      · exact h'.gone e hk'
      · exact .inr ⟨m, hm, hle.trans h'.mono⟩
    · rw [if_neg hf]
      rw [Bool.not_eq_true] at hf
      obtain ⟨hn', hk', ha⟩ := h.idle hf
      subst hn'
      refine ⟨n₁, h.rcvNxt, h.mono, h.le, h.bytes, h.kept.subset, h.gone, ?_⟩
      intro e he
      exact ha e (h.kept.subset he)

theorem drainOoo_drained (hhi : hi < lo + 2 ^ 31) {r : Inbound} {n : Nat} (hr : r.rcvNxt = ahead b n) (hlo : lo ≤ n)
    (hn : n ≤ hi)
    (hw : ∀ e ∈ r.oooSegments, e.Within b lo hi) (hext : ∀ e ∈ r.oooSegments, e.Extends b I) (hI : I n r.rxBuffer) :
    ∃ n', Drained b hi I r n r.drainOoo n' :=
  drainLoop_drained hhi _ r n (Nat.lt_succ_self _) hr hlo hn hw hext hI

end

/-! ## What parking a segment does -/

section
variable {r : Inbound} {e q : Parked}

theorem bufferOoo_rcvNxt : (r.bufferOoo e).rcvNxt = r.rcvNxt := by
  unfold bufferOoo
  split
  · rfl
  · simp only
    split <;> rfl

theorem bufferOoo_rxBuffer : (r.bufferOoo e).rxBuffer = r.rxBuffer := by
  unfold bufferOoo
  split
  · rfl
  · simp only
    split <;> rfl

theorem bufferOoo_of_covered (h : r.covered e = true) : r.bufferOoo e = r := by
  unfold bufferOoo
  rw [if_pos h]

def refused (r : Inbound) (e : Parked) : Prop :=
  maxOooBytes < ({ r with oooSegments := r.uncovered e } : Inbound).oooBytes + e.2.length

instance : Decidable (r.refused e) := inferInstanceAs (Decidable (_ < _))

theorem bufferOoo_of_refused (hc : r.covered e = false) (h : r.refused e) :
    (r.bufferOoo e).oooSegments = r.uncovered e := by
  unfold refused at h
  unfold bufferOoo
  rw [hc]
  simp only [Bool.false_eq_true, if_false]
  rw [if_pos h]

theorem mem_bufferOoo (hc : r.covered e = false) (h : ¬ r.refused e) :
    q ∈ (r.bufferOoo e).oooSegments ↔ q ∈ r.uncovered e ∨ q = e := by
  unfold refused at h
  unfold bufferOoo
  rw [hc]
  simp only [Bool.false_eq_true, if_false]
  rw [if_neg h]
  simp only [List.mem_insertionSort, List.mem_append, List.mem_singleton]

theorem mem_of_mem_uncovered (h : q ∈ r.uncovered e) : q ∈ r.oooSegments := List.mem_of_mem_filter h

theorem mem_of_mem_bufferOoo (h : q ∈ (r.bufferOoo e).oooSegments) : q ∈ r.oooSegments ∨ q = e := by
  cases hc : r.covered e with
  | true => rw [bufferOoo_of_covered hc] at h; exact .inl h
  | false =>
    by_cases hr : r.refused e
    · rw [bufferOoo_of_refused hc hr] at h
      exact .inl (mem_of_mem_uncovered h)
    · exact ((mem_bufferOoo hc hr).mp h).imp_left mem_of_mem_uncovered

end

end Inbound

end SystemsLab.Tcp
