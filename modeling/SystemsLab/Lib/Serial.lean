import Mathlib.Algebra.Ring.Nat
import Mathlib.Data.Int.Basic
import Mathlib.Tactic.Common

/-!
# Points on a circle of serial numbers

Residues modulo `2 ^ w`, compared by the sign of their difference: over the points `b + n`, the order of the offsets
`n` within half the circle of each other.
-/

namespace SystemsLab

variable {w : Nat} (b : BitVec w)

def ahead (b : BitVec w) (n : Nat) : BitVec w := b + BitVec.ofNat w n

@[simp] theorem ahead_zero : ahead b 0 = b := by simp [ahead]

theorem ahead_ahead (m n : Nat) : ahead (ahead b m) n = ahead b (m + n) := by
  unfold ahead
  rw [BitVec.add_assoc, ← BitVec.ofNat_add]

theorem ahead_sub (a b : BitVec w) : ahead b (a - b).toNat = a := by
  unfold ahead
  rw [BitVec.ofNat_toNat, BitVec.setWidth_eq, BitVec.add_comm, BitVec.sub_add_cancel]

theorem ahead_sub_self (n : Nat) : ahead b n - b = BitVec.ofNat w n := by
  unfold ahead
  rw [BitVec.add_comm, BitVec.add_sub_cancel]

theorem toNat_ahead_sub {b : BitVec w} {m n : Nat} (hmn : n ≤ m) (h : m - n < 2 ^ w) :
    (ahead b m - ahead b n).toNat = m - n := by
  have e : m = n + (m - n) := by omega
  rw [e, ← ahead_ahead, ahead_sub_self, BitVec.toNat_ofNat, Nat.mod_eq_of_lt h]
  omega

theorem ahead_inj {b : BitVec w} {m n : Nat} (hm : m < 2 ^ w) (hn : n < 2 ^ w) : ahead b m = ahead b n ↔ m = n := by
  constructor
  · intro h
    have := congrArg (fun x => (x - b).toNat) h
    simpa [ahead_sub_self, Nat.mod_eq_of_lt hm, Nat.mod_eq_of_lt hn] using this
  · intro h; rw [h]

theorem toInt_ahead_sub {b : BitVec w} {m n : Nat} (h₁ : n ≤ m + 2 ^ w / 2) (h₂ : m < n + (2 ^ w + 1) / 2) :
    (ahead b m - ahead b n).toInt = (m : Int) - n := by
  have e : ahead b m - ahead b n = BitVec.ofInt w ((m : Int) - n) := by
    have hb : ahead b m - ahead b n = BitVec.ofNat w m - BitVec.ofNat w n := by unfold ahead; grind
    apply BitVec.eq_of_toInt_eq
    simp [hb, BitVec.toInt_sub, BitVec.toInt_ofNat', BitVec.toInt_ofInt]
  have h₁' : -((2 ^ w : Nat) / 2 : Int) ≤ (m : Int) - n := by omega
  have h₂' : (m : Int) - n < (((2 ^ w : Nat) : Int) + 1) / 2 := by omega
  rw [e, BitVec.toInt_ofInt, Int.bmod_eq_of_le h₁' h₂']

end SystemsLab
