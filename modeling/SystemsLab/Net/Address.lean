import Mathlib.Order.Lattice
import Mathlib.Order.Basic
import Mathlib.Data.Prod.Lex

/-!
# IPv4 addresses
-/

namespace SystemsLab

@[ext] structure Ipv4Address where
  a : UInt8
  b : UInt8
  c : UInt8
  d : UInt8
deriving DecidableEq, Repr

namespace Ipv4Address

def unspecified : Ipv4Address := ⟨0, 0, 0, 0⟩

variable (x : Ipv4Address)

def octets : List UInt8 := [x.a, x.b, x.c, x.d]

def ofOctets (l : List UInt8) : Ipv4Address := ⟨l.getD 0 0, l.getD 1 0, l.getD 2 0, l.getD 3 0⟩

def toU32 : BitVec 32 := x.a.toBitVec ++ x.b.toBitVec ++ x.c.toBitVec ++ x.d.toBitVec

def fromU32 (v : BitVec 32) : Ipv4Address :=
  ⟨⟨v.extractLsb' 24 8⟩, ⟨v.extractLsb' 16 8⟩, ⟨v.extractLsb' 8 8⟩, ⟨v.extractLsb' 0 8⟩⟩

def hostMask (len : Nat) : BitVec 32 := (1#32 <<< (32 - len)) - 1#32

def mask (len : Nat) : Ipv4Address :=
  if len = 0 then unspecified else if 32 ≤ len then x else fromU32 (x.toU32 &&& ~~~(hostMask len))

def isLoopback : Bool := x.a = 127

def isMulticast : Bool := 224 ≤ x.a ∧ x.a ≤ 239

def isBroadcast : Bool := x = ⟨255, 255, 255, 255⟩

def isUnspecified : Bool := x = unspecified

@[simp] theorem length_octets (x : Ipv4Address) : x.octets.length = 4 := rfl

@[simp] theorem ofOctets_octets (x : Ipv4Address) : ofOctets x.octets = x := rfl

/-- Arrays are compared octet by octet, which is the order of the numbers they spell. -/
def rank : Nat := ((x.a.toNat * 256 + x.b.toNat) * 256 + x.c.toNat) * 256 + x.d.toNat

theorem rank_injective : Function.Injective rank := by
  intro x y h
  have := x.a.toNat_lt; have := x.b.toNat_lt; have := x.c.toNat_lt; have := x.d.toNat_lt
  have := y.a.toNat_lt; have := y.b.toNat_lt; have := y.c.toNat_lt; have := y.d.toNat_lt
  unfold rank at h
  apply Ipv4Address.ext <;> apply UInt8.toNat_inj.mp <;> omega

instance : LinearOrder Ipv4Address := LinearOrder.lift' rank rank_injective

/-! ## Masking -/

theorem toU32_fromU32 (v : BitVec 32) : (fromU32 v).toU32 = v := by
  apply BitVec.eq_of_getLsbD_eq
  intro i hi
  simp only [toU32, fromU32, BitVec.getLsbD_append, BitVec.getLsbD_extractLsb']
  by_cases h1 : i < 8
  · simp [h1]
  by_cases h2 : i < 16
  · have : i - 8 < 8 := by omega
    have : 8 + (i - 8) = i := by omega
    simp [*]
  by_cases h3 : i < 24
  · have : ¬ i - 8 < 8 := by omega
    have : i - 8 - 8 < 8 := by omega
    have : 16 + (i - 8 - 8) = i := by omega
    simp [*]
  · have : ¬ i - 8 < 8 := by omega
    have : ¬ i - 8 - 8 < 8 := by omega
    have : i - 8 - 8 - 8 < 8 := by omega
    have : 24 + (i - 8 - 8 - 8) = i := by omega
    simp [*]

theorem mask_mask (x : Ipv4Address) (len : Nat) : (x.mask len).mask len = x.mask len := by
  unfold mask
  by_cases h0 : len = 0
  · rw [if_pos h0, if_pos h0]
  · by_cases h32 : 32 ≤ len
    · rw [if_neg h0, if_pos h32, if_neg h0, if_pos h32]
    · rw [if_neg h0, if_neg h32, if_neg h0, if_neg h32, toU32_fromU32, BitVec.and_assoc, BitVec.and_self]

theorem getLsbD_hostMask {len i : Nat} (h0 : 0 < len) (hi : i < 32 - len) : (hostMask len).getLsbD i = true := by
  have hk : 2 ^ (32 - len) < 2 ^ 32 := Nat.pow_lt_pow_right (by omega) (by omega)
  have hpos : 0 < 2 ^ (32 - len) := Nat.two_pow_pos _
  have heq : hostMask len = BitVec.ofNat 32 (2 ^ (32 - len) - 1) := by
    apply BitVec.eq_of_toNat_eq
    simp only [hostMask, BitVec.toNat_sub, BitVec.toNat_shiftLeft, BitVec.toNat_ofNat, Nat.shiftLeft_eq]
    omega
  rw [heq, BitVec.getLsbD_ofNat, Nat.testBit_two_pow_sub_one]
  simp [hi]; omega

theorem extract_masked {v : BitVec 32} {len s : Nat} (h0 : 0 < len) (hs : s + 8 ≤ 32 - len) :
    (⟨(v &&& ~~~(hostMask len)).extractLsb' s 8⟩ : UInt8) = 0 := by
  apply UInt8.toBitVec_inj.mp
  apply BitVec.eq_of_getLsbD_eq
  intro i hi
  have hbit := getLsbD_hostMask h0 (show s + i < 32 - len by omega)
  simp [BitVec.getLsbD_extractLsb', hbit]

end Ipv4Address

end SystemsLab
