import SystemsLab.Net.Link
import Mathlib.Algebra.BigOperators.Group.List.Basic
import Mathlib.Tactic.Ring

/-!
# The internet checksum

A sum of 16-bit words modulo 65535. Folding the carries keeps that residue, and the checksum is the word that makes
it zero.
-/

namespace SystemsLab.Net

/-- The big-endian 16-bit words of a buffer, summed; an odd last byte is the upper half of a word. -/
def rawChecksum : List UInt8 → Nat
  | [] => 0
  | [a] => a.toNat * 256
  | a :: b :: rest => (a.toNat * 256 + b.toNat + rawChecksum rest) % 2 ^ 32

def foldCarries (sum : Nat) : Nat :=
  if sum / 2 ^ 16 = 0 then sum else foldCarries (sum % 2 ^ 16 + sum / 2 ^ 16)
termination_by sum
decreasing_by omega

def finalizeChecksum (sum : Nat) : UInt16 := ~~~ UInt16.ofNat (foldCarries sum)

def computeChecksum (data : List UInt8) : UInt16 := finalizeChecksum (rawChecksum data)

def verifyChecksum (data : List UInt8) : Bool :=
  foldCarries (rawChecksum data) = 0xFFFF ∨ foldCarries (rawChecksum data) = 0

def transportSum (srcIp dstIp : Ipv4Address) (protocol : UInt8) (segment : List UInt8) : Nat :=
  (rawChecksum (srcIp.octets ++ dstIp.octets) + protocol.toNat + segment.length % 65536 +
    rawChecksum segment) % 2 ^ 32

def computeIpv4TransportChecksum (srcIp dstIp : Ipv4Address) (protocol : UInt8) (segment : List UInt8) : UInt16 :=
  let result := finalizeChecksum (transportSum srcIp dstIp protocol segment)
  -- RFC 768: a UDP checksum of zero would mean that there is none
  if protocol = 17 ∧ result = 0 then 0xFFFF else result

def verifyIpv4TransportChecksum (srcIp dstIp : Ipv4Address) (protocol : UInt8) (segment : List UInt8) : Bool :=
  foldCarries (transportSum srcIp dstIp protocol segment) = 0xFFFF ∨
    foldCarries (transportSum srcIp dstIp protocol segment) = 0

/-! ## The words of a buffer -/

def words : List UInt8 → List Nat
  | [] => []
  | [a] => [a.toNat * 256]
  | a :: b :: rest => (a.toNat * 256 + b.toNat) :: words rest

theorem words_append : ∀ {front : List UInt8} (back : List UInt8), front.length % 2 = 0 →
    words (front ++ back) = words front ++ words back
  | [], _, _ => rfl
  | [_], _, h => absurd h (by simp)
  | a :: b :: rest, back, h => by
    have hrest : rest.length % 2 = 0 := by simp only [List.length_cons] at h; omega
    simp [words, words_append back hrest]

theorem le_of_mem_words {w : Nat} : ∀ {data : List UInt8}, w ∈ words data → w ≤ 65535
  | [a], h => by
    have := a.toNat_lt
    simp only [words, List.mem_singleton] at h
    omega
  | a :: b :: rest, h => by
    have ha := a.toNat_lt
    have hb := b.toNat_lt
    rcases List.mem_cons.mp h with rfl | h
    · omega
    · exact le_of_mem_words h

theorem words_u16Bytes (x : UInt16) (rest : List UInt8) : words (u16Bytes x ++ rest) = x.toNat :: words rest := by
  have hx := x.toNat_lt
  simp only [u16Bytes, List.cons_append, List.nil_append, words, UInt8.toNat_ofNat', List.cons.injEq, and_true]
  omega

theorem sum_words_le : ∀ data : List UInt8, 2 * (words data).sum ≤ 65535 * (data.length + 1)
  | [] => by simp [words]
  | [a] => by
    have := a.toNat_lt
    simp only [words, List.sum_singleton, List.length_singleton]
    omega
  | a :: b :: rest => by
    have ha := a.toNat_lt
    have hb := b.toNat_lt
    have := sum_words_le rest
    simp only [words, List.sum_cons, List.length_cons]
    omega

theorem sum_set_mod {l : List Nat} (hl : ∀ w ∈ l, w ≤ 65535) {k old new : Nat} (hold : l[k]? = some old)
    (hnew : new ≤ 65535)
    (hne : old ≠ new) (hzero : ¬ (old = 0 ∧ new = 65535)) (hones : ¬ (old = 65535 ∧ new = 0)) :
    (l.set k new).sum % 65535 ≠ l.sum % 65535 := by
  obtain ⟨hk, rfl⟩ := List.getElem?_eq_some_iff.mp hold
  have hle := hl _ (List.getElem_mem hk)
  have hsum : l.sum = (l.take k).sum + l[k] + (l.drop (k + 1)).sum := by
    conv_lhs => rw [← List.take_append_drop k l, List.drop_eq_getElem_cons hk, List.sum_append, List.sum_cons]
    omega
  rw [List.sum_set, if_pos hk, hsum]
  omega

theorem rawChecksum_eq : ∀ data : List UInt8, rawChecksum data = (words data).sum % 2 ^ 32
  | [] => rfl
  | [a] => by
    have := a.toNat_lt
    simp only [rawChecksum, words, List.sum_singleton]
    omega
  | a :: b :: rest => by
    rw [rawChecksum, rawChecksum_eq rest, words, List.sum_cons, Nat.add_mod_mod]

/-! ## Folding the carries -/

variable (sum : Nat)

theorem foldCarries_spec :
    foldCarries sum < 2 ^ 16 ∧ foldCarries sum % 65535 = sum % 65535 ∧ (foldCarries sum = 0 ↔ sum = 0) := by
  fun_induction foldCarries sum with
  | case1 sum h | case2 sum h ih => omega

theorem foldCarries_verified : (foldCarries sum = 0xFFFF ∨ foldCarries sum = 0) ↔ sum % 65535 = 0 := by
  have := foldCarries_spec sum
  omega

theorem toNat_finalizeChecksum : (finalizeChecksum sum).toNat = 65535 - foldCarries sum := by
  have := (foldCarries_spec sum).1
  rw [finalizeChecksum, UInt16.toNat_not, UInt16.toNat_ofNat_of_lt' this]
  rfl

theorem add_finalizeChecksum_mod : (sum + (finalizeChecksum sum).toNat) % 65535 = 0 := by
  have := foldCarries_spec sum
  rw [toNat_finalizeChecksum]
  omega

/-- Adding the checksum carries nothing out of the 32 bits of the accumulator. -/
theorem add_finalizeChecksum_lt (h : sum < 2 ^ 32) : sum + (finalizeChecksum sum).toNat < 2 ^ 32 := by
  have := foldCarries_spec sum
  rw [toNat_finalizeChecksum]
  omega

/-! ## Transport checksums -/

/-- What a transport checksum covers: the pseudo-header, then the segment. -/
def checksummed (srcIp dstIp : Ipv4Address) (protocol : UInt8) (segment : List UInt8) : List UInt8 :=
  srcIp.octets ++ dstIp.octets ++ [0, protocol] ++ u16Bytes (UInt16.ofNat segment.length) ++ segment

section
variable {srcIp dstIp : Ipv4Address} {protocol : UInt8} {segment : List UInt8}

theorem sum_words_checksummed :
    (words (checksummed srcIp dstIp protocol segment)).sum =
      (words (srcIp.octets ++ dstIp.octets)).sum + protocol.toNat + segment.length % 65536 +
        (words segment).sum := by
  have hlen : (srcIp.octets ++ dstIp.octets).length = 8 := by simp
  have hhigh : segment.length % 65536 / 256 < 256 := by omega
  rw [checksummed, words_append _ (by simp), words_append _ (by simp), words_append _ (by simp [hlen])]
  simp only [u16Bytes, words, UInt16.toNat_ofNat', List.sum_append, List.sum_cons, List.sum_nil, UInt8.toNat_ofNat',
    UInt8.toNat_ofNat, Nat.mod_eq_of_lt hhigh]
  omega

theorem transportSum_eq :
    transportSum srcIp dstIp protocol segment =
      (words (checksummed srcIp dstIp protocol segment)).sum % 2 ^ 32 := by
  rw [transportSum, sum_words_checksummed, rawChecksum_eq, rawChecksum_eq, Nat.add_mod_mod, Nat.add_assoc,
    Nat.add_assoc, Nat.mod_add_mod]
  ring_nf

theorem verifyIpv4TransportChecksum_iff :
    verifyIpv4TransportChecksum srcIp dstIp protocol segment = true ↔
      transportSum srcIp dstIp protocol segment % 65535 = 0 := by
  rw [verifyIpv4TransportChecksum, decide_eq_true_eq, foldCarries_verified]

theorem sum_checksummed_lt (h : segment.length ≤ 65535) :
    (words (checksummed srcIp dstIp protocol segment)).sum < 2 ^ 32 := by
  have hle := sum_words_le (checksummed srcIp dstIp protocol segment)
  have hlen : (checksummed srcIp dstIp protocol segment).length = 12 + segment.length := by
    simp [checksummed]; omega
  omega

theorem transportSum_of_le (h : segment.length ≤ 65535) :
    transportSum srcIp dstIp protocol segment = (words (checksummed srcIp dstIp protocol segment)).sum := by
  rw [transportSum_eq, Nat.mod_eq_of_lt (sum_checksummed_lt h)]

theorem verify_iff_of_le (h : segment.length ≤ 65535) :
    verifyIpv4TransportChecksum srcIp dstIp protocol segment = true ↔
      (words (checksummed srcIp dstIp protocol segment)).sum % 65535 = 0 := by
  rw [verifyIpv4TransportChecksum_iff, transportSum_of_le h]

theorem add_computeIpv4TransportChecksum_mod :
    (transportSum srcIp dstIp protocol segment +
      (computeIpv4TransportChecksum srcIp dstIp protocol segment).toNat) % 65535 = 0 := by
  have hsum := add_finalizeChecksum_mod (transportSum srcIp dstIp protocol segment)
  rw [computeIpv4TransportChecksum]
  split
  · rename_i h
    rw [h.2] at hsum
    have hffff : (0xFFFF : UInt16).toNat = 65535 := rfl
    have hzero : (0 : UInt16).toNat = 0 := rfl
    omega
  · exact hsum

theorem length_field (front back : List UInt8) (x : UInt16) :
    (front ++ u16Bytes x ++ back).length = (front ++ [0, 0] ++ back).length := by
  simp only [List.length_append, length_u16Bytes, List.length_cons, List.length_nil]

theorem sum_words_field {front back : List UInt8} (hfront : front.length % 2 = 0) (x : UInt16) :
    (words (checksummed srcIp dstIp protocol (front ++ u16Bytes x ++ back))).sum =
      (words (checksummed srcIp dstIp protocol (front ++ [0, 0] ++ back))).sum + x.toNat := by
  have hwords : words ([0, 0] ++ back) = 0 :: words back := rfl
  simp only [sum_words_checksummed, length_field]
  simp only [List.append_assoc, words_append _ hfront, words_u16Bytes, hwords, List.sum_append, List.sum_cons]
  omega

theorem verify_computed {front back : List UInt8} (hfront : front.length % 2 = 0) (hp : protocol ≠ 17) :
    verifyIpv4TransportChecksum srcIp dstIp protocol
      (front ++ u16Bytes (computeIpv4TransportChecksum srcIp dstIp protocol (front ++ [0, 0] ++ back)) ++ back) =
        true := by
  have hlt : transportSum srcIp dstIp protocol (front ++ [0, 0] ++ back) < 2 ^ 32 := Nat.mod_lt _ (by decide)
  have hsum := @transportSum_eq srcIp dstIp protocol (front ++ [0, 0] ++ back)
  rw [verifyIpv4TransportChecksum_iff, transportSum_eq, sum_words_field hfront, ← Nat.mod_add_mod, ← hsum,
    computeIpv4TransportChecksum, if_neg (fun h => hp h.1), Nat.mod_eq_of_lt (add_finalizeChecksum_lt _ hlt)]
  exact add_finalizeChecksum_mod _

end

/-- The computed checksum verifies; verification is the sum of the words being zero modulo 65535; and a change of
one word is noticed, except for one between the two zeros. -/
theorem internet_checksum_sound (srcIp dstIp : Ipv4Address) (protocol : UInt8) :
    (∀ front back : List UInt8, front.length % 2 = 0 → (front ++ [0, 0] ++ back).length ≤ 65535 →
      verifyIpv4TransportChecksum srcIp dstIp protocol
        (front ++ u16Bytes (computeIpv4TransportChecksum srcIp dstIp protocol (front ++ [0, 0] ++ back)) ++ back) =
          true) ∧
    (∀ segment : List UInt8, segment.length ≤ 65535 →
      (words (checksummed srcIp dstIp protocol segment)).sum < 2 ^ 32 ∧
      transportSum srcIp dstIp protocol segment = (words (checksummed srcIp dstIp protocol segment)).sum ∧
      (verifyIpv4TransportChecksum srcIp dstIp protocol segment = true ↔
        (words (checksummed srcIp dstIp protocol segment)).sum % 65535 = 0)) ∧
    (∀ (srcIp' dstIp' : Ipv4Address) (protocol' : UInt8) (segment segment' : List UInt8) (k old new : Nat),
      segment.length ≤ 65535 → segment'.length ≤ 65535 →
      (words (checksummed srcIp dstIp protocol segment))[k]? = some old →
      words (checksummed srcIp' dstIp' protocol' segment') =
        (words (checksummed srcIp dstIp protocol segment)).set k new →
      old ≠ new → ¬ (old = 0 ∧ new = 65535) → ¬ (old = 65535 ∧ new = 0) →
      verifyIpv4TransportChecksum srcIp dstIp protocol segment = true →
      verifyIpv4TransportChecksum srcIp' dstIp' protocol' segment' = false) := by
  refine ⟨fun front back hfront hlen => ?_, fun segment h =>
    ⟨sum_checksummed_lt h, transportSum_of_le h, verify_iff_of_le h⟩, ?_⟩
  · rw [verify_iff_of_le ((length_field ..).trans_le hlen), sum_words_field hfront, ← transportSum_of_le hlen]
    exact add_computeIpv4TransportChecksum_mod
  · intro srcIp' dstIp' protocol' segment segment' k old new hlen hlen' hold hwords hne hzero hones hverified
    have hmem : new ∈ words (checksummed srcIp' dstIp' protocol' segment') := by
      rw [hwords]
      exact List.mem_set (List.getElem?_eq_some_iff.mp hold).1 new
    rw [verify_iff_of_le hlen] at hverified
    rw [← Bool.not_eq_true, verify_iff_of_le hlen', hwords, ← hverified]
    exact sum_set_mod (fun _ => le_of_mem_words) hold (le_of_mem_words hmem) hne hzero hones

end SystemsLab.Net
