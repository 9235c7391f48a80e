import SystemsLab.Lib.Wire
import SystemsLab.Net.Address

/-!
# Prefixes and their lists

Prefixes with their host bits cleared, and `decode_list`.
-/

namespace SystemsLab.Bgp

/-! ## Prefixes -/

/-- A destination prefix. The host bits below `length` are cleared. -/
@[ext] structure Ipv4Prefix where
  address : Ipv4Address
  length : Nat
  length_le : length ≤ 32
  masked : address.mask length = address
deriving DecidableEq

namespace Ipv4Prefix

def new (address : Ipv4Address) (length : Nat) : Ipv4Prefix :=
  ⟨address.mask (min length 32), min length 32, Nat.min_le_right _ _, Ipv4Address.mask_mask _ _⟩

variable (p : Ipv4Prefix)

theorem new_self : new p.address p.length = p := by
  apply Ipv4Prefix.ext
  · change p.address.mask (min p.length 32) = p.address
    rw [Nat.min_eq_left p.length_le, p.masked]
  · exact Nat.min_eq_left p.length_le

def contains (p : Ipv4Prefix) (ip : Ipv4Address) : Bool := ip.mask p.length = p.address

instance : LinearOrder Ipv4Prefix :=
  LinearOrder.lift' (fun p => toLex (p.address, p.length)) fun p q h => by
    have h' := Prod.mk.injEq _ _ _ _ ▸ toLex_inj.mp h
    exact Ipv4Prefix.ext h'.1 h'.2

def octetCount (len : Nat) : Nat := (len + 7) / 8

def encodedLen (p : Ipv4Prefix) : Nat := 1 + octetCount p.length

def encode (p : Ipv4Prefix) : List UInt8 := UInt8.ofNat p.length :: p.address.octets.take (octetCount p.length)

theorem octetCount_le : octetCount p.length ≤ 4 := by
  have := p.length_le; unfold octetCount; omega

@[simp] theorem length_encode : p.encode.length = p.encodedLen := by
  have := p.octetCount_le
  simp only [encode, encodedLen, List.length_cons, List.length_take, Ipv4Address.length_octets]
  omega

theorem ofOctets_take : Ipv4Address.ofOctets (p.address.octets.take (octetCount p.length)) = p.address := by
  have hm := p.masked
  have hle := p.length_le
  generalize p.length = len at hm hle
  generalize p.address = x at hm
  unfold Ipv4Address.mask at hm
  by_cases h0 : len = 0
  · rw [if_pos h0] at hm; subst h0 hm; rfl
  by_cases h32 : 32 ≤ len
  · have : len = 32 := by omega
    subst this; rfl
  rw [if_neg h0, if_neg h32] at hm
  have hz : ∀ s, s + 8 ≤ 32 - len → (⟨(x.toU32 &&& ~~~(Ipv4Address.hostMask len)).extractLsb' s 8⟩ : UInt8) = 0 :=
    fun s hs => Ipv4Address.extract_masked (by omega) hs
  have hb : 8 + 8 ≤ 32 - len → x.c = 0 := fun h => (congrArg Ipv4Address.c hm).symm.trans (hz 8 h)
  have ha : 16 + 8 ≤ 32 - len → x.b = 0 := fun h => (congrArg Ipv4Address.b hm).symm.trans (hz 16 h)
  have hd : 0 + 8 ≤ 32 - len → x.d = 0 := fun h => (congrArg Ipv4Address.d hm).symm.trans (hz 0 h)
  have hcases : octetCount len = 1 ∨ octetCount len = 2 ∨ octetCount len = 3 ∨ octetCount len = 4 := by
    unfold octetCount; omega
  have hlen : len ≤ 8 * octetCount len := by unfold octetCount; omega
  rcases hcases with h | h | h | h <;> rw [h] at hlen ⊢
  · apply Ipv4Address.ext
    · rfl
    · exact (ha (by omega)).symm
    · exact (hb (by omega)).symm
    · exact (hd (by omega)).symm
  · apply Ipv4Address.ext
    · rfl
    · rfl
    · exact (hb (by omega)).symm
    · exact (hd (by omega)).symm
  · apply Ipv4Address.ext
    · rfl
    · rfl
    · rfl
    · exact (hd (by omega)).symm
  · rfl

end Ipv4Prefix

/-! ## Errors -/

def bgpErrMessageHeader : UInt8 := 1
def bgpErrOpenMessage : UInt8 := 2
def bgpErrUpdateMessage : UInt8 := 3
def bgpErrCease : UInt8 := 6

def bgpSubConnectionNotSynchronized : UInt8 := 1
def bgpSubBadMessageLength : UInt8 := 2
def bgpSubBadMessageType : UInt8 := 3

def bgpSubUnsupportedOptParam : UInt8 := 4

def bgpSubMalformedAttributeList : UInt8 := 1
def bgpSubUnrecognizedWellKnownAttr : UInt8 := 2
def bgpSubMissingWellKnownAttr : UInt8 := 3
def bgpSubAttributeFlagsError : UInt8 := 4
def bgpSubAttributeLengthError : UInt8 := 5
def bgpSubInvalidOrigin : UInt8 := 6
def bgpSubInvalidNextHop : UInt8 := 8
def bgpSubInvalidNetworkField : UInt8 := 10
def bgpSubMalformedAsPath : UInt8 := 11

structure BgpParseError where
  code : UInt8
  subcode : UInt8
  reason : String
deriving DecidableEq, Repr

/-- Reading ends early with an error, or with a read outside the bytes, which panics. -/
inductive Fault
  | parse (e : BgpParseError)
  | index
deriving DecidableEq, Repr

def headerError (subcode : UInt8) (reason : String) : Fault := .parse ⟨bgpErrMessageHeader, subcode, reason⟩

def openError (subcode : UInt8) (reason : String) : Fault := .parse ⟨bgpErrOpenMessage, subcode, reason⟩

def updateError (subcode : UInt8) (reason : String) : Fault := .parse ⟨bgpErrUpdateMessage, subcode, reason⟩

abbrev byteAt (data : List UInt8) (i : Nat) : Except Fault UInt8 := readAt .index data i

abbrev bytesAt (data : List UInt8) (a b : Nat) : Except Fault (List UInt8) := readSlice .index data a b

def u16At (data : List UInt8) (i : Nat) : Except Fault Nat := do
  let hi ← byteAt data i
  let lo ← byteAt data (i + 1)
  pure (beVal [hi, lo])

def u32At (data : List UInt8) (i : Nat) : Except Fault UInt32 := do
  let b0 ← byteAt data i
  let b1 ← byteAt data (i + 1)
  let b2 ← byteAt data (i + 2)
  let b3 ← byteAt data (i + 3)
  pure (UInt32.ofNat (beVal [b0, b1, b2, b3]))

def addressAt (data : List UInt8) (i : Nat) : Except Fault Ipv4Address := do
  let b0 ← byteAt data i
  let b1 ← byteAt data (i + 1)
  let b2 ← byteAt data (i + 2)
  let b3 ← byteAt data (i + 3)
  pure ⟨b0, b1, b2, b3⟩

@[simp] theorem updateError_ne_index (subcode : UInt8) (reason : String) :
    updateError subcode reason ≠ .index := nofun

variable {data : List UInt8} {i : Nat}

@[simp] theorem avoids_byteAt : Avoids .index (byteAt data i) ↔ i < data.length := by
  simp [byteAt, readAt]

theorem avoids_u16At (h : i + 1 < data.length) : Avoids .index (u16At data i) := by
  simp [u16At]
  grind

theorem avoids_u32At (h : i + 3 < data.length) : Avoids .index (u32At data i) := by
  simp [u32At]
  grind

theorem avoids_addressAt (h : i + 3 < data.length) : Avoids .index (addressAt data i) := by
  simp [addressAt]
  grind

def u16Bytes (n : Nat) : List UInt8 := beBytes 2 n

def u32Bytes (x : UInt32) : List UInt8 := beBytes 4 x.toNat

@[simp] theorem length_u16Bytes (n : Nat) : (u16Bytes n).length = 2 := length_beBytes 2 n

@[simp] theorem length_u32Bytes (x : UInt32) : (u32Bytes x).length = 4 := length_beBytes 4 _

theorem u16At_u16Bytes {p rest : List UInt8} {n i : Nat} (hi : i = p.length) (hn : n < 65536) :
    u16At (p ++ (u16Bytes n ++ rest)) i = .ok n := by
  obtain ⟨hi', lo, hb⟩ : ∃ x y, u16Bytes n = [x, y] := List.length_eq_two.mp (length_u16Bytes n)
  have hv : beVal [hi', lo] = n := by rw [← hb]; exact beVal_beBytes_of_lt hn
  subst hi
  simp [u16At, hb, readAt, hv]

theorem u32At_u32Bytes {p rest : List UInt8} {x : UInt32} (hi : i = p.length) :
    u32At (p ++ (u32Bytes x ++ rest)) i = .ok x := by
  obtain ⟨b0, b1, b2, b3, hb⟩ : ∃ b0 b1 b2 b3, u32Bytes x = [b0, b1, b2, b3] := by
    match h : u32Bytes x, length_u32Bytes x with
    | [b0, b1, b2, b3], _ => exact ⟨b0, b1, b2, b3, rfl⟩
  have hv : beVal [b0, b1, b2, b3] = x.toNat := by rw [← hb]; exact beVal_beBytes_of_lt x.toNat_lt
  subst hi
  simp [u32At, hb, readAt, hv]

/-! ## Lists of prefixes -/

namespace Ipv4Prefix

/-- One turn of the loop of `decode_list`. -/
def decodeNext (subcode : UInt8) (out : List Ipv4Prefix) (data : List UInt8) :
    Except Fault (List Ipv4Prefix × Nat) := do
  let bits ← byteAt data 0
  require (bits.toNat ≤ 32) (updateError subcode s!"prefix length {bits} exceeds 32 bits")
  let count := octetCount bits.toNat
  require (1 + count ≤ data.length) (updateError subcode "truncated prefix in NLRI list")
  let addr ← bytesAt data 1 (1 + count)
  pure (out ++ [new (.ofOctets addr) bits.toNat], 1 + count)

def decodeList (data : List UInt8) (subcode : UInt8) : Except Fault (List Ipv4Prefix) :=
  scan (decodeNext subcode) data 0 []

def encodeList (ps : List Ipv4Prefix) : List UInt8 := ps.flatMap encode

theorem length_encodeList (ps : List Ipv4Prefix) : (encodeList ps).length = (ps.map encodedLen).sum := by
  simp [encodeList, List.length_flatMap]

theorem decodeNext_encode (subcode : UInt8) (out : List Ipv4Prefix) (p : Ipv4Prefix) (rest : List UInt8) :
    decodeNext subcode out (p.encode ++ rest) = .ok (out ++ [p], p.encode.length) := by
  have hb : (UInt8.ofNat p.length).toNat = p.length := by
    have := p.length_le
    rw [UInt8.toNat_ofNat']; omega
  have hslice : bytesAt (p.encode ++ rest) 1 (1 + octetCount p.length) =
      .ok (p.address.octets.take (octetCount p.length)) := by
    have := p.octetCount_le
    exact @readSlice_middle _ Fault UInt8 .index [UInt8.ofNat p.length]
      (p.address.octets.take (octetCount p.length)) rest _ rfl
      (by simp; omega)
  have hfits : 1 + octetCount p.length ≤ (p.encode ++ rest).length := by
    rw [List.length_append, length_encode, encodedLen]; omega
  unfold decodeNext
  rw [show byteAt (p.encode ++ rest) 0 = .ok (UInt8.ofNat p.length) from rfl, except_bind_ok, hb,
    require_pos p.length_le, except_bind_ok]
  simp only [require_pos hfits, except_bind_ok, hslice, ofOctets_take, new_self, length_encode, except_pure_eq]
  rfl

theorem decodeList_encodeList (ps : List Ipv4Prefix) (subcode : UInt8) :
    decodeList (encodeList ps) subcode = .ok ps := by
  unfold decodeList encodeList
  rw [scan_flatMap (fun p _ => by simp [encode]) (fun out p _ => decodeNext_encode subcode out p), foldl_push]
  simp

theorem avoids_decodeList (data : List UInt8) (subcode : UInt8) : Avoids .index (decodeList data subcode) := by
  refine avoids_scan (fun out x l => ?_) data 0 []
  simp [decodeNext]

end Ipv4Prefix

end SystemsLab.Bgp
