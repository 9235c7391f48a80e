import SystemsLab.Net.Checksum

/-!
# IPv4 packets

`Ipv4Packet.parse`, the header that `serialize` writes, and `decrementTtlInPlace`. Routers edit a serialized packet
with `copyFromSlice`.
-/

namespace SystemsLab.Net

variable {data bytes : List UInt8} {i j : Nat}

/-! ## Edits in place -/

/-- `data[i..i + bytes.len()].copy_from_slice(bytes)`. -/
def copyFromSlice (data : List UInt8) (i : Nat) (bytes : List UInt8) : List UInt8 := splice data i bytes

theorem length_copyFromSlice (h : i + bytes.length ≤ data.length) :
    (copyFromSlice data i bytes).length = data.length := length_splice h

theorem octet_copyFromSlice (h : i + bytes.length ≤ data.length)
    (hj : j < i ∨ i + bytes.length ≤ j) : octet (copyFromSlice data i bytes) j = octet data j := by
  rw [octet, octet, List.getD_eq_getElem?_getD, List.getD_eq_getElem?_getD, copyFromSlice, getElem?_splice h]
  rcases hj with hj | hj
  · rw [if_pos hj]
  · rw [if_neg (by omega), if_neg (by omega)]

theorem octet_copyFromSlice_self {x : UInt8} (h : i < data.length) : octet (copyFromSlice data i [x]) i = x := by
  rw [octet, List.getD_eq_getElem?_getD, copyFromSlice, getElem?_splice h, if_neg (Nat.lt_irrefl i),
    if_pos (by simp)]
  simp

def rewriteHeaderChecksum (data : List UInt8) (headerLen : Nat) : List UInt8 :=
  let cleared := copyFromSlice data 10 [0, 0]
  copyFromSlice cleared 10 (u16Bytes (computeChecksum (cleared.take headerLen)))

theorem length_rewriteHeaderChecksum (h : 12 ≤ data.length) (headerLen : Nat) :
    (rewriteHeaderChecksum data headerLen).length = data.length := by
  have hcleared : (copyFromSlice data 10 [0, 0]).length = data.length := length_copyFromSlice (by simpa using h)
  rw [rewriteHeaderChecksum, length_copyFromSlice (by rw [hcleared]; simpa using h), hcleared]

theorem octet_rewriteHeaderChecksum (h : 12 ≤ data.length) (headerLen : Nat)
    (hj : j < 10 ∨ 12 ≤ j) : octet (rewriteHeaderChecksum data headerLen) j = octet data j := by
  have hcleared : (copyFromSlice data 10 [0, 0]).length = data.length := length_copyFromSlice (by simpa using h)
  rw [rewriteHeaderChecksum, octet_copyFromSlice (by rw [hcleared]; simpa using h) (by simpa using hj),
    octet_copyFromSlice (by simpa using h) (by simpa using hj)]

/-! ## Packets -/

def ipProtoIcmp : UInt8 := 1

def ipProtoTcp : UInt8 := 6

def ipProtoUdp : UInt8 := 17

inductive IpProtocol
  | icmp
  | tcp
  | udp
  | other (value : UInt8)
deriving DecidableEq, Repr

def IpProtocol.fromU8 (value : UInt8) : IpProtocol :=
  if value = ipProtoIcmp then .icmp else if value = ipProtoTcp then .tcp else if value = ipProtoUdp then .udp
    else .other value

def IpProtocol.toU8 : IpProtocol → UInt8
  | .icmp => ipProtoIcmp
  | .tcp => ipProtoTcp
  | .udp => ipProtoUdp
  | .other value => value

structure Ipv4Header where
  version : UInt8
  ihl : UInt8
  dscpEcn : UInt8
  totalLength : UInt16
  identification : UInt16
  dontFragment : Bool
  moreFragments : Bool
  fragmentOffset : UInt16
  ttl : UInt8
  protocol : IpProtocol
  checksum : UInt16
  srcIp : Ipv4Address
  dstIp : Ipv4Address
deriving DecidableEq, Repr

def Ipv4Header.headerLenBytes (h : Ipv4Header) : Nat := h.ihl.toNat * 4

structure Ipv4Packet where
  header : Ipv4Header
  payload : List UInt8
deriving DecidableEq, Repr

inductive Ipv4Error
  | packetTooShort (len : Nat)
  | invalidVersion (version : UInt8)
  | invalidIhl (ihl : UInt8)
  | totalLengthMismatch (declared available : Nat)
  | totalLengthSmallerThanHeader (totalLength headerLength : Nat)
  | reservedFragmentFlagSet
  | nonFinalFragmentLengthNotMultipleOfEight (payloadLength : Nat)
  | invalidChecksum (computed found : UInt16)
deriving DecidableEq, Repr

def ipv4MinHeaderLen : Nat := 20

namespace Ipv4Packet

def parse (data : List UInt8) (checkChecksum : Bool) : Except Ipv4Error Ipv4Packet := do
  require (ipv4MinHeaderLen ≤ data.length) (.packetTooShort data.length)
  let version := octet data 0 >>> 4
  let ihl := octet data 0 &&& 0x0F
  require (version = 4) (.invalidVersion version)
  require (5 ≤ ihl) (.invalidIhl ihl)
  let headerLen := ihl.toNat * 4
  require (headerLen ≤ data.length) (.packetTooShort data.length)
  let totalLength := u16At data 2
  require (headerLen ≤ totalLength.toNat) (.totalLengthSmallerThanHeader totalLength.toNat headerLen)
  require (totalLength.toNat ≤ data.length) (.totalLengthMismatch totalLength.toNat data.length)
  let flagsFrag := u16At data 6
  require (flagsFrag &&& 0x8000 = 0) .reservedFragmentFlagSet
  let moreFragments : Bool := flagsFrag &&& 0x2000 ≠ 0
  let payloadLength := totalLength.toNat - headerLen
  require (¬ (moreFragments ∧ payloadLength % 8 ≠ 0)) (.nonFinalFragmentLengthNotMultipleOfEight payloadLength)
  let checksum := u16At data 10
  require (¬ (checkChecksum ∧ ¬ verifyChecksum (data.take headerLen)))
    (.invalidChecksum (computeChecksum (data.take headerLen)) checksum)
  pure {
    header := {
      version, ihl, dscpEcn := octet data 1, totalLength, identification := u16At data 4,
      dontFragment := flagsFrag &&& 0x4000 ≠ 0, moreFragments, fragmentOffset := flagsFrag &&& 0x1FFF,
      ttl := octet data 8, protocol := .fromU8 (octet data 9), checksum, srcIp := ipv4At data 12,
      dstIp := ipv4At data 16 }
    payload := slice data headerLen totalLength.toNat }

/-- `Ok(false)` when no hop is left; the edited packet otherwise. -/
def decrementTtlInPlace (data : List UInt8) : Except Ipv4Error (Option (List UInt8)) := do
  let parsed ← parse data true
  if parsed.header.ttl ≤ 1 then pure none else
    pure (some (rewriteHeaderChecksum (copyFromSlice data 8 [parsed.header.ttl - 1]) parsed.header.headerLenBytes))

def serialize (srcIp dstIp : Ipv4Address) (protocol : UInt8) (identification : UInt16) (ttl : UInt8)
    (payload : List UInt8) :
    List UInt8 :=
  let totalLength := UInt16.ofNat (ipv4MinHeaderLen + payload.length)
  let header := [0x45, 0x00] ++ u16Bytes totalLength ++ u16Bytes identification ++ u16Bytes 0x4000 ++
    [ttl, protocol] ++
    [0x00, 0x00] ++ srcIp.octets ++ dstIp.octets
  copyFromSlice header 10 (u16Bytes (computeChecksum header)) ++ payload

/-! ## What a parsed packet says about its octets -/

/-- The parts of an accepted packet that the forwarding code relies on. -/
structure Reads (data : List UInt8) (p : Ipv4Packet) : Prop where
  ttl : p.header.ttl = octet data 8
  protocol : p.header.protocol = .fromU8 (octet data 9)
  srcIp : p.header.srcIp = ipv4At data 12
  dstIp : p.header.dstIp = ipv4At data 16
  ihl : p.header.ihl = octet data 0 &&& 0x0F
  ihl_ge : 20 ≤ p.header.headerLenBytes
  headerLen_le : p.header.headerLenBytes ≤ p.header.totalLength.toNat
  totalLength_le : p.header.totalLength.toNat ≤ data.length

variable {p : Ipv4Packet}

theorem reads_of_parse {check : Bool} (h : parse data check = .ok p) : p.Reads data := by
  simp only [parse, steps_ok, exists_const] at h
  obtain ⟨-, -, hihl, -, hheader, htotal, -, -, -, rfl⟩ := h
  refine ⟨rfl, rfl, rfl, rfl, rfl, ?_, hheader, htotal⟩
  have hfive : 5 ≤ (octet data 0 &&& 0x0F).toNat := UInt8.le_iff_toNat_le.mp hihl
  exact Nat.mul_le_mul_right 4 hfive

theorem Reads.length_ge (h : p.Reads data) : 20 ≤ data.length :=
  h.ihl_ge.trans (h.headerLen_le.trans h.totalLength_le)

theorem decrementTtlInPlace_eq_some {out : List UInt8} (h : decrementTtlInPlace data = .ok (some out)) :
    1 < octet data 8 ∧ octet out 8 = octet data 8 - 1 ∧ out.length = data.length ∧ octet out 0 = octet data 0 := by
  simp only [decrementTtlInPlace, except_bind_eq_ok] at h
  obtain ⟨p, hp, h⟩ := h
  have hreads := reads_of_parse hp
  have hlen := hreads.length_ge
  rw [hreads.ttl] at h
  split at h
  · cases h
  · rename_i hgt
    have hedit : (copyFromSlice data 8 [octet data 8 - 1]).length = data.length :=
      length_copyFromSlice (by simp; omega)
    have hout := Option.some.inj (Except.ok.inj h)
    rw [← hout]
    refine ⟨by simpa using hgt, ?_, ?_, ?_⟩
    · rw [octet_rewriteHeaderChecksum (by omega) _ (by omega), octet_copyFromSlice_self (by omega)]
    · rw [length_rewriteHeaderChecksum (by omega), hedit]
    · rw [octet_rewriteHeaderChecksum (by omega) _ (by omega), octet_copyFromSlice (by simp; omega) (by omega)]

end Ipv4Packet

end SystemsLab.Net
