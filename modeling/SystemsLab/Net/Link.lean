import SystemsLab.Lib.Wire
import SystemsLab.Net.Address

/-!
# Frames on a link

Ethernet II frames and ARP packets. A frame on a link is its payload behind fourteen octets
that the next node reads back (`EthernetFrame.parse_serialize`).
-/

namespace SystemsLab.Net

/-! ## Octets of a packet -/

/-- `data[i]`, behind a length check. -/
def octet (data : List UInt8) (i : Nat) : UInt8 := data.getD i 0

def u16At (data : List UInt8) (i : Nat) : UInt16 :=
  UInt16.ofNat ((octet data i).toNat * 256 + (octet data (i + 1)).toNat)

def u32At (data : List UInt8) (i : Nat) : UInt32 :=
  UInt32.ofNat (((u16At data i).toNat) * 65536 + (u16At data (i + 2)).toNat)

def ipv4At (data : List UInt8) (i : Nat) : Ipv4Address :=
  ⟨octet data i, octet data (i + 1), octet data (i + 2), octet data (i + 3)⟩

def u16Bytes (x : UInt16) : List UInt8 := [UInt8.ofNat (x.toNat / 256), UInt8.ofNat x.toNat]

def u32Bytes (x : UInt32) : List UInt8 :=
  [UInt8.ofNat (x.toNat / 16777216), UInt8.ofNat (x.toNat / 65536), UInt8.ofNat (x.toNat / 256),
    UInt8.ofNat x.toNat]

@[simp] theorem length_u16Bytes (x : UInt16) : (u16Bytes x).length = 2 := rfl

theorem u16_octets (x : UInt16) :
    UInt16.ofNat ((UInt8.ofNat (x.toNat / 256)).toNat * 256 + (UInt8.ofNat x.toNat).toNat) = x := by
  have hx := x.toNat_lt
  apply UInt16.toNat_inj.mp
  simp only [UInt16.toNat_ofNat', UInt8.toNat_ofNat']
  omega

/-! ## Ethernet -/

@[ext] structure MacAddress where
  a : UInt8
  b : UInt8
  c : UInt8
  d : UInt8
  e : UInt8
  f : UInt8
deriving DecidableEq, Repr

namespace MacAddress

def broadcast : MacAddress := ⟨0xFF, 0xFF, 0xFF, 0xFF, 0xFF, 0xFF⟩

def zero : MacAddress := ⟨0, 0, 0, 0, 0, 0⟩

def octets (m : MacAddress) : List UInt8 := [m.a, m.b, m.c, m.d, m.e, m.f]

def isBroadcast (m : MacAddress) : Bool := m = broadcast

def isMulticast (m : MacAddress) : Bool := m.a &&& 0x01 ≠ 0 ∧ ¬ m.isBroadcast

def isUnicast (m : MacAddress) : Bool := ¬ m.isMulticast ∧ ¬ m.isBroadcast

end MacAddress

def macAt (data : List UInt8) (i : Nat) : MacAddress :=
  ⟨octet data i, octet data (i + 1), octet data (i + 2), octet data (i + 3), octet data (i + 4), octet data (i + 5)⟩

def ethertypeIpv4 : UInt16 := 0x0800

def ethertypeArp : UInt16 := 0x0806

def ethertypeIpv6 : UInt16 := 0x86DD

def ethertypeVlan : UInt16 := 0x8100

def ethertypeMpls : UInt16 := 0x8847

inductive EtherType
  | ipv4
  | arp
  | ipv6
  | vlan
  | mpls
  | unknown (value : UInt16)
deriving DecidableEq, Repr

def EtherType.fromU16 (value : UInt16) : EtherType :=
  if value = ethertypeIpv4 then .ipv4
  else if value = ethertypeArp then .arp
  else if value = ethertypeIpv6 then .ipv6
  else if value = ethertypeVlan then .vlan
  else if value = ethertypeMpls then .mpls
  else .unknown value

structure EthernetFrame where
  dstMac : MacAddress
  srcMac : MacAddress
  ethertype : EtherType
  payload : List UInt8
deriving DecidableEq, Repr

inductive EthernetError
  | frameTooShort (len : Nat)
deriving DecidableEq, Repr

def etherHeaderLen : Nat := 14

namespace EthernetFrame

def parse (data : List UInt8) : Except EthernetError EthernetFrame := do
  require (etherHeaderLen ≤ data.length) (.frameTooShort data.length)
  pure ⟨macAt data 0, macAt data 6, .fromU16 (u16At data 12), data.drop etherHeaderLen⟩

def serialize (dst src : MacAddress) (ethertype : UInt16) (payload : List UInt8) : List UInt8 :=
  dst.octets ++ src.octets ++ u16Bytes ethertype ++ payload

theorem parse_serialize (dst src : MacAddress) (ethertype : UInt16) (payload : List UInt8) :
    parse (serialize dst src ethertype payload) = .ok ⟨dst, src, .fromU16 ethertype, payload⟩ := by
  have htype : u16At (serialize dst src ethertype payload) 12 = ethertype := u16_octets ethertype
  rw [parse, require_pos (by simp [serialize, MacAddress.octets, etherHeaderLen]), except_bind_ok, htype]
  rfl

end EthernetFrame

/-! ## ARP -/

inductive ArpOpcode
  | request
  | reply
  | unknown (value : UInt16)
deriving DecidableEq, Repr

def ArpOpcode.fromU16 (value : UInt16) : ArpOpcode :=
  if value = 1 then .request else if value = 2 then .reply else .unknown value

def ArpOpcode.toU16 : ArpOpcode → UInt16
  | .request => 1
  | .reply => 2
  | .unknown value => value

structure ArpPacket where
  htype : UInt16
  ptype : UInt16
  hlen : UInt8
  plen : UInt8
  opcode : ArpOpcode
  senderMac : MacAddress
  senderIp : Ipv4Address
  targetMac : MacAddress
  targetIp : Ipv4Address
deriving DecidableEq, Repr

inductive ArpError
  | packetTooShort (len : Nat)
  | invalidHardwareType (htype : UInt16)
  | invalidProtocolType (ptype : UInt16)
  | invalidAddressLengths (hlen plen : UInt8)
deriving DecidableEq, Repr

namespace ArpPacket

def parse (data : List UInt8) : Except ArpError ArpPacket := do
  require (28 ≤ data.length) (.packetTooShort data.length)
  let htype := u16At data 0
  let ptype := u16At data 2
  let hlen := octet data 4
  let plen := octet data 5
  require (htype = 1) (.invalidHardwareType htype)
  require (ptype = 0x0800) (.invalidProtocolType ptype)
  require (hlen = 6 ∧ plen = 4) (.invalidAddressLengths hlen plen)
  pure ⟨htype, ptype, hlen, plen, .fromU16 (u16At data 6), macAt data 8, ipv4At data 14, macAt data 18,
    ipv4At data 24⟩

def serialize (p : ArpPacket) : List UInt8 :=
  u16Bytes p.htype ++ u16Bytes p.ptype ++ [p.hlen, p.plen] ++ u16Bytes p.opcode.toU16 ++ p.senderMac.octets ++
    p.senderIp.octets ++ p.targetMac.octets ++ p.targetIp.octets

def buildRequest (senderMac : MacAddress) (senderIp targetIp : Ipv4Address) : ArpPacket :=
  ⟨1, 0x0800, 6, 4, .request, senderMac, senderIp, .zero, targetIp⟩

def buildReply (senderMac : MacAddress) (senderIp : Ipv4Address) (targetMac : MacAddress) (targetIp : Ipv4Address) :
    ArpPacket :=
  ⟨1, 0x0800, 6, 4, .reply, senderMac, senderIp, targetMac, targetIp⟩

end ArpPacket

inductive ArpEntryKind
  | dynamic
  | static
deriving DecidableEq, Repr

/-- The cache as `insert` and `lookup` use it; the times that ageing adds to an entry are read by neither. -/
def ArpTable : Type := Ipv4Address → Option (MacAddress × ArpEntryKind)

namespace ArpTable

def new : ArpTable := fun _ => none

def insert (t : ArpTable) (ip : Ipv4Address) (mac : MacAddress) : ArpTable :=
  Function.update t ip (some (mac, .dynamic))

def insertStatic (t : ArpTable) (ip : Ipv4Address) (mac : MacAddress) : ArpTable :=
  Function.update t ip (some (mac, .static))

def lookup (t : ArpTable) (ip : Ipv4Address) : Option MacAddress := (t ip).map Prod.fst

end ArpTable

end SystemsLab.Net
