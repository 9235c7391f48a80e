import SystemsLab.Net.Ipv4

/-!
# What IPv4 and the label shim carry

ICMP messages, UDP datagrams, VXLAN packets and MPLS label stacks. The routers change the top label only
(`MplsPacket.ttl_of_parse`, `MplsPacket.octet_serialize`).
-/

namespace SystemsLab.Net

/-! ## ICMP -/

inductive IcmpType
  | echoReply
  | echoRequest
  | destinationUnreachable
  | timeExceeded
  | other (value : UInt8)
deriving DecidableEq, Repr

def IcmpType.fromU8 (value : UInt8) : IcmpType :=
  if value = 0 then .echoReply else if value = 8 then .echoRequest
  else if value = 3 then .destinationUnreachable else if value = 11 then .timeExceeded else .other value

structure IcmpPacket where
  icmpType : IcmpType
  code : UInt8
  checksum : UInt16
  identifier : UInt16
  sequenceNumber : UInt16
  payload : List UInt8
deriving DecidableEq, Repr

inductive IcmpError
  | packetTooShort (len : Nat)
  | invalidChecksum (computed found : UInt16)
deriving DecidableEq, Repr

def ipv4ErrorQuoteLen (datagram : List UInt8) : Nat :=
  let ihlWords := (octet datagram 0 &&& 0x0F).toNat
  if datagram ≠ [] ∧ octet datagram 0 >>> 4 = 4 ∧ 5 ≤ ihlWords ∧ ihlWords * 4 ≤ datagram.length then
    min datagram.length (ihlWords * 4 + 8)
  else min datagram.length 28

namespace IcmpPacket

def parse (data : List UInt8) (checkChecksum : Bool) : Except IcmpError IcmpPacket := do
  require (8 ≤ data.length) (.packetTooShort data.length)
  require (¬ (checkChecksum ∧ ¬ verifyChecksum data)) (.invalidChecksum (computeChecksum data) (u16At data 2))
  pure ⟨.fromU8 (octet data 0), octet data 1, u16At data 2, u16At data 4, u16At data 6, data.drop 8⟩

def serialize (icmpType code : UInt8) (identifier sequenceNumber : UInt16) (payload : List UInt8) : List UInt8 :=
  let buf := [icmpType, code, 0, 0] ++ u16Bytes identifier ++ u16Bytes sequenceNumber ++ payload
  copyFromSlice buf 2 (u16Bytes (computeChecksum buf))

def buildEchoReply (req : IcmpPacket) : List UInt8 := serialize 0 0 req.identifier req.sequenceNumber req.payload

def buildEchoRequest (identifier sequenceNumber : UInt16) (payload : List UInt8) : List UInt8 :=
  serialize 8 0 identifier sequenceNumber payload

def buildTimeExceeded (code : UInt8) (datagram : List UInt8) : List UInt8 :=
  serialize 11 code 0 0 ([0, 0, 0, 0] ++ datagram.take (ipv4ErrorQuoteLen datagram))

def buildDestinationUnreachable (code : UInt8) (nextHopMtu : UInt16) (datagram : List UInt8) : List UInt8 :=
  let unused := if code = 4 then [0, 0] ++ u16Bytes nextHopMtu else [0, 0, 0, 0]
  serialize 3 code 0 0 (unused ++ datagram.take (ipv4ErrorQuoteLen datagram))

end IcmpPacket

/-! ## UDP -/

structure UdpDatagram where
  srcPort : UInt16
  dstPort : UInt16
  length : UInt16
  checksum : UInt16
  payload : List UInt8
deriving DecidableEq, Repr

inductive UdpError
  | datagramTooShort (len : Nat)
  | lengthTooShort (declared : Nat)
  | lengthMismatch (declared available : Nat)
  | invalidChecksum (found : UInt16)
deriving DecidableEq, Repr

namespace UdpDatagram

def parse (srcIp dstIp : Ipv4Address) (data : List UInt8) (checkChecksum : Bool) : Except UdpError UdpDatagram := do
  require (8 ≤ data.length) (.datagramTooShort data.length)
  let length := u16At data 4
  let checksum := u16At data 6
  require (8 ≤ length.toNat) (.lengthTooShort length.toNat)
  require (length.toNat ≤ data.length) (.lengthMismatch length.toNat data.length)
  -- the sender left the checksum out if it is zero
  require (¬ (checkChecksum ∧ checksum ≠ 0 ∧ ¬ verifyIpv4TransportChecksum srcIp dstIp 17 (data.take length.toNat)))
    (.invalidChecksum checksum)
  pure ⟨u16At data 0, u16At data 2, length, checksum, slice data 8 length.toNat⟩

def serialize (srcIp dstIp : Ipv4Address) (srcPort dstPort : UInt16) (payload : List UInt8) : List UInt8 :=
  let buf := u16Bytes srcPort ++ u16Bytes dstPort ++ u16Bytes (UInt16.ofNat (8 + payload.length)) ++
    [0, 0] ++ payload
  copyFromSlice buf 6 (u16Bytes (computeIpv4TransportChecksum srcIp dstIp 17 buf))

end UdpDatagram

/-! ## VXLAN -/

def vxlanUdpPort : UInt16 := 4789

structure VxlanHeader where
  flags : UInt8
  vni : UInt32
deriving DecidableEq, Repr

structure VxlanPacket where
  header : VxlanHeader
  innerFrame : List UInt8
deriving DecidableEq, Repr

inductive VxlanError
  | packetTooShort (len : Nat)
  | invalidFlags (flags : UInt8)
  | invalidVni (vni : UInt32)
deriving DecidableEq, Repr

def vxlanFlagVniValid : UInt8 := 0x08

namespace VxlanHeader

def new (vni : UInt32) : Except VxlanError VxlanHeader := do
  require (vni ≤ 0x00FFFFFF) (.invalidVni vni)
  pure ⟨vxlanFlagVniValid, vni⟩

def parse (data : List UInt8) : Except VxlanError VxlanHeader := do
  require (8 ≤ data.length) (.packetTooShort data.length)
  let flags := octet data 0
  require (flags &&& vxlanFlagVniValid ≠ 0) (.invalidFlags flags)
  pure ⟨flags, UInt32.ofNat (((octet data 4).toNat * 256 + (octet data 5).toNat) * 256 + (octet data 6).toNat)⟩

def serialize (h : VxlanHeader) : List UInt8 := [vxlanFlagVniValid, 0, 0, 0] ++ (u32Bytes h.vni).drop 1 ++ [0]

end VxlanHeader

namespace VxlanPacket

def parse (data : List UInt8) : Except VxlanError VxlanPacket := do
  let header ← VxlanHeader.parse data
  pure ⟨header, data.drop 8⟩

def encapsulate (vni : UInt32) (innerFrame : List UInt8) : Except VxlanError (List UInt8) := do
  let header ← VxlanHeader.new vni
  pure (header.serialize ++ innerFrame)

end VxlanPacket

/-! ## MPLS -/

structure MplsHeader where
  label : Nat
  tc : Nat
  bottomOfStack : Bool
  ttl : UInt8
deriving DecidableEq, Repr

inductive MplsError
  | headerTooShort (len : Nat)
deriving DecidableEq, Repr

namespace MplsHeader

def new (label tc : Nat) (bottomOfStack : Bool) (ttl : UInt8) : MplsHeader :=
  ⟨label % 2 ^ 20, tc % 8, bottomOfStack, ttl⟩

def ofRaw (raw : Nat) : MplsHeader := ⟨raw / 2 ^ 12 % 2 ^ 20, raw / 2 ^ 9 % 8, raw / 2 ^ 8 % 2 = 1, UInt8.ofNat raw⟩

def toRaw (h : MplsHeader) : Nat :=
  h.label % 2 ^ 20 * 2 ^ 12 + h.tc % 8 * 2 ^ 9 + (if h.bottomOfStack then 2 ^ 8 else 0) + h.ttl.toNat

def serialize (h : MplsHeader) : List UInt8 := u32Bytes (UInt32.ofNat h.toRaw)

theorem toRaw_lt (h : MplsHeader) : h.toRaw < 2 ^ 32 := by
  have httl := h.ttl.toNat_lt
  have hlabel := Nat.mod_lt h.label (show 2 ^ 20 > 0 by decide)
  have htc := Nat.mod_lt h.tc (show 8 > 0 by decide)
  rw [toRaw]
  split <;> omega

theorem serialize_last (h : MplsHeader) : octet h.serialize 3 = h.ttl := by
  have httl := h.ttl.toNat_lt
  change UInt8.ofNat (UInt32.ofNat h.toRaw).toNat = h.ttl
  apply UInt8.toNat_inj.mp
  rw [UInt8.toNat_ofNat', UInt32.toNat_ofNat', Nat.mod_eq_of_lt h.toRaw_lt, toRaw]
  split <;> omega

end MplsHeader

structure MplsPacket where
  labels : List MplsHeader
  payload : List UInt8
deriving DecidableEq, Repr

namespace MplsPacket

def parse : List UInt8 → Except MplsError MplsPacket
  | a :: b :: c :: d :: rest =>
    let header := MplsHeader.ofRaw (((a.toNat * 256 + b.toNat) * 256 + c.toNat) * 256 + d.toNat)
    if header.bottomOfStack then .ok ⟨[header], rest⟩
    else match parse rest with
      | .ok p => .ok ⟨header :: p.labels, p.payload⟩
      | .error e => .error e
  | short => .error (.headerTooShort short.length)

def serializeLabels : List MplsHeader → List UInt8
  | [] => []
  | [h] => ({ h with bottomOfStack := true } : MplsHeader).serialize
  | h :: rest => ({ h with bottomOfStack := false } : MplsHeader).serialize ++ serializeLabels rest

def serialize (p : MplsPacket) : List UInt8 := serializeLabels p.labels ++ p.payload

theorem ttl_of_parse {data : List UInt8} {p : MplsPacket} (h : parse data = .ok p) :
    ∃ top rest, p.labels = top :: rest ∧ top.ttl = octet data 3 := by
  match data with
  | [] | [_] | [_, _] | [_, _, _] => cases h
  | a :: b :: c :: d :: rest =>
    have httl : (MplsHeader.ofRaw (((a.toNat * 256 + b.toNat) * 256 + c.toNat) * 256 + d.toNat)).ttl = d := by
      have hd := d.toNat_lt
      apply UInt8.toNat_inj.mp
      simp only [MplsHeader.ofRaw, UInt8.toNat_ofNat']
      omega
    rw [parse] at h
    split at h
    · cases h
      exact ⟨_, [], rfl, httl⟩
    · split at h
      · cases h
        exact ⟨_, _, rfl, httl⟩
      · cases h

theorem octet_serialize {top : MplsHeader} {rest : List MplsHeader} {payload : List UInt8} :
    octet (serialize ⟨top :: rest, payload⟩) 3 = top.ttl := by
  have hfour : ∀ (h : MplsHeader) (tail : List UInt8), octet (h.serialize ++ tail) 3 = octet h.serialize 3 :=
    fun _ _ => rfl
  cases rest with
  | nil => exact (hfour _ _).trans (MplsHeader.serialize_last _)
  | cons h rest =>
    rw [serialize, serializeLabels, List.append_assoc, hfour]
    · exact MplsHeader.serialize_last _
    · exact List.cons_ne_nil _ _

end MplsPacket

inductive LfibAction
  | push (label : Nat)
  | swap (label : Nat) (interface : String)
  | pop
deriving DecidableEq, Repr

def LfibTable : Type := Nat → Option LfibAction

namespace LfibTable

def insert (t : LfibTable) (inLabel : Nat) (action : LfibAction) : LfibTable :=
  Function.update t inLabel (some action)

def lookup (t : LfibTable) (inLabel : Nat) : Option LfibAction := t inLabel

def new : LfibTable :=
  ((insert (fun _ => none) 100 (.swap 200 "eth1")).insert 200 (.swap 300 "eth2")).insert 300 .pop

end LfibTable

end SystemsLab.Net
