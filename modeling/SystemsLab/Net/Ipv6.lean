import SystemsLab.Net.Ipv4

/-!
# IPv6 packets and neighbor discovery messages

The source walks the options of a neighbor discovery message with a loop of its own in each validation; here all of
them read the one walk `ndpOptions`.
-/

namespace SystemsLab.Net

/-! ## Addresses -/

@[ext] structure Ipv6Address where
  bits : BitVec 128
deriving DecidableEq, Repr

namespace Ipv6Address

def ofOctets (l : List UInt8) : Ipv6Address := ⟨BitVec.ofNat 128 (leVal l.reverse)⟩

variable (a : Ipv6Address)

def octets : List UInt8 := (leBytes 16 a.bits.toNat).reverse

def byte (i : Nat) : UInt8 := octet a.octets i

def unspecified : Ipv6Address := ⟨0⟩

def linkLocalAllNodes : Ipv6Address := ofOctets [0xff, 0x02, 0, 0, 0, 0, 0, 0, 0, 0, 0, 0, 0, 0, 0, 1]

def linkLocalAllRouters : Ipv6Address := ofOctets [0xff, 0x02, 0, 0, 0, 0, 0, 0, 0, 0, 0, 0, 0, 0, 0, 2]

def mask (prefixLen : Nat) : Ipv6Address :=
  ⟨(a.bits >>> (128 - min prefixLen 128)) <<< (128 - min prefixLen 128)⟩

def isUnspecified : Bool := a = unspecified

def isMulticast : Bool := a.byte 0 = 0xFF

def isLinkLocal : Bool := a.byte 0 = 0xFE ∧ a.byte 1 &&& 0xC0 = 0x80

def solicitedNodeMulticast : Ipv6Address :=
  ofOctets [0xff, 0x02, 0, 0, 0, 0, 0, 0, 0, 0, 0, 0x01, 0xff, a.byte 13, a.byte 14, a.byte 15]

end Ipv6Address

def ipv6At (data : List UInt8) (i : Nat) : Ipv6Address := .ofOctets (slice data i (i + 16))

def ipv6MulticastMac (a : Ipv6Address) : Option MacAddress :=
  if a.isMulticast then some ⟨0x33, 0x33, a.byte 12, a.byte 13, a.byte 14, a.byte 15⟩ else none

def slaacAddress (pfx : Ipv6Address) (prefixLength : Nat) (mac : MacAddress) : Option Ipv6Address :=
  if prefixLength = 64 then
    some (.ofOctets ((pfx.mask 64).octets.take 8 ++
      [mac.a ^^^ 0x02, mac.b, mac.c, 0xff, 0xfe, mac.d, mac.e, mac.f]))
  else none

/-! ## Packets -/

def ipv6HeaderLen : Nat := 40

def nextHeaderIcmpv6 : UInt8 := 58

structure Ipv6Header where
  trafficClass : UInt8
  flowLabel : UInt32
  payloadLength : UInt16
  nextHeader : UInt8
  hopLimit : UInt8
  srcIp : Ipv6Address
  dstIp : Ipv6Address
deriving DecidableEq, Repr

structure Ipv6Packet where
  header : Ipv6Header
  payload : List UInt8
deriving DecidableEq, Repr

inductive Ipv6Error
  | packetTooShort (len : Nat)
  | invalidVersion (version : UInt8)
  | payloadLengthMismatch (headerLen actualLen : Nat)
deriving DecidableEq, Repr

namespace Ipv6Packet

def parse (data : List UInt8) : Except Ipv6Error Ipv6Packet := do
  require (ipv6HeaderLen ≤ data.length) (.packetTooShort data.length)
  let vTcFl := (u32At data 0).toNat
  let version := UInt8.ofNat (vTcFl / 2 ^ 28 % 16)
  require (version = 6) (.invalidVersion version)
  let payloadLength := u16At data 4
  let availablePayload := data.length - ipv6HeaderLen
  require (payloadLength.toNat ≤ availablePayload) (.payloadLengthMismatch payloadLength.toNat availablePayload)
  pure ⟨⟨UInt8.ofNat (vTcFl / 2 ^ 20), UInt32.ofNat (vTcFl % 2 ^ 20), payloadLength, octet data 6, octet data 7,
    ipv6At data 8, ipv6At data 24⟩, slice data ipv6HeaderLen (ipv6HeaderLen + payloadLength.toNat)⟩

/-- The length field is `payload.len() as u16`: it does not hold a longer payload's length. -/
def serialize (srcIp dstIp : Ipv6Address) (nextHeader hopLimit : UInt8) (payload : List UInt8) : List UInt8 :=
  [0x60, 0, 0, 0] ++ u16Bytes (UInt16.ofNat payload.length) ++ [nextHeader, hopLimit] ++ srcIp.octets ++
    dstIp.octets ++ payload

end Ipv6Packet

def computeIpv6TransportChecksum (srcIp dstIp : Ipv6Address) (nextHeader : UInt8) (payload : List UInt8) : UInt16 :=
  computeChecksum (srcIp.octets ++ dstIp.octets ++ u32Bytes (UInt32.ofNat payload.length) ++
    [0, 0, 0, nextHeader] ++ payload)

/-! ## Options of neighbor discovery messages -/

structure NdpOption where
  optionType : UInt8
  /-- The whole option, its type and length octets included. -/
  bytes : List UInt8
deriving DecidableEq, Repr

def NdpOption.units (o : NdpOption) : Nat := (octet o.bytes 1).toNat

def ndpOptions (options : List UInt8) : List NdpOption × Bool :=
  if options.length = 0 then ([], true)
  else
    let len := (octet options 1).toNat * 8
    if options.length < 2 ∨ len = 0 ∨ options.length < len then ([], false)
    else
      let rest := ndpOptions (options.drop len)
      (⟨octet options 0, options.take len⟩ :: rest.1, rest.2)
termination_by options.length
decreasing_by
  rw [List.length_drop]
  omega

def ndpOptSrcLinkLayerAddr : UInt8 := 1

def ndpOptTargetLinkLayerAddr : UInt8 := 2

def ndpOptPrefixInformation : UInt8 := 3

def ndpOptRedirectedHeader : UInt8 := 4

def ndpOptMtu : UInt8 := 5

def ndpOptRouteInformation : UInt8 := 24

def ndpOptionsWellFormed (options : List UInt8) : Bool := (ndpOptions options).2

def ndpOptionsContain (options : List UInt8) (optionType : UInt8) : Bool :=
  (ndpOptions options).1.any (·.optionType = optionType)

def ndpEthernetLlaOptionLengthValid (options : List UInt8) (optionType : UInt8) : Bool :=
  (ndpOptions options).2 && (ndpOptions options).1.all fun o => decide (o.optionType = optionType → o.units = 1)

def ndpEthernetLinkLayerAddress (options : List UInt8) (optionType : UInt8) : Option MacAddress := do
  let o ← (ndpOptions options).1.find? (·.optionType = optionType)
  guard (o.bytes.length = 8)
  return macAt o.bytes 2

/-! ## ICMPv6 -/

inductive RouterPreference
  | low
  | medium
  | high
deriving DecidableEq, Repr

namespace RouterPreference

def rank : RouterPreference → Nat
  | low => 0
  | medium => 1
  | high => 2

def fromRaFlags (flags : UInt8) : RouterPreference :=
  if flags >>> 3 &&& 0x03 = 0x01 then .high else if flags >>> 3 &&& 0x03 = 0x03 then .low else .medium

/-- The reserved preference voids a route option, while it reads as medium in the advertisement itself. -/
def fromRioFlags (flags : UInt8) : Option RouterPreference :=
  if flags >>> 3 &&& 0x03 = 0x00 then some .medium
  else if flags >>> 3 &&& 0x03 = 0x01 then some .high
  else if flags >>> 3 &&& 0x03 = 0x03 then some .low
  else none

end RouterPreference

structure PrefixInformationOption where
  prefixLength : Nat
  onLink : Bool
  autonomous : Bool
  validLifetime : Nat
  preferredLifetime : Nat
  pfx : Ipv6Address
deriving DecidableEq, Repr

def PrefixInformationOption.new (pfx : Ipv6Address) (prefixLength : Nat) (onLink autonomous : Bool)
    (validLifetime preferredLifetime : Nat) : PrefixInformationOption :=
  let prefixLength := min prefixLength 128
  ⟨prefixLength, onLink, autonomous, validLifetime, min preferredLifetime validLifetime, pfx.mask prefixLength⟩

structure RouteInformationOption where
  prefixLength : Nat
  preference : RouterPreference
  routeLifetime : Nat
  pfx : Ipv6Address
deriving DecidableEq, Repr

def RouteInformationOption.new (pfx : Ipv6Address) (prefixLength : Nat) (preference : RouterPreference)
    (routeLifetime : Nat) :
    RouteInformationOption :=
  let prefixLength := min prefixLength 128
  ⟨prefixLength, preference, routeLifetime, pfx.mask prefixLength⟩

structure RouterAdvertisement where
  currentHopLimit : UInt8
  preference : RouterPreference
  routerLifetime : Nat
  reachableTime : Nat
  retransTimer : Nat
  mtu : Option Nat
  prefixes : List PrefixInformationOption
  routes : List RouteInformationOption
deriving DecidableEq, Repr

structure RedirectMessage where
  target : Ipv6Address
  destination : Ipv6Address
  targetLinkLayerAddress : Option MacAddress
  redirectedSource : Option Ipv6Address
  redirectedDestination : Option Ipv6Address
deriving DecidableEq, Repr

structure Icmpv6Packet where
  msgType : UInt8
  code : UInt8
  checksum : UInt16
  payload : List UInt8
deriving DecidableEq, Repr

inductive Icmpv6Error
  | packetTooShort (len : Nat)
  | invalidChecksum (found : UInt16)
deriving DecidableEq, Repr

def icmpv6TypePacketTooBig : UInt8 := 2

def icmpv6TypeEchoRequest : UInt8 := 128

def icmpv6TypeEchoReply : UInt8 := 129

def icmpv6TypeRouterSolicit : UInt8 := 133

def icmpv6TypeRouterAdvert : UInt8 := 134

def icmpv6TypeNeighborSolicit : UInt8 := 135

def icmpv6TypeNeighborAdvert : UInt8 := 136

def icmpv6TypeRedirect : UInt8 := 137

/-- One option of a Router Advertisement; `none` rejects the whole advertisement. -/
def RouterAdvertisement.applyOption (ra : RouterAdvertisement) (o : NdpOption) : Option RouterAdvertisement :=
  let option := o.bytes
  if o.optionType = ndpOptPrefixInformation then
    if option.length ≠ 32 ∨ 128 < (octet option 2).toNat then none
    else
      let validLifetime := (u32At option 4).toNat
      let preferredLifetime := (u32At option 8).toNat
      if validLifetime < preferredLifetime then some ra
      else some { ra with prefixes := ra.prefixes ++
        [.new (ipv6At option 16) (octet option 2).toNat (octet option 3 &&& 0x80 ≠ 0)
          (octet option 3 &&& 0x40 ≠ 0) validLifetime
          preferredLifetime] }
  else if o.optionType = ndpOptMtu then
    if option.length = 8 then some { ra with mtu := some (u32At option 4).toNat } else some ra
  else if o.optionType = ndpOptRouteInformation then
    let prefixLength := (octet option 2).toNat
    let lengthValid := o.units ≤ 3 ∧
      (prefixLength = 0 ∨ (prefixLength ≤ 64 ∧ 2 ≤ o.units) ∨ (prefixLength ≤ 128 ∧ o.units = 3))
    match RouterPreference.fromRioFlags (octet option 3) with
    | some preference =>
      if lengthValid then
        some { ra with routes := ra.routes ++
          [.new (.ofOctets (option.drop 8 ++ List.replicate (24 - option.length) 0)) prefixLength preference
            (u32At option 4).toNat] }
      else some ra
    | none => some ra
  else some ra

def RouterAdvertisement.parse (icmp : Icmpv6Packet) : Option RouterAdvertisement :=
  let payload := icmp.payload
  if icmp.msgType ≠ icmpv6TypeRouterAdvert ∨ icmp.code ≠ 0 ∨ payload.length < 12 ∨
    ¬ (ndpOptions (payload.drop 12)).2 then none
  else (ndpOptions (payload.drop 12)).1.foldlM applyOption
    ⟨octet payload 0, .fromRaFlags (octet payload 1), (u16At payload 2).toNat, (u32At payload 4).toNat,
      (u32At payload 8).toNat, none, [], []⟩

namespace Icmpv6Packet

def parse (srcIp dstIp : Ipv6Address) (data : List UInt8) (checkChecksum : Bool) :
    Except Icmpv6Error Icmpv6Packet := do
  require (4 ≤ data.length) (.packetTooShort data.length)
  require (¬ (checkChecksum ∧ computeIpv6TransportChecksum srcIp dstIp nextHeaderIcmpv6 data ≠ 0))
    (.invalidChecksum (u16At data 2))
  pure ⟨octet data 0, octet data 1, u16At data 2, data.drop 4⟩

variable (p : Icmpv6Packet)

def neighborTarget (msgType option : UInt8) (hopLimit : UInt8) : Option Ipv6Address :=
  if p.msgType ≠ msgType ∨ p.code ≠ 0 ∨ hopLimit ≠ 255 ∨ p.payload.length < 20 then none
  else if (ipv6At p.payload 4).isMulticast ∨ ¬ ndpOptionsWellFormed (p.payload.drop 20) ∨
      ¬ ndpEthernetLlaOptionLengthValid (p.payload.drop 20) option then none
  else some (ipv6At p.payload 4)

def validatedNeighborSolicitationTarget (srcIp dstIp : Ipv6Address) (hopLimit : UInt8) : Option Ipv6Address := do
  let target ← p.neighborTarget icmpv6TypeNeighborSolicit ndpOptSrcLinkLayerAddr hopLimit
  guard (¬ (srcIp.isUnspecified ∧
    (dstIp ≠ target.solicitedNodeMulticast ∨ ndpOptionsContain (p.payload.drop 20) ndpOptSrcLinkLayerAddr)))
  return target

def validatedNeighborAdvertisementTarget (dstIp : Ipv6Address) (hopLimit : UInt8) : Option Ipv6Address := do
  let target ← p.neighborTarget icmpv6TypeNeighborAdvert ndpOptTargetLinkLayerAddr hopLimit
  guard (¬ (dstIp.isMulticast ∧ octet p.payload 0 &&& 0x40 ≠ 0))
  return target

/-- The source and destination quoted, `none` if one is too short or quotes another version. -/
def redirectedHeader (options : List UInt8) : Option (Option (Ipv6Address × Ipv6Address)) :=
  match (ndpOptions options).1.find? (·.optionType = ndpOptRedirectedHeader) with
  | none => some none
  | some o =>
    if o.bytes.length < 48 ∨ octet o.bytes 8 >>> 4 ≠ 6 then none
    else some (some (ipv6At o.bytes 16, ipv6At o.bytes 32))

def validatedRedirect (srcIp dstIp : Ipv6Address) (hopLimit : UInt8) : Option RedirectMessage :=
  if p.msgType ≠ icmpv6TypeRedirect ∨ p.code ≠ 0 ∨ hopLimit ≠ 255 ∨ ¬ srcIp.isLinkLocal ∨ dstIp.isUnspecified ∨
    dstIp.isMulticast ∨
      p.payload.length < 36 then none
  else
    let target := ipv6At p.payload 4
    let destination := ipv6At p.payload 20
    let options := p.payload.drop 36
    if target.isUnspecified ∨ target.isMulticast ∨ destination.isUnspecified ∨ destination.isMulticast ∨
        (target ≠ destination ∧ ¬ target.isLinkLocal) then none
    else if ¬ ndpOptionsWellFormed options ∨
      ¬ ndpEthernetLlaOptionLengthValid options ndpOptTargetLinkLayerAddr then none
    else
      match redirectedHeader options with
      | none => none
      | some quoted =>
        some ⟨target, destination, ndpEthernetLinkLayerAddress options ndpOptTargetLinkLayerAddr, quoted.map (·.1),
          quoted.map (·.2)⟩

def neighborAdvertisementTargetLinkLayerAddress : Option MacAddress :=
  if p.msgType ≠ icmpv6TypeNeighborAdvert ∨ p.payload.length < 20 then none
  else ndpEthernetLinkLayerAddress (p.payload.drop 20) ndpOptTargetLinkLayerAddr

def ndpSourceLinkLayerAddress : Option MacAddress :=
  if p.msgType = icmpv6TypeNeighborSolicit ∧ 20 ≤ p.payload.length then
    ndpEthernetLinkLayerAddress (p.payload.drop 20) ndpOptSrcLinkLayerAddr
  else if p.msgType = icmpv6TypeRouterSolicit ∧ 4 ≤ p.payload.length then
    ndpEthernetLinkLayerAddress (p.payload.drop 4) ndpOptSrcLinkLayerAddr
  else if p.msgType = icmpv6TypeRouterAdvert ∧ 12 ≤ p.payload.length then
    ndpEthernetLinkLayerAddress (p.payload.drop 12) ndpOptSrcLinkLayerAddr
  else none

def validatedRouterAdvertisement (srcIp : Ipv6Address) (hopLimit : UInt8) : Option RouterAdvertisement :=
  if p.msgType ≠ icmpv6TypeRouterAdvert ∨ p.code ≠ 0 ∨ hopLimit ≠ 255 ∨ ¬ srcIp.isLinkLocal ∨
    p.payload.length < 12 ∨
      ¬ ndpOptionsWellFormed (p.payload.drop 12) ∨ ¬ ndpEthernetLlaOptionLengthValid
        (p.payload.drop 12) ndpOptSrcLinkLayerAddr then
    none
  else RouterAdvertisement.parse p

/-! ### Builders -/

def serialize (srcIp dstIp : Ipv6Address) (msgType code : UInt8) (body : List UInt8) : List UInt8 :=
  let buf := [msgType, code, 0, 0] ++ body
  copyFromSlice buf 2 (u16Bytes (computeIpv6TransportChecksum srcIp dstIp nextHeaderIcmpv6 buf))

def buildEchoRequest (srcIp dstIp : Ipv6Address) (id seq : UInt16) (payload : List UInt8) : List UInt8 :=
  serialize srcIp dstIp icmpv6TypeEchoRequest 0 (u16Bytes id ++ u16Bytes seq ++ payload)

def buildEchoReply (srcIp dstIp : Ipv6Address) (id seq : UInt16) (payload : List UInt8) : List UInt8 :=
  serialize srcIp dstIp icmpv6TypeEchoReply 0 (u16Bytes id ++ u16Bytes seq ++ payload)

def linkLayerOption (optionType : UInt8) (mac : MacAddress) : List UInt8 := [optionType, 1] ++ mac.octets

def buildRouterSolicitation (srcIp dstIp : Ipv6Address) (sourceMac : Option MacAddress) : List UInt8 :=
  let slla :=
    match sourceMac with
    | some mac => if srcIp.isUnspecified then [] else linkLayerOption ndpOptSrcLinkLayerAddr mac
    | none => []
  serialize srcIp dstIp icmpv6TypeRouterSolicit 0 ([0, 0, 0, 0] ++ slla)

def buildNeighborSolicitation (srcIp dstIp targetIp : Ipv6Address) (senderMac : MacAddress) : List UInt8 :=
  serialize srcIp dstIp icmpv6TypeNeighborSolicit 0
    ([0, 0, 0, 0] ++ targetIp.octets ++ linkLayerOption ndpOptSrcLinkLayerAddr senderMac)

def buildDadNeighborSolicitation (dstIp targetIp : Ipv6Address) : List UInt8 :=
  serialize .unspecified dstIp icmpv6TypeNeighborSolicit 0 ([0, 0, 0, 0] ++ targetIp.octets)

def buildNeighborAdvertisement (srcIp dstIp targetIp : Ipv6Address) (targetMac : MacAddress)
    (isRouter solicited override : Bool) :
    List UInt8 :=
  let flags : UInt8 := (if isRouter then 0x80 else 0) ||| (if solicited then 0x40 else 0) |||
    (if override then 0x20 else 0)
  serialize srcIp dstIp icmpv6TypeNeighborAdvert 0
    ([flags, 0, 0, 0] ++ targetIp.octets ++ linkLayerOption ndpOptTargetLinkLayerAddr targetMac)

end Icmpv6Packet

end SystemsLab.Net
