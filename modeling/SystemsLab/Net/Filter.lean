import SystemsLab.Net.Payloads

/-!
# The packet filter and address translation

`Firewall.evaluate` gives the action of the first rule that matches. `NatTable` rewrites the source of what leaves,
and the destination of what comes back or is forwarded by port.
-/

namespace SystemsLab.Net

/-! ## Rules -/

inductive FirewallChain
  | input
  | output
  | forward
deriving DecidableEq, Repr

inductive FirewallAction
  | accept
  | drop
  | reject
deriving DecidableEq, Repr

structure IpCidr where
  ip : Ipv4Address
  prefixLen : Nat
deriving DecidableEq, Repr

def IpCidr.matchesIp (c : IpCidr) (target : Ipv4Address) : Bool :=
  if c.prefixLen = 0 then true else
    let mask : BitVec 32 := if 32 ≤ c.prefixLen then BitVec.allOnes 32 else BitVec.allOnes 32 <<< (32 - c.prefixLen)
    c.ip.toU32 &&& mask = target.toU32 &&& mask

structure FirewallRule where
  srcCidr : Option IpCidr := none
  dstCidr : Option IpCidr := none
  protocol : Option UInt8 := none
  srcPortRange : Option (UInt16 × UInt16) := none
  dstPortRange : Option (UInt16 × UInt16) := none
  action : FirewallAction := .accept
deriving DecidableEq, Repr

def inPortRange (range : Option (UInt16 × UInt16)) (port : UInt16) : Bool :=
  range.all fun r => r.1 ≤ port ∧ port ≤ r.2

def FirewallRule.matchesPacket (r : FirewallRule) (p : Ipv4Packet) : Bool :=
  let proto := p.header.protocol.toU8
  r.srcCidr.all (·.matchesIp p.header.srcIp) && r.dstCidr.all (·.matchesIp p.header.dstIp) &&
    r.protocol.all (proto = ·) &&
    (if r.srcPortRange.isSome ∨ r.dstPortRange.isSome then
      decide (proto = ipProtoTcp ∨ proto = ipProtoUdp) && decide (4 ≤ p.payload.length) &&
        inPortRange r.srcPortRange (u16At p.payload 0) && inPortRange r.dstPortRange (u16At p.payload 2)
    else true)

structure Firewall where
  inputRules : List FirewallRule := []
  outputRules : List FirewallRule := []
  forwardRules : List FirewallRule := []
  defaultInputPolicy : FirewallAction := .accept
  defaultOutputPolicy : FirewallAction := .accept
  defaultForwardPolicy : FirewallAction := .accept
deriving DecidableEq, Repr

namespace Firewall

def rules (fw : Firewall) : FirewallChain → List FirewallRule
  | .input => fw.inputRules
  | .output => fw.outputRules
  | .forward => fw.forwardRules

def defaultPolicy (fw : Firewall) : FirewallChain → FirewallAction
  | .input => fw.defaultInputPolicy
  | .output => fw.defaultOutputPolicy
  | .forward => fw.defaultForwardPolicy

def evaluate (fw : Firewall) (chain : FirewallChain) (p : Ipv4Packet) : FirewallAction :=
  match (fw.rules chain).find? (·.matchesPacket p) with
  | some rule => rule.action
  | none => fw.defaultPolicy chain

end Firewall

/-! ## Translation -/

structure SocketAddrTuple where
  ip : Ipv4Address
  port : UInt16
deriving DecidableEq, Repr

structure NatSessionKey where
  src : SocketAddrTuple
  dst : SocketAddrTuple
  protocol : UInt8
deriving DecidableEq, Repr

structure NatTable where
  publicIp : Ipv4Address
  nextAllocPort : UInt16
  outboundSessions : NatSessionKey → Option UInt16
  inboundLookup : UInt16 × Ipv4Address × UInt16 × UInt8 → Option SocketAddrTuple
  portForwards : UInt16 × UInt8 → Option SocketAddrTuple

def rewriteSegmentChecksum (packet : List UInt8) (ihl field : Nat) (srcIp dstIp : Ipv4Address) (protocol : UInt8) :
    List UInt8 :=
  let cleared := copyFromSlice packet (ihl + field) [0, 0]
  copyFromSlice cleared (ihl + field)
    (u16Bytes (computeIpv4TransportChecksum srcIp dstIp protocol (cleared.drop ihl)))

def rewriteTransportChecksum (packet : List UInt8) (ihl : Nat) (srcIp dstIp : Ipv4Address) (protocol : UInt8) :
    List UInt8 :=
  if protocol = ipProtoTcp then
    if ihl + 20 ≤ packet.length then rewriteSegmentChecksum packet ihl 16 srcIp dstIp 6 else packet
  else if protocol = ipProtoUdp ∧ ihl + 8 ≤ packet.length then rewriteSegmentChecksum packet ihl 6 srcIp dstIp 17
  else packet

namespace NatTable

def new (publicIp : Ipv4Address) : NatTable := ⟨publicIp, 40000, fun _ => none, fun _ => none, fun _ => none⟩

def addPortForward (n : NatTable) (externalPort : UInt16) (internalIp : Ipv4Address) (internalPort : UInt16)
    (protocol : UInt8) : NatTable :=
  { n with
    portForwards := Function.update n.portForwards (externalPort, protocol) (some ⟨internalIp, internalPort⟩) }

def allocatePort (n : NatTable) : NatTable × UInt16 :=
  ({ n with nextAllocPort := if 65000 ≤ n.nextAllocPort then 40000 else n.nextAllocPort + 1 }, n.nextAllocPort)

def externalPort (n : NatTable) (session : NatSessionKey) : NatTable × UInt16 :=
  match n.outboundSessions session with
  | some p => (n, p)
  | none =>
    let (n, p) := n.allocatePort
    let outboundSessions := Function.update n.outboundSessions session (some p)
    let inboundLookup := Function.update n.inboundLookup (p, session.dst.ip, session.dst.port, session.protocol)
      (some session.src)
    ({ n with outboundSessions, inboundLookup }, p)

/-- The table and packet after a translation; `none` where the source returns `false`, having edited nothing. -/
def translateOutbound (n : NatTable) (packet : List UInt8) : Option (NatTable × List UInt8) :=
  let ihl := (octet packet 0 &&& 0x0F).toNat * 4
  let protocol := octet packet 9
  let srcIp := ipv4At packet 12
  let dstIp := ipv4At packet 16
  if packet.length < ipv4MinHeaderLen ∨ packet.length < ihl then none
  else if protocol = ipProtoTcp ∨ protocol = ipProtoUdp then
    if packet.length < ihl + 4 then none else
      let session := n.externalPort ⟨⟨srcIp, u16At packet ihl⟩, ⟨dstIp, u16At packet (ihl + 2)⟩, protocol⟩
      let packet := copyFromSlice packet 12 n.publicIp.octets
      let packet := copyFromSlice packet ihl (u16Bytes session.2)
      let packet := rewriteHeaderChecksum packet ihl
      some (session.1, rewriteTransportChecksum packet ihl n.publicIp dstIp protocol)
  else if protocol = ipProtoIcmp then
    some (n, rewriteHeaderChecksum (copyFromSlice packet 12 n.publicIp.octets) ihl)
  else none

def translateInbound (n : NatTable) (packet : List UInt8) : Option (List UInt8) :=
  let ihl := (octet packet 0 &&& 0x0F).toNat * 4
  let protocol := octet packet 9
  let srcIp := ipv4At packet 12
  if packet.length < ipv4MinHeaderLen ∨ packet.length < ihl then none
  else if protocol = ipProtoTcp ∨ protocol = ipProtoUdp then
    if packet.length < ihl + 4 then none else
      let srcPort := u16At packet ihl
      let dstPort := u16At packet (ihl + 2)
      -- a session that started inside comes before a port forward
      match (n.inboundLookup (dstPort, srcIp, srcPort, protocol)).or (n.portForwards (dstPort, protocol)) with
      | none => none
      | some target =>
        let packet := copyFromSlice packet 16 target.ip.octets
        let packet := copyFromSlice packet (ihl + 2) (u16Bytes target.port)
        let packet := rewriteHeaderChecksum packet ihl
        some (rewriteTransportChecksum packet ihl srcIp target.ip protocol)
  else none

end NatTable

/-! ## The octets a translation keeps -/

def SameHead (packet packet' : List UInt8) : Prop :=
  packet'.length = packet.length ∧ ∀ j < 10, octet packet' j = octet packet j

theorem SameHead.refl (packet : List UInt8) : SameHead packet packet := ⟨rfl, fun _ _ => rfl⟩

theorem SameHead.trans {p q r : List UInt8} (h : SameHead p q) (h' : SameHead q r) : SameHead p r :=
  ⟨h'.1.trans h.1, fun j hj => (h'.2 j hj).trans (h.2 j hj)⟩

theorem SameHead.copyFromSlice {packet packet' : List UInt8} (h : SameHead packet packet') {i : Nat}
    {bytes : List UInt8}
    (hi : 10 ≤ i) (hlen : i + bytes.length ≤ packet.length) : SameHead packet (copyFromSlice packet' i bytes) := by
  have hlen' : i + bytes.length ≤ packet'.length := h.1 ▸ hlen
  exact h.trans ⟨length_copyFromSlice hlen', fun j hj => octet_copyFromSlice hlen' (.inl (by omega))⟩

theorem SameHead.rewriteHeaderChecksum {packet packet' : List UInt8} (h : SameHead packet packet')
    (hlen : 20 ≤ packet.length)
    (headerLen : Nat) : SameHead packet (rewriteHeaderChecksum packet' headerLen) := by
  have hlen' : 12 ≤ packet'.length := by rw [h.1]; omega
  exact h.trans ⟨length_rewriteHeaderChecksum hlen' _, fun j hj => octet_rewriteHeaderChecksum hlen' _ (.inl hj)⟩

theorem SameHead.rewriteTransportChecksum {packet packet' : List UInt8} (h : SameHead packet packet') {ihl : Nat}
    (hihl : 20 ≤ ihl) (srcIp dstIp : Ipv4Address) (protocol : UInt8) :
    SameHead packet (rewriteTransportChecksum packet' ihl srcIp dstIp protocol) := by
  have hsegment : ∀ field protocol, ihl + field + 2 ≤ packet'.length →
      SameHead packet (rewriteSegmentChecksum packet' ihl field srcIp dstIp protocol) := fun field protocol hlen =>
    (h.copyFromSlice (by omega) (h.1 ▸ hlen)).copyFromSlice (by omega) (h.1 ▸ hlen)
  rw [Net.rewriteTransportChecksum]
  split
  · split
    · exact hsegment 16 6 (by omega)
    · exact h
  · split
    · rename_i hudp
      exact hsegment 6 17 (by omega)
    · exact h

namespace NatTable
variable {n n' : NatTable} {packet packet' : List UInt8}

theorem translateOutbound_sameHead (hihl : 5 ≤ (octet packet 0 &&& 0x0F).toNat)
    (h : n.translateOutbound packet = some (n', packet')) : SameHead packet packet' := by
  rw [translateOutbound] at h
  split at h
  · cases h
  rename_i hlen
  rw [not_or, Nat.not_lt, Nat.not_lt, ipv4MinHeaderLen] at hlen
  have haddress : SameHead packet (copyFromSlice packet 12 n.publicIp.octets) :=
    (SameHead.refl packet).copyFromSlice (by omega) (by rw [Ipv4Address.length_octets]; omega)
  split at h
  · split at h
    · cases h
    cases h
    exact ((haddress.copyFromSlice (by omega) (by rw [length_u16Bytes]; omega)).rewriteHeaderChecksum
      hlen.1 _).rewriteTransportChecksum (by omega) _ _ _
  · split at h <;> cases h
    exact haddress.rewriteHeaderChecksum hlen.1 _

theorem translateInbound_sameHead (hihl : 5 ≤ (octet packet 0 &&& 0x0F).toNat)
    (h : n.translateInbound packet = some packet') : SameHead packet packet' := by
  rw [translateInbound] at h
  split at h
  · cases h
  rename_i hlen
  rw [not_or, Nat.not_lt, Nat.not_lt, ipv4MinHeaderLen] at hlen
  split at h
  · split at h
    · cases h
    dsimp only at h
    split at h
    · cases h
    rename_i target _
    cases h
    have haddress : SameHead packet (copyFromSlice packet 16 target.ip.octets) :=
      (SameHead.refl packet).copyFromSlice (by omega) (by rw [Ipv4Address.length_octets]; omega)
    exact ((haddress.copyFromSlice (by omega) (by rw [length_u16Bytes]; omega)).rewriteHeaderChecksum
      hlen.1 _).rewriteTransportChecksum (by omega) _ _ _
  · cases h

end NatTable

end SystemsLab.Net
