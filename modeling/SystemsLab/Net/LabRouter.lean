import SystemsLab.Net.Filter
import SystemsLab.Net.Rip
import SystemsLab.Net.Ospf

/-!
# The router of the lab

`LabRouter.processIncomingFrame` for IPv4, ARP and MPLS frames. The TCP sockets, the BGP speaker, the EVPN endpoint
and the IPv6 plane are given by any `ControlPlane`.

Frames and queued packets also carry where they come from (`Origin`), and a step lists what it forwards (`Hop`) and
delivers (`Delivery`). No branch reads these.
-/

namespace SystemsLab.Net

open Function

structure RouterInterface where
  name : String
  mac : MacAddress
  ip : Ipv4Address
  subnetMask : Nat
  linkName : String
deriving DecidableEq, Repr

/-! ## Where a frame comes from -/

inductive Datagram
  | ipv4 (bytes : List UInt8)
  | mpls (bytes : List UInt8)
deriving DecidableEq, Repr

inductive ForwardKind
  | transit
  | dnat
  | push
  | swap
  | pop
deriving DecidableEq, Repr

structure Hop where
  kind : ForwardKind
  received : Datagram
  sent : Datagram
deriving DecidableEq, Repr

inductive Origin
  /-- ARP and IPv6 -/
  | link
  /-- A tenant's frame, taken over as it is -/
  | bridged
  /-- An IPv4 packet built here -/
  | originated (packet : List UInt8)
  | forwarded (hop : Hop)
  /-- Queued before the run that is looked at -/
  | earlier (packet : List UInt8)
deriving DecidableEq, Repr

structure Emission where
  linkName : String
  frame : List UInt8
  origin : Origin
deriving DecidableEq, Repr

structure Queued where
  packet : List UInt8
  origin : Origin
deriving DecidableEq, Repr

inductive LocalProtocol
  | rip
  | vxlan
  | tcp
  | udp
  | icmp
deriving DecidableEq, Repr

structure Delivery where
  protocol : LocalProtocol
  packet : List UInt8
deriving DecidableEq, Repr

structure Effects where
  out : List Emission := []
  hops : List Hop := []
  delivered : List Delivery := []
deriving DecidableEq, Repr

/-! ## The control plane -/

inductive OverlayDecision
  | localPort (accessInterface : String)
  | unicast (vni : UInt32) (vtep : Ipv4Address)
  | flood (vni : UInt32) (vteps : List Ipv4Address)
  | drop
deriving DecidableEq, Repr

structure Ipv6Transmission where
  linkName : String
  dstMac : MacAddress
  srcMac : MacAddress
  packet : List UInt8

structure SocketTransmission where
  localIp : Ipv4Address
  remoteIp : Ipv4Address
  protocol : UInt8
  payload : List UInt8

structure ControlPlane (σ : Type) where
  hasSockets : σ → Bool
  /-- Responses to a TCP segment; none to one that does not parse -/
  dispatchTcpSegment : σ → Ipv4Address → Ipv4Address → List UInt8 → Nat → σ × List (List UInt8)
  vniForAccess : σ → String → Option UInt32
  learnLocal : σ → String → MacAddress → Option Ipv4Address → σ
  forward : σ → String → MacAddress → OverlayDecision
  vtepSourceIp : σ → Option Ipv4Address
  hasVni : σ → UInt32 → Bool
  accessPortsFor : σ → UInt32 → MacAddress → List String
  receiveIpv6 : σ → List RouterInterface → RouterInterface → EthernetFrame → Nat → σ × List Ipv6Transmission

def ControlPlane.idle : ControlPlane Unit where
  hasSockets _ := false
  dispatchTcpSegment _ _ _ _ _ := ((), [])
  vniForAccess _ _ := none
  learnLocal _ _ _ _ := ()
  forward _ _ _ := .drop
  vtepSourceIp _ := none
  hasVni _ _ := false
  accessPortsFor _ _ _ := []
  receiveIpv6 _ _ _ _ _ := ((), [])

structure LabRouter (σ : Type) where
  interfaces : List RouterInterface
  routingTable : RoutingTable
  arpTables : String → ArpTable
  pendingTransitPackets : String × Ipv4Address → List Queued
  natTable : Option NatTable
  natLanIface : Option String
  natWanIface : Option String
  ripEngine : Option RipEngine
  firewall : Option Firewall
  vxlanTunnels : String → Option (UInt32 × Ipv4Address × String)
  vxlanVniToAccess : UInt32 → Option String
  ospfLsdb : Option OspfLsdb
  lfib : Option LfibTable
  mplsPushRoutes : Ipv4Address → Option (Nat × String)
  ipIdCounter : UInt16
  currentTimeMs : Nat
  control : σ

namespace LabRouter
variable {σ : Type} (r : LabRouter σ) (cp : ControlPlane σ)

def new (control : σ) : LabRouter σ where
  interfaces := []
  routingTable := .new
  arpTables := fun _ => .new
  pendingTransitPackets := fun _ => []
  natTable := none
  natLanIface := none
  natWanIface := none
  ripEngine := none
  firewall := none
  vxlanTunnels := fun _ => none
  vxlanVniToAccess := fun _ => none
  ospfLsdb := none
  lfib := none
  mplsPushRoutes := fun _ => none
  ipIdCounter := 100
  currentTimeMs := 0
  control

/-! ## Configuration -/

def addInterface (name : String) (mac : MacAddress) (ip : Ipv4Address) (subnetMask : Nat) (linkName : String) :
    LabRouter σ :=
  { r with
    arpTables := update r.arpTables name .new
    routingTable := r.routingTable.addRouteFrom (ip.mask subnetMask) subnetMask none name .connected
    interfaces := r.interfaces ++ [⟨name, mac, ip, subnetMask, linkName⟩] }

def enableNat (lanIface wanIface : String) (publicIp : Ipv4Address) : LabRouter σ :=
  { r with natTable := some (.new publicIp), natLanIface := some lanIface, natWanIface := some wanIface }

def addPortForward (r : LabRouter σ) (extPort : UInt16) (intIp : Ipv4Address) (intPort : UInt16) (proto : UInt8) :
    LabRouter σ :=
  { r with natTable := r.natTable.map (·.addPortForward extPort intIp intPort proto) }

def addMplsSwapRoute (inLabel outLabel : Nat) (egressIface : String) : LabRouter σ :=
  { r with lfib := some ((r.lfib.getD .new).insert inLabel (.swap outLabel egressIface)) }

def enableRip : LabRouter σ :=
  let rip := r.interfaces.foldl (fun rip i => rip.addLocalNetwork (i.ip.mask i.subnetMask) i.subnetMask i.name)
    RipEngine.new
  { r with routingTable := rip.routes, ripEngine := some rip }

/-! ## Sending -/

def interfaceNamed (name : String) : Option RouterInterface := r.interfaces.find? (·.name = name)

def routeTo (dst : Ipv4Address) : Option (RouterInterface × Ipv4Address) := do
  let route ← r.routingTable.lookup dst
  let egress ← r.interfaceNamed route.interface
  pure (egress, route.nextHop dst)

def sendVia (egress : RouterInterface) (nextHop : Ipv4Address) (packet : List UInt8) (origin : Origin) :
    LabRouter σ × List Emission :=
  match (r.arpTables egress.name).lookup nextHop with
  | some dstMac => (r, [⟨egress.linkName, EthernetFrame.serialize dstMac egress.mac ethertypeIpv4 packet, origin⟩])
  | none =>
    let key := (egress.name, nextHop)
    let request := ArpPacket.buildRequest egress.mac egress.ip nextHop
    ({ r with
        pendingTransitPackets := update r.pendingTransitPackets key
          (r.pendingTransitPackets key ++ [⟨packet, origin⟩]) },
      [⟨egress.linkName, EthernetFrame.serialize .broadcast egress.mac ethertypeArp request.serialize, .link⟩])

def nextIpId : LabRouter σ × UInt16 := ({ r with ipIdCounter := r.ipIdCounter + 1 }, r.ipIdCounter)

def emitFromLocalStack (srcIp dstIp : Ipv4Address) (protocol : UInt8) (payload : List UInt8) :
    LabRouter σ × List Emission :=
  match r.routeTo dstIp with
  | none => (r, [])
  | some (egress, nextHop) =>
    let packet := Ipv4Packet.serialize srcIp dstIp protocol r.nextIpId.2 64 payload
    r.nextIpId.1.sendVia egress nextHop packet (.originated packet)

def emitAll (r : LabRouter σ) : List SocketTransmission → LabRouter σ × List Emission
  | [] => (r, [])
  | tx :: txs =>
    let first := r.emitFromLocalStack tx.localIp tx.remoteIp tx.protocol tx.payload
    let rest := first.1.emitAll txs
    (rest.1, first.2 ++ rest.2)

def ipv6Emissions (txs : List Ipv6Transmission) : List Emission :=
  txs.map fun tx => ⟨tx.linkName, EthernetFrame.serialize tx.dstMac tx.srcMac ethertypeIpv6 tx.packet, .link⟩

/-! ## Tunnels -/

def sendVxlan (sourceIp : Ipv4Address) (vni : UInt32) (remoteVtep : Ipv4Address) (innerFrame : List UInt8) :
    LabRouter σ × List Emission :=
  match VxlanPacket.encapsulate vni innerFrame with
  | .error _ => (r, [])
  | .ok vxlanBytes =>
    let udpBytes := UdpDatagram.serialize sourceIp remoteVtep vxlanUdpPort vxlanUdpPort vxlanBytes
    let packet := Ipv4Packet.serialize sourceIp remoteVtep ipProtoUdp r.nextIpId.2 64 udpBytes
    match r.routeTo remoteVtep with
    | none => (r.nextIpId.1, [])
    | some (egress, nextHop) => r.nextIpId.1.sendVia egress nextHop packet (.originated packet)

def encapsulateVxlan (r : LabRouter σ) (vni : UInt32) (remoteVtep : Ipv4Address) (innerFrame : List UInt8) :
    LabRouter σ × List Emission :=
  match cp.vtepSourceIp r.control with
  | none => (r, [])
  | some sourceIp => r.sendVxlan sourceIp vni remoteVtep innerFrame

def floodVxlan (cp : ControlPlane σ) (vni : UInt32) (innerFrame : List UInt8) (r : LabRouter σ) :
    List Ipv4Address → LabRouter σ × List Emission
  | [] => (r, [])
  | remote :: remotes =>
    let first := r.encapsulateVxlan cp vni remote innerFrame
    let rest := floodVxlan cp vni innerFrame first.1 remotes
    (rest.1, first.2 ++ rest.2)

def tenantSourceIp (eth : EthernetFrame) : Option Ipv4Address :=
  match eth.ethertype with
  | .ipv4 => (Ipv4Packet.parse eth.payload false).toOption.map (·.header.srcIp)
  | .arp => (ArpPacket.parse eth.payload).toOption.map (·.senderIp)
  | _ => none

def evpnAccessIngress (r : LabRouter σ) (ingress : RouterInterface) (rawFrame : List UInt8) :
    LabRouter σ × List Emission :=
  match EthernetFrame.parse rawFrame with
  | .error _ => (r, [])
  | .ok eth =>
    let r := { r with control := cp.learnLocal r.control ingress.name eth.srcMac (tenantSourceIp eth) }
    match cp.forward r.control ingress.name eth.dstMac with
    | .localPort accessInterface =>
      match r.interfaceNamed accessInterface with
      | some iface => (r, [⟨iface.linkName, rawFrame, .bridged⟩])
      | none => (r, [])
    | .unicast vni vtep => r.encapsulateVxlan cp vni vtep rawFrame
    | .flood vni vteps => floodVxlan cp vni rawFrame r vteps
    | .drop => (r, [])

def staticTunnelIngress (tunnel : UInt32 × Ipv4Address × String) (rawFrame : List UInt8) :
    LabRouter σ × List Emission :=
  match r.interfaceNamed tunnel.2.2 with
  | none => (r, [])
  | some underlay => r.sendVxlan underlay.ip tunnel.1 tunnel.2.1 rawFrame

/-! ## ARP and MPLS -/

def learnArp (interface : String) (ip : Ipv4Address) (mac : MacAddress) : LabRouter σ :=
  { r with arpTables := update r.arpTables interface ((r.arpTables interface).insert ip mac) }

def receiveArp (ingress : RouterInterface) (ingressLink : String) (arp : ArpPacket) : LabRouter σ × List Emission :=
  let key := (ingress.name, arp.senderIp)
  let queued := r.pendingTransitPackets key
  let released := queued.map fun q =>
    Emission.mk ingressLink (EthernetFrame.serialize arp.senderMac ingress.mac ethertypeIpv4 q.packet) q.origin
  let reply := ArpPacket.buildReply ingress.mac ingress.ip arp.senderMac arp.senderIp
  let replies := if arp.opcode = .request ∧ arp.targetIp = ingress.ip then
    [⟨ingressLink, EthernetFrame.serialize arp.senderMac ingress.mac ethertypeArp reply.serialize, .link⟩] else []
  ({ r.learnArp ingress.name arp.senderIp arp.senderMac with
      pendingTransitPackets := update r.pendingTransitPackets key [] },
    released ++ replies)

def swapLabel (label : Nat) (top : MplsHeader) : MplsHeader :=
  { top with label, ttl := if 1 < top.ttl then top.ttl - 1 else top.ttl }

def receiveMpls (payload : List UInt8) : LabRouter σ × Effects :=
  match MplsPacket.parse payload, r.lfib with
  | .ok ⟨top :: labels, inner⟩, some lfib =>
    match lfib.lookup top.label with
    | some (.swap outLabel egressName) =>
      let bytes := (MplsPacket.mk (swapLabel outLabel top :: labels) inner).serialize
      match r.interfaceNamed egressName with
      | some egress =>
        let hop : Hop := ⟨.swap, .mpls payload, .mpls bytes⟩
        (r, {
          out := [⟨egress.linkName, EthernetFrame.serialize .broadcast egress.mac ethertypeMpls bytes,
            .forwarded hop⟩]
          hops := [hop] })
      | none => (r, {})
    | some .pop =>
      match (if top.bottomOfStack then (Ipv4Packet.parse inner false).toOption else none) with
      | some innerIp =>
        match r.routeTo innerIp.header.dstIp with
        | some (egress, nextHop) =>
          let hop : Hop := ⟨.pop, .mpls payload, .ipv4 inner⟩
          let sent := r.sendVia egress nextHop inner (.forwarded hop)
          (sent.1, { out := sent.2, hops := [hop] })
        | none => (r, {})
      | none => (r, {})
    | _ => (r, {})
  | _, _ => (r, {})

/-! ## IPv4 -/

def isForRouter (dst : Ipv4Address) : Bool := r.interfaces.any (·.ip = dst)

def isIpv4DirectedBroadcast (address : Ipv4Address) : Bool :=
  r.interfaces.any fun iface =>
    let prefixLen := min iface.subnetMask 32
    if 31 ≤ prefixLen then false else
      let mask : BitVec 32 := if prefixLen = 0 then 0 else BitVec.allOnes 32 <<< (32 - prefixLen)
      address.toU32 = (iface.ip.toU32 &&& mask) ||| ~~~mask

def shouldSendIcmpv4Error (invoking : Ipv4Packet) (linkDestination : MacAddress) : Bool :=
  let src := invoking.header.srcIp
  let dst := invoking.header.dstIp
  if src.a = 0 ∨ src.isLoopback ∨ src.isMulticast ∨ src.isBroadcast ∨ 240 ≤ src.a ∨
    r.isIpv4DirectedBroadcast src then false
  else if dst.isBroadcast ∨ dst.isMulticast ∨ r.isIpv4DirectedBroadcast dst ∨ ¬ linkDestination.isUnicast ∨
      invoking.header.fragmentOffset ≠ 0 then false
  else if invoking.header.protocol = .icmp ∧ invoking.payload.head?.any
    (· ∈ ([3, 4, 5, 11, 12] : List UInt8)) then false
  else true

def sendIcmp (ingress : RouterInterface) (ingressLink : String) (eth : EthernetFrame) (srcIp dstIp : Ipv4Address)
    (message : List UInt8) : LabRouter σ × Effects :=
  let packet := Ipv4Packet.serialize srcIp dstIp ipProtoIcmp r.nextIpId.2 64 message
  (r.nextIpId.1, {
    out := [⟨ingressLink, EthernetFrame.serialize eth.srcMac ingress.mac ethertypeIpv4 packet,
      .originated packet⟩] })

def dnatTarget (ingress : RouterInterface) (payload : List UInt8) :
    Option (List UInt8 × RouterInterface × Ipv4Address) := do
  let nat ← r.natTable
  guard (r.natWanIface = some ingress.name)
  let buf ← nat.translateInbound payload
  let trans ← (Ipv4Packet.parse buf true).toOption
  let way ← r.routeTo trans.header.dstIp
  pure (buf, way)

theorem dnatTarget_eq_some {r : LabRouter σ} {ingress : RouterInterface} {payload buf : List UInt8}
    {way : RouterInterface × Ipv4Address} (h : r.dnatTarget ingress payload = some (buf, way)) :
    ∃ nat trans, r.natTable = some nat ∧ nat.translateInbound payload = some buf ∧
      Ipv4Packet.parse buf true = .ok trans := by
  simp only [dnatTarget, Option.bind_eq_bind, Option.bind_eq_some_iff] at h
  obtain ⟨nat, hnat, -, -, buf', hbuf, trans, htrans, way', -, hpure⟩ := h
  cases hpure
  cases hparse : Ipv4Packet.parse buf true with
  | ok q => exact ⟨nat, q, hnat, hbuf, rfl⟩
  | error e => rw [hparse] at htrans; cases htrans

def receiveLocal (r : LabRouter σ) (ingress : RouterInterface) (ingressLink : String) (eth : EthernetFrame)
    (p : Ipv4Packet) : LabRouter σ × Effects :=
  match r.dnatTarget ingress eth.payload with
  | some (buf, egress, nextHop) =>
    let hop : Hop := ⟨.dnat, .ipv4 eth.payload, .ipv4 buf⟩
    let sent := r.sendVia egress nextHop buf (.forwarded hop)
    (sent.1, { out := sent.2, hops := [hop] })
  | none =>
    if p.header.protocol = .tcp ∧ cp.hasSockets r.control then
      let dispatched := cp.dispatchTcpSegment r.control p.header.srcIp p.header.dstIp p.payload r.currentTimeMs
      let sent := { r with control := dispatched.1 }.emitAll
        (dispatched.2.map fun response => ⟨p.header.dstIp, p.header.srcIp, ipProtoTcp, response⟩)
      (sent.1, { out := sent.2, delivered := [⟨.tcp, eth.payload⟩] })
    else if p.header.protocol = .icmp then
      match IcmpPacket.parse p.payload true with
      | .ok icmp =>
        if icmp.icmpType = .echoRequest then
          let sent := r.sendIcmp ingress ingressLink eth p.header.dstIp p.header.srcIp icmp.buildEchoReply
          (sent.1, { sent.2 with delivered := [⟨.icmp, eth.payload⟩] })
        else (r, { delivered := [⟨.icmp, eth.payload⟩] })
      | .error _ => (r, { delivered := [⟨.icmp, eth.payload⟩] })
    else (r, {})

/-- The packet `decrement_ttl_in_place` leaves, translated if it goes from the private to the public side. -/
def translateTransit (ingress egress : RouterInterface) (packet : List UInt8) : LabRouter σ × List UInt8 :=
  match r.natTable with
  | some nat =>
    if r.natLanIface = some ingress.name ∧ r.natWanIface = some egress.name then
      match nat.translateOutbound packet with
      | some (nat, packet) => ({ r with natTable := some nat }, packet)
      | none => (r, packet)
    else (r, packet)
  | none => (r, packet)

def forwardTransit (ingress : RouterInterface) (ingressLink : String) (eth : EthernetFrame) (p : Ipv4Packet) :
    LabRouter σ × Effects :=
  if p.header.ttl ≤ 1 then
    if r.shouldSendIcmpv4Error p eth.dstMac then
      r.sendIcmp ingress ingressLink eth ingress.ip p.header.srcIp (IcmpPacket.buildTimeExceeded 0 eth.payload)
    else (r, {})
  else
    match (do
        let push ← r.mplsPushRoutes p.header.dstIp
        let egress ← r.interfaceNamed push.2
        pure (push.1, egress) : Option (Nat × RouterInterface)) with
    | some (label, egress) =>
      let bytes := (MplsPacket.mk [MplsHeader.new label 0 true 64] eth.payload).serialize
      let hop : Hop := ⟨.push, .ipv4 eth.payload, .mpls bytes⟩
      (r, {
        out := [⟨egress.linkName, EthernetFrame.serialize .broadcast egress.mac ethertypeMpls bytes,
          .forwarded hop⟩]
        hops := [hop] })
    | none =>
      match r.routingTable.lookup p.header.dstIp with
      | none =>
        if r.shouldSendIcmpv4Error p eth.dstMac then
          r.sendIcmp ingress ingressLink eth ingress.ip p.header.srcIp
            (IcmpPacket.buildDestinationUnreachable 0 0 eth.payload)
        else (r, {})
      | some route =>
        match r.interfaceNamed route.interface with
        | none => (r, {})
        | some egress =>
          match Ipv4Packet.decrementTtlInPlace (eth.payload.take p.header.totalLength.toNat) with
          | .ok (some forwarded) =>
            let translated := r.translateTransit ingress egress forwarded
            let hop : Hop := ⟨.transit, .ipv4 eth.payload, .ipv4 translated.2⟩
            let sent := translated.1.sendVia egress (route.nextHop p.header.dstIp) translated.2 (.forwarded hop)
            (sent.1, { out := sent.2, hops := [hop] })
          | _ => (r, {})

/-- The RIP or the VXLAN port; `none` if the datagram goes on as any other packet. -/
def receiveUdp (r : LabRouter σ) (ingress : RouterInterface) (eth : EthernetFrame) (p : Ipv4Packet)
    (udp : UdpDatagram) : Option (LabRouter σ × Effects) :=
  if udp.dstPort = ripPort then
    match r.ripEngine, RipPacket.parse udp.payload with
    | some rip, .ok pkt =>
      let rip := (rip.processAdvertisement p.header.srcIp pkt ingress.name).1
      some ({ r with ripEngine := some rip, routingTable := rip.routes }, { delivered := [⟨.rip, eth.payload⟩] })
    | _, _ => some (r, {})
  else if udp.dstPort = vxlanUdpPort ∧ r.isForRouter p.header.dstIp then
    match VxlanPacket.parse udp.payload with
    | .error _ => none
    | .ok vxlan =>
      if cp.hasVni r.control vxlan.header.vni then
        let innerDst := match EthernetFrame.parse vxlan.innerFrame with
          | .ok f => f.dstMac
          | .error _ => .broadcast
        let ports := (cp.accessPortsFor r.control vxlan.header.vni innerDst).filterMap r.interfaceNamed
        some (r, { out := ports.map fun access => ⟨access.linkName, vxlan.innerFrame, .bridged⟩
                   delivered := [⟨.vxlan, eth.payload⟩] })
      else
        match (r.vxlanVniToAccess vxlan.header.vni).bind r.interfaceNamed with
        | some access =>
          some (r, { out := [⟨access.linkName, vxlan.innerFrame, .bridged⟩], delivered := [⟨.vxlan, eth.payload⟩] })
        | none => none
  else none

def chainFor (p : Ipv4Packet) : FirewallChain := if r.isForRouter p.header.dstIp then .input else .forward

def admits (p : Ipv4Packet) : Bool := r.firewall.all fun fw => fw.evaluate (r.chainFor p) p = .accept

def dispatchIpv4 (r : LabRouter σ) (ingress : RouterInterface) (ingressLink : String) (eth : EthernetFrame)
    (p : Ipv4Packet) : LabRouter σ × Effects :=
  let intercepted := match UdpDatagram.parse p.header.srcIp p.header.dstIp p.payload false with
    | .ok udp => if p.header.protocol = .udp then r.receiveUdp cp ingress eth p udp else none
    | .error _ => none
  match intercepted with
  | some handled => handled
  | none =>
    if r.isForRouter p.header.dstIp then r.receiveLocal cp ingress ingressLink eth p
    else r.forwardTransit ingress ingressLink eth p

def receiveIpv4 (r : LabRouter σ) (ingress : RouterInterface) (ingressLink : String) (eth : EthernetFrame) :
    LabRouter σ × Effects :=
  match Ipv4Packet.parse eth.payload true with
  | .error _ => (r, {})
  | .ok p =>
    if r.admits p then (r.learnArp ingress.name p.header.srcIp eth.srcMac).dispatchIpv4 cp ingress ingressLink eth p
    else (r, {})

/-! ## Frames and timers -/

def receiveEthernet (r : LabRouter σ) (ingress : RouterInterface) (ingressLink : String) (eth : EthernetFrame) :
    LabRouter σ × Effects :=
  if eth.dstMac.isBroadcast ∨ eth.dstMac.isMulticast ∨ eth.dstMac = ingress.mac then
    match eth.ethertype with
    | .arp =>
      match ArpPacket.parse eth.payload with
      | .ok arp => ((r.receiveArp ingress ingressLink arp).1, { out := (r.receiveArp ingress ingressLink arp).2 })
      | .error _ => (r, {})
    | .mpls => r.receiveMpls eth.payload
    | .ipv6 =>
      let handled := cp.receiveIpv6 r.control r.interfaces ingress eth r.currentTimeMs
      ({ r with control := handled.1 }, { out := ipv6Emissions handled.2 })
    | .ipv4 => r.receiveIpv4 cp ingress ingressLink eth
    | _ => (r, {})
  else (r, {})

def processIncomingFrame (r : LabRouter σ) (ingressLink : String) (rawFrame : List UInt8) :
    LabRouter σ × Effects :=
  match r.interfaces.find? (·.linkName = ingressLink) with
  | none => (r, {})
  | some ingress =>
    if (cp.vniForAccess r.control ingress.name).isSome then
      ((r.evpnAccessIngress cp ingress rawFrame).1, { out := (r.evpnAccessIngress cp ingress rawFrame).2 })
    else
      match r.vxlanTunnels ingress.name with
      | some tunnel =>
        ((r.staticTunnelIngress tunnel rawFrame).1, { out := (r.staticTunnelIngress tunnel rawFrame).2 })
      | none =>
        match EthernetFrame.parse rawFrame with
        | .error _ => (r, {})
        | .ok eth => r.receiveEthernet cp ingress ingressLink eth

def spfRoutes (order : SpfOrder) (routerId : Ipv4Address) (subnets : NeighborSubnets) : List RouteEntry :=
  match r.ospfLsdb with
  | none => []
  | some lsdb => (lsdb.computeShortestPaths order routerId).filterMap (spfRoute subnets)

def runOspfSpf (order : SpfOrder) (routerId : Ipv4Address) (subnets : NeighborSubnets) : LabRouter σ :=
  { r with routingTable := r.routingTable.putAll (r.spfRoutes order routerId subnets) }

end LabRouter

end SystemsLab.Net
