import SystemsLab.Net.HostRouters

/-!
# The dual-stack host

`processFrame` for what arrives, the send calls and `stepTimers` for what leaves. A run is any list of events, the
operator's calls among them.
-/

namespace SystemsLab.Net

open Function

namespace NetStack
variable {τ : Type} (s : NetStack τ)

/-! ## Frames of the IPv6 plane -/

def discoveryPacket (srcIp dstIp : Ipv6Address) (message : List UInt8) : List UInt8 :=
  Ipv6Packet.serialize srcIp dstIp nextHeaderIcmpv6 255 message

def emit (dstMac : MacAddress) (ethertype : UInt16) (payload : List UInt8) (origin : Origin) : Emission :=
  ⟨"eth0", EthernetFrame.serialize dstMac s.config.mac ethertype payload, origin⟩

def emitIpv6 (dstMac : MacAddress) (packet : List UInt8) : Emission := s.emit dstMac ethertypeIpv6 packet .link

def groupMac (a : Ipv6Address) : MacAddress := (ipv6MulticastMac a).getD .broadcast

def startIpv6Dad (address : Ipv6Address) (prefixLen : Nat) (gateway : Option Ipv6Address)
    (preferredLifetime validLifetime routerLifetime : Nat) : NetStack τ × List Emission :=
  if validLifetime = 0 then (s, [])
  else
    let nowMs := s.currentTimeMs
    let preferredUntilMs := ipv6LifetimeDeadline nowMs preferredLifetime
    let advertisedValidUntilMs := ipv6LifetimeDeadline nowMs validLifetime
    let routerUntilMs := if 0 < routerLifetime then some (satAdd nowMs (routerLifetime * 1000)) else none
    let fresh :=
      ({ s with
          ipv6DadDuplicate := none
          ipv6Dad :=
            some ⟨address, min prefixLen 128, gateway, satAdd nowMs ipv6DadRetransTimerMs, preferredUntilMs,
            advertisedValidUntilMs, routerUntilMs⟩ },
        [s.emitIpv6 (groupMac address.solicitedNodeMulticast)
          (discoveryPacket .unspecified address.solicitedNodeMulticast
            (Icmpv6Packet.buildDadNeighborSolicitation address.solicitedNodeMulticast address))])
    if s.config.ipv6 = some address then
      ({ s.setIpv6DefaultGateway gateway with
          ipv6SlaacLifetimes := some ⟨address, preferredUntilMs, advertisedValidUntilMs, gateway, routerUntilMs⟩ },
            [])
    else
      match s.ipv6Dad with
      | some dad =>
        if dad.address = address ∧ dad.prefixLen = prefixLen then
          ({ s with ipv6Dad := some { dad with
              gateway
              preferredUntilMs
              validUntilMs := refreshedIpv6ValidDeadline nowMs dad.validUntilMs validLifetime
              routerUntilMs } }, [])
        else fresh
      | none => fresh

def markIpv6DadDuplicate (address : Ipv6Address) : NetStack τ :=
  if s.ipv6Dad.any (·.address = address) then { s with ipv6Dad := none, ipv6DadDuplicate := some address } else s

def routerSolicitation : Emission :=
  let src := s.config.ipv6.getD .unspecified
  let dst := Ipv6Address.linkLocalAllRouters
  let sourceMac := if src.isUnspecified then none else some s.config.mac
  s.emitIpv6 (groupMac dst) (discoveryPacket src dst (Icmpv6Packet.buildRouterSolicitation src dst sourceMac))

def startRouterDiscovery : NetStack τ × List Emission :=
  let s := { s with
    ipv6RouterDiscoveryExhausted := false
    ipv6RouterDiscovery := some ⟨1, satAdd s.currentTimeMs ipv6RtrSolicitationIntervalMs⟩ }
  (s, [s.routerSolicitation])

def cancelRouterDiscovery : NetStack τ :=
  { s with ipv6RouterDiscovery := none, ipv6RouterDiscoveryExhausted := false }

/-! ## Sending -/

def nextIpId : NetStack τ := { s with ipIdCounter := s.ipIdCounter + 1 }

def sendIpPacket (dstIp : Ipv4Address) (ipBytes : List UInt8) : NetStack τ × List Emission :=
  let nextHop :=
    match s.routingTable.lookup dstIp with
    | some route => route.nextHop dstIp
    | none => dstIp
  match s.arpTable.lookup nextHop with
  | some dstMac => (s, [s.emit dstMac ethertypeIpv4 ipBytes (.originated ipBytes)])
  | none =>
    ({ s with pendingArpPackets :=
        update s.pendingArpPackets nextHop (s.pendingArpPackets nextHop ++ [⟨ipBytes, .originated ipBytes⟩]) },
      [s.emit .broadcast ethertypeArp (ArpPacket.buildRequest s.config.mac s.config.ip nextHop).serialize .link])

/-- The limit `send_ip6_packet` checks: the path MTU of the address it is given, and the link MTU. -/
def effectiveMtu (dstIp : Ipv6Address) : Nat := min ((s.ipv6PathMtuCache dstIp).getD s.ipv6LinkMtu) s.ipv6LinkMtu

def ipv6NextHop (dstIp : Ipv6Address) : NetStack τ × Ipv6Address :=
  let routeNextHop := s.ipv6RoutingTable.firstHop dstIp
  match s.ipv6RedirectCache dstIp with
  | some entry =>
    if entry.router = routeNextHop then (s, entry.target)
    else ({ s with ipv6RedirectCache := update s.ipv6RedirectCache dstIp none }, routeNextHop)
  | none => (s, routeNextHop)

def myIp6 : Ipv6Address := s.config.ipv6.getD ipv6Loopback

def sendToNeighbor (nextHop : Ipv6Address) (ip6Bytes : List UInt8) : NetStack τ × List Emission :=
  match s.ndpTable.lookupForTransmit nextHop s.currentTimeMs with
  | (ndpTable, some dstMac) => ({ s with ndpTable }, [s.emitIpv6 dstMac ip6Bytes])
  | (ndpTable, none) =>
    let nsDst := nextHop.solicitedNodeMulticast
    ({ s with
        ndpTable
        pendingNdpPackets := update s.pendingNdpPackets nextHop (s.pendingNdpPackets nextHop ++ [ip6Bytes]) },
      [s.emitIpv6 (groupMac nsDst)
        (discoveryPacket s.myIp6 nsDst
          (Icmpv6Packet.buildNeighborSolicitation s.myIp6 nsDst nextHop s.config.mac))])

def sendIp6Packet (dstIp : Ipv6Address) (ip6Bytes : List UInt8) : NetStack τ × List Emission :=
  if s.effectiveMtu dstIp < ip6Bytes.length then (s, [])
  else (s.ipv6NextHop dstIp).1.sendToNeighbor (s.ipv6NextHop dstIp).2 ip6Bytes

def sendTransport (srcIp dstIp : Ipv4Address) (protocol : UInt8) (payload : List UInt8) :
    NetStack τ × List Emission :=
  s.nextIpId.sendIpPacket dstIp (Ipv4Packet.serialize srcIp dstIp protocol s.ipIdCounter 64 payload)

def ping4 (dstIp : Ipv4Address) (id seq : UInt16) (payload : List UInt8) : NetStack τ × List Emission :=
  s.sendTransport s.config.ip dstIp ipProtoIcmp (IcmpPacket.buildEchoRequest id seq payload)

def ping6 (dstIp : Ipv6Address) (id seq : UInt16) (payload : List UInt8) : NetStack τ × List Emission :=
  s.sendIp6Packet dstIp (Ipv6Packet.serialize s.myIp6 dstIp nextHeaderIcmpv6 s.ipv6DefaultHopLimit
    (Icmpv6Packet.buildEchoRequest s.myIp6 dstIp id seq payload))

def sendUdp (dstIp : Ipv4Address) (srcPort dstPort : UInt16) (payload : List UInt8) : NetStack τ × List Emission :=
  s.sendTransport s.config.ip dstIp ipProtoUdp (UdpDatagram.serialize s.config.ip dstIp srcPort dstPort payload)

/-- `tcp_connect_raw`, `tcp_send_data_raw` and `tcp_close_raw`, by what the older TCP table answers to the call. -/
def tcpRaw (call : τ → τ × Option (List UInt8)) (dstIp : Ipv4Address) : NetStack τ × List Emission :=
  match call s.transport with
  | (transport, some segment) => { s with transport }.sendTransport s.config.ip dstIp ipProtoTcp segment
  | (transport, none) => ({ s with transport }, [])

/-- `dhcp_discover` and `dhcp_request`, by their message: broadcast at once from the unspecified address. -/
def dhcpBroadcast (message : List UInt8) : NetStack τ × List Emission :=
  let unspecified : Ipv4Address := ⟨0, 0, 0, 0⟩
  let broadcast : Ipv4Address := ⟨255, 255, 255, 255⟩
  let packet := Ipv4Packet.serialize unspecified broadcast ipProtoUdp s.ipIdCounter 64
    (UdpDatagram.serialize unspecified broadcast 68 67 message)
  (s.nextIpId, [s.emit .broadcast ethertypeIpv4 packet (.originated packet)])

def sendAll {α : Type} (send : NetStack τ → α → NetStack τ × List Emission) (s : NetStack τ) :
    List α → NetStack τ × List Emission
  | [] => (s, [])
  | a :: rest =>
    let first := send s a
    let later := sendAll send first.1 rest
    (later.1, first.2 ++ later.2)

/-! ## Timers -/

def stepRouterDiscovery (nowMs : Nat) : NetStack τ × List Emission :=
  match s.ipv6RouterDiscovery with
  | none => (s, [])
  | some discovery =>
    if nowMs < discovery.nextSolicitationMs then (s, [])
    else
      let solicitationsSent := min (discovery.solicitationsSent + 1) 255
      if ipv6MaxRtrSolicitations ≤ solicitationsSent then
        ({ s with ipv6RouterDiscovery := none, ipv6RouterDiscoveryExhausted := true }, [s.routerSolicitation])
      else
        ({ s with ipv6RouterDiscovery := some ⟨solicitationsSent, satAdd nowMs ipv6RtrSolicitationIntervalMs⟩ },
          [s.routerSolicitation])

def nudProbes (probes : List (Ipv6Address × MacAddress)) : List Emission :=
  match s.config.ipv6 with
  | none => []
  | some myIp6 => probes.map fun probe => s.emitIpv6 probe.2
      (discoveryPacket myIp6 probe.1 (Icmpv6Packet.buildNeighborSolicitation myIp6 probe.1 probe.1 s.config.mac))

section
variable (w : RouteWalk) (s : NetStack τ)

def dropFailedRioRouters (failed : List Ipv6Address) : NetStack τ :=
  if failed = [] then s
  else
    let affected :=
      (((w.walk s.ipv6RaRoutes).filter fun r => r.prefixLen ≠ 0 ∧ r.router ∈ failed).map (·.target)).eraseDups
    { s with
      ipv6FailedRioRouters := fun router => s.ipv6FailedRioRouters router || decide (router ∈ failed)
      ipv6RaRoutes := s.ipv6RaRoutes.filter fun r => r.prefixLen = 0 ∨
        r.router ∉ failed }.selectIpv6RaRoutes w affected

def dropActiveRouter (router : Ipv6Address) : NetStack τ × Bool :=
  let s' := { s with
    ipv6DefaultRouters := s.ipv6DefaultRouters.retain fun d => d.address ≠ router
    ipv6RaRoutes := s.ipv6RaRoutes.filter fun r =>
      ¬ (r.prefixLen = 0 ∧ r.pfx = Ipv6Address.unspecified ∧ r.router = router) }.selectIpv6DefaultRouter w
  (s', s.ipv6Gateway.isSome && s'.ipv6Gateway.isNone)

def stepNeighbors (nowMs : Nat) : NetStack τ × List Emission × Bool :=
  let activeRouterWasCached := s.ipv6Gateway.any fun router =>
    (s.defaultRouterDeadline w router).isSome && (s.ndpTable.lookup router).isSome
  let cachedRioRouters := (s.ipv6RaRoutes.map (·.router)).filter fun router => (s.ndpTable.lookup router).isSome
  let nud := s.ndpTable.stepNud nowMs
  let s₁ := { s with ndpTable := nud.1 }
  let failed := cachedRioRouters.filter fun router => (nud.1.lookup router).isNone
  let s₂ := (s₁.dropFailedRioRouters w failed).reselectIpv6RaRoutes w
  match s.ipv6Gateway with
  | some router =>
    if activeRouterWasCached ∧ (nud.1.lookup router).isNone then
      let dropped := s₂.dropActiveRouter w router
      (dropped.1, s.nudProbes nud.2, dropped.2)
    else (s₂, s.nudProbes nud.2, false)
  | none => (s₂, s.nudProbes nud.2, false)

def expireRaPrefixes (nowMs : Nat) : NetStack τ :=
  let expired := s.ipv6RaOnLinkPrefixes.filter fun p => p.deadline.any (· ≤ nowMs)
  { s with
    ipv6RaOnLinkPrefixes := s.ipv6RaOnLinkPrefixes.filter fun p => ¬ p.deadline.any (· ≤ nowMs)
    ipv6RoutingTable := expired.foldl (fun table p => table.removeRoute p.pfx p.prefixLen .ra) s.ipv6RoutingTable }

def expireRaRoutes (nowMs : Nat) : NetStack τ :=
  let affected := (((w.walk s.ipv6RaRoutes).filter fun r => ¬ r.validAt nowMs).map (·.target)).eraseDups
  { s with ipv6RaRoutes := s.ipv6RaRoutes.filter (·.validAt nowMs) }.selectIpv6RaRoutes w affected

def completeDad (nowMs : Nat) : NetStack τ :=
  match s.ipv6Dad with
  | none => s
  | some dad =>
    if nowMs < dad.deadlineMs then s
    else
      let s := { s with ipv6Dad := none }
      if dad.validUntilMs.all (nowMs < ·) then
        let gateway := dad.gateway.filter fun _ => dad.routerUntilMs.any (nowMs < ·)
        let s := s.configureIpv6Interface dad.address dad.prefixLen gateway
        { s with
          ipv6RoutingTable := s.ipv6RoutingTable.removeRoute dad.address dad.prefixLen .connected
          ipv6SlaacLifetimes := some ⟨dad.address, dad.preferredUntilMs, dad.validUntilMs, gateway,
            if gateway.isSome then dad.routerUntilMs else none⟩ }
      else s

def expireRouters (nowMs : Nat) (lostLastRouter routerDiscoveryWasActive : Bool) : NetStack τ × List Emission :=
  if (s.ipv6SlaacLifetimes.bind (·.validUntilMs)).any (· ≤ nowMs) then (s.clearIpv6Interface, [])
  else
    let expired := s.expireIpv6DefaultRouters w nowMs
    if (expired.2 || lostLastRouter) && !routerDiscoveryWasActive then expired.1.startRouterDiscovery
      else (expired.1, [])

def stepIpv6 (nowMs : Nat) : NetStack τ × List Emission :=
  let discovery := s.stepRouterDiscovery nowMs
  let neighbors := discovery.1.stepNeighbors w nowMs
  let s₁ := neighbors.1.expireRaPrefixes nowMs
  let s₂ := s₁.expireRaRoutes w nowMs
  let lostLastRouterToRio := s₁.ipv6Gateway.isSome && s₂.ipv6Gateway.isNone
  let routers := (s₂.completeDad nowMs).expireRouters w nowMs
    (neighbors.2.2 || lostLastRouterToRio) s.ipv6RouterDiscovery.isSome
  (routers.1, discovery.2 ++ neighbors.2.1 ++ routers.2)

def stepTimers (tr : Transport τ) (s : NetStack τ) (nowMs : Nat) : NetStack τ × List Emission :=
  let ipv6 := { s with currentTimeMs := nowMs }.stepIpv6 w nowMs
  let transport := tr.stepTimers ipv6.1.transport nowMs
  let sent := sendAll (fun s tx => s.sendTransport tx.localIp tx.remoteIp tx.protocol tx.payload)
    { ipv6.1 with transport := transport.1 } transport.2
  (sent.1, ipv6.2 ++ sent.2)

end

/-! ## Receiving -/

structure Received (τ : Type) where
  state : NetStack τ
  out : List Emission
  delivered : List Delivery

def receiveArp (arp : ArpPacket) : NetStack τ × List Emission :=
  let drained := (s.pendingArpPackets arp.senderIp).map fun q =>
    s.emit arp.senderMac ethertypeIpv4 q.packet q.origin
  let reply :=
    if arp.opcode = .request ∧ arp.targetIp = s.config.ip then
      [s.emit arp.senderMac ethertypeArp
        (ArpPacket.buildReply s.config.mac s.config.ip arp.senderMac arp.senderIp).serialize .link]
    else []
  ({ s with
      arpTable := s.arpTable.insert arp.senderIp arp.senderMac
      pendingArpPackets := update s.pendingArpPackets arp.senderIp [] }, drained ++ reply)

def reply (dstMac : MacAddress) (srcIp dstIp : Ipv4Address) (protocol : UInt8) (payload : List UInt8) :
    NetStack τ × List Emission :=
  let packet := Ipv4Packet.serialize srcIp dstIp protocol s.ipIdCounter 64 payload
  (s.nextIpId, [s.emit dstMac ethertypeIpv4 packet (.originated packet)])

def receiveIcmp (tr : Transport τ) (s : NetStack τ) (srcMac : MacAddress) (p : Ipv4Packet) :
    NetStack τ × List Emission :=
  match IcmpPacket.parse p.payload true with
  | .error _ => (s, [])
  | .ok icmp =>
    if icmp.icmpType = .echoRequest then s.reply srcMac s.config.ip p.header.srcIp ipProtoIcmp
      (IcmpPacket.buildEchoReply icmp)
    else ({ s with transport := tr.receiveIcmp s.transport p.header.srcIp icmp }, [])

def serveDhcp (tr : Transport τ) (s : NetStack τ) (udp : UdpDatagram) : NetStack τ × List Emission :=
  if udp.dstPort = 67 then
    match tr.serveDhcp s.transport udp.payload with
    | (transport, some answer) =>
      let broadcast : Ipv4Address := ⟨255, 255, 255, 255⟩
      { s with transport }.reply answer.chaddr answer.serverIp broadcast ipProtoUdp
        (UdpDatagram.serialize answer.serverIp broadcast 67 68 answer.payload)
    | (transport, none) => ({ s with transport }, [])
  else (s, [])

def dispatchUdp (tr : Transport τ) (s : NetStack τ) (srcMac : MacAddress) (p : Ipv4Packet) (udp : UdpDatagram) :
    NetStack τ × List Emission :=
  match tr.dispatchUdp s.transport p.header.srcIp p.header.dstIp udp with
  | (transport, some answer) => { s with transport }.reply srcMac s.config.ip p.header.srcIp ipProtoUdp
      (UdpDatagram.serialize s.config.ip p.header.srcIp udp.dstPort udp.srcPort answer)
  | (transport, none) => ({ s with transport }, [])

def receiveUdp (tr : Transport τ) (s : NetStack τ) (srcMac : MacAddress) (p : Ipv4Packet) :
    NetStack τ × List Emission :=
  match UdpDatagram.parse p.header.srcIp p.header.dstIp p.payload true with
  | .error _ => (s, [])
  | .ok udp =>
    let dhcp := s.serveDhcp tr udp
    let answered := dhcp.1.dispatchUdp tr srcMac p udp
    (answered.1, dhcp.2 ++ answered.2)

def receiveTcp (tr : Transport τ) (s : NetStack τ) (srcMac : MacAddress) (p : Ipv4Packet) :
    NetStack τ × List Emission :=
  let answers := tr.receiveTcp s.transport p.header.srcIp p.header.dstIp p.payload s.currentTimeMs
  sendAll (fun s segment => s.reply srcMac s.config.ip p.header.srcIp ipProtoTcp segment)
    { s with transport := answers.1 } answers.2

def receiveLocal (tr : Transport τ) (s : NetStack τ) (srcMac : MacAddress) (bytes : List UInt8) (p : Ipv4Packet) :
    Received τ :=
  let handed (protocol : LocalProtocol) (result : NetStack τ × List Emission) : Received τ :=
    ⟨result.1, result.2, [⟨protocol, bytes⟩]⟩
  match p.header.protocol with
  | .icmp => handed .icmp (s.receiveIcmp tr srcMac p)
  | .udp => handed .udp (s.receiveUdp tr srcMac p)
  | .tcp => handed .tcp (s.receiveTcp tr srcMac p)
  | .other _ => ⟨s, [], []⟩

def isBroadcastIp (ip : Ipv4Address) : Bool := ip = ⟨255, 255, 255, 255⟩

def receiveIpv4 (tr : Transport τ) (s : NetStack τ) (eth : EthernetFrame) : Received τ :=
  match Ipv4Packet.parse eth.payload true with
  | .error _ => ⟨s, [], []⟩
  | .ok p =>
    if s.firewall.evaluate .input p ≠ .accept then ⟨s, [], []⟩
    else
      let s := { s with arpTable := s.arpTable.insert p.header.srcIp eth.srcMac }
      if p.header.dstIp ≠ s.config.ip ∧ ¬ isBroadcastIp p.header.dstIp then ⟨s, [], []⟩
      else s.receiveLocal tr eth.srcMac eth.payload p

/-! ### IPv6 -/

/-- Before the destination: discovery messages have to be valid, and a host drops Router Solicitations. -/
def validMessage (p : Ipv6Packet) (icmp6 : Icmpv6Packet) : Bool :=
  let h := p.header
  if icmp6.msgType = icmpv6TypeNeighborSolicit then
    (icmp6.validatedNeighborSolicitationTarget h.srcIp h.dstIp h.hopLimit).isSome
  else if icmp6.msgType = icmpv6TypeNeighborAdvert then
    (icmp6.validatedNeighborAdvertisementTarget h.dstIp h.hopLimit).isSome
  else if icmp6.msgType = icmpv6TypeRouterSolicit then false
  else if icmp6.msgType = icmpv6TypeRouterAdvert then (icmp6.validatedRouterAdvertisement h.srcIp h.hopLimit).isSome
  else if icmp6.msgType = icmpv6TypeRedirect then (icmp6.validatedRedirect h.srcIp h.dstIp h.hopLimit).isSome
  else true

def acceptedIcmpv6 (payload : List UInt8) : Option (Ipv6Packet × Icmpv6Packet) :=
  match Ipv6Packet.parse payload with
  | .error _ => none
  | .ok p =>
    if p.header.nextHeader ≠ nextHeaderIcmpv6 then none
    else
      match Icmpv6Packet.parse p.header.srcIp p.header.dstIp p.payload true with
      | .error _ => none
      | .ok icmp6 =>
        if validMessage p icmp6 ∧ (p.header.dstIp = s.myIp6 ∨ p.header.dstIp.isMulticast) then some (p, icmp6)
          else none

def receivePacketTooBig (icmp6 : Icmpv6Packet) : NetStack τ :=
  let quoted := icmp6.payload.drop 4
  let quotedDst := ipv6At quoted 24
  if icmp6.code = 0 ∧ 44 ≤ icmp6.payload.length ∧ octet quoted 0 >>> 4 = 6 ∧
    s.config.ipv6 = some (ipv6At quoted 8) ∧
      ¬ quotedDst.isMulticast then
    let learned := max (u32At icmp6.payload 0).toNat 1280
    let mtu :=
      match s.ipv6PathMtuCache quotedDst with
      | some current => min current learned
      | none => learned
    { s with ipv6PathMtuCache := update s.ipv6PathMtuCache quotedDst (some mtu) }
  else s

def receiveRedirect (p : Ipv6Packet) (icmp6 : Icmpv6Packet) : NetStack τ :=
  match icmp6.validatedRedirect p.header.srcIp p.header.dstIp p.header.hopLimit with
  | none => s
  | some redirect =>
    let quoteMatches := redirect.redirectedSource = s.config.ipv6 ∧
      redirect.redirectedDestination = some redirect.destination
    if s.ipv6RoutingTable.firstHop redirect.destination = p.header.srcIp ∧ quoteMatches then
      { s with
        ndpTable :=
          match redirect.targetLinkLayerAddress with
          | some targetMac => s.ndpTable.learnStale redirect.target targetMac
          | none => s.ndpTable
        ipv6RedirectCache := update s.ipv6RedirectCache redirect.destination
          (some ⟨p.header.srcIp, redirect.target⟩) }
    else s

def applyAdvertisedMtu (mtu : Option Nat) : NetStack τ :=
  match mtu with
  | some mtu =>
    if 1280 ≤ mtu ∧ mtu ≤ ipv6EthernetLinkMtu then
      { s with ipv6LinkMtu := mtu, pendingNdpPackets := fun ip => (s.pendingNdpPackets ip).filter (·.length ≤ mtu) }
    else s
  | none => s

def applyAdvertisedParameters (ra : RouterAdvertisement) : NetStack τ :=
  { s with
    ndpTable := s.ndpTable.applyRouterAdvertisementTimers ra.reachableTime ra.retransTimer
    ipv6DefaultHopLimit := if ra.currentHopLimit ≠ 0 then ra.currentHopLimit else s.ipv6DefaultHopLimit }

def learnAdvertiser (router : Ipv6Address) (icmp6 : Icmpv6Packet) : NetStack τ :=
  match icmp6.ndpSourceLinkLayerAddress with
  | some sourceMac =>
    let learned := s.ndpTable.learnStale router sourceMac
    { s with ndpTable :=
        if s.ipv6FailedRioRouters router then (learned.lookupForTransmit router s.currentTimeMs).1 else learned }
  | none => s

section
variable (w : RouteWalk) (s : NetStack τ)

def applySlaac (ra : RouterAdvertisement) : NetStack τ × List Emission :=
  match ra.prefixes.find? fun pfx => pfx.autonomous && decide (pfx.prefixLength = 64) with
  | none => (s, [])
  | some pfx =>
    match slaacAddress pfx.pfx pfx.prefixLength s.config.mac with
    | none => (s, [])
    | some address =>
      let nowMs := s.currentTimeMs
      if s.config.ipv6 = some address then
        let validUntilMs :=
          match s.ipv6SlaacLifetimes.filter (·.address = address) with
          | some lifetimes => refreshedIpv6ValidDeadline nowMs lifetimes.validUntilMs pfx.validLifetime
          | none => ipv6LifetimeDeadline nowMs pfx.validLifetime
        let routerUntilMs := s.ipv6Gateway.bind fun router => (s.defaultRouterDeadline w router).join
        let lifetimes : Ipv6SlaacLifetimes :=
          ⟨address, ipv6LifetimeDeadline nowMs pfx.preferredLifetime, validUntilMs, s.ipv6Gateway, routerUntilMs⟩
        ({ s with ipv6SlaacLifetimes := some lifetimes }, [])
      else s.startIpv6Dad address pfx.prefixLength s.ipv6Gateway pfx.preferredLifetime pfx.validLifetime
        ra.routerLifetime

def applyAdvertisedRouter (router : Ipv6Address) (ra : RouterAdvertisement) : NetStack τ :=
  if ra.routes.any fun route => route.prefixLength = 0 then
    { s with
      ipv6DefaultRouters := s.ipv6DefaultRouters.retain fun d => d.address ≠ router }.selectIpv6DefaultRouter w
  else s.refreshSlaacDefaultRouter w router ra.routerLifetime ra.preference

def applyAdvertisedRoutes (router : Ipv6Address) (ra : RouterAdvertisement) : NetStack τ :=
  ra.routes.foldl
    (fun s route => s.refreshIpv6RaRoute w router route.pfx route.prefixLength route.preference route.routeLifetime)
      s

def applyAdvertisedPrefixes (ra : RouterAdvertisement) : NetStack τ :=
  (ra.prefixes.filter fun pfx => pfx.onLink && !pfx.pfx.isLinkLocal).foldl
    (fun s pfx => s.refreshIpv6RaOnLinkPrefix pfx.pfx pfx.prefixLength pfx.validLifetime) s

def receiveRouterAdvert (p : Ipv6Packet) (icmp6 : Icmpv6Packet) : NetStack τ × List Emission :=
  match icmp6.validatedRouterAdvertisement p.header.srcIp p.header.hopLimit with
  | none => (s, [])
  | some ra =>
    let router := p.header.srcIp
    let learned := ((s.applyAdvertisedParameters ra).applyAdvertisedMtu ra.mtu).learnAdvertiser router icmp6
    let routed :=
      (learned.cancelRouterDiscovery.applyAdvertisedRouter w router ra).applyAdvertisedRoutes w router ra
    (routed.applyAdvertisedPrefixes ra).applySlaac w ra

def echoReply6 (p : Ipv6Packet) (icmp6 : Icmpv6Packet) : List UInt8 :=
  Ipv6Packet.serialize s.myIp6 p.header.srcIp nextHeaderIcmpv6 s.ipv6DefaultHopLimit
    (Icmpv6Packet.buildEchoReply s.myIp6 p.header.srcIp (u16At icmp6.payload 0) (u16At icmp6.payload 2)
      (icmp6.payload.drop 4))

def learnSolicitor (srcIp : Ipv6Address) (icmp6 : Icmpv6Packet) : NetStack τ :=
  match icmp6.ndpSourceLinkLayerAddress with
  | some sourceMac =>
    if srcIp.isUnspecified then s
    else { s with ndpTable := s.ndpTable.learnStale srcIp sourceMac }
  | none => s

def noticeDuplicate (srcMac : MacAddress) (target : Ipv6Address) : NetStack τ :=
  if srcMac ≠ s.config.mac then s.markIpv6DadDuplicate target else s

def solicitedAdvertisement (srcMac : MacAddress) (srcIp : Ipv6Address) : Emission :=
  let dadProbe := srcIp.isUnspecified
  let replyDst := if dadProbe then .linkLocalAllNodes else srcIp
  s.emitIpv6 (if dadProbe then groupMac replyDst else srcMac)
    (discoveryPacket s.myIp6 replyDst
      (Icmpv6Packet.buildNeighborAdvertisement s.myIp6 replyDst s.myIp6 s.config.mac false (!dadProbe) true))

def receiveNeighborSolicit (srcMac : MacAddress) (p : Ipv6Packet) (icmp6 : Icmpv6Packet) :
    NetStack τ × List Emission :=
  match icmp6.validatedNeighborSolicitationTarget p.header.srcIp p.header.dstIp p.header.hopLimit with
  | none => (s, [])
  | some target =>
    let noticed := (s.learnSolicitor p.header.srcIp icmp6).noticeDuplicate srcMac target
    (noticed, if target = s.myIp6 then [s.solicitedAdvertisement srcMac p.header.srcIp] else [])

def advertisedNeighbor (ndpTable : NdpTable) (target : Ipv6Address) (currentMac : MacAddress)
    (advertisedMac : Option MacAddress)
    (solicited override : Bool) (nowMs : Nat) : NdpTable :=
  if advertisedMac.any (· ≠ currentMac) && !override then ndpTable.demoteReachablePreservingMac target
  else
    let selectedMac := advertisedMac.getD currentMac
    if solicited then ndpTable.confirmReachable target selectedMac nowMs
    else if selectedMac ≠ currentMac then ndpTable.markStale target selectedMac
    else ndpTable

def reweighRouter (target : Ipv6Address) : NetStack τ :=
  if (s.defaultRouterDeadline w target).isSome then s.selectIpv6DefaultRouter w else s

def updateNeighbor (target : Ipv6Address) (currentMac : MacAddress) (advertisedMac : Option MacAddress)
    (isRouter solicited override : Bool) : NetStack τ :=
  let updated := { s with
    ndpTable := advertisedNeighbor s.ndpTable target currentMac advertisedMac solicited override s.currentTimeMs }
  if isRouter then updated.reweighRouter w target else updated.refreshSlaacDefaultRouter w target 0 .medium

def resolveNeighbor (target : Ipv6Address) (targetMac : MacAddress) (isRouter solicited : Bool) :
    NetStack τ × List Emission :=
  let resolved := { s with ndpTable :=
    if solicited then s.ndpTable.confirmReachable target targetMac s.currentTimeMs
      else s.ndpTable.markStale target targetMac }
  let weighed := if isRouter then resolved.reweighRouter w target else resolved
  ({ weighed with pendingNdpPackets := update weighed.pendingNdpPackets target [] },
    (weighed.pendingNdpPackets target).map (weighed.emitIpv6 targetMac))

def afterAdvertisement (target : Ipv6Address) (solicited : Bool) : NetStack τ :=
  let s := if solicited ∧ s.ndpTable.state target = some .reachable then
      { s with ipv6FailedRioRouters := update s.ipv6FailedRioRouters target false }
    else s
  s.reselectIpv6RaRoutes w

def receiveNeighborAdvert (srcMac : MacAddress) (p : Ipv6Packet) (icmp6 : Icmpv6Packet) :
    NetStack τ × List Emission :=
  match icmp6.validatedNeighborAdvertisementTarget p.header.dstIp p.header.hopLimit with
  | none => (s, [])
  | some target =>
    let s := s.noticeDuplicate srcMac target
    let flags := octet icmp6.payload 0
    let isRouter : Bool := flags &&& 0x80 ≠ 0
    let solicited : Bool := flags &&& 0x40 ≠ 0
    let override : Bool := flags &&& 0x20 ≠ 0
    let advertisedMac := icmp6.neighborAdvertisementTargetLinkLayerAddress
    match s.ndpTable.lookup target with
    | some currentMac =>
      ((s.updateNeighbor w target currentMac advertisedMac isRouter solicited override).afterAdvertisement w target
        solicited, [])
    | none =>
      if s.pendingNdpPackets target = [] then (s.afterAdvertisement w target solicited, [])
      else
        match advertisedMac with
        | none => (s, [])
        | some targetMac =>
          let resolved := s.resolveNeighbor w target targetMac isRouter solicited
          (resolved.1.afterAdvertisement w target solicited, resolved.2)

def receiveIcmpv6 (tr : Transport τ) (s : NetStack τ) (srcMac : MacAddress) (p : Ipv6Packet)
    (icmp6 : Icmpv6Packet) :
    NetStack τ × List Emission :=
  if icmp6.msgType = icmpv6TypePacketTooBig then (s.receivePacketTooBig icmp6, [])
  else if icmp6.msgType = icmpv6TypeRedirect then (s.receiveRedirect p icmp6, [])
  else if icmp6.msgType = icmpv6TypeRouterAdvert then s.receiveRouterAdvert w p icmp6
  else if icmp6.msgType = icmpv6TypeEchoRequest then
    if 4 ≤ icmp6.payload.length then (s, [s.emitIpv6 srcMac (s.echoReply6 p icmp6)]) else (s, [])
  else if icmp6.msgType = icmpv6TypeEchoReply then
    if 4 ≤ icmp6.payload.length then
      ({ s with
        transport := tr.receiveIcmpv6Reply s.transport p.header.srcIp (u16At icmp6.payload 0)
          (u16At icmp6.payload 2) }, [])
    else (s, [])
  else if icmp6.msgType = icmpv6TypeNeighborSolicit then s.receiveNeighborSolicit srcMac p icmp6
  else if icmp6.msgType = icmpv6TypeNeighborAdvert then s.receiveNeighborAdvert w srcMac p icmp6
  else (s, [])

def takesFrame (eth : EthernetFrame) : Bool :=
  eth.dstMac.isBroadcast || eth.dstMac.isMulticast || decide (eth.dstMac = s.config.mac)

def processFrame (tr : Transport τ) (s : NetStack τ) (rawFrame : List UInt8) : Received τ :=
  match EthernetFrame.parse rawFrame with
  | .error _ => ⟨s, [], []⟩
  | .ok eth =>
    if s.takesFrame eth then
      match eth.ethertype with
      | .arp =>
        match ArpPacket.parse eth.payload with
        | .ok arp => ⟨(s.receiveArp arp).1, (s.receiveArp arp).2, []⟩
        | .error _ => ⟨s, [], []⟩
      | .ipv4 => s.receiveIpv4 tr eth
      | .ipv6 =>
        match s.acceptedIcmpv6 eth.payload with
        | some (p, icmp6) =>
          let result := s.receiveIcmpv6 w tr eth.srcMac p icmp6
          ⟨result.1, result.2, []⟩
        | none => ⟨s, [], []⟩
      | _ => ⟨s, [], []⟩
    else ⟨s, [], []⟩

end

/-! ## Runs -/

inductive SendCall (τ : Type)
  | ip (dstIp : Ipv4Address) (bytes : List UInt8)
  | ip6 (dstIp : Ipv6Address) (bytes : List UInt8)
  | ping4 (dstIp : Ipv4Address) (id seq : UInt16) (payload : List UInt8)
  | ping6 (dstIp : Ipv6Address) (id seq : UInt16) (payload : List UInt8)
  | udp (dstIp : Ipv4Address) (srcPort dstPort : UInt16) (payload : List UInt8)
  | tcpRaw (call : τ → τ × Option (List UInt8)) (dstIp : Ipv4Address)
  | dhcp (message : List UInt8)
  | routerSolicitation
  | startRouterDiscovery
  /-- A call of the socket API, which leaves with the next timer pump what it queues -/
  | sockets (call : τ → τ)

def send : SendCall τ → NetStack τ × List Emission
  | .ip dstIp bytes => s.sendIpPacket dstIp bytes
  | .ip6 dstIp bytes => s.sendIp6Packet dstIp bytes
  | .ping4 dstIp id seq payload => s.ping4 dstIp id seq payload
  | .ping6 dstIp id seq payload => s.ping6 dstIp id seq payload
  | .udp dstIp srcPort dstPort payload => s.sendUdp dstIp srcPort dstPort payload
  | .tcpRaw call dstIp => s.tcpRaw call dstIp
  | .dhcp message => s.dhcpBroadcast message
  | .routerSolicitation => (s, [s.routerSolicitation])
  | .startRouterDiscovery => s.startRouterDiscovery
  | .sockets call => ({ s with transport := call s.transport }, [])

inductive StackEvent (τ : Type)
  | receive (frame : List UInt8)
  | timers (nowMs : Nat)
  | send (call : SendCall τ)
  | configureIpv6 (address : Ipv6Address) (prefixLen : Nat) (gateway : Option Ipv6Address)
  | clearIpv6
  | clearPathMtu (destination : Ipv6Address)

def perform (w : RouteWalk) (tr : Transport τ) (s : NetStack τ) : StackEvent τ → Received τ
  | .receive frame => s.processFrame w tr frame
  | .timers nowMs => ⟨(s.stepTimers w tr nowMs).1, (s.stepTimers w tr nowMs).2, []⟩
  | .send call => ⟨(s.send call).1, (s.send call).2, []⟩
  | .configureIpv6 address prefixLen gateway => ⟨s.configureIpv6Interface address prefixLen gateway, [], []⟩
  | .clearIpv6 => ⟨s.clearIpv6Interface, [], []⟩
  | .clearPathMtu destination => ⟨s.clearIpv6PathMtu destination, [], []⟩

def run (w : RouteWalk) (tr : Transport τ) (s : NetStack τ) (events : List (StackEvent τ)) : NetStack τ :=
  events.foldl (fun s e => (s.perform w tr e).state) s

theorem run_append (w : RouteWalk) (tr : Transport τ) (s : NetStack τ) (l₁ l₂ : List (StackEvent τ)) :
    s.run w tr (l₁ ++ l₂) = (s.run w tr l₁).run w tr l₂ := List.foldl_append

end NetStack

end SystemsLab.Net
