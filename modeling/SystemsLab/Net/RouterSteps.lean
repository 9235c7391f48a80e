import SystemsLab.Net.LabRouter

/-!
# What a step of the router leaves and what it sends

`Sends new r r' out`: the configuration stays, and each emitted frame and queued packet has an origin in `new` that
names what it carries, or was queued before. `HopOf` says what a forwarded packet can be.
-/

namespace SystemsLab.Net

open Function

variable {rawFrame data : List UInt8} {ingressLink : String} {egress : RouterInterface}

def Carries (frame : List UInt8) : Datagram → Prop
  | .ipv4 bytes => ∃ dst src, frame = EthernetFrame.serialize dst src ethertypeIpv4 bytes
  | .mpls bytes => ∃ dst src, frame = EthernetFrame.serialize dst src ethertypeMpls bytes

/-- The origin names what the frame carries; with `link` it is neither IPv4 nor MPLS. -/
def Emission.Faithful (em : Emission) : Prop :=
  match em.origin with
  | .link => ∃ dst src ethertype payload, ethertype ∉ [ethertypeIpv4, ethertypeMpls] ∧
      em.frame = EthernetFrame.serialize dst src ethertype payload
  | .bridged => True
  | .originated packet => Carries em.frame (.ipv4 packet)
  | .forwarded hop => Carries em.frame hop.sent
  | .earlier packet => Carries em.frame (.ipv4 packet)

def Queued.Faithful (q : Queued) : Prop :=
  match q.origin with
  | .link | .bridged => False
  | .originated packet => packet = q.packet
  | .forwarded hop => hop.sent = .ipv4 q.packet
  | .earlier packet => packet = q.packet

theorem Queued.Faithful.emission {q : Queued} (h : q.Faithful) {em : Emission} (horigin : em.origin = q.origin)
    (hcarries : Carries em.frame (.ipv4 q.packet)) : em.Faithful := by
  rw [Queued.Faithful] at h
  rw [Emission.Faithful, horigin]
  cases horigin' : q.origin with
  | link | bridged => rw [horigin'] at h; cases h
  | originated packet | earlier packet =>
    rw [horigin'] at h
    exact h ▸ hcarries
  | forwarded hop =>
    rw [horigin'] at h
    have hsent : hop.sent = .ipv4 q.packet := h
    change Carries em.frame hop.sent
    exact hsent ▸ hcarries

theorem octet_take {n i : Nat} (h : i < n) : octet (data.take n) i = octet data i := by
  rw [octet, octet, List.getD_eq_getElem?_getD, List.getD_eq_getElem?_getD, List.getElem?_take_of_lt h]

theorem Ipv4Packet.Reads.five_le {p : Ipv4Packet} (h : p.Reads data) : 5 ≤ (octet data 0 &&& 0x0F).toNat := by
  have hge := h.ihl_ge
  rw [Ipv4Header.headerLenBytes, h.ihl] at hge
  omega

theorem Ipv4Packet.Reads.totalLength_gt {p : Ipv4Packet} (h : p.Reads data) : 8 < p.header.totalLength.toNat := by
  have := h.headerLen_le
  have := h.ihl_ge
  omega

namespace LabRouter
variable {σ : Type} {cp : ControlPlane σ} {r r' r₁ r₂ : LabRouter σ} {new new' : Origin → Prop}
  {out out₁ out₂ : List Emission}
variable {nextHop : Ipv4Address} {packet : List UInt8} {h : Hop} {ingress : RouterInterface} {eth : EthernetFrame}
  {p : Ipv4Packet}

def Queues (r : LabRouter σ) (q : Queued) : Prop := ∃ key, q ∈ r.pendingTransitPackets key

structure Sends (new : Origin → Prop) (r r' : LabRouter σ) (out : List Emission) : Prop where
  firewall : r'.firewall = r.firewall
  interfaces : r'.interfaces = r.interfaces
  routingTable : r'.routingTable = r.routingTable
  emitted : ∀ em ∈ out, new em.origin ∧ em.Faithful ∨
    ∃ q, r.Queues q ∧ em.origin = q.origin ∧ Carries em.frame (.ipv4 q.packet)
  queued : ∀ q, r'.Queues q → new q.origin ∧ q.Faithful ∨ r.Queues q

theorem Sends.nothing : Sends new r r [] := ⟨rfl, rfl, rfl, nofun, fun _ hq => .inr hq⟩

theorem Sends.mono (h : Sends new r r' out) (hnew : ∀ o, new o → new' o) : Sends new' r r' out :=
  { h with
    emitted := fun em hem => (h.emitted em hem).imp_left (And.imp_left (hnew _))
    queued := fun q hq => (h.queued q hq).imp_left (And.imp_left (hnew _)) }

theorem Sends.trans (h₁ : Sends new r r₁ out₁) (h₂ : Sends new r₁ r₂ out₂) : Sends new r r₂ (out₁ ++ out₂) where
  firewall := h₂.firewall.trans h₁.firewall
  interfaces := h₂.interfaces.trans h₁.interfaces
  routingTable := h₂.routingTable.trans h₁.routingTable
  emitted em hem := by
    rcases List.mem_append.mp hem with hem | hem
    · exact h₁.emitted em hem
    · obtain hnew | ⟨q, hq, horigin, hcarries⟩ := h₂.emitted em hem
      · exact .inl hnew
      · obtain ⟨hnew, hfaithful⟩ | hq := h₁.queued q hq
        · exact .inl ⟨horigin ▸ hnew, hfaithful.emission horigin hcarries⟩
        · exact .inr ⟨q, hq, horigin, hcarries⟩
  queued q hq := (h₂.queued q hq).elim .inl (h₁.queued q)

theorem Sends.of_eq (h : Sends new r₁ r₂ out) (hfirewall : r₁.firewall = r.firewall)
    (hinterfaces : r₁.interfaces = r.interfaces)
    (htable : r₁.routingTable = r.routingTable) (hpending : r₁.pendingTransitPackets = r.pendingTransitPackets) :
    Sends new r r₂ out where
  firewall := h.firewall.trans hfirewall
  interfaces := h.interfaces.trans hinterfaces
  routingTable := h.routingTable.trans htable
  emitted em hem := (h.emitted em hem).imp_right fun ⟨q, ⟨key, hq⟩, hem⟩ => ⟨q, ⟨key, hpending ▸ hq⟩, hem⟩
  queued q hq := (h.queued q hq).imp_right fun ⟨key, hq⟩ => ⟨key, hpending ▸ hq⟩

theorem Sends.emit (h : ∀ em ∈ out, new em.origin ∧ em.Faithful) : Sends new r r out :=
  ⟨rfl, rfl, rfl, fun em hem => .inl (h em hem), fun _ hq => .inr hq⟩

theorem faithful_arp (linkName : String) (dst src : MacAddress) (payload : List UInt8) :
    (Emission.mk linkName (EthernetFrame.serialize dst src ethertypeArp payload) .link).Faithful :=
  ⟨dst, src, ethertypeArp, payload, by decide, rfl⟩

theorem sends_via {origin : Origin} (hlink : new .link)
    (horigin : new origin) (hfaithful : (Queued.mk packet origin).Faithful) :
    Sends new r (r.sendVia egress nextHop packet origin).1 (r.sendVia egress nextHop packet origin).2 := by
  rw [sendVia]
  split
  · refine .emit fun em hem => ?_
    obtain rfl := List.mem_singleton.mp hem
    exact ⟨horigin, hfaithful.emission rfl ⟨_, _, rfl⟩⟩
  · refine ⟨rfl, rfl, rfl, fun em hem => ?_, ?_⟩
    · obtain rfl := List.mem_singleton.mp hem
      exact .inl ⟨hlink, faithful_arp _ _ _ _⟩
    · rintro q ⟨key, hq⟩
      dsimp only at hq
      by_cases hkey : key = (egress.name, nextHop)
      · rw [hkey, update_self, List.mem_append, List.mem_singleton] at hq
        rcases hq with hq | rfl
        · exact .inr ⟨_, hq⟩
        · exact .inl ⟨horigin, hfaithful⟩
      · rw [update_of_ne hkey] at hq
        exact .inr ⟨key, hq⟩

def Own : Origin → Prop
  | .link | .bridged | .originated _ => True
  | .forwarded _ | .earlier _ => False

section
variable (r)

theorem sends_originated (egress : RouterInterface) (nextHop : Ipv4Address) (packet : List UInt8) :
    Sends Own r (r.sendVia egress nextHop packet (.originated packet)).1
      (r.sendVia egress nextHop packet (.originated packet)).2 :=
  sends_via trivial trivial rfl

theorem sends_emitFromLocalStack (srcIp dstIp : Ipv4Address) (protocol : UInt8) (payload : List UInt8) :
    Sends Own r (r.emitFromLocalStack srcIp dstIp protocol payload).1
      (r.emitFromLocalStack srcIp dstIp protocol payload).2 := by
  rw [emitFromLocalStack]
  split
  · exact .nothing
  · exact (sends_originated _ _ _ _).of_eq rfl rfl rfl rfl

theorem sends_emitAll (txs : List SocketTransmission) : Sends Own r (r.emitAll txs).1 (r.emitAll txs).2 := by
  induction txs generalizing r with
  | nil => exact .nothing
  | cons tx txs ih => exact (sends_emitFromLocalStack r _ _ _ _).trans (ih _)

theorem sends_ipv6 (txs : List Ipv6Transmission) : Sends Own r r (ipv6Emissions txs) := by
  refine .emit fun em hem => ?_
  obtain ⟨tx, -, rfl⟩ := List.mem_map.mp hem
  exact ⟨trivial, _, _, ethertypeIpv6, _, by decide, rfl⟩

theorem sends_sendVxlan (sourceIp : Ipv4Address) (vni : UInt32) (remoteVtep : Ipv4Address) (inner : List UInt8) :
    Sends Own r (r.sendVxlan sourceIp vni remoteVtep inner).1 (r.sendVxlan sourceIp vni remoteVtep inner).2 := by
  rw [sendVxlan]
  split
  · exact .nothing
  · dsimp only
    split
    · exact Sends.nothing.of_eq rfl rfl rfl rfl
    · exact (sends_originated _ _ _ _).of_eq rfl rfl rfl rfl

end

theorem sends_encapsulateVxlan (cp : ControlPlane σ) (r : LabRouter σ) (vni : UInt32) (remoteVtep : Ipv4Address)
    (inner : List UInt8) :
    Sends Own r (r.encapsulateVxlan cp vni remoteVtep inner).1 (r.encapsulateVxlan cp vni remoteVtep inner).2 := by
  rw [encapsulateVxlan]
  split
  · exact .nothing
  · exact sends_sendVxlan r _ _ _ _

theorem sends_floodVxlan (cp : ControlPlane σ) (vni : UInt32) (inner : List UInt8) (r : LabRouter σ)
    (remotes : List Ipv4Address) :
    Sends Own r (floodVxlan cp vni inner r remotes).1 (floodVxlan cp vni inner r remotes).2 := by
  induction remotes generalizing r with
  | nil => exact .nothing
  | cons remote remotes ih => exact (sends_encapsulateVxlan cp r _ _ _).trans (ih _)

theorem sends_evpnAccessIngress (cp : ControlPlane σ) (r : LabRouter σ) (ingress : RouterInterface)
    (rawFrame : List UInt8) :
    Sends Own r (r.evpnAccessIngress cp ingress rawFrame).1 (r.evpnAccessIngress cp ingress rawFrame).2 := by
  rw [evpnAccessIngress]
  split
  · exact .nothing
  dsimp only
  split
  · split
    · refine Sends.of_eq (.emit fun em hem => ?_) rfl rfl rfl rfl
      obtain rfl := List.mem_singleton.mp hem
      exact ⟨trivial, trivial⟩
    · exact Sends.nothing.of_eq rfl rfl rfl rfl
  · exact (sends_encapsulateVxlan cp _ _ _ _).of_eq rfl rfl rfl rfl
  · exact (sends_floodVxlan cp _ _ _ _).of_eq rfl rfl rfl rfl
  · exact Sends.nothing.of_eq rfl rfl rfl rfl

theorem sends_staticTunnelIngress (r : LabRouter σ) (tunnel : UInt32 × Ipv4Address × String)
    (rawFrame : List UInt8) :
    Sends Own r (r.staticTunnelIngress tunnel rawFrame).1 (r.staticTunnelIngress tunnel rawFrame).2 := by
  rw [staticTunnelIngress]
  split
  · exact .nothing
  · exact sends_sendVxlan r _ _ _ _

theorem sends_receiveArp (r : LabRouter σ) (ingress : RouterInterface) (ingressLink : String) (arp : ArpPacket) :
    Sends Own r (r.receiveArp ingress ingressLink arp).1 (r.receiveArp ingress ingressLink arp).2 where
  firewall := rfl
  interfaces := rfl
  routingTable := rfl
  emitted em hem := by
    rw [receiveArp] at hem
    rcases List.mem_append.mp hem with hem | hem
    · obtain ⟨q, hq, rfl⟩ := List.mem_map.mp hem
      exact .inr ⟨q, ⟨_, hq⟩, rfl, _, _, rfl⟩
    · split at hem
      · obtain rfl := List.mem_singleton.mp hem
        exact .inl ⟨trivial, faithful_arp _ _ _ _⟩
      · cases hem
  queued := by
    rintro q ⟨key, hq⟩
    rw [receiveArp] at hq
    dsimp only at hq
    by_cases hkey : key = (ingress.name, arp.senderIp)
    · rw [hkey, update_self] at hq
      cases hq
    · rw [update_of_ne hkey] at hq
      exact .inr ⟨key, hq⟩

/-! ## Received packets -/

def OwnOr (hops : List Hop) (o : Origin) : Prop := Own o ∨ ∃ h ∈ hops, o = .forwarded h

theorem OwnOr.of_own {hops : List Hop} (o : Origin) (h : Own o) : OwnOr hops o := .inl h

abbrev SendsAll (r : LabRouter σ) (result : LabRouter σ × Effects) : Prop :=
  Sends (OwnOr result.2.hops) r result.1 result.2.out

theorem sendsAll_via (hsent : h.sent = .ipv4 packet) :
    SendsAll r ((r.sendVia egress nextHop packet (.forwarded h)).1,
      { out := (r.sendVia egress nextHop packet (.forwarded h)).2, hops := [h] }) :=
  sends_via (.inl trivial) (.inr ⟨h, List.mem_singleton_self h, rfl⟩) hsent

theorem sendsAll_labelled {bytes : List UInt8} (hsent : h.sent = .mpls bytes) :
    SendsAll r (r, {
      out := [⟨egress.linkName, EthernetFrame.serialize .broadcast egress.mac ethertypeMpls bytes, .forwarded h⟩]
      hops := [h] }) := by
  refine .emit fun em hem => ?_
  obtain rfl := List.mem_singleton.mp hem
  refine ⟨.inr ⟨h, List.mem_singleton_self h, rfl⟩, ?_⟩
  change Carries _ h.sent
  exact hsent ▸ ⟨_, _, rfl⟩

/-- The RIP port of the router or its VXLAN port takes the datagram. -/
def takesUdp (cp : ControlPlane σ) (r : LabRouter σ) (dst : Ipv4Address) (udp : UdpDatagram) : Bool :=
  udp.dstPort = ripPort || udp.dstPort = vxlanUdpPort && r.isForRouter dst &&
    (VxlanPacket.parse udp.payload).toOption.any fun vxlan =>
      cp.hasVni r.control vxlan.header.vni || ((r.vxlanVniToAccess vxlan.header.vni).bind r.interfaceNamed).isSome

def intercepts (cp : ControlPlane σ) (r : LabRouter σ) (p : Ipv4Packet) : Bool :=
  p.header.protocol = .udp &&
    (UdpDatagram.parse p.header.srcIp p.header.dstIp p.payload false).toOption.any (r.takesUdp cp p.header.dstIp)

theorem isSome_receiveUdp (cp : ControlPlane σ) (r : LabRouter σ) (ingress : RouterInterface) (eth : EthernetFrame)
    (p : Ipv4Packet) (udp : UdpDatagram) :
    (r.receiveUdp cp ingress eth p udp).isSome = r.takesUdp cp p.header.dstIp udp := by
  rw [receiveUdp, takesUdp]
  split
  · rename_i hrip
    rw [decide_eq_true hrip, Bool.true_or]
    split <;> rfl
  rename_i hrip
  rw [decide_eq_false hrip, Bool.false_or]
  split
  · rename_i hvxlan
    rw [decide_eq_true hvxlan.1, hvxlan.2]
    cases VxlanPacket.parse udp.payload with
    | error e => rfl
    | ok vxlan =>
      change _ = (cp.hasVni r.control vxlan.header.vni || _)
      dsimp only
      split
      · rename_i hvni
        rw [hvni]
        rfl
      · rename_i hvni
        rw [Bool.not_eq_true] at hvni
        rw [hvni, Bool.false_or]
        split
        · rename_i hport
          rw [hport]
          rfl
        · rename_i hport
          rw [hport]
          rfl
  · rename_i hvxlan
    rw [Option.isSome_none, eq_comm, Bool.and_eq_false_iff, ← Bool.not_eq_true, Bool.and_eq_true, decide_eq_true_eq]
    exact .inl hvxlan

def pushRoute (r : LabRouter σ) (dst : Ipv4Address) : Option (Nat × RouterInterface) := do
  let push ← r.mplsPushRoutes dst
  let egress ← r.interfaceNamed push.2
  pure (push.1, egress)

/-- An admitted packet that no port of the router intercepts, and whether it is addressed to the router. -/
structure Ipv4Input (cp : ControlPlane σ) (r : LabRouter σ) (ingress : RouterInterface) (eth : EthernetFrame)
    (p : Ipv4Packet)
    (isLocal : Bool) : Prop where
  ethertype : eth.ethertype = .ipv4
  parse : Ipv4Packet.parse eth.payload true = .ok p
  admitted : r.admits p
  udp : r.intercepts cp p = false
  isLocal_eq : r.isForRouter p.header.dstIp = isLocal

inductive HopOf (cp : ControlPlane σ) (r : LabRouter σ) (ingress : RouterInterface)
    (eth : EthernetFrame) : Hop → Prop
  | transit {p : Ipv4Packet} {forwarded sent : List UInt8} (hin : Ipv4Input cp r ingress eth p false)
      (hdecrement : Ipv4Packet.decrementTtlInPlace (eth.payload.take p.header.totalLength.toNat) =
        .ok (some forwarded))
      (hsent : SameHead forwarded sent) : HopOf cp r ingress eth ⟨.transit, .ipv4 eth.payload, .ipv4 sent⟩
  | dnat {p : Ipv4Packet} {sent : List UInt8} {way : RouterInterface × Ipv4Address}
      (hin : Ipv4Input cp r ingress eth p true)
      (htarget : r.dnatTarget ingress eth.payload = some (sent, way)) :
      HopOf cp r ingress eth ⟨.dnat, .ipv4 eth.payload, .ipv4 sent⟩
  | push {p : Ipv4Packet} {label : Nat} {egress : RouterInterface} (hin : Ipv4Input cp r ingress eth p false)
      (httl : 1 < p.header.ttl) (hroute : r.pushRoute p.header.dstIp = some (label, egress)) :
      HopOf cp r ingress eth ⟨.push, .ipv4 eth.payload,
        .mpls (MplsPacket.mk [MplsHeader.new label 0 true 64] eth.payload).serialize⟩
  | swap {top : MplsHeader} {labels : List MplsHeader} {inner : List UInt8} {lfib : LfibTable} {label : Nat}
      {name : String}
      {egress : RouterInterface} (htype : eth.ethertype = .mpls)
      (hparse : MplsPacket.parse eth.payload = .ok ⟨top :: labels, inner⟩) (hlfib : r.lfib = some lfib)
      (hswap : lfib.lookup top.label = some (.swap label name)) (hegress : r.interfaceNamed name = some egress) :
      HopOf cp r ingress eth ⟨.swap, .mpls eth.payload,
        .mpls (MplsPacket.mk (swapLabel label top :: labels) inner).serialize⟩
  | pop {inner : List UInt8} (htype : eth.ethertype = .mpls) :
      HopOf cp r ingress eth ⟨.pop, .mpls eth.payload, .ipv4 inner⟩

def Leaves (h : Hop) (result : LabRouter σ × Effects) : Prop :=
  (∃ em ∈ result.2.out, em.origin = .forwarded h ∧ Carries em.frame h.sent) ∨
    ∃ key packet, ⟨packet, .forwarded h⟩ ∈ result.1.pendingTransitPackets key ∧ h.sent = .ipv4 packet

def Forwards (cp : ControlPlane σ) (r : LabRouter σ) (ingress : RouterInterface) (eth : EthernetFrame)
    (result : LabRouter σ × Effects) : Prop :=
  ∀ h ∈ result.2.hops, HopOf cp r ingress eth h ∧ Leaves h result

theorem forwards_via {nextHop : Ipv4Address} (hh : HopOf cp r ingress eth h) (hsent : h.sent = .ipv4 packet) :
    Forwards cp r ingress eth ((r'.sendVia egress nextHop packet (.forwarded h)).1,
      { out := (r'.sendVia egress nextHop packet (.forwarded h)).2, hops := [h] }) := by
  rintro h' hh'
  obtain rfl := List.mem_singleton.mp hh'
  refine ⟨hh, ?_⟩
  rw [sendVia]
  split
  · rename_i dstMac _
    exact .inl ⟨_, List.mem_singleton_self _, rfl, by rw [hsent]; exact ⟨dstMac, egress.mac, rfl⟩⟩
  · refine .inr ⟨(egress.name, nextHop), packet, ?_, hsent⟩
    dsimp only
    rw [Function.update_self]
    exact List.mem_append_right _ (List.mem_singleton_self _)

theorem forwards_labelled {bytes : List UInt8} (hh : HopOf cp r ingress eth h) (hsent : h.sent = .mpls bytes) :
    Forwards cp r ingress eth (r, {
      out := [⟨egress.linkName, EthernetFrame.serialize .broadcast egress.mac ethertypeMpls bytes, .forwarded h⟩]
      hops := [h] }) := by
  rintro h' hh'
  obtain rfl := List.mem_singleton.mp hh'
  exact ⟨hh, .inl ⟨_, List.mem_singleton_self _, rfl, by rw [hsent]; exact ⟨_, _, rfl⟩⟩⟩

structure Handles (cp : ControlPlane σ) (r : LabRouter σ) (ingress : RouterInterface) (eth : EthernetFrame)
    (result : LabRouter σ × Effects) : Prop where
  sends : SendsAll r result
  forwards : Forwards cp r ingress eth result

theorem Handles.own {effects : Effects} (h : Sends Own r r' effects.out) (hhops : effects.hops = []) :
    Handles cp r ingress eth (r', effects) := by
  refine ⟨h.mono OwnOr.of_own, fun h hh => ?_⟩
  rw [hhops] at hh
  cases hh

theorem Handles.nothing {delivered : List Delivery} : Handles cp r ingress eth (r, { delivered }) :=
  .own .nothing rfl

theorem handles_receiveMpls (htype : eth.ethertype = .mpls) :
    Handles cp r ingress eth (r.receiveMpls eth.payload) := by
  rw [receiveMpls]
  split
  · rename_i top labels inner lfib hparse hlfib
    split
    · rename_i hswap
      split
      · rename_i hegress
        exact ⟨sendsAll_labelled rfl, forwards_labelled (.swap htype hparse hlfib hswap hegress) rfl⟩
      · exact .nothing
    · split
      · split
        · exact ⟨sendsAll_via rfl, forwards_via (.pop htype) rfl⟩
        · exact .nothing
      · exact .nothing
    · exact .nothing
  · exact .nothing

theorem sends_sendIcmp (r : LabRouter σ) (ingress : RouterInterface) (ingressLink : String) (eth : EthernetFrame)
    (srcIp dstIp : Ipv4Address) (message : List UInt8) :
    Sends Own r (r.sendIcmp ingress ingressLink eth srcIp dstIp message).1
      (r.sendIcmp ingress ingressLink eth srcIp dstIp message).2.out := by
  refine Sends.of_eq (.emit fun em hem => ?_) rfl rfl rfl rfl
  obtain rfl := List.mem_singleton.mp hem
  exact ⟨trivial, _, _, rfl⟩

theorem translateTransit_sameHead (hihl : 5 ≤ (octet packet 0 &&& 0x0F).toNat) :
    SameHead packet (r.translateTransit ingress egress packet).2 := by
  rw [translateTransit]
  split
  · split
    · split
      · rename_i htranslate
        exact NatTable.translateOutbound_sameHead hihl htranslate
      · exact SameHead.refl packet
    · exact SameHead.refl packet
  · exact SameHead.refl packet

theorem handles_receiveLocal (hin : Ipv4Input cp r ingress eth p true) :
    Handles cp r ingress eth (r.receiveLocal cp ingress ingressLink eth p) := by
  rw [receiveLocal]
  split
  · rename_i buf egress nextHop htarget
    exact ⟨sendsAll_via rfl, forwards_via (.dnat hin htarget) rfl⟩
  split
  · exact .own ((sends_emitAll _ _).of_eq rfl rfl rfl rfl) rfl
  split
  · split
    · split
      · exact .own (sends_sendIcmp r _ _ _ _ _ _) rfl
      · exact .nothing
    · exact .nothing
  · exact .nothing

theorem handles_forwardTransit (hin : Ipv4Input cp r ingress eth p false) :
    Handles cp r ingress eth (r.forwardTransit ingress ingressLink eth p) := by
  have hreads := Ipv4Packet.reads_of_parse hin.parse
  rw [forwardTransit]
  split
  · split
    · exact .own (sends_sendIcmp r _ _ _ _ _ _) rfl
    · exact .nothing
  rename_i httl
  split
  · rename_i hroute
    exact ⟨sendsAll_labelled rfl, forwards_labelled (.push hin (UInt8.not_le.mp httl) hroute) rfl⟩
  split
  · split
    · exact .own (sends_sendIcmp r _ _ _ _ _ _) rfl
    · exact .nothing
  split
  · exact .nothing
  split
  · rename_i forwarded hdecrement
    obtain ⟨-, -, -, hzero⟩ := Ipv4Packet.decrementTtlInPlace_eq_some hdecrement
    rw [octet_take (Nat.zero_lt_of_lt hreads.totalLength_gt)] at hzero
    refine ⟨(sendsAll_via rfl).of_eq ?_ ?_ ?_ ?_, forwards_via (.transit hin hdecrement
      (translateTransit_sameHead (hzero ▸ hreads.five_le))) rfl⟩
    all_goals
      rw [translateTransit]
      split
      · split
        · split <;> rfl
        · rfl
      · rfl
  · exact .nothing

/-- A datagram that is intercepted goes to RIP or is bridged. -/
theorem receiveUdp_cases {udp : UdpDatagram} {result : LabRouter σ × Effects}
    (h : r.receiveUdp cp ingress eth p udp = some result) :
    result.2.hops = [] ∧ (Sends Own r result.1 result.2.out ∨
      udp.dstPort = ripPort ∧ ∃ rip pkt, r.ripEngine = some rip ∧ RipPacket.parse udp.payload = .ok pkt) := by
  rw [receiveUdp] at h
  split at h
  · rename_i hport
    split at h
    · rename_i rip pkt hengine hpkt
      cases h
      exact ⟨rfl, .inr ⟨hport, rip, pkt, hengine, hpkt⟩⟩
    · cases h
      exact ⟨rfl, .inl .nothing⟩
  split at h
  · split at h
    · cases h
    split at h
    · cases h
      refine ⟨rfl, .inl (.emit fun em hem => ?_)⟩
      obtain ⟨access, -, rfl⟩ := List.mem_map.mp hem
      exact ⟨trivial, trivial⟩
    · split at h
      · cases h
        refine ⟨rfl, .inl (.emit fun em hem => ?_)⟩
        obtain rfl := List.mem_singleton.mp hem
        exact ⟨trivial, trivial⟩
      · cases h
  · cases h

theorem dispatchIpv4_cases (htype : eth.ethertype = .ipv4) (hparse : Ipv4Packet.parse eth.payload true = .ok p)
    (hadmitted : r.admits p) :
    Handles cp r ingress eth (r.dispatchIpv4 cp ingress ingressLink eth p) ∨
      (r.dispatchIpv4 cp ingress ingressLink eth p).2.hops = [] ∧
        ∃ udp rip pkt, UdpDatagram.parse p.header.srcIp p.header.dstIp p.payload false = .ok udp ∧
          p.header.protocol = .udp ∧
          udp.dstPort = ripPort ∧ r.ripEngine = some rip ∧ RipPacket.parse udp.payload = .ok pkt := by
  rw [dispatchIpv4]
  split
  · rename_i handled hudp
    split at hudp
    · rename_i udp hdatagram
      split at hudp
      · rename_i hproto
        obtain ⟨hhops, hsends | ⟨hport, rip, pkt, hrip⟩⟩ := receiveUdp_cases hudp
        · exact .inl (.own hsends hhops)
        · exact .inr ⟨hhops, udp, rip, pkt, hdatagram, hproto, hport, hrip⟩
      · cases hudp
    · cases hudp
  · rename_i hudp
    have hin {isLocal : Bool} (hlocal : r.isForRouter p.header.dstIp = isLocal) :
        Ipv4Input cp r ingress eth p isLocal := by
      refine ⟨htype, hparse, hadmitted, ?_, hlocal⟩
      rw [intercepts]
      split at hudp
      · rename_i udp hdatagram
        rw [hdatagram]
        split at hudp
        · change (_ && r.takesUdp cp p.header.dstIp udp) = false
          rw [← isSome_receiveUdp, hudp, Option.isSome_none, Bool.and_false]
        · rename_i hproto
          rw [decide_eq_false hproto, Bool.false_and]
      · rename_i hdatagram
        rw [hdatagram]
        exact Bool.and_false _
    split
    · rename_i hlocal
      exact .inl (handles_receiveLocal (hin hlocal))
    · rename_i hlocal
      exact .inl (handles_forwardTransit (hin (Bool.not_eq_true _ ▸ hlocal)))

theorem Ipv4Input.dispatchIpv4 {isLocal : Bool} (h : Ipv4Input cp r ingress eth p isLocal) :
    r.dispatchIpv4 cp ingress ingressLink eth p =
      if isLocal then r.receiveLocal cp ingress ingressLink eth p
      else r.forwardTransit ingress ingressLink eth p := by
  have hudp := h.udp
  rw [intercepts] at hudp
  rw [LabRouter.dispatchIpv4, h.isLocal_eq]
  split
  · rename_i handled hsome
    split at hsome
    · rename_i udp hdatagram
      split at hsome
      · rename_i hproto
        rw [decide_eq_true hproto, hdatagram, Bool.true_and] at hudp
        have htakes : r.takesUdp cp p.header.dstIp udp = false := hudp
        rw [← isSome_receiveUdp cp r ingress eth p, hsome] at htakes
        cases htakes
      · cases hsome
    · cases hsome
  · rfl

theorem HopOf.of_learnArp {interface : String} {ip : Ipv4Address} {mac : MacAddress}
    (hh : HopOf cp (r.learnArp interface ip mac) ingress eth h) : HopOf cp r ingress eth h := by
  have hin {p : Ipv4Packet} {isLocal : Bool}
      (h : Ipv4Input cp (r.learnArp interface ip mac) ingress eth p isLocal) :
      Ipv4Input cp r ingress eth p isLocal :=
    ⟨h.ethertype, h.parse, h.admitted, h.udp, h.isLocal_eq⟩
  cases hh with
  | transit h hdecrement hsent => exact .transit (hin h) hdecrement hsent
  | dnat h htarget => exact .dnat (hin h) htarget
  | push h httl hroute => exact .push (hin h) httl hroute
  | swap htype hparse hlfib hswap hegress => exact .swap htype hparse hlfib hswap hegress
  | pop htype => exact .pop htype

/-! ## Received frames -/

/-- The frame a router reads itself, and the interface it came in by. -/
def linkInput (cp : ControlPlane σ) (r : LabRouter σ) (ingressLink : String) (rawFrame : List UInt8) :
    Option (RouterInterface × EthernetFrame) :=
  (r.interfaces.find? (·.linkName = ingressLink)).bind fun ingress =>
    if (cp.vniForAccess r.control ingress.name).isSome ∨ (r.vxlanTunnels ingress.name).isSome then none else
      (EthernetFrame.parse rawFrame).toOption.bind fun eth =>
        if eth.dstMac.isBroadcast ∨ eth.dstMac.isMulticast ∨ eth.dstMac = ingress.mac then some (ingress, eth)
        else none

def ipv4Input (cp : ControlPlane σ) (r : LabRouter σ) (ingressLink : String) (rawFrame : List UInt8) :
    Option (RouterInterface × EthernetFrame × Ipv4Packet) :=
  (r.linkInput cp ingressLink rawFrame).bind fun (ingress, eth) =>
    if eth.ethertype = .ipv4 then
      (Ipv4Packet.parse eth.payload true).toOption.bind fun p => if r.admits p then some (ingress, eth, p) else none
    else none

theorem eq_ok_of_toOption {ε α : Type} {x : Except ε α} {a : α} (h : x.toOption = some a) : x = .ok a := by
  cases x with
  | error e => cases h
  | ok b => cases h; rfl

theorem parse_of_linkInput (h : r.linkInput cp ingressLink rawFrame = some (ingress, eth)) :
    EthernetFrame.parse rawFrame = .ok eth := by
  simp only [linkInput, Option.bind_eq_some_iff, Option.ite_none_left_eq_some, Option.ite_none_right_eq_some] at h
  obtain ⟨_, -, -, _, heth, -, hsome⟩ := h
  cases hsome
  exact eq_ok_of_toOption heth

theorem ipv4Input_eq_some : r.ipv4Input cp ingressLink rawFrame = some (ingress, eth, p) ↔
    r.linkInput cp ingressLink rawFrame = some (ingress, eth) ∧ eth.ethertype = .ipv4 ∧
      Ipv4Packet.parse eth.payload true = .ok p ∧ r.admits p := by
  constructor
  · intro h
    obtain ⟨_, hlink, h⟩ := Option.bind_eq_some_iff.mp h
    obtain ⟨htype, h⟩ := Option.ite_none_right_eq_some.mp h
    obtain ⟨_, hparse, h⟩ := Option.bind_eq_some_iff.mp h
    obtain ⟨hadmitted, heq⟩ := Option.ite_none_right_eq_some.mp h
    cases heq
    exact ⟨hlink, htype, eq_ok_of_toOption hparse, hadmitted⟩
  · rintro ⟨hlink, htype, hparse, hadmitted⟩
    simp [ipv4Input, hlink, htype, hparse, hadmitted, Except.toOption]

/-- A frame is handled by the link, its label is looked up, or it is an admitted packet that is dispatched. -/
theorem processIncomingFrame_cases (cp : ControlPlane σ) (r : LabRouter σ) (ingressLink : String)
    (rawFrame : List UInt8) :
    (r.ipv4Input cp ingressLink rawFrame = none ∧
      ((Sends Own r (r.processIncomingFrame cp ingressLink rawFrame).1
        (r.processIncomingFrame cp ingressLink rawFrame).2.out ∧
          (r.processIncomingFrame cp ingressLink rawFrame).2.hops = [] ∧
          ∀ ingress eth, r.linkInput cp ingressLink rawFrame = some (ingress, eth) → eth.ethertype ≠ .mpls) ∨
        ∃ ingress eth, r.linkInput cp ingressLink rawFrame = some (ingress, eth) ∧ eth.ethertype = .mpls ∧
          r.processIncomingFrame cp ingressLink rawFrame = r.receiveMpls eth.payload)) ∨
    ∃ ingress eth p, r.ipv4Input cp ingressLink rawFrame = some (ingress, eth, p) ∧
      r.processIncomingFrame cp ingressLink rawFrame =
        (r.learnArp ingress.name p.header.srcIp eth.srcMac).dispatchIpv4 cp ingress ingressLink eth p := by
  have hnone (h : r.linkInput cp ingressLink rawFrame = none) : r.ipv4Input cp ingressLink rawFrame = none ∧
      ∀ ingress eth, r.linkInput cp ingressLink rawFrame = some (ingress, eth) → eth.ethertype ≠ .mpls := by
    rw [ipv4Input, h]
    exact ⟨rfl, nofun⟩
  rw [processIncomingFrame]
  split
  · rename_i hfind
    obtain ⟨hip, hmpls⟩ := hnone (by simp [linkInput, hfind])
    exact .inl ⟨hip, .inl ⟨.nothing, rfl, hmpls⟩⟩
  rename_i ingress hfind
  split
  · rename_i hvni
    obtain ⟨hip, hmpls⟩ := hnone (by simp [linkInput, hfind, hvni])
    exact .inl ⟨hip, .inl ⟨sends_evpnAccessIngress cp r _ _, rfl, hmpls⟩⟩
  rename_i hvni
  split
  · rename_i htunnel
    obtain ⟨hip, hmpls⟩ := hnone (by simp [linkInput, hfind, htunnel])
    exact .inl ⟨hip, .inl ⟨sends_staticTunnelIngress r _ _, rfl, hmpls⟩⟩
  rename_i htunnel
  split
  · rename_i heth
    obtain ⟨hip, hmpls⟩ := hnone (by simp [linkInput, hfind, heth, Except.toOption])
    exact .inl ⟨hip, .inl ⟨.nothing, rfl, hmpls⟩⟩
  rename_i eth heth
  have hinput : r.linkInput cp ingressLink rawFrame =
      if eth.dstMac.isBroadcast ∨ eth.dstMac.isMulticast ∨ eth.dstMac = ingress.mac then some (ingress, eth)
        else none := by
    simp [linkInput, hfind, hvni, htunnel, heth, Except.toOption]
  rw [receiveEthernet]
  split
  · rename_i hmac
    rw [if_pos hmac] at hinput
    have hother (h : eth.ethertype ≠ .mpls) :
        ∀ ingress eth, r.linkInput cp ingressLink rawFrame = some (ingress, eth) → eth.ethertype ≠ .mpls := by
      intro _ _ hin
      cases hinput.symm.trans hin
      exact h
    have hip (h : eth.ethertype ≠ .ipv4) : r.ipv4Input cp ingressLink rawFrame = none := by
      rw [ipv4Input, hinput]
      exact if_neg h
    split
    · rename_i htype
      refine .inl ⟨hip (by rw [htype]; decide), .inl ?_⟩
      split
      · exact ⟨sends_receiveArp r _ _ _, rfl, hother (by rw [htype]; decide)⟩
      · exact ⟨.nothing, rfl, hother (by rw [htype]; decide)⟩
    · rename_i htype
      exact .inl ⟨hip (by rw [htype]; decide), .inr ⟨ingress, eth, hinput, htype, rfl⟩⟩
    · rename_i htype
      exact .inl ⟨hip (by rw [htype]; decide),
        .inl ⟨(sends_ipv6 _ _).of_eq rfl rfl rfl rfl, rfl, hother (by rw [htype]; decide)⟩⟩
    · rename_i htype
      have hmpls := hother (by rw [htype]; decide)
      have hipv4 : r.ipv4Input cp ingressLink rawFrame = (Ipv4Packet.parse eth.payload true).toOption.bind fun p =>
          if r.admits p then some (ingress, eth, p) else none := by
        rw [ipv4Input, hinput]
        exact if_pos htype
      rw [receiveIpv4]
      split
      · rename_i hparse
        exact .inl ⟨by rw [hipv4, hparse]; rfl, .inl ⟨.nothing, rfl, hmpls⟩⟩
      rename_i p hparse
      split
      · rename_i hadmitted
        exact .inr ⟨ingress, eth, p, by rw [hipv4, hparse]; exact if_pos hadmitted, rfl⟩
      · rename_i hadmitted
        exact .inl ⟨by rw [hipv4, hparse]; exact if_neg hadmitted, .inl ⟨.nothing, rfl, hmpls⟩⟩
    · rename_i hmpls _ hipv4
      exact .inl ⟨hip hipv4, .inl ⟨.nothing, rfl, hother hmpls⟩⟩
  · rename_i hmac
    obtain ⟨hip, hmpls⟩ := hnone (by rw [hinput]; exact if_neg hmac)
    exact .inl ⟨hip, .inl ⟨.nothing, rfl, hmpls⟩⟩

theorem processIncomingFrame_ipv4 (h : r.ipv4Input cp ingressLink rawFrame = some (ingress, eth, p)) :
    r.processIncomingFrame cp ingressLink rawFrame =
      (r.learnArp ingress.name p.header.srcIp eth.srcMac).dispatchIpv4 cp ingress ingressLink eth p := by
  obtain ⟨hnone, -⟩ | ⟨_, _, _, hinput, hframe⟩ := processIncomingFrame_cases cp r ingressLink rawFrame
  · cases hnone.symm.trans h
  · cases hinput.symm.trans h
    exact hframe

theorem processIncomingFrame_mpls (h : r.linkInput cp ingressLink rawFrame = some (ingress, eth))
    (htype : eth.ethertype = .mpls) :
    r.processIncomingFrame cp ingressLink rawFrame = r.receiveMpls eth.payload := by
  obtain ⟨-, ⟨-, -, hmpls⟩ | ⟨_, _, hlink, -, hframe⟩⟩ | ⟨_, _, _, hinput, -⟩ :=
    processIncomingFrame_cases cp r ingressLink rawFrame
  · exact absurd htype (hmpls _ _ h)
  · cases hlink.symm.trans h
    exact hframe
  · obtain ⟨hlink, hipv4, -⟩ := ipv4Input_eq_some.mp hinput
    cases hlink.symm.trans h
    cases htype.symm.trans hipv4

/-! ## RIP -/

/-- The advertisement of a frame that RIP takes: the engine, the neighbour, the packet and the interface. -/
def ripInput (cp : ControlPlane σ) (r : LabRouter σ) (ingressLink : String) (rawFrame : List UInt8) :
    Option (RipEngine × Ipv4Address × RipPacket × String) :=
  (r.ipv4Input cp ingressLink rawFrame).bind fun (ingress, _, p) =>
    if p.header.protocol = .udp then
      (UdpDatagram.parse p.header.srcIp p.header.dstIp p.payload false).toOption.bind fun udp =>
        if udp.dstPort = ripPort then
          r.ripEngine.bind fun rip => (RipPacket.parse udp.payload).toOption.map fun pkt =>
            (rip, p.header.srcIp, pkt, ingress.name)
        else none
    else none

theorem processIncomingFrame_rip {rip : RipEngine} {neighborIp : Ipv4Address}
    {pkt : RipPacket} {interface : String}
    (h : r.ripInput cp ingressLink rawFrame = some (rip, neighborIp, pkt, interface)) :
    ∃ ingress eth p, r.ipv4Input cp ingressLink rawFrame = some (ingress, eth, p) ∧
      let rip := (rip.processAdvertisement neighborIp pkt interface).1
      r.processIncomingFrame cp ingressLink rawFrame =
        ({ r.learnArp ingress.name p.header.srcIp eth.srcMac with
          ripEngine := some rip, routingTable := rip.routes }, { delivered := [⟨.rip, eth.payload⟩] }) := by
  obtain ⟨⟨ingress, eth, p⟩, hinput, h⟩ := Option.bind_eq_some_iff.mp h
  simp only [Option.bind_eq_some_iff, Option.ite_none_right_eq_some, Option.map_eq_some_iff, Prod.mk.injEq] at h
  obtain ⟨hudp, udp, hparse, hport, rip', hengine, pkt', hpkt, rfl, rfl, rfl, rfl⟩ := h
  refine ⟨ingress, eth, p, hinput, ?_⟩
  have hengine' : (r.learnArp ingress.name p.header.srcIp eth.srcMac).ripEngine = some rip' := hengine
  simp only [processIncomingFrame_ipv4 hinput, dispatchIpv4, eq_ok_of_toOption hparse, hudp, receiveUdp,
    hport, hengine', eq_ok_of_toOption hpkt, if_true]

theorem processIncomingFrame_handles (cp : ControlPlane σ) (r : LabRouter σ) (ingressLink : String)
    (rawFrame : List UInt8) :
    (∀ h ∈ (r.processIncomingFrame cp ingressLink rawFrame).2.hops, ∃ ingress eth,
      r.linkInput cp ingressLink rawFrame = some (ingress, eth) ∧ HopOf cp r ingress eth h ∧
        Leaves h (r.processIncomingFrame cp ingressLink rawFrame)) ∧
    (r.ripInput cp ingressLink rawFrame = none → SendsAll r (r.processIncomingFrame cp ingressLink rawFrame)) := by
  obtain ⟨-, ⟨hsends, hhops, -⟩ | ⟨ingress, eth, hlink, htype, hframe⟩⟩ | ⟨ingress, eth, p, hinput, hframe⟩ :=
    processIncomingFrame_cases cp r ingressLink rawFrame
  · rw [hhops]
    exact ⟨nofun, fun _ => hsends.mono OwnOr.of_own⟩
  · have h := @handles_receiveMpls _ cp r ingress eth htype
    rw [hframe]
    exact ⟨fun hop hh => ⟨ingress, eth, hlink, h.forwards hop hh⟩, fun _ => h.sends⟩
  · obtain ⟨hlink, htype, hparse, hadmitted⟩ := ipv4Input_eq_some.mp hinput
    have hcases := @dispatchIpv4_cases ingressLink _ cp
      (r.learnArp ingress.name p.header.srcIp eth.srcMac) ingress eth p htype hparse hadmitted
    rw [← hframe] at hcases
    obtain h | ⟨hhops, udp, rip, pkt, hudp, hproto, hport, hengine, hpkt⟩ := hcases
    · exact ⟨fun hop hh => ⟨ingress, eth, hlink, (h.forwards hop hh).imp_left HopOf.of_learnArp⟩,
        fun _ => h.sends.of_eq rfl rfl rfl rfl⟩
    · have hengine : r.ripEngine = some rip := hengine
      rw [hhops]
      exact ⟨nofun, fun hnot => by simp [ripInput, hinput, hproto, hudp, hport, hengine, hpkt,
        Except.toOption] at hnot⟩

end LabRouter

end SystemsLab.Net
