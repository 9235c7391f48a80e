import SystemsLab.Net.RouterSteps

/-!
# Who owns a route

What RIP learns goes into a table of its own as static routes, and that table replaces the router's; what OSPF
computes is added as static routes.
-/

namespace SystemsLab.Net

def OnlyOwn (own : RouteSource) (old new : RoutingTable) : Prop :=
  (∀ e ∈ old, e.source ≠ own → e ∈ new) ∧ ∀ e ∈ new, e ∉ old → e.source = own

def RouteEntry.LastOf (es : List RouteEntry) (e : RouteEntry) : Prop :=
  lastWrite (es.map fun e => (e.key, e)) e.key = some e

theorem RouteEntry.LastOf.mem {es : List RouteEntry} {e : RouteEntry} (h : e.LastOf es) : e ∈ es := by
  obtain ⟨e', he', heq⟩ := List.mem_map.mp (lastWrite_mem h)
  exact (Prod.mk.inj heq).2 ▸ he'

namespace RoutingTable
variable {own : RouteSource} {old t : RoutingTable} {es : List RouteEntry}

theorem onlyOwn_iff : OnlyOwn own old t ↔ ∀ e : RouteEntry, e.source ≠ own → (e ∈ old ↔ e ∈ t) := by
  constructor
  · rintro ⟨hkeep, hnew⟩ e he
    exact ⟨fun hmem => hkeep e hmem he, fun hmem => by_contra fun hnot => he (hnew e hmem hnot)⟩
  · intro h
    exact ⟨fun e hmem he => (h e he).mp hmem, fun e hmem hnot => by_contra fun he => hnot ((h e he).mpr hmem)⟩

theorem exists_lastOf {e : RouteEntry} (h : e.key ∈ es.map RouteEntry.key) :
    ∃ e' : RouteEntry, e'.key = e.key ∧ e'.LastOf es := by
  have hkeys : (es.map fun e => (e.key, e)).map Prod.fst = es.map RouteEntry.key := by simp
  cases hlast : lastWrite (es.map fun e => (e.key, e)) e.key with
  | none => exact absurd (hkeys ▸ h) (lastWrite_eq_none.mp hlast)
  | some e' =>
    obtain ⟨e'', -, heq⟩ := List.mem_map.mp (lastWrite_mem hlast)
    obtain ⟨hkey, rfl⟩ := Prod.mk.inj heq
    exact ⟨e'', hkey, by rw [RouteEntry.LastOf, hkey, hlast]⟩

theorem onlyOwn_putAll (hes : ∀ e ∈ es, e.source ≠ own) :
    OnlyOwn own old (t.putAll es) ↔
      (∀ e : RouteEntry, e.LastOf es → e ∈ old) ∧
        ∀ e : RouteEntry, e.source ≠ own → e.key ∉ es.map RouteEntry.key → (e ∈ old ↔ e ∈ t) := by
  rw [onlyOwn_iff]
  constructor
  · intro h
    refine ⟨fun e hlast => (h e (hes e hlast.mem)).mpr (RankedTable.mem_putAll.mpr (.inl hlast)),
      fun e he hkey => (h e he).trans ?_⟩
    rw [RankedTable.mem_putAll]
    refine ⟨fun hmem => ?_, fun hmem => .inr ⟨hmem, hkey⟩⟩
    rcases hmem with hlast | ⟨hmem, -⟩
    · exact absurd (List.mem_map_of_mem (RouteEntry.LastOf.mem hlast)) hkey
    · exact hmem
  · rintro ⟨hlast, hrest⟩ e he
    rw [RankedTable.mem_putAll]
    by_cases hkey : e.key ∈ es.map RouteEntry.key
    · -- the prefix is written: `old` has its last route, so that is the one it has
      obtain ⟨e', hkey', hlast'⟩ := exists_lastOf hkey
      constructor
      · intro hmem
        obtain rfl := RankedTable.eq_of_key_eq (hlast e' hlast') hmem hkey'
        exact .inl hlast'
      · rintro (hl | ⟨-, hnot⟩)
        · exact hlast e hl
        · exact absurd hkey hnot
    · rw [hrest e he hkey]
      refine ⟨fun hmem => .inr ⟨hmem, hkey⟩, ?_⟩
      rintro (hl | ⟨hmem, -⟩)
      · exact absurd (List.mem_map_of_mem (RouteEntry.LastOf.mem hl)) hkey
      · exact hmem

/-! ## The order of the sources -/

theorem netmask_eq_of_mask_eq {e e' : RouteEntry} (hlen : e.prefixLen = e'.prefixLen)
    (hmask : e.destination.mask e.prefixLen = e'.destination.mask e'.prefixLen) :
    e.destination.toU32 &&& e.netmask = e'.destination.toU32 &&& e'.netmask := by
  rw [RouteEntry.netmask, RouteEntry.netmask, ← hlen]
  rw [← hlen, Ipv4Address.mask, Ipv4Address.mask] at hmask
  by_cases hzero : e.prefixLen = 0
  · rw [if_pos hzero]
    simp
  · rw [if_neg hzero, if_neg hzero] at hmask
    rw [if_neg hzero]
    by_cases hfull : 32 ≤ e.prefixLen
    · rw [if_pos hfull, if_pos hfull] at hmask
      rw [hmask]
    · rw [if_neg hfull, if_neg hfull] at hmask
      simpa only [Ipv4Address.toU32_fromU32] using congrArg Ipv4Address.toU32 hmask

theorem lookup_not_learned {dstIp : Ipv4Address} {e e' : RouteEntry} (h : t.lookup dstIp = some e) (he' : e' ∈ t)
    (hnetwork : e'.key.1 = e.key.1) (hsource : e'.source = .connected ∨ e'.source = .static) :
    e.source ≠ .bgp ∧ e.source ≠ .ospf ∧ e.source ≠ .rip := by
  obtain ⟨hmask, hlen⟩ := Prod.mk.inj hnetwork
  have hmatch : e'.matchesIp dstIp := by
    have hself := matches_of_lookup h
    have hnetmask : e'.netmask = e.netmask := by rw [RouteEntry.netmask, RouteEntry.netmask, hlen]
    rw [RouteEntry.matchesIp, decide_eq_true_eq] at hself ⊢
    rw [netmask_eq_of_mask_eq hlen hmask, hnetmask, hself]
  have hdist : e.distance ≤ 1 := by
    have hle : e.distance ≤ e'.distance := by
      rcases lookup_best h he' hmatch with hlt | ⟨-, hle⟩
      · omega
      · exact hle
    refine hle.trans ?_
    rw [RouteEntry.distance]
    rcases hsource with hs | hs <;> rw [hs] <;> decide
  refine ⟨?_, ?_, ?_⟩ <;> intro hs <;> rw [RouteEntry.distance, hs] at hdist <;> exact absurd hdist (by decide)

end RoutingTable

/-! ## RIP and OSPF -/

namespace LabRouter
variable {σ : Type} (cp : ControlPlane σ) (r : LabRouter σ)

/-- The routing table has the routes an advertisement teaches, as static routes, and elsewhere what the table of the
engine has. -/
def RipAgrees (r : LabRouter σ) (input : RipEngine × Ipv4Address × RipPacket × String) : Prop :=
  let taught := RipEngine.learnedRoutes input.2.1 input.2.2.2 input.1 input.2.2.1.entries
  (∀ e : RouteEntry, e.LastOf taught → e ∈ r.routingTable) ∧
    ∀ e : RouteEntry, e.source ≠ .rip → e.key ∉ taught.map RouteEntry.key →
      (e ∈ r.routingTable ↔ e ∈ input.1.routes)

theorem onlyOwn_rip_iff (ingressLink : String) (rawFrame : List UInt8) :
    OnlyOwn .rip r.routingTable (r.processIncomingFrame cp ingressLink rawFrame).1.routingTable ↔
      ∀ input, r.ripInput cp ingressLink rawFrame = some input → r.RipAgrees input := by
  cases hinput : r.ripInput cp ingressLink rawFrame with
  | none =>
    rw [((processIncomingFrame_handles cp r ingressLink rawFrame).2 hinput).routingTable]
    exact ⟨fun _ => nofun, fun _ => RoutingTable.onlyOwn_iff.mpr fun _ _ => Iff.rfl⟩
  | some input =>
    obtain ⟨rip, neighborIp, pkt, interface⟩ := input
    obtain ⟨ingress, eth, p, -, hframe⟩ := processIncomingFrame_rip hinput
    dsimp only at hframe
    simp only [hframe, Option.some.injEq, forall_eq', RipEngine.routes_processAdvertisement]
    refine RoutingTable.onlyOwn_putAll fun e he => ?_
    rw [RipEngine.source_learnedRoutes he]
    decide

theorem onlyOwn_ospf_iff (order : SpfOrder) (routerId : Ipv4Address) (subnets : NeighborSubnets) :
    OnlyOwn .ospf r.routingTable (r.runOspfSpf order routerId subnets).routingTable ↔
      ∀ e : RouteEntry, e.LastOf (r.spfRoutes order routerId subnets) → e ∈ r.routingTable := by
  have hstatic : ∀ e ∈ r.spfRoutes order routerId subnets, e.source ≠ .ospf := by
    intro e he
    rw [spfRoutes] at he
    split at he
    · cases he
    · obtain ⟨path, -, hpath⟩ := List.mem_filterMap.mp he
      rw [source_spfRoute hpath]
      decide
  rw [runOspfSpf, RoutingTable.onlyOwn_putAll hstatic]
  exact ⟨fun h => h.1, fun h => ⟨h, fun _ _ _ => Iff.rfl⟩⟩

/-- Processing a frame keeps to the routes of RIP, and a run of OSPF to those of OSPF, exactly if what they would
add is in the table already and, for RIP, its own table agrees with the router's on the rest. -/
theorem routing_processes_own_routes :
    (∀ ingressLink rawFrame, OnlyOwn .rip r.routingTable
      (r.processIncomingFrame cp ingressLink rawFrame).1.routingTable ↔
      ∀ input, r.ripInput cp ingressLink rawFrame = some input → r.RipAgrees input) ∧
    (∀ order routerId subnets, OnlyOwn .ospf r.routingTable (r.runOspfSpf order routerId subnets).routingTable ↔
      ∀ e : RouteEntry, e.LastOf (r.spfRoutes order routerId subnets) → e ∈ r.routingTable) ∧
    ∀ (t : RoutingTable) (dstIp : Ipv4Address) (e e' : RouteEntry), t.lookup dstIp = some e → e' ∈ t →
      e'.key.1 = e.key.1 →
      e'.source = .connected ∨ e'.source = .static → e.source ≠ .bgp ∧ e.source ≠ .ospf ∧ e.source ≠ .rip :=
  ⟨onlyOwn_rip_iff cp r, onlyOwn_ospf_iff r, fun _ _ _ _ => RoutingTable.lookup_not_learned⟩

/-! ## Routes of others that are lost -/

def ripRouter : LabRouter Unit :=
  let r := ((LabRouter.new ()).addInterface "eth0" ⟨2, 0, 0, 0, 0, 1⟩ ⟨10, 0, 0, 1⟩ 24 "lan").enableRip
  { r with routingTable := r.routingTable.addRoute ⟨0, 0, 0, 0⟩ 0 (some ⟨10, 0, 0, 254⟩) "eth0" }

def ripResponse : List UInt8 :=
  EthernetFrame.serialize .broadcast ⟨2, 0, 0, 0, 0, 9⟩ ethertypeIpv4
    (Ipv4Packet.serialize ⟨10, 0, 0, 2⟩ ⟨224, 0, 0, 9⟩ 17 1 1
      (UdpDatagram.serialize ⟨10, 0, 0, 2⟩ ⟨224, 0, 0, 9⟩ 520 520
        (RipPacket.serialize ⟨2, 2, 0, [⟨2, 0, ⟨10, 9, 0, 0⟩, ⟨255, 255, 0, 0⟩, ⟨0, 0, 0, 0⟩, 1⟩]⟩)))

def ospfRouter : LabRouter Unit :=
  { LabRouter.new () with
    ospfLsdb := some .new
    routingTable := RoutingTable.new.addRoute ⟨10, 2, 0, 0⟩ 16 (some ⟨10, 0, 0, 254⟩) "eth0" }

def ospfSubnets : NeighborSubnets := fun router =>
  if router = ⟨2, 2, 2, 2⟩ then some (⟨10, 2, 0, 0⟩, 16, "eth1", ⟨10, 0, 1, 2⟩) else none

theorem configured_routes_lost :
    (∃ e ∈ ripRouter.routingTable.entries, e.source = .static ∧
      e ∉ (ripRouter.processIncomingFrame .idle "lan" ripResponse).1.routingTable.entries) ∧
    (∃ e ∈ (ripRouter.processIncomingFrame .idle "lan" ripResponse).1.routingTable.entries,
      e ∉ ripRouter.routingTable.entries ∧ e.source = .static) ∧
    ∃ e ∈ ospfRouter.routingTable.entries, e.source = .static ∧
      e ∉ (ospfRouter.runOspfSpf .firstMin ⟨1, 1, 1, 1⟩ ospfSubnets).routingTable.entries := by
  refine ⟨?_, ?_, ?_⟩ <;> decide +kernel

end LabRouter

end SystemsLab.Net
