import Mathlib.Data.List.Induction
import SystemsLab.Net.NetStack

/-!
# The gateway an operator configures

`configureIpv6Interface` writes its gateway into the field that router selection owns, and every timer pump
overwrites it.
-/

namespace SystemsLab.Net

/-! ## The choice of a router -/

section
variable {candidates : List DefaultRouter} {nowMs : Nat} {score : DefaultRouter → ℕ ×ₗ ℕ} {gw : Ipv6Address}

theorem bestScore_eq_some {best : ℕ ×ₗ ℕ} :
    ((candidates.filter (·.validAt nowMs)).map score).max? = some best ↔
      (∃ d ∈ candidates, d.validAt nowMs ∧ score d = best) ∧
        ∀ d ∈ candidates, d.validAt nowMs → score d ≤ best := by
  rw [List.max?_eq_some_iff, List.forall_mem_map]
  simp only [List.mem_map, List.mem_filter, and_assoc, and_imp]

theorem eq_of_address_eq (hnodup : (candidates.map (·.address)).Nodup) {d d' : DefaultRouter} (hd : d ∈ candidates)
    (hd' : d' ∈ candidates) (h : d.address = d'.address) : d = d' := List.inj_on_of_nodup_map hnodup hd hd' h

theorem mem_of_chooseRouter {gateway : Option Ipv6Address}
    (h : NetStack.chooseRouter candidates nowMs score gateway = some gw) :
    ∃ d ∈ candidates, d.address = gw := by
  rw [NetStack.chooseRouter] at h
  split at h
  · rw [Option.filter_eq_some_iff, List.any_eq_true] at h
    obtain ⟨-, d, hd, hmatch⟩ := h
    rw [Bool.and_eq_true, decide_eq_true_eq] at hmatch
    exact ⟨d, hd, hmatch.1⟩
  · obtain ⟨best, -, h⟩ := Option.bind_eq_some_iff.mp h
    obtain ⟨d, hfind, rfl⟩ := Option.map_eq_some_iff.mp h
    exact ⟨d, List.mem_of_find?_eq_some hfind, rfl⟩

theorem find?_valid {d : DefaultRouter} (hnodup : (candidates.map (·.address)).Nodup) (hd : d ∈ candidates)
    (hvalid : d.validAt nowMs) :
    (candidates.find? fun x => decide (x.address = d.address) && x.validAt nowMs) = some d := by
  have hsome : (candidates.find? fun x => decide (x.address = d.address) && x.validAt nowMs).isSome :=
    List.find?_isSome.mpr ⟨d, hd, by simp [hvalid]⟩
  obtain ⟨x, hx⟩ := Option.isSome_iff_exists.mp hsome
  have hmatch := (List.find?_eq_some_iff_append.mp hx).1
  rw [Bool.and_eq_true, decide_eq_true_eq] at hmatch
  rw [hx, eq_of_address_eq hnodup (List.mem_of_find?_eq_some hx) hd hmatch.1]

theorem chooseRouter_eq_self (hnodup : (candidates.map (·.address)).Nodup) :
    NetStack.chooseRouter candidates nowMs score (some gw) = some gw ↔
      ∃ d ∈ candidates, d.address = gw ∧ d.validAt nowMs ∧
        ∀ d' ∈ candidates, d'.validAt nowMs → score d' ≤ score d := by
  have hactive {d : DefaultRouter} (hd : d ∈ candidates) (hvalid : d.validAt nowMs) :
      (some d.address).filter (fun router => candidates.any fun x =>
        decide (x.address = router) && x.validAt nowMs) =
        some d.address := by
    rw [Option.filter_eq_some_iff, List.any_eq_true]
    exact ⟨rfl, d, hd, by simp [hvalid]⟩
  constructor
  · intro h
    rw [NetStack.chooseRouter] at h
    split at h
    · rename_i hbest
      rw [h, Option.any_some, decide_eq_true_eq] at hbest
      rw [Option.filter_eq_some_iff, List.any_eq_true] at h
      obtain ⟨-, d, hd, hmatch⟩ := h
      rw [Bool.and_eq_true, decide_eq_true_eq] at hmatch
      obtain ⟨rfl, hvalid⟩ := hmatch
      rw [find?_valid hnodup hd hvalid, Option.map_some, bestScore_eq_some] at hbest
      exact ⟨d, hd, rfl, hvalid, hbest.2⟩
    · obtain ⟨best, hbest, h⟩ := Option.bind_eq_some_iff.mp h
      obtain ⟨d, hfind, rfl⟩ := Option.map_eq_some_iff.mp h
      have hmatch := (List.find?_eq_some_iff_append.mp hfind).1
      rw [Bool.and_eq_true, decide_eq_true_eq] at hmatch
      obtain ⟨hvalid, rfl⟩ := hmatch
      exact ⟨d, List.mem_of_find?_eq_some hfind, rfl, hvalid, (bestScore_eq_some.mp hbest).2⟩
  · rintro ⟨d, hd, rfl, hvalid, hle⟩
    have hbest := bestScore_eq_some.mpr ⟨⟨d, hd, hvalid, rfl⟩, hle⟩
    rw [NetStack.chooseRouter, hactive hd hvalid, hbest, if_pos]
    rw [Option.any_some, find?_valid hnodup hd hvalid, decide_eq_true_eq, Option.map_some]

end

namespace NetStack
variable {τ : Type} {w : RouteWalk} {tr : Transport τ} {s s' s'' : NetStack τ} {nowMs : Nat} {gw : Ipv6Address}

/-! ## What an operator sets -/

def defaultRoute (gw : Ipv6Address) : Ipv6RouteEntry := .withSource .unspecified 0 (some gw) "eth0" .static

structure GatewayInForce (s : NetStack τ) (gw : Ipv6Address) : Prop where
  gateway : s.ipv6Gateway = some gw
  route : defaultRoute gw ∈ s.ipv6RoutingTable

/-- No advertised route and no autoconfigured address; there may be advertised routers. -/
structure Manual (s : NetStack τ) : Prop where
  raRoutes : s.ipv6RaRoutes = []
  dad : s.ipv6Dad = none
  slaac : s.ipv6SlaacLifetimes = none

structure SameRouters (s s' : NetStack τ) : Prop where
  gateway : s'.ipv6Gateway = s.ipv6Gateway
  table : s'.ipv6RoutingTable = s.ipv6RoutingTable
  routers : s'.ipv6DefaultRouters = s.ipv6DefaultRouters
  raRoutes : s'.ipv6RaRoutes = s.ipv6RaRoutes
  dad : s'.ipv6Dad = s.ipv6Dad
  slaac : s'.ipv6SlaacLifetimes = s.ipv6SlaacLifetimes

theorem SameRouters.refl (s : NetStack τ) : SameRouters s s := ⟨rfl, rfl, rfl, rfl, rfl, rfl⟩

theorem SameRouters.trans (h : SameRouters s s') (h' : SameRouters s' s'') : SameRouters s s'' :=
  ⟨h'.gateway.trans h.gateway, h'.table.trans h.table, h'.routers.trans h.routers, h'.raRoutes.trans h.raRoutes,
    h'.dad.trans h.dad, h'.slaac.trans h.slaac⟩

theorem SameRouters.manual (h : SameRouters s s') (hs : s.Manual) : s'.Manual :=
  ⟨h.raRoutes.trans hs.raRoutes, h.dad.trans hs.dad, h.slaac.trans hs.slaac⟩

theorem SameRouters.inForce (h : SameRouters s s') : s'.GatewayInForce gw ↔ s.GatewayInForce gw := by
  constructor
  · rintro ⟨hgateway, hroute⟩
    exact ⟨h.gateway ▸ hgateway, h.table ▸ hroute⟩
  · rintro ⟨hgateway, hroute⟩
    exact ⟨h.gateway.trans hgateway, h.table.symm ▸ hroute⟩

section
variable (s)

theorem manual_configureIpv6Interface (address : Ipv6Address) (prefixLen : Nat) (gateway : Option Ipv6Address) :
    (s.configureIpv6Interface address prefixLen gateway).Manual := ⟨rfl, rfl, rfl⟩

theorem inForce_configureIpv6Interface (address : Ipv6Address) (prefixLen : Nat) (gw : Ipv6Address) :
    (s.configureIpv6Interface address prefixLen (some gw)).GatewayInForce gw :=
  ⟨rfl, Ipv6RoutingTable.mem_addRouteFrom_self _ _ _ _ _ _⟩

/-! ## Sending leaves it -/

theorem sameRouters_sendIpPacket (dstIp : Ipv4Address) (bytes : List UInt8) :
    SameRouters s (s.sendIpPacket dstIp bytes).1 := by
  rw [sendIpPacket]
  split <;> exact ⟨rfl, rfl, rfl, rfl, rfl, rfl⟩

theorem sameRouters_sendTransport (srcIp dstIp : Ipv4Address) (protocol : UInt8) (payload : List UInt8) :
    SameRouters s (s.sendTransport srcIp dstIp protocol payload).1 := by
  have h := sameRouters_sendIpPacket s.nextIpId dstIp
    (Ipv4Packet.serialize srcIp dstIp protocol s.ipIdCounter 64 payload)
  exact ⟨h.gateway, h.table, h.routers, h.raRoutes, h.dad, h.slaac⟩

theorem sameRouters_sendAll {α : Type} {send : NetStack τ → α → NetStack τ × List Emission}
    (hsend : ∀ s a, SameRouters s (send s a).1) (s : NetStack τ) (l : List α) :
    SameRouters s (sendAll send s l).1 := by
  induction l generalizing s with
  | nil => exact .refl s
  | cons a l ih => exact (hsend s a).trans (ih _)

theorem sameRouters_sendIp6Packet (dstIp : Ipv6Address) (bytes : List UInt8) :
    SameRouters s (s.sendIp6Packet dstIp bytes).1 := by
  have hhop : SameRouters s (s.ipv6NextHop dstIp).1 := by
    rw [ipv6NextHop]
    split
    · split <;> exact ⟨rfl, rfl, rfl, rfl, rfl, rfl⟩
    · exact .refl s
  rw [sendIp6Packet]
  split
  · exact .refl s
  · refine hhop.trans ?_
    rw [sendToNeighbor]
    split <;> exact ⟨rfl, rfl, rfl, rfl, rfl, rfl⟩

theorem sameRouters_send (call : SendCall τ) : SameRouters s (s.send call).1 := by
  cases call with
  | ip dstIp bytes => exact sameRouters_sendIpPacket s dstIp bytes
  | ip6 dstIp bytes => exact sameRouters_sendIp6Packet s dstIp bytes
  | ping4 dstIp id seq payload => exact sameRouters_sendTransport s _ _ _ _
  | ping6 dstIp id seq payload => exact sameRouters_sendIp6Packet s _ _
  | udp dstIp srcPort dstPort payload => exact sameRouters_sendTransport s _ _ _ _
  | tcpRaw call dstIp =>
    rw [send, tcpRaw]
    split
    · rename_i transport segment _
      have h := sameRouters_sendTransport { s with transport } s.config.ip dstIp ipProtoTcp segment
      exact ⟨h.gateway, h.table, h.routers, h.raRoutes, h.dad, h.slaac⟩
    · exact ⟨rfl, rfl, rfl, rfl, rfl, rfl⟩
  | dhcp | routerSolicitation | startRouterDiscovery | sockets => exact ⟨rfl, rfl, rfl, rfl, rfl, rfl⟩

end

/-! ## Choosing a default router -/

theorem walk_nil (w : RouteWalk) : w.walk [] = [] := (w.perm []).eq_nil

theorem candidates_of_manual (hs : s.Manual) : s.ipv6DefaultRouteCandidates w = s.ipv6DefaultRouters.routers := by
  rw [ipv6DefaultRouteCandidates, hs.raRoutes, walk_nil]
  rfl

def chosen (s : NetStack τ) : Option Ipv6Address :=
  chooseRouter s.ipv6DefaultRouters.routers s.currentTimeMs
    (fun d => routerScore s.ndpTable d.address d.preference) s.ipv6Gateway

theorem gateway_select (hs : s.Manual) : (s.selectIpv6DefaultRouter w).ipv6Gateway = s.chosen := by
  rw [chosen, selectIpv6DefaultRouter, candidates_of_manual hs]
  dsimp only
  split
  · rfl
  · rename_i h
    exact not_not.mp h

theorem routers_select (s : NetStack τ) :
    (s.selectIpv6DefaultRouter w).ipv6DefaultRouters = s.ipv6DefaultRouters := by
  rw [selectIpv6DefaultRouter]
  dsimp only
  split <;> rfl

theorem manual_select (hs : s.Manual) : (s.selectIpv6DefaultRouter w).Manual := by
  rw [selectIpv6DefaultRouter]
  refine ⟨?_, ?_, ?_⟩
  · dsimp only
    split <;> exact hs.raRoutes
  · dsimp only
    rw [Option.map_eq_none_iff]
    split <;> exact hs.dad
  · dsimp only
    rw [Option.map_eq_none_iff]
    split <;> exact hs.slaac

theorem inForce_select (hs : s.Manual) (hgw : s.GatewayInForce gw) :
    (s.selectIpv6DefaultRouter w).GatewayInForce gw ↔ s.chosen = some gw := by
  constructor
  · intro h
    exact (gateway_select hs).symm.trans h.gateway
  · intro h
    refine ⟨(gateway_select hs).trans h, ?_⟩
    have hsame : s.ipv6Gateway = s.chosen := hgw.gateway.trans h.symm
    rw [chosen] at hsame
    rw [selectIpv6DefaultRouter, candidates_of_manual hs]
    dsimp only
    rw [if_neg (not_not.mpr hsame)]
    exact hgw.route

/-! ## A timer pump -/

structure GatewayLost (s : NetStack τ) (gw : Ipv6Address) : Prop where
  gateway : s.ipv6Gateway ≠ some gw
  routers : ∀ d ∈ s.ipv6DefaultRouters.routers, d.address ≠ gw

theorem lost_select (hs : s.Manual) (h : ∀ d ∈ s.ipv6DefaultRouters.routers, d.address ≠ gw) :
    (s.selectIpv6DefaultRouter w).GatewayLost gw := by
  refine ⟨fun hgateway => ?_, fun d hd => h d (routers_select s ▸ hd)⟩
  rw [gateway_select hs] at hgateway
  obtain ⟨d, hd, rfl⟩ := mem_of_chooseRouter hgateway
  exact h d hd rfl

theorem stepRouterDiscovery_same (s : NetStack τ) (nowMs : Nat) :
    SameRouters s (s.stepRouterDiscovery nowMs).1 ∧ (s.stepRouterDiscovery nowMs).1.ndpTable = s.ndpTable ∧
      (s.stepRouterDiscovery nowMs).1.currentTimeMs = s.currentTimeMs := by
  rw [stepRouterDiscovery]
  split
  · exact ⟨.refl s, rfl, rfl⟩
  · split
    · exact ⟨.refl s, rfl, rfl⟩
    · dsimp only
      split <;> exact ⟨⟨rfl, rfl, rfl, rfl, rfl, rfl⟩, rfl, rfl⟩

def NeighborKept (s : NetStack τ) (nowMs : Nat) (gw : Ipv6Address) : Prop :=
  (s.ndpTable.lookup gw).isSome → ((s.ndpTable.stepNud nowMs).1.lookup gw).isSome

theorem reselect_of_manual (hs : s.Manual) : s.reselectIpv6RaRoutes w = s := by
  rw [reselectIpv6RaRoutes, hs.raRoutes, walk_nil]
  rfl

theorem lost_dropActiveRouter (hs : s.Manual) :
    (s.dropActiveRouter w gw).1.Manual ∧ (s.dropActiveRouter w gw).1.GatewayLost gw := by
  have hmanual : ({ s with
      ipv6DefaultRouters := s.ipv6DefaultRouters.retain fun d => d.address ≠ gw
      ipv6RaRoutes := s.ipv6RaRoutes.filter fun r =>
        ¬ (r.prefixLen = 0 ∧ r.pfx = Ipv6Address.unspecified ∧ r.router = gw) } : NetStack τ).Manual :=
    ⟨by rw [hs.raRoutes]; rfl, hs.dad, hs.slaac⟩
  exact ⟨manual_select hmanual, lost_select hmanual fun d hd => of_decide_eq_true (List.mem_filter.mp hd).2⟩

theorem stepNeighbors_manual (hs : s.Manual) (hgw : s.ipv6Gateway = some gw) (nowMs : Nat) :
    (¬ s.NeighborKept nowMs gw ∧ (s.stepNeighbors w nowMs).1.Manual ∧ (s.stepNeighbors w nowMs).1.GatewayLost gw) ∨
      ((∃ d ∈ s.ipv6DefaultRouters.routers, d.address = gw) → s.NeighborKept nowMs gw) ∧
        SameRouters s (s.stepNeighbors w nowMs).1 ∧
          (s.stepNeighbors w nowMs).1.ndpTable = (s.ndpTable.stepNud nowMs).1 ∧
          (s.stepNeighbors w nowMs).1.currentTimeMs = s.currentTimeMs := by
  have hmanual : ({ s with ndpTable := (s.ndpTable.stepNud nowMs).1 } : NetStack τ).Manual :=
    ⟨hs.raRoutes, hs.dad, hs.slaac⟩
  have hnone (p : Ipv6Address → Bool) : ((s.ipv6RaRoutes.map (·.router)).filter p) = [] := by
    rw [hs.raRoutes]
    rfl
  have hcached : (s.ipv6Gateway.any fun router =>
      (s.defaultRouterDeadline w router).isSome && (s.ndpTable.lookup router).isSome) ↔
      (∃ d ∈ s.ipv6DefaultRouters.routers, d.address = gw) ∧ (s.ndpTable.lookup gw).isSome := by
    rw [hgw, Option.any_some, Bool.and_eq_true, defaultRouterDeadline, candidates_of_manual hs, Option.isSome_map,
      List.find?_isSome]
    simp
  rw [stepNeighbors, hnone, List.filter_nil, dropFailedRioRouters, if_pos rfl, reselect_of_manual hmanual]
  split
  · rename_i router hrouter
    obtain rfl : gw = router := Option.some.inj (hgw.symm.trans hrouter)
    split
    · rename_i hgone
      rw [hcached] at hgone
      obtain ⟨⟨-, hcached⟩, hgone⟩ := hgone
      refine .inl ⟨fun hkept => ?_, lost_dropActiveRouter hmanual⟩
      have hsome := hkept hcached
      rw [Option.isNone_iff_eq_none.mp hgone] at hsome
      cases hsome
    · rename_i hkept
      refine .inr ⟨fun hknown hmac => ?_, ⟨rfl, rfl, rfl, rfl, rfl, rfl⟩, rfl, rfl⟩
      by_contra hlost
      exact hkept ⟨hcached.mpr ⟨hknown, hmac⟩, by simpa using hlost⟩
  · rename_i hrouter
    rw [hgw] at hrouter
    cases hrouter

theorem mem_foldl_removeRoute {e : Ipv6RouteEntry} (he : e.source ≠ .ra) (expired : List OnLinkPrefix)
    {t : Ipv6RoutingTable}
    (h : e ∈ t) : e ∈ expired.foldl (fun table p => table.removeRoute p.pfx p.prefixLen .ra) t := by
  induction expired generalizing t with
  | nil => exact h
  | cons p expired ih =>
    exact ih (Ipv6RoutingTable.mem_removeRoute.mpr ⟨h, fun hkey => he (congrArg Prod.snd hkey)⟩)

theorem inForce_expireRaPrefixes (h : s.GatewayInForce gw) (nowMs : Nat) :
    (s.expireRaPrefixes nowMs).GatewayInForce gw :=
  ⟨h.gateway, mem_foldl_removeRoute (by simp [defaultRoute, Ipv6RouteEntry.withSource]) _ h.route⟩

theorem expireRaRoutes_of_manual (hs : s.Manual) : s.expireRaRoutes w nowMs = s := by
  have hfilter : s.ipv6RaRoutes.filter (·.validAt nowMs) = s.ipv6RaRoutes := by
    rw [hs.raRoutes]
    rfl
  have hwalk : w.walk s.ipv6RaRoutes = [] := by rw [hs.raRoutes, walk_nil]
  rw [expireRaRoutes, hfilter, hwalk]
  rfl

theorem completeDad_of_manual (hs : s.Manual) : s.completeDad nowMs = s := by
  rw [completeDad, hs.dad]

def withLiveRouters (s : NetStack τ) (nowMs : Nat) : NetStack τ :=
  { s with ipv6DefaultRouters := s.ipv6DefaultRouters.retain (·.validAt nowMs) }

theorem expireRouters_of_manual (hs : s.Manual) (lost active : Bool) :
    SameRouters ((s.withLiveRouters nowMs).selectIpv6DefaultRouter w) (s.expireRouters w nowMs lost active).1 := by
  rw [expireRouters, hs.slaac, if_neg (by simp)]
  dsimp only
  split
  · exact ⟨rfl, rfl, rfl, rfl, rfl, rfl⟩
  · exact .refl _

theorem stepIpv6_of_manual {t : NetStack τ} (ht : ((s.stepRouterDiscovery nowMs).1.stepNeighbors w nowMs).1 = t)
    (hmanual : t.Manual) :
    SameRouters (((t.expireRaPrefixes nowMs).withLiveRouters nowMs).selectIpv6DefaultRouter w)
      (s.stepIpv6 w nowMs).1 := by
  have hprefixes : (t.expireRaPrefixes nowMs).Manual := ⟨hmanual.raRoutes, hmanual.dad, hmanual.slaac⟩
  rw [stepIpv6, ht]
  rw [expireRaRoutes_of_manual hprefixes, completeDad_of_manual hprefixes]
  exact expireRouters_of_manual hprefixes _ _

/-- The gateway is an advertised default router that is still valid and survives this pump's detection, and no other
is better. -/
def StaysBest (s : NetStack τ) (nowMs : Nat) (gw : Ipv6Address) : Prop :=
  let score := fun d : DefaultRouter => routerScore (s.ndpTable.stepNud nowMs).1 d.address d.preference
  s.NeighborKept nowMs gw ∧ ∃ d ∈ s.ipv6DefaultRouters.routers, d.address = gw ∧ d.validAt nowMs ∧
    ∀ d' ∈ s.ipv6DefaultRouters.routers, d'.validAt nowMs → score d' ≤ score d

theorem chosen_withLiveRouters (hgw : s.ipv6Gateway = some gw) (htime : s.currentTimeMs = nowMs) :
    (s.withLiveRouters nowMs).chosen = some gw ↔ ∃ d ∈ s.ipv6DefaultRouters.routers, d.address = gw ∧
      d.validAt nowMs ∧
      ∀ d' ∈ s.ipv6DefaultRouters.routers, d'.validAt nowMs →
        routerScore s.ndpTable d'.address d'.preference ≤ routerScore s.ndpTable d.address d.preference := by
  have hmem {d : DefaultRouter} : d ∈ (s.withLiveRouters nowMs).ipv6DefaultRouters.routers ↔
      d ∈ s.ipv6DefaultRouters.routers ∧ d.validAt nowMs := List.mem_filter
  have hchosen : (s.withLiveRouters nowMs).chosen =
      chooseRouter (s.withLiveRouters nowMs).ipv6DefaultRouters.routers nowMs
      (fun d => routerScore s.ndpTable d.address d.preference) (some gw) := by
    rw [← hgw, ← htime]
    rfl
  rw [hchosen, chooseRouter_eq_self (s.withLiveRouters nowMs).ipv6DefaultRouters.nodup]
  constructor
  · rintro ⟨d, hd, haddress, hvalid, hle⟩
    exact ⟨d, (hmem.mp hd).1, haddress, hvalid, fun d' hd' hvalid' => hle d' (hmem.mpr ⟨hd', hvalid'⟩) hvalid'⟩
  · rintro ⟨d, hd, haddress, hvalid, hle⟩
    exact ⟨d, hmem.mpr ⟨hd, hvalid⟩, haddress, hvalid, fun d' hd' => hle d' (hmem.mp hd').1⟩

theorem stepIpv6_keeps (hs : s.Manual) (hgw : s.GatewayInForce gw) (htime : s.currentTimeMs = nowMs) :
    (s.stepIpv6 w nowMs).1.Manual ∧ ((s.stepIpv6 w nowMs).1.GatewayInForce gw ↔ s.StaysBest nowMs gw) := by
  obtain ⟨hdiscovery, hndp, hnow⟩ := stepRouterDiscovery_same s nowMs
  have hlive {t : NetStack τ} (ht : t.Manual) : ((t.expireRaPrefixes nowMs).withLiveRouters nowMs).Manual :=
    ⟨ht.raRoutes, ht.dad, ht.slaac⟩
  have hkept : (s.stepRouterDiscovery nowMs).1.NeighborKept nowMs gw ↔ s.NeighborKept nowMs gw := by
    rw [NeighborKept, NeighborKept, hndp]
  obtain ⟨hlost, hmanual, hgone⟩ | ⟨hneighbor, hdetected, hndp', hnow'⟩ :=
    stepNeighbors_manual (w := w) (hdiscovery.manual hs) (hdiscovery.gateway.trans hgw.gateway) nowMs
  · have hsame := stepIpv6_of_manual (s := s) rfl hmanual
    refine ⟨hsame.manual (manual_select (hlive hmanual)), ?_⟩
    have hnot :=
      (lost_select (w := w) (hlive hmanual) fun d hd => hgone.routers d (List.mem_filter.mp hd).1).gateway
    constructor
    · intro h
      exact absurd ((hsame.inForce.mp h).gateway) hnot
    · rintro ⟨h, -⟩
      exact absurd (hkept.mpr h) hlost
  · have hpump := hdiscovery.trans hdetected
    have hforce := hpump.inForce.mpr hgw
    have hexpired := inForce_expireRaPrefixes hforce nowMs
    have hsame := stepIpv6_of_manual (s := s) rfl (hpump.manual hs)
    refine ⟨hsame.manual (manual_select (hlive (hpump.manual hs))), ?_⟩
    rw [hsame.inForce, inForce_select (hlive (hpump.manual hs)) ⟨hexpired.gateway, hexpired.route⟩,
      chosen_withLiveRouters hexpired.gateway (hnow'.trans (hnow.trans htime))]
    have hrouters :
        (((s.stepRouterDiscovery nowMs).1.stepNeighbors w nowMs).1.expireRaPrefixes nowMs).ipv6DefaultRouters =
        s.ipv6DefaultRouters := hpump.routers
    have hnud : (((s.stepRouterDiscovery nowMs).1.stepNeighbors w nowMs).1.expireRaPrefixes nowMs).ndpTable =
        (s.ndpTable.stepNud nowMs).1 := hndp'.trans (by rw [hndp])
    rw [hrouters, hnud]
    rw [hdiscovery.routers, hkept] at hneighbor
    constructor
    · rintro ⟨d, hd, haddress, hbest⟩
      exact ⟨hneighbor ⟨d, hd, haddress⟩, d, hd, haddress, hbest⟩
    · exact And.right

theorem stepTimers_keeps (hs : s.Manual) (hgw : s.GatewayInForce gw) :
    (s.stepTimers w tr nowMs).1.Manual ∧
      ((s.stepTimers w tr nowMs).1.GatewayInForce gw ↔ s.StaysBest nowMs gw) := by
  have htime : SameRouters s { s with currentTimeMs := nowMs } := ⟨rfl, rfl, rfl, rfl, rfl, rfl⟩
  obtain ⟨hmanual, hiff⟩ := stepIpv6_keeps (w := w) (htime.manual hs) (htime.inForce.mpr hgw) rfl
  have hsent : SameRouters ({ s with currentTimeMs := nowMs }.stepIpv6 w nowMs).1 (s.stepTimers w tr nowMs).1 := by
    have h := sameRouters_sendAll (fun s (tx : SocketTransmission) =>
      sameRouters_sendTransport s tx.localIp tx.remoteIp tx.protocol tx.payload)
      { ({ s with currentTimeMs := nowMs }.stepIpv6 w nowMs).1 with
        transport := (tr.stepTimers ({ s with currentTimeMs := nowMs }.stepIpv6 w nowMs).1.transport nowMs).1 }
      (tr.stepTimers ({ s with currentTimeMs := nowMs }.stepIpv6 w nowMs).1.transport nowMs).2
    exact ⟨h.gateway, h.table, h.routers, h.raRoutes, h.dad, h.slaac⟩
  exact ⟨hsent.manual hmanual, hsent.inForce.trans hiff⟩

/-! ## Runs without frames -/

inductive QuietEvent (τ : Type)
  | timers (nowMs : Nat)
  | send (call : SendCall τ)

def QuietEvent.event : QuietEvent τ → StackEvent τ
  | .timers nowMs => .timers nowMs
  | .send call => .send call

def runQuiet (w : RouteWalk) (tr : Transport τ) (s : NetStack τ) (events : List (QuietEvent τ)) : NetStack τ :=
  s.run w tr (events.map QuietEvent.event)

theorem runQuiet_concat (w : RouteWalk) (tr : Transport τ) (s : NetStack τ) (events : List (QuietEvent τ))
    (e : QuietEvent τ) :
    s.runQuiet w tr (events ++ [e]) = ((s.runQuiet w tr events).perform w tr e.event).state := by
  rw [runQuiet, List.map_append, run_append]
  rfl

theorem perform_quiet_keeps (hs : s.Manual) (hgw : s.GatewayInForce gw) (e : QuietEvent τ) :
    (s.perform w tr e.event).state.Manual ∧
      ((s.perform w tr e.event).state.GatewayInForce gw ↔ ∀ nowMs, e = .timers nowMs → s.StaysBest nowMs gw) := by
  cases e with
  | timers nowMs =>
    have h : (s.stepTimers w tr nowMs).1.Manual ∧
        ((s.stepTimers w tr nowMs).1.GatewayInForce gw ↔ s.StaysBest nowMs gw) :=
      stepTimers_keeps hs hgw
    refine ⟨h.1, h.2.trans ?_⟩
    simp
  | send call =>
    have h := sameRouters_send s call
    exact ⟨h.manual hs, fun _ _ => nofun, fun _ => h.inForce.mpr hgw⟩

/-- A configured gateway stays in force exactly when every timer pump finds it the best of the routers that
advertised themselves. -/
theorem configured_gateway_persists_iff (w : RouteWalk) (tr : Transport τ) (s : NetStack τ) (address : Ipv6Address)
    (prefixLen : Nat)
    (gw : Ipv6Address) (events : List (QuietEvent τ)) :
    (∀ l₁ l₂, events = l₁ ++ l₂ →
      ((s.configureIpv6Interface address prefixLen (some gw)).runQuiet w tr l₁).GatewayInForce gw) ↔
      ∀ l₁ nowMs l₂, events = l₁ ++ .timers nowMs :: l₂ →
        ((s.configureIpv6Interface address prefixLen (some gw)).runQuiet w tr l₁).StaysBest nowMs gw := by
  generalize hconf : s.configureIpv6Interface address prefixLen (some gw) = s₀
  have hmanual₀ : s₀.Manual := hconf ▸ manual_configureIpv6Interface s address prefixLen (some gw)
  have hforce₀ : s₀.GatewayInForce gw := hconf ▸ inForce_configureIpv6Interface s address prefixLen gw
  constructor
  · intro h
    -- as long as the gateway is in force nothing else configures the interface
    have hmanual (l : List (QuietEvent τ)) : ∀ l₂, events = l ++ l₂ → (s₀.runQuiet w tr l).Manual := by
      induction l using List.reverseRecOn with
      | nil => exact fun _ _ => hmanual₀
      | append_singleton l e ih =>
        intro l₂ hl
        rw [List.append_assoc] at hl
        rw [runQuiet_concat]
        exact (perform_quiet_keeps (ih _ hl) (h _ _ hl) e).1
    intro l₁ nowMs l₂ hl
    have hafter := h (l₁ ++ [.timers nowMs]) l₂ (by rw [hl, List.append_assoc]; rfl)
    rw [runQuiet_concat] at hafter
    exact (perform_quiet_keeps (hmanual l₁ _ hl) (h l₁ _ hl) (.timers nowMs)).2.mp hafter nowMs rfl
  · intro h
    have hboth (l : List (QuietEvent τ)) :
        ∀ l₂, events = l ++ l₂ → (s₀.runQuiet w tr l).Manual ∧ (s₀.runQuiet w tr l).GatewayInForce gw := by
      induction l using List.reverseRecOn with
      | nil => exact fun _ _ => ⟨hmanual₀, hforce₀⟩
      | append_singleton l e ih =>
        intro l₂ hl
        rw [List.append_assoc] at hl
        obtain ⟨hmanual, hforce⟩ := ih _ hl
        rw [runQuiet_concat]
        refine (perform_quiet_keeps hmanual hforce e).imp_right fun hiff => hiff.mpr ?_
        rintro nowMs rfl
        exact h l nowMs l₂ hl
    exact fun l₁ l₂ hl => (hboth l₁ l₂ hl).2

def quietHost : NetStack Unit := .new ⟨⟨2, 0, 0, 0, 0, 1⟩, ⟨10, 0, 0, 2⟩, none, 24, none⟩ ()

/-- After one pump of the timers the gateway is gone, and of the routes only the connected one is left. -/
theorem configured_gateway_lost :
    let configured := quietHost.configureIpv6Interface ⟨0x20010db8000000000000000000000002⟩ 64
      (some ⟨0x20010db8000000000000000000000001⟩)
    let pumped := configured.runQuiet .inOrder .idle [.timers 0]
    configured.ipv6Gateway = some ⟨0x20010db8000000000000000000000001⟩ ∧ pumped.ipv6Gateway = none ∧
      pumped.ipv6RoutingTable.routes.map (·.source) = [.connected] := by
  decide +kernel

end NetStack

end SystemsLab.Net
