import SystemsLab.Net.LabRouter
import SystemsLab.Net.Ipv6Tables

/-!
# The state of the dual-stack host

The default router among those that advertise themselves, and the router of each advertised prefix. What is behind
the IPv4 transport headers is given by any `Transport`.
-/

namespace SystemsLab.Net

structure NetStackConfig where
  mac : MacAddress
  ip : Ipv4Address
  ipv6 : Option Ipv6Address
  subnetMask : Nat
  gateway : Option Ipv4Address
deriving DecidableEq, Repr

structure Ipv6RouterDiscovery where
  solicitationsSent : Nat
  nextSolicitationMs : Nat
deriving DecidableEq, Repr

structure Ipv6SlaacLifetimes where
  address : Ipv6Address
  preferredUntilMs : Option Nat
  validUntilMs : Option Nat
  router : Option Ipv6Address
  routerUntilMs : Option Nat
deriving DecidableEq, Repr

structure PendingIpv6Dad where
  address : Ipv6Address
  prefixLen : Nat
  gateway : Option Ipv6Address
  deadlineMs : Nat
  preferredUntilMs : Option Nat
  validUntilMs : Option Nat
  routerUntilMs : Option Nat
deriving DecidableEq, Repr

structure Ipv6RedirectEntry where
  router : Ipv6Address
  target : Ipv6Address
deriving DecidableEq, Repr

structure OnLinkPrefix where
  pfx : Ipv6Address
  prefixLen : Nat
  deadline : Option Nat
deriving DecidableEq, Repr

structure RaRoute where
  pfx : Ipv6Address
  prefixLen : Nat
  router : Ipv6Address
  deadline : Option Nat
  preference : RouterPreference
deriving DecidableEq, Repr

def OnLinkPrefix.key (p : OnLinkPrefix) : Ipv6Address × Nat := (p.pfx, p.prefixLen)

namespace RaRoute

def target (r : RaRoute) : Ipv6Address × Nat := (r.pfx, r.prefixLen)

def key (r : RaRoute) : (Ipv6Address × Nat) × Ipv6Address := (r.target, r.router)

def validAt (r : RaRoute) (nowMs : Nat) : Bool := r.deadline.all (nowMs < ·)

end RaRoute

/-! ## Lifetimes -/

def ipv6LifetimeDeadline (nowMs lifetimeSecs : Nat) : Option Nat :=
  if lifetimeSecs = 2 ^ 32 - 1 then none else some (satAdd nowMs (lifetimeSecs * 1000))

def ipv6RemainingLifetimeMs (deadline : Option Nat) (nowMs : Nat) : Nat :=
  (deadline.map (· - nowMs)).getD (2 ^ 64 - 1)

def ipv6SlaacTwoHoursMs : Nat := 2 * 60 * 60 * 1000

def refreshedIpv6ValidDeadline (nowMs : Nat) (currentDeadline : Option Nat) (advertisedSecs : Nat) : Option Nat :=
  if advertisedSecs = 2 ^ 32 - 1 then none
  else
    let advertisedMs := advertisedSecs * 1000
    let remainingMs := ipv6RemainingLifetimeMs currentDeadline nowMs
    if ipv6SlaacTwoHoursMs < advertisedMs ∨ remainingMs < advertisedMs then some (satAdd nowMs advertisedMs)
    else if remainingMs ≤ ipv6SlaacTwoHoursMs then currentDeadline
    else some (satAdd nowMs ipv6SlaacTwoHoursMs)

/-! ## The transport layer -/

structure DhcpReply where
  serverIp : Ipv4Address
  chaddr : MacAddress
  payload : List UInt8

structure Transport (τ : Type) where
  /-- Echo replies and errors, kept for the application -/
  receiveIcmp : τ → Ipv4Address → IcmpPacket → τ
  receiveIcmpv6Reply : τ → Ipv6Address → UInt16 → UInt16 → τ
  /-- The DHCP server, if one is configured -/
  serveDhcp : τ → List UInt8 → τ × Option DhcpReply
  /-- The sockets and the older table of handlers, one of which may answer -/
  dispatchUdp : τ → Ipv4Address → Ipv4Address → UdpDatagram → τ × Option (List UInt8)
  /-- Answers to a segment, a reset among them; none to one that does not parse -/
  receiveTcp : τ → Ipv4Address → Ipv4Address → List UInt8 → Nat → τ × List (List UInt8)
  stepTimers : τ → Nat → τ × List SocketTransmission

def Transport.idle : Transport Unit where
  receiveIcmp _ _ _ := ()
  receiveIcmpv6Reply _ _ _ _ := ()
  serveDhcp _ _ := ((), none)
  dispatchUdp _ _ _ _ := ((), none)
  receiveTcp _ _ _ _ _ := ((), [])
  stepTimers _ _ := ((), [])

/-- The order in which a run of the program walks its map of learned routes. -/
structure RouteWalk where
  walk : List RaRoute → List RaRoute
  perm : ∀ l, (walk l).Perm l

def RouteWalk.inOrder : RouteWalk := ⟨id, fun _ => .refl _⟩

/-! ## The state -/

def ipv6DadRetransTimerMs : Nat := 1000

def ipv6MaxRtrSolicitations : Nat := 3

def ipv6RtrSolicitationIntervalMs : Nat := 4000

def ipv6EthernetLinkMtu : Nat := 1500

structure NetStack (τ : Type) where
  config : NetStackConfig
  arpTable : ArpTable
  ndpTable : NdpTable
  routingTable : RoutingTable
  ipv6RoutingTable : Ipv6RoutingTable
  ipv6PrefixLen : Option Nat
  ipv6Gateway : Option Ipv6Address
  ipv6DefaultRouters : DefaultRouters
  ipv6Dad : Option PendingIpv6Dad
  ipv6DadDuplicate : Option Ipv6Address
  ipv6SlaacLifetimes : Option Ipv6SlaacLifetimes
  ipv6RaOnLinkPrefixes : List OnLinkPrefix
  ipv6RaRoutes : List RaRoute
  ipv6FailedRioRouters : Ipv6Address → Bool
  ipv6RouterDiscovery : Option Ipv6RouterDiscovery
  ipv6RouterDiscoveryExhausted : Bool
  ipv6DefaultHopLimit : UInt8
  ipv6LinkMtu : Nat
  ipv6PathMtuCache : Ipv6Address → Option Nat
  ipv6RedirectCache : Ipv6Address → Option Ipv6RedirectEntry
  firewall : Firewall
  ipIdCounter : UInt16
  currentTimeMs : Nat
  pendingArpPackets : Ipv4Address → List Queued
  /-- A key is in the map when its queue is not empty. -/
  pendingNdpPackets : Ipv6Address → List (List UInt8)
  transport : τ

def ipv6Loopback : Ipv6Address := ⟨1⟩

namespace NetStack
variable {τ : Type}

def new (config : NetStackConfig) (transport : τ) : NetStack τ where
  config
  arpTable := .new
  ndpTable := .new
  routingTable :=
    let table := RoutingTable.new.addRoute (config.ip.mask config.subnetMask) config.subnetMask none "eth0"
    match config.gateway with
    | some gw => table.addRoute ⟨0, 0, 0, 0⟩ 0 (some gw) "eth0"
    | none => table
  ipv6RoutingTable := .new
  ipv6PrefixLen := none
  ipv6Gateway := none
  ipv6DefaultRouters := .new
  ipv6Dad := none
  ipv6DadDuplicate := none
  ipv6SlaacLifetimes := none
  ipv6RaOnLinkPrefixes := []
  ipv6RaRoutes := []
  ipv6FailedRioRouters := fun _ => false
  ipv6RouterDiscovery := none
  ipv6RouterDiscoveryExhausted := false
  ipv6DefaultHopLimit := 64
  ipv6LinkMtu := ipv6EthernetLinkMtu
  ipv6PathMtuCache := fun _ => none
  ipv6RedirectCache := fun _ => none
  firewall := {}
  ipIdCounter := 1
  currentTimeMs := 0
  pendingArpPackets := fun _ => []
  pendingNdpPackets := fun _ => []
  transport

/-! ## Configuration -/

def configureIpv6Interface (s : NetStack τ) (address : Ipv6Address) (prefixLen : Nat)
    (gateway : Option Ipv6Address) : NetStack τ :=
  let table := s.ipv6RoutingTable.removeAllFrom .raRoute
  let table :=
    match s.config.ipv6, s.ipv6PrefixLen with
    | some oldAddress, some oldPrefixLen => table.removeRoute oldAddress oldPrefixLen .connected
    | _, _ => table
  let table := if s.ipv6Gateway.isSome then table.removeRoute .unspecified 0 .static else table
  let prefixLen := min prefixLen 128
  let table := table.addRouteFrom address prefixLen none "eth0" .connected
  let table :=
    match gateway with
    | some gateway => table.addRouteFrom .unspecified 0 (some gateway) "eth0" .static
    | none => table
  { s with
    ipv6Dad := none
    ipv6DadDuplicate := none
    ipv6SlaacLifetimes := none
    ipv6RaRoutes := []
    ipv6FailedRioRouters := fun _ => false
    ipv6PathMtuCache := fun _ => none
    ipv6RedirectCache := fun _ => none
    config := { s.config with ipv6 := some address }
    ipv6PrefixLen := some prefixLen
    ipv6Gateway := gateway
    ipv6RoutingTable := table }

def clearIpv6Interface (s : NetStack τ) : NetStack τ :=
  let table :=
    match s.config.ipv6, s.ipv6PrefixLen with
    | some address, some prefixLen => s.ipv6RoutingTable.removeRoute address prefixLen .connected
    | _, _ => s.ipv6RoutingTable
  let table := if s.ipv6Gateway.isSome then table.removeRoute .unspecified 0 .static else table
  { s with
    config := { s.config with ipv6 := none }
    ipv6PrefixLen := none
    ipv6Gateway := none
    ipv6DefaultRouters := .new
    ipv6RaRoutes := []
    ipv6FailedRioRouters := fun _ => false
    ipv6RoutingTable := table.removeAllFrom .raRoute
    ipv6Dad := none
    ipv6DadDuplicate := none
    ipv6SlaacLifetimes := none
    ipv6PathMtuCache := fun _ => none
    ipv6RedirectCache := fun _ => none
    ipv6DefaultHopLimit := 64
    ipv6LinkMtu := ipv6EthernetLinkMtu
    pendingNdpPackets := fun _ => [] }

def clearIpv6PathMtu (s : NetStack τ) (destination : Ipv6Address) : NetStack τ :=
  { s with ipv6PathMtuCache := Function.update s.ipv6PathMtuCache destination none }

/-! ## Default routers -/

def setIpv6DefaultGateway (s : NetStack τ) (gateway : Option Ipv6Address) : NetStack τ :=
  let table :=
    if s.ipv6Gateway.isSome then s.ipv6RoutingTable.removeRoute .unspecified 0 .static
    else s.ipv6RoutingTable
  { s with
    ipv6RedirectCache := if s.ipv6Gateway ≠ gateway then fun _ => none else s.ipv6RedirectCache
    ipv6Gateway := gateway
    ipv6RoutingTable :=
      match gateway with
      | some gateway => table.addRouteFrom .unspecified 0 (some gateway) "eth0" .static
      | none => table }

section
variable (w : RouteWalk) (s : NetStack τ)

def ipv6DefaultRouteCandidates : List DefaultRouter :=
  (w.walk s.ipv6RaRoutes).foldl
    (fun candidates r =>
      if r.prefixLen ≠ 0 ∨ r.pfx ≠ .unspecified then candidates
      else putEntry DefaultRouter.address ⟨r.router, r.deadline, r.preference⟩ candidates)
    s.ipv6DefaultRouters.routers

def defaultRouterDeadline (router : Ipv6Address) : Option (Option Nat) :=
  ((s.ipv6DefaultRouteCandidates w).find? (·.address = router)).map (·.deadline)

def defaultRouterReachabilityRank (ndp : NdpTable) (router : Ipv6Address) : Nat :=
  match ndp.state router with
  | some .reachable => 2
  | some _ => 1
  | none => 0

def routerScore (ndp : NdpTable) (router : Ipv6Address) (preference : RouterPreference) : ℕ ×ₗ ℕ :=
  toLex (defaultRouterReachabilityRank ndp router, preference.rank)

def chooseRouter (candidates : List DefaultRouter) (nowMs : Nat) (score : DefaultRouter → ℕ ×ₗ ℕ)
    (gateway : Option Ipv6Address) :
    Option Ipv6Address :=
  let active := gateway.filter fun router => candidates.any fun d => decide (d.address = router) && d.validAt nowMs
  let bestScore := ((candidates.filter (·.validAt nowMs)).map score).max?
  let activeIsBest := active.any fun router =>
    bestScore = (candidates.find? fun d => decide (d.address = router) && d.validAt nowMs).map score
  if activeIsBest then active
  else bestScore.bind fun best =>
    (candidates.find? fun d => d.validAt nowMs && decide (score d = best)).map (·.address)

def selectIpv6DefaultRouter : NetStack τ :=
  let candidates := s.ipv6DefaultRouteCandidates w
  let selected := chooseRouter candidates s.currentTimeMs
    (fun d => routerScore s.ndpTable d.address d.preference) s.ipv6Gateway
  let selectedDeadline := selected.bind fun router => (candidates.find? (·.address = router)).bind (·.deadline)
  let s := if s.ipv6Gateway ≠ selected then s.setIpv6DefaultGateway selected else s
  { s with
    ipv6SlaacLifetimes := s.ipv6SlaacLifetimes.map fun l =>
      { l with router := selected, routerUntilMs := selectedDeadline }
    ipv6Dad := s.ipv6Dad.map fun dad => { dad with gateway := selected, routerUntilMs := selectedDeadline } }

def refreshSlaacDefaultRouter (router : Ipv6Address) (lifetimeSecs : Nat) (preference : RouterPreference) :
    NetStack τ :=
  let routers :=
    if lifetimeSecs = 0 then s.ipv6DefaultRouters.retain fun d => d.address ≠ router
    else s.ipv6DefaultRouters.put ⟨router, some (satAdd s.currentTimeMs (lifetimeSecs * 1000)), preference⟩
  { s with ipv6DefaultRouters := routers }.selectIpv6DefaultRouter w

def expireIpv6DefaultRouters (nowMs : Nat) : NetStack τ × Bool :=
  let s' := { s with ipv6DefaultRouters := s.ipv6DefaultRouters.retain (·.validAt nowMs) }.selectIpv6DefaultRouter w
  (s', s.ipv6Gateway.isSome && s'.ipv6Gateway.isNone)

/-! ## Prefixes and routes of advertisements -/

def refreshIpv6RaOnLinkPrefix (pfx : Ipv6Address) (prefixLen validLifetime : Nat) : NetStack τ :=
  let prefixLen := min prefixLen 128
  let pfx := pfx.mask prefixLen
  if validLifetime = 0 then
    { s with
      ipv6RaOnLinkPrefixes := s.ipv6RaOnLinkPrefixes.filter (·.key ≠ (pfx, prefixLen))
      ipv6RoutingTable := s.ipv6RoutingTable.removeRoute pfx prefixLen .ra }
  else
    { s with
      ipv6RaOnLinkPrefixes :=
        putEntry OnLinkPrefix.key ⟨pfx, prefixLen, ipv6LifetimeDeadline s.currentTimeMs validLifetime⟩
          s.ipv6RaOnLinkPrefixes
      ipv6RoutingTable := s.ipv6RoutingTable.addRouteFrom pfx prefixLen none "eth0" .ra }

def lowestAddress (l : List Ipv6Address) : Option Ipv6Address :=
  (l.map (·.bits.toNat)).min?.map fun n => ⟨BitVec.ofNat 128 n⟩

/-- Reachability before preference, a router that detection gave up only if there is no other, and the current one
as long as none is better. -/
def chooseRaRouter (pfx : Ipv6Address) (prefixLen : Nat) (currentGateway : Option Ipv6Address) :
    Option Ipv6Address :=
  let live := s.ipv6RaRoutes.filter fun r => decide (r.target = (pfx, prefixLen)) && r.validAt s.currentTimeMs
  let hasUnquarantinedCandidate := live.any fun r => !s.ipv6FailedRioRouters r.router
  let allowed := live.filter fun r => !hasUnquarantinedCandidate || !s.ipv6FailedRioRouters r.router
  let score := fun r : RaRoute => routerScore s.ndpTable r.router r.preference
  match (allowed.map score).max? with
  | none => none
  | some bestScore =>
    let currentIsBest := currentGateway.any fun gateway => allowed.any fun r =>
      decide (r.router = gateway ∧ score r = bestScore)
    if currentIsBest then currentGateway
    else lowestAddress ((allowed.filter fun r => score r = bestScore).map (·.router))

def selectIpv6RaRoute (pfx : Ipv6Address) (prefixLen : Nat) : NetStack τ :=
  let prefixLen := min prefixLen 128
  let pfx := pfx.mask prefixLen
  let withdrawn := { s with ipv6RoutingTable := s.ipv6RoutingTable.removeRoute pfx prefixLen .raRoute }
  if prefixLen = 0 then withdrawn.selectIpv6DefaultRouter w
  else
    let currentGateway := ((s.ipv6RoutingTable.findExact pfx prefixLen).filter (·.source = .raRoute)).bind
      (·.gateway)
    match s.chooseRaRouter pfx prefixLen currentGateway with
    | some router =>
      { withdrawn with
        ipv6RoutingTable := withdrawn.ipv6RoutingTable.addRouteFrom pfx prefixLen (some router) "eth0" .raRoute }
    | none => withdrawn

def selectIpv6RaRoutes (targets : List (Ipv6Address × Nat)) : NetStack τ :=
  targets.foldl (fun s target => s.selectIpv6RaRoute w target.1 target.2) s

def reselectIpv6RaRoutes : NetStack τ :=
  s.selectIpv6RaRoutes w (((w.walk s.ipv6RaRoutes).filter (·.prefixLen ≠ 0)).map (·.target)).eraseDups

def refreshIpv6RaRoute (router pfx : Ipv6Address) (prefixLen : Nat) (preference : RouterPreference)
    (routeLifetime : Nat) : NetStack τ :=
  let prefixLen := min prefixLen 128
  let pfx := pfx.mask prefixLen
  let routes :=
    if routeLifetime = 0 then s.ipv6RaRoutes.filter fun r => r.key ≠ ((pfx, prefixLen), router)
    else putEntry RaRoute.key ⟨pfx, prefixLen, router, ipv6LifetimeDeadline s.currentTimeMs routeLifetime,
      preference⟩ s.ipv6RaRoutes
  { s with ipv6RaRoutes := routes }.selectIpv6RaRoute w pfx prefixLen

end

end NetStack

end SystemsLab.Net
