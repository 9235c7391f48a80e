import SystemsLab.Net.Ipv6
import SystemsLab.Net.Routing

/-!
# The tables of an IPv6 host

The routing table, the neighbor cache and the default router list. The maps of the source are lists in the order in
which they are walked.
-/

namespace SystemsLab.Net

/-- `u64::saturating_add`. -/
def satAdd (a b : Nat) : Nat := min (a + b) (2 ^ 64 - 1)

/-! ## Routes -/

structure Ipv6RouteEntry where
  destination : Ipv6Address
  prefixLen : Nat
  gateway : Option Ipv6Address
  interface : String
  source : RouteSource
deriving DecidableEq, Repr

namespace Ipv6RouteEntry

def withSource (destination : Ipv6Address) (prefixLen : Nat) (gateway : Option Ipv6Address) (interface : String)
    (source : RouteSource) : Ipv6RouteEntry :=
  ⟨destination.mask (min prefixLen 128), min prefixLen 128, gateway, interface, source⟩

def matchesIp (e : Ipv6RouteEntry) (address : Ipv6Address) : Bool := address.mask e.prefixLen = e.destination

def nextHop (e : Ipv6RouteEntry) (destination : Ipv6Address) : Ipv6Address := e.gateway.getD destination

def distance (e : Ipv6RouteEntry) : Nat := e.source.distance

def key (e : Ipv6RouteEntry) : (Ipv6Address × Nat) × RouteSource := ((e.destination, e.prefixLen), e.source)

def rank (e : Ipv6RouteEntry) : ℕᵒᵈ ×ₗ ℕ := toLex (OrderDual.toDual e.prefixLen, e.distance)

end Ipv6RouteEntry

structure Ipv6RoutingTable where
  routes : List Ipv6RouteEntry
  ranked : routes.Pairwise (·.rank ≤ ·.rank)

namespace Ipv6RoutingTable

instance : Membership Ipv6RouteEntry Ipv6RoutingTable := ⟨fun t e => e ∈ t.routes⟩

def new : Ipv6RoutingTable := ⟨[], .nil⟩

variable (t : Ipv6RoutingTable)

def retain (p : Ipv6RouteEntry → Bool) : Ipv6RoutingTable :=
  ⟨t.routes.filter p, t.ranked.sublist List.filter_sublist⟩

def addRouteFrom (destination : Ipv6Address) (prefixLen : Nat) (gateway : Option Ipv6Address)
    (interface : String) (source : RouteSource) : Ipv6RoutingTable :=
  ⟨rankSort Ipv6RouteEntry.rank (putEntry Ipv6RouteEntry.key
    (.withSource destination prefixLen gateway interface source) t.routes), rankSort_ranked _ _⟩

def removeRoute (destination : Ipv6Address) (prefixLen : Nat) (source : RouteSource) : Ipv6RoutingTable :=
  t.retain fun r => ¬ r.key = ((destination.mask prefixLen, min prefixLen 128), source)

def removeAllFrom (source : RouteSource) : Ipv6RoutingTable := t.retain fun r => r.source ≠ source

def lookup (destination : Ipv6Address) : Option Ipv6RouteEntry := t.routes.find? (·.matchesIp destination)

def findExact (destination : Ipv6Address) (prefixLen : Nat) : Option Ipv6RouteEntry :=
  t.routes.find? fun r => (r.destination, r.prefixLen) = (destination.mask prefixLen, min prefixLen 128)

def firstHop (destination : Ipv6Address) : Ipv6Address :=
  ((t.lookup destination).map (·.nextHop destination)).getD destination

theorem mem_retain {t : Ipv6RoutingTable} {p : Ipv6RouteEntry → Bool} {e : Ipv6RouteEntry} :
    e ∈ t.retain p ↔ e ∈ t ∧ p e :=
  List.mem_filter

theorem mem_addRouteFrom_self (t : Ipv6RoutingTable) (destination : Ipv6Address) (prefixLen : Nat)
    (gateway : Option Ipv6Address)
    (interface : String) (source : RouteSource) :
    .withSource destination prefixLen gateway interface source ∈
      t.addRouteFrom destination prefixLen gateway interface source :=
  (rankSort_perm _ _).mem_iff.mpr (self_mem_putEntry _ _ _)

theorem mem_removeRoute {t : Ipv6RoutingTable} {destination : Ipv6Address} {prefixLen : Nat} {source : RouteSource}
    {e : Ipv6RouteEntry} :
    e ∈ t.removeRoute destination prefixLen source ↔
      e ∈ t ∧ e.key ≠ ((destination.mask prefixLen, min prefixLen 128), source) := by
  rw [removeRoute, mem_retain, decide_eq_true_eq]

end Ipv6RoutingTable

/-! ## Neighbors -/

inductive NeighborState
  | reachable
  | stale
  | delay
  | probe
deriving DecidableEq, Repr

structure NudMetadata where
  ip : Ipv6Address
  state : NeighborState
  deadlineMs : Option Nat
  probesSent : Nat
deriving DecidableEq, Repr

def ndpDelayFirstProbeTimeMs : Nat := 5000

def ndpMaxUnicastSolicit : Nat := 3

namespace NudMetadata

def due (m : NudMetadata) (nowMs : Nat) : Bool := m.deadlineMs.any (· ≤ nowMs)

def toStale (m : NudMetadata) : NudMetadata := { m with state := .stale, deadlineMs := none, probesSent := 0 }

def use (m : NudMetadata) (nowMs : Nat) : NudMetadata :=
  let m := if m.state = .reachable ∧ m.due nowMs then m.toStale else m
  if m.state = .stale then
    { m with state := .delay, deadlineMs := some (satAdd nowMs ndpDelayFirstProbeTimeMs), probesSent := 0 }
  else m

/-- What one timer pump does to a neighbor: its next state, `none` if it is given up, and whether it is probed. -/
def step (m : NudMetadata) (retransTimerMs nowMs : Nat) : Option NudMetadata × Bool :=
  if m.due nowMs then
    match m.state with
    | .reachable => (some m.toStale, false)
    | .stale => (some m, false)
    | .delay =>
      (some { m with state := .probe, probesSent := 1, deadlineMs := some (satAdd nowMs retransTimerMs) }, true)
    | .probe =>
      if m.probesSent < ndpMaxUnicastSolicit then
        (some { m with probesSent := m.probesSent + 1, deadlineMs := some (satAdd nowMs retransTimerMs) }, true)
      else (none, false)
  else (some m, false)

end NudMetadata

structure NdpTable where
  entries : Ipv6Address → Option MacAddress
  nud : List NudMetadata
  reachableTimeMs : Nat
  retransTimerMs : Nat

namespace NdpTable

def new : NdpTable := ⟨fun _ => none, [], 30000, 1000⟩

variable (t : NdpTable) (ip : Ipv6Address)

def nudOf : Option NudMetadata := t.nud.find? (·.ip = ip)

def setNud (m : NudMetadata) : NdpTable := { t with nud := putEntry NudMetadata.ip m t.nud }

def applyRouterAdvertisementTimers (reachableTimeMs retransTimerMs : Nat) : NdpTable :=
  { t with
    reachableTimeMs := if reachableTimeMs ≠ 0 then reachableTimeMs else t.reachableTimeMs
    retransTimerMs := if retransTimerMs ≠ 0 then retransTimerMs else t.retransTimerMs }

def markStale (mac : MacAddress) : NdpTable :=
  { t with entries := Function.update t.entries ip (some mac) }.setNud ⟨ip, .stale, none, 0⟩

def learnStale (mac : MacAddress) : NdpTable :=
  if t.entries ip = some mac then t else t.markStale ip mac

def demoteReachablePreservingMac : NdpTable :=
  match t.nudOf ip with
  | some m => if m.state = .reachable then t.setNud m.toStale else t
  | none => t

def confirmReachable (mac : MacAddress) (nowMs : Nat) : NdpTable :=
  { t with entries := Function.update t.entries ip (some mac) }.setNud
    ⟨ip, .reachable, some (satAdd nowMs t.reachableTimeMs), 0⟩

def lookup : Option MacAddress := t.entries ip

def lookupForTransmit (nowMs : Nat) : NdpTable × Option MacAddress :=
  match t.entries ip with
  | none => (t, none)
  | some mac =>
    match t.nudOf ip with
    | some m => (t.setNud (m.use nowMs), some mac)
    | none => (t, some mac)

def state (t : NdpTable) (ip : Ipv6Address) : Option NeighborState :=
  match t.entries ip with
  | none => none
  | some _ => some (((t.nudOf ip).map (·.state)).getD .reachable)

def stepOne (nowMs : Nat) (m : NudMetadata) : Option NudMetadata × Option (Ipv6Address × MacAddress) :=
  match t.entries m.ip with
  | none => (none, none)
  | some mac =>
    ((m.step t.retransTimerMs nowMs).1, if (m.step t.retransTimerMs nowMs).2 then some (m.ip, mac) else none)

def stepNud (nowMs : Nat) : NdpTable × List (Ipv6Address × MacAddress) :=
  let removed := (t.nud.filter fun m => (t.stepOne nowMs m).1.isNone).map (·.ip)
  ({ t with
      entries := fun ip => if ip ∈ removed then none else t.entries ip
      nud := t.nud.filterMap fun m => (t.stepOne nowMs m).1 },
    t.nud.filterMap fun m => (t.stepOne nowMs m).2)

end NdpTable

/-! ## Default routers -/

structure DefaultRouter where
  address : Ipv6Address
  /-- `none` is an infinite lifetime. -/
  deadline : Option Nat
  preference : RouterPreference
deriving DecidableEq, Repr

def DefaultRouter.validAt (d : DefaultRouter) (nowMs : Nat) : Bool := d.deadline.all (nowMs < ·)

/-- The default router list, in discovery order, with one entry for each router. -/
structure DefaultRouters where
  routers : List DefaultRouter
  nodup : (routers.map (·.address)).Nodup

namespace DefaultRouters

def new : DefaultRouters := ⟨[], .nil⟩

def retain (l : DefaultRouters) (p : DefaultRouter → Bool) : DefaultRouters :=
  ⟨l.routers.filter p, l.nodup.sublist (List.filter_sublist.map _)⟩

def put (l : DefaultRouters) (d : DefaultRouter) : DefaultRouters :=
  ⟨putEntry DefaultRouter.address d l.routers, nodup_keys_putEntry l.nodup⟩

end DefaultRouters

end SystemsLab.Net
