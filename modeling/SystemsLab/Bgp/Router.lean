import Mathlib.Data.Finset.Basic
import Mathlib.Data.List.Lex
import SystemsLab.Bgp.Message
import SystemsLab.Bgp.Rib

/-!
# The speaker

Importing an UPDATE, deciding, computing what a peer should hear, and sending the differences, for IPv4 routes.
Sockets enter as whatever answers `tcp_writable` and `tcp_write`.
-/

namespace SystemsLab.Bgp

/-! ## State -/

instance : LinearOrder AfiSafi :=
  LinearOrder.lift' (fun f => toLex (f.afi.toNat, f.safi.toNat)) fun f g h => by
    have h' := Prod.mk.injEq _ _ _ _ ▸ toLex_inj.mp h
    cases f; cases g
    simp only [AfiSafi.mk.injEq]
    exact ⟨UInt16.toNat_inj.mp h'.1, UInt8.toNat_inj.mp h'.2⟩

inductive BgpState
  | idle
  | connect
  | active
  | openSent
  | openConfirm
  | established
deriving DecidableEq

inductive BgpPeerRole
  | normal
  | routeReflectorClient
deriving DecidableEq

inductive EnhancedRefreshPhase
  | needBorr
  | replaying
  | needEorr
deriving DecidableEq

structure BgpPeerCounters where
  updatesSent : Nat := 0
  enhancedRefreshBorrSent : Nat := 0
  asLoopsRejected : Nat := 0
  policyRejected : Nat := 0
  nextHopRejected : Nat := 0
  asPathRejected : Nat := 0
  originatorLoopsRejected : Nat := 0
  clusterLoopsRejected : Nat := 0
  routesReflected : Nat := 0
  rrSuppressed : Nat := 0
deriving DecidableEq

abbrev TcpStreamHandle := Nat

structure BgpPeer where
  addr : Ipv4Address
  remoteAs : UInt32
  localAddr : Ipv4Address
  role : BgpPeerRole := .normal
  state : BgpState := .idle
  stream : Option TcpStreamHandle := none
  /-- `negotiated.four_octet_as`. -/
  fourOctetAs : Bool := false
  refreshPending : Finset AfiSafi := ∅
  enhancedRefreshOutbound : SortedMap AfiSafi EnhancedRefreshPhase := .empty
  enhancedRefreshStaleIpv4 : Finset Ipv4Prefix := ∅
  gracefulRestartStale : Finset AfiSafi := ∅
  gracefulRestartRefreshStartedMs : Option Nat := none
  remoteRouterId : Option Ipv4Address := none
  importPolicy : RoutePolicy := .new
  exportPolicy : RoutePolicy := .new
  nextHopSelf : Bool := false
  maxPrefixes : Nat := 4096
  enforceFirstAs : Bool := true
  txDesynced : Bool := false
  counters : BgpPeerCounters := {}
deriving DecidableEq

namespace BgpPeer

def isEstablished (p : BgpPeer) : Bool := p.state = .established

def isClient (p : BgpPeer) : Bool := p.role = .routeReflectorClient

end BgpPeer

/-- A speaker with `n` configured neighbours. -/
structure BgpRouter (n : Nat) where
  localAs : UInt32
  routerId : Ipv4Address
  configuredClusterId : Option Ipv4Address
  peers : Vector BgpPeer n
  adjRibIn : AdjRibIn
  locRib : PathTable
  adjRibOut : AdjRibOut
  originated : SortedMap Ipv4Prefix Ipv4Address
  dirty : Bool
  decisionRuns : Nat
deriving DecidableEq

namespace BgpRouter
variable {n : Nat} (r : BgpRouter n) (idx : Fin n)

def clusterId : Ipv4Address := r.configuredClusterId.getD r.routerId

def peer (addr : Ipv4Address) : Option BgpPeer := r.peers.toList.find? (·.addr = addr)

abbrev peerAt : BgpPeer := r.peers[idx]

def modifyPeer (f : BgpPeer → BgpPeer) : BgpRouter n :=
  { r with peers := r.peers.set idx (f (r.peerAt idx)) }

def isEbgp : Bool := (r.peerAt idx).remoteAs ≠ r.localAs

/-! ## Import -/

def bgpSubMaxPrefixes : UInt8 := 1

inductive ReflectionLoop
  | originator
  | cluster
deriving DecidableEq

def reflectionLoop (originatorId : Option Ipv4Address) (clusterList : List Ipv4Address) :
    Option ReflectionLoop :=
  if originatorId = some r.routerId then some .originator
  else if clusterList.contains r.clusterId then some .cluster
  else none

/-- One turn of the first loop of `import_update`. -/
def withdrawPrefix (addr : Ipv4Address) (p : Ipv4Prefix) : BgpRouter n :=
  { r with adjRibIn := r.adjRibIn.remove addr p, dirty := r.dirty || (r.adjRibIn.get? addr p).isSome }

def unusableNextHop (x : Ipv4Address) : Bool := x.isUnspecified || x.isLoopback || x.isMulticast || x.isBroadcast

def refusesPath (peer : BgpPeer) (path : AsPath) : Bool :=
  if path.isEmpty then true
  else if !peer.enforceFirstAs then false
  else path.leadingAs ≠ some peer.remoteAs

def importedPath (nowMs : Nat) (attrs : BgpPathAttributes)
    (policyLp policyMed : Option UInt32) (p : Ipv4Prefix) : BgpPath :=
  let peer := r.peerAt idx
  { pfx := p
    source := if r.isEbgp idx then .ebgp else .ibgp
    peerAddr := peer.addr
    peerAs := peer.remoteAs
    peerRouterId := peer.remoteRouterId.getD peer.addr
    origin := attrs.origin
    asPath := attrs.asPath
    nextHop := attrs.nextHop
    med := policyMed.or attrs.med
    localPref := (policyLp.or attrs.localPref).getD bgpDefaultLocalPref
    atomicAggregate := attrs.atomicAggregate
    originatorId := attrs.originatorId
    clusterList := attrs.clusterList
    fromClient := peer.isClient
    receivedAtMs := nowMs }

/-- One turn of the second loop of `import_update`. -/
def importPrefix (nowMs : Nat) (attrs : BgpPathAttributes) (p : Ipv4Prefix) :
    BgpRouter n × Except BgpNotificationMessage Unit :=
  let peer := r.peerAt idx
  let addr := peer.addr
  if attrs.nextHop = peer.localAddr then
    (r.modifyPeer idx fun q => { q with counters.nextHopRejected := q.counters.nextHopRejected + 1 }, .ok ())
  else
    match peer.importPolicy.apply p with
    | .denied =>
      let r := r.modifyPeer idx fun q => { q with counters.policyRejected := q.counters.policyRejected + 1 }
      -- A previously accepted path that policy now rejects must go.
      (r.withdrawPrefix addr p, .ok ())
    | .permitted policyLp policyMed =>
      let path := r.importedPath idx nowMs attrs policyLp policyMed p
      let changed := (r.adjRibIn.get? addr p).all fun prev => !prev.sameRouteAs path
      let r := { r with adjRibIn := r.adjRibIn.insert addr path, dirty := r.dirty || changed }
      let r := r.modifyPeer idx fun q => { q with enhancedRefreshStaleIpv4 := q.enhancedRefreshStaleIpv4.erase p }
      if peer.maxPrefixes < r.adjRibIn.prefixCount addr then (r, .error (.new bgpErrCease bgpSubMaxPrefixes))
      else (r, .ok ())

def importNlri (idx : Fin n) (nowMs : Nat) (attrs : BgpPathAttributes) :
    BgpRouter n → List Ipv4Prefix → BgpRouter n × Except BgpNotificationMessage Unit
  | r, [] => (r, .ok ())
  | r, p :: ps =>
    match r.importPrefix idx nowMs attrs p with
    | (r', .error note) => (r', .error note)
    | (r', .ok ()) => importNlri idx nowMs attrs r' ps

def importUpdate (nowMs : Nat) (update : BgpUpdateMessage) :
    BgpRouter n × Except BgpNotificationMessage Unit :=
  let peer := r.peerAt idx
  let r := update.withdrawn.foldl (fun r p => r.withdrawPrefix peer.addr p) r
  match update.attributes with
  | none => (r, .ok ())
  | some attrs =>
    if update.nlri.isEmpty then (r, .ok ())
    else if unusableNextHop attrs.nextHop then (r, .error (.new bgpErrUpdateMessage bgpSubInvalidNextHop))
    else if r.isEbgp idx && refusesPath peer attrs.asPath then
      (r.modifyPeer idx fun q => { q with counters.asPathRejected := q.counters.asPathRejected + 1 },
        .error (.new bgpErrUpdateMessage bgpSubMalformedAsPath))
    else
      let count := update.nlri.length
      match r.reflectionLoop attrs.originatorId attrs.clusterList with
      | some .originator =>
        (r.modifyPeer idx fun q =>
          { q with counters.originatorLoopsRejected := q.counters.originatorLoopsRejected + count }, .ok ())
      | some .cluster =>
        (r.modifyPeer idx fun q =>
          { q with counters.clusterLoopsRejected := q.counters.clusterLoopsRejected + count }, .ok ())
      | none =>
        if attrs.asPath.contains r.localAs then
          (r.modifyPeer idx fun q => { q with counters.asLoopsRejected := q.counters.asLoopsRejected + count },
            .ok ())
        else importNlri idx nowMs attrs r update.nlri

/-! ## Decision -/

def routeIsGracefulRestartStale (peerAddr : Ipv4Address) (family : AfiSafi) (receivedAtMs : Nat) : Bool :=
  match r.peer peerAddr with
  | none => false
  | some peer =>
    if family ∉ peer.gracefulRestartStale then false
    else peer.gracefulRestartRefreshStartedMs.all fun cutoff => receivedAtMs < cutoff

def learnedCandidates (p : Ipv4Prefix) : List BgpPath :=
  let learned := r.adjRibIn.candidates p
  let fresh := learned.filter fun path =>
    !r.routeIsGracefulRestartStale path.peerAddr .ipv4Unicast path.receivedAtMs
  if fresh.isEmpty then learned else fresh

def localCandidate (p : Ipv4Prefix) : Option BgpPath :=
  (r.originated.get? p).map fun nextHop => .originated p nextHop r.routerId

def candidatesFor (p : Ipv4Prefix) : List BgpPath := r.learnedCandidates p ++ (r.localCandidate p).toList

def newRib : PathTable :=
  (SortedMap.ofKeys (r.adjRibIn.prefixes ++ r.originated.keys)).keys.foldl
    (fun rib p => (selectBest (r.candidatesFor p)).elim rib rib.insert) .empty

def runDecisionProcess : BgpRouter n := { r with decisionRuns := r.decisionRuns + 1, locRib := r.newRib }

/-! ## What a peer should hear -/

inductive Propagation
  | deny
  | plain
  | reflect
deriving DecidableEq

def propagation (isEbgpSession learnedOverIbgp fromClient : Bool) : Propagation :=
  if isEbgpSession || !learnedOverIbgp then .plain
  else if fromClient || (r.peerAt idx).isClient then .reflect
  else .deny

def reflectionMetadata (receivedOriginator : Option Ipv4Address) (receivedClusters : List Ipv4Address)
    (advertisingRouterId : Ipv4Address) : Option Ipv4Address × List Ipv4Address :=
  (some (receivedOriginator.getD advertisingRouterId), (r.clusterId :: receivedClusters).take maxClusterListLen)

def advertisedRoute (best : BgpPath) (policyLp policyMed : Option UInt32) : AdvertisedRoute :=
  let peer := r.peerAt idx
  let isEbgpSession := r.isEbgp idx
  let reflecting : Bool := r.propagation idx isEbgpSession (best.source = .ibgp) best.fromClient = .reflect
  let metadata :=
    if reflecting then r.reflectionMetadata best.originatorId best.clusterList best.peerRouterId else (none, [])
  { origin := best.origin
    asPath := if isEbgpSession then best.asPath.prepend r.localAs else best.asPath
    nextHop :=
      if isEbgpSession || best.isLocal || (peer.nextHopSelf && !reflecting) then peer.localAddr else best.nextHop
    med := if isEbgpSession then policyMed else policyMed.or best.med
    localPref := if isEbgpSession then none else some (policyLp.getD best.localPref)
    originatorId := metadata.1
    clusterList := metadata.2 }

/-- One turn of the loop of `compute_adj_rib_out`: how the best path goes to a peer, if it does. -/
def exportRoute (p : Ipv4Prefix) (best : BgpPath) : Option AdvertisedRoute :=
  let peer := r.peerAt idx
  -- Never back to the peer it came from.
  if best.peerAddr = peer.addr then none
  else if r.propagation idx (r.isEbgp idx) (best.source = .ibgp) best.fromClient = .deny then none
  else
    match peer.exportPolicy.apply p with
    | .denied => none
    | .permitted policyLp policyMed =>
      let route := r.advertisedRoute idx best policyLp policyMed
      -- Nor into an AS that is already on the path.
      if route.asPath.contains peer.remoteAs then none else some route

def computeAdjRibOut : SortedMap Ipv4Prefix AdvertisedRoute :=
  r.locRib.paths.filterMap (r.exportRoute idx)

def attributesFor (route : AdvertisedRoute) (fourOctetAs : Bool) : BgpPathAttributes where
  origin := route.origin
  asPath := route.asPath
  nextHop := route.nextHop
  med := route.med
  localPref := route.localPref
  atomicAggregate := false
  extCommunities := []
  mpReach := none
  mpUnreach := none
  originatorId := route.originatorId
  clusterList := route.clusterList
  fourOctetAs

def rrSuppressedCount : Nat :=
  (r.locRib.paths.entries.filter fun e => e.2.peerAddr ≠ (r.peerAt idx).addr ∧
    r.propagation idx (r.isEbgp idx) (e.2.source = .ibgp) e.2.fromClient = .deny).length

end BgpRouter

/-! ## Sending -/

/-- What a speaker asks of its sockets. A write answers how much it took, or fails. -/
structure SocketRuntime (σ : Type) where
  tcpWritable : σ → TcpStreamHandle → Nat
  tcpWrite : σ → TcpStreamHandle → List UInt8 → Option Nat × σ

/-- A speaker at work on its sockets, with every message it has passed to `send_pdu`. -/
structure Sending (n : Nat) (σ : Type) where
  router : BgpRouter n
  sockets : σ
  passed : List BgpPdu

namespace Sending
variable {n : Nat} {σ : Type} (io : SocketRuntime σ) (idx : Fin n)

def modifyPeer (s : Sending n σ) (f : BgpPeer → BgpPeer) : Sending n σ :=
  { s with router := s.router.modifyPeer idx f }

def sendPdu (pdu : BgpPdu) (s : Sending n σ) : Sending n σ × Bool :=
  let s := { s with passed := s.passed ++ [pdu] }
  match (s.router.peerAt idx).stream with
  | none => (s, false)
  | some stream =>
    let bytes := pdu.serialize
    if io.tcpWritable s.sockets stream < bytes.length then (s, false)
    else
      match io.tcpWrite s.sockets stream bytes with
      | (some written, sockets) =>
        if written = bytes.length then ({ s with sockets }, true)
        else (({ s with sockets } : Sending n σ).modifyPeer idx fun q => { q with txDesynced := true }, false)
      | (none, sockets) => ({ s with sockets }, false)

def ensureEnhancedRefreshBorr (family : AfiSafi) (s : Sending n σ) : Sending n σ × Bool :=
  if (s.router.peerAt idx).enhancedRefreshOutbound.get? family ≠ some .needBorr then (s, true)
  else
    match s.sendPdu io idx (.routeRefresh ⟨family, .beginning⟩) with
    | (s, false) => (s, false)
    | (s, true) =>
      (s.modifyPeer idx fun q => { q with
        enhancedRefreshOutbound := q.enhancedRefreshOutbound.insert family .replaying
        counters.enhancedRefreshBorrSent := q.counters.enhancedRefreshBorrSent + 1 }, true)

def finishEnhancedRefreshReplay (family : AfiSafi) (s : Sending n σ) : Sending n σ :=
  if (s.router.peerAt idx).enhancedRefreshOutbound.get? family = some .replaying then
    s.modifyPeer idx fun q =>
      { q with enhancedRefreshOutbound := q.enhancedRefreshOutbound.insert family .needEorr }
  else s

def sendWithdrawn (withdrawn : List Ipv4Prefix) (s : Sending n σ) : Sending n σ × Bool :=
  if withdrawn.isEmpty then (s, true)
  else
    match s.sendPdu io idx (.update (.withdraw withdrawn)) with
    | (s, false) => (s, false)
    | (s, true) =>
      let s := s.modifyPeer idx fun q => { q with counters.updatesSent := q.counters.updatesSent + 1 }
      let addr := (s.router.peerAt idx).addr
      ({ s with router.adjRibOut := withdrawn.foldl (fun out p => out.remove addr p) s.router.adjRibOut }, true)

def sendGroup (fourOctetAs : Bool) (s : Sending n σ × Bool) (group : AdvertisedRoute × List Ipv4Prefix) :
    Sending n σ × Bool :=
  let (route, ps) := group
  match s.1.sendPdu io idx (.update (.announce (BgpRouter.attributesFor route fourOctetAs) ps)) with
  | (s', false) => (s', false)
  | (s', true) =>
    let reflected := route.originatorId.isSome || !route.clusterList.isEmpty
    let s' := s'.modifyPeer idx fun q => { q with
      counters.updatesSent := q.counters.updatesSent + 1
      counters.routesReflected := q.counters.routesReflected + if reflected then ps.length else 0 }
    let addr := (s'.router.peerAt idx).addr
    ({ s' with router.adjRibOut := ps.foldl (fun out p => out.insert addr p route) s'.router.adjRibOut }, s.2)

end Sending

def groupKey (route : AdvertisedRoute) (fourOctetAs : Bool) : List Nat :=
  (BgpRouter.attributesFor route fourOctetAs).encode.map UInt8.toNat

def addToGroup (fourOctetAs : Bool) (groups : SortedMap (List Nat) (AdvertisedRoute × List Ipv4Prefix))
    (e : Ipv4Prefix × AdvertisedRoute) : SortedMap (List Nat) (AdvertisedRoute × List Ipv4Prefix) :=
  let key := groupKey e.2 fourOctetAs
  let group := (groups.get? key).getD (e.2, [])
  groups.insert key (group.1, group.2 ++ [e.1])

namespace BgpRouter
variable {n : Nat}

def withdrawals (r : BgpRouter n) (idx : Fin n) : List Ipv4Prefix :=
  (r.adjRibOut.prefixes (r.peerAt idx).addr).filter fun p => ((r.computeAdjRibOut idx).get? p).isNone

/-- Grouped by attributes. During a refresh unchanged routes are included. -/
def announcements (r : BgpRouter n) (idx : Fin n) (forceRefresh : Bool) (adjRibOut : AdjRibOut) :
    SortedMap (List Nat) (AdvertisedRoute × List Ipv4Prefix) :=
  ((r.computeAdjRibOut idx).entries.filter fun e =>
    forceRefresh || adjRibOut.get? (r.peerAt idx).addr e.1 ≠ some e.2).foldl
      (addToGroup (r.peerAt idx).fourOctetAs) .empty

end BgpRouter

namespace Sending
variable {n : Nat} {σ : Type} (io : SocketRuntime σ) (idx : Fin n)

/-- Withdrawals first, then every group; whether all of it went out. -/
def sendDifferences (forceRefresh : Bool) (s : Sending n σ) : Sending n σ × Bool :=
  let withdrawn := s.sendWithdrawn io idx (s.router.withdrawals idx)
  let groups := s.router.announcements idx forceRefresh withdrawn.1.router.adjRibOut
  (groups.entries.map Prod.snd).foldl (Sending.sendGroup io idx (s.router.peerAt idx).fourOctetAs) withdrawn

end Sending

def BgpRouter.advertiseToPeer {n : Nat} {σ : Type} (io : SocketRuntime σ) (r : BgpRouter n) (idx : Fin n)
    (sockets : σ) :
    Sending n σ :=
  let s : Sending n σ := ⟨r, sockets, []⟩
  if !(r.peerAt idx).isEstablished then s
  else
    let forceRefresh : Bool := .ipv4Unicast ∈ (r.peerAt idx).refreshPending
    match if forceRefresh then s.ensureEnhancedRefreshBorr io idx .ipv4Unicast else (s, true) with
    | (s, false) => s
    | (s, true) =>
      let (s, complete) := s.sendDifferences io idx forceRefresh
      let s := s.modifyPeer idx fun q => { q with counters.rrSuppressed := s.router.rrSuppressedCount idx }
      if forceRefresh && complete then
        (s.modifyPeer idx fun q =>
          { q with refreshPending := q.refreshPending.erase .ipv4Unicast }).finishEnhancedRefreshReplay idx
            .ipv4Unicast
      else s

end SystemsLab.Bgp
