import SystemsLab.Bgp.Network

/-!
# Reflection inside one AS

A reflected route names the last `maxClusterListLen` clusters it has come through, and a speaker refuses a route
that names its own (`reflectAlong_visits_once_iff`).
-/

namespace SystemsLab.Bgp

variable {p : Ipv4Prefix} {route next start out : AdvertisedRoute}

/-- The session a route arrives on, the one it leaves by, and the speaker itself. -/
structure Reflector where
  {n : Nat}
  router : BgpRouter n
  inbound : Fin n
  outbound : Fin n
  nowMs : Nat
  later : BgpPath → BgpRouter n
  same : ∀ path, (later path).clusterId = router.clusterId

namespace Reflector

def clusterId (s : Reflector) : Ipv4Address := s.router.clusterId

/-- What the speaker emits under `Propagation::Reflect`, once it has chosen `route` as its best. -/
def pass (p : Ipv4Prefix) (route : AdvertisedRoute) (s : Reflector) : Option AdvertisedRoute :=
  (s.router.accepts s.inbound s.nowMs p route).bind fun path =>
    let r := s.later path
    if r.locRib.get? p = some path ∧
        r.propagation s.outbound (r.isEbgp s.outbound) (path.source = .ibgp) path.fromClient = .reflect then
      (r.computeAdjRibOut s.outbound).get? p
    else none

theorem pass_eq_some {s : Reflector} (h : s.pass p route = some next) : s.clusterId ∉ route.clusterList ∧
    next.clusterList = (s.clusterId :: route.clusterList).take maxClusterListLen := by
  obtain ⟨path, haccepts, h⟩ := Option.bind_eq_some_iff.mp h
  obtain ⟨hloop, lp, med, rfl⟩ := BgpRouter.accepts_eq_some haccepts
  refine ⟨fun hmem => ?_, ?_⟩
  · unfold BgpRouter.reflectionLoop at hloop
    split at hloop
    · cases hloop
    · have hcontains : route.clusterList.contains s.router.clusterId = true := List.contains_iff_mem.mpr hmem
      rw [if_pos hcontains] at hloop
      cases hloop
  · simp only at h
    split at h
    · rename_i hbest
      obtain ⟨hbest, hreflect⟩ := hbest
      rw [BgpRouter.computeAdjRibOut, SortedMap.get?_filterMap] at h
      obtain ⟨best, hb, hroute⟩ := Option.bind_eq_some_iff.mp h
      obtain rfl := Option.some.inj (hb.symm.trans hbest)
      obtain ⟨-, lp', med', rfl⟩ := BgpRouter.exportRoute_eq_some hroute
      rw [BgpRouter.advertisedRoute]
      simp only [hreflect, decide_true, if_true, BgpRouter.reflectionMetadata, s.same]
      rfl
    · cases h

end Reflector

/-- A route goes through speakers that each accept it from the one before and reflect it. -/
def reflectAlong (p : Ipv4Prefix) (start : AdvertisedRoute) (walk : List Reflector) : Option AdvertisedRoute :=
  walk.foldlM (fun route s => s.pass p route) start

theorem mem_clusterList_reflectAlong {c : Ipv4Address} :
    ∀ {walk : List Reflector} {start : AdvertisedRoute} {m : Nat}, reflectAlong p start walk = some out →
      c ∈ start.clusterList.take m → m + walk.length ≤ maxClusterListLen →
      c ∈ out.clusterList.take (m + walk.length)
  | [], _, _, h, hc, _ => Option.some.inj h ▸ hc
  | s :: walk, start, m, h, hc, hlen => by
    rw [reflectAlong, List.foldlM_cons] at h
    obtain ⟨next, hpass, hrest⟩ := Option.bind_eq_some_iff.mp h
    rw [List.length_cons] at hlen ⊢
    have hnext : c ∈ next.clusterList.take (m + 1) := by
      rw [(Reflector.pass_eq_some hpass).2, List.take_take, Nat.min_eq_left (by omega), List.take_succ_cons]
      exact List.mem_cons_of_mem _ hc
    rw [Nat.add_comm walk.length, ← Nat.add_assoc]
    exact mem_clusterList_reflectAlong hrest hnext (by omega)

theorem clusterId_ne_of_near {s s' : Reflector} {pre between post : List Reflector}
    (hnear : between.length < maxClusterListLen)
    (h : reflectAlong p start (pre ++ s :: (between ++ s' :: post)) = some out) : s.clusterId ≠ s'.clusterId := by
  simp only [reflectAlong, List.foldlM_append, List.foldlM_cons, Option.bind_eq_bind, Option.bind_eq_some_iff] at h
  obtain ⟨_, -, first, hpass, last, hbetween, _, hpass', -⟩ := h
  have hfirst : s.clusterId ∈ first.clusterList.take 1 := by
    rw [(Reflector.pass_eq_some hpass).2]
    simp [maxClusterListLen]
  have hlast := mem_clusterList_reflectAlong hbetween hfirst (by omega)
  intro heq
  exact (Reflector.pass_eq_some hpass').1 (heq ▸ List.mem_of_mem_take hlast)

theorem reflectAlong_visits_once_iff {walk : List Reflector} (h : reflectAlong p start walk = some out) :
    (walk.map Reflector.clusterId).Nodup ↔ ∀ i j, i + maxClusterListLen < j → j < walk.length →
      (walk.map Reflector.clusterId)[i]? ≠ (walk.map Reflector.clusterId)[j]? := by
  rw [List.nodup_iff_getElem?_ne_getElem?, List.length_map]
  refine ⟨fun hne i j hij => hne i j (by omega), fun hfar i j hij hj => ?_⟩
  by_cases hapart : i + maxClusterListLen < j
  · exact hfar i j hapart hj
  · have hi : i < walk.length := by omega
    have hwalk : walk = walk.take i ++ walk[i] ::
        ((walk.drop (i + 1)).take (j - (i + 1)) ++ walk[j] :: walk.drop (j + 1)) := by
      have hdrop : walk.drop j = (walk.drop (i + 1)).drop (j - (i + 1)) := by
        rw [List.drop_drop, Nat.add_sub_cancel' hij]
      rw [← List.drop_eq_getElem_cons hj, hdrop, List.take_append_drop, ← List.drop_eq_getElem_cons hi,
        List.take_append_drop]
    rw [hwalk] at h
    rw [List.getElem?_map, List.getElem?_map, List.getElem?_eq_getElem hi, List.getElem?_eq_getElem hj]
    intro heq
    refine clusterId_ne_of_near ?_ h (Option.some.inj heq)
    rw [List.length_take]
    omega

/-! ## A chain of 33 clusters -/

def chain (i : Nat) : BgpRouter 2 where
  localAs := 65000
  routerId := ⟨10, 0, 0, .ofNat (i + 1)⟩
  configuredClusterId := some ⟨10, 9, 0, .ofNat (i % 33)⟩
  peers := #v[
    { addr := ⟨10, 0, 0, .ofNat i⟩, remoteAs := 65000, localAddr := ⟨10, 0, 0, .ofNat (i + 1)⟩,
      role := .routeReflectorClient },
    { addr := ⟨10, 0, 0, .ofNat (i + 2)⟩, remoteAs := 65000, localAddr := ⟨10, 0, 0, .ofNat (i + 1)⟩ }]
  adjRibIn := .new
  locRib := .empty
  adjRibOut := .new
  originated := .empty
  dirty := false
  decisionRuns := 0

def chained (i : Nat) : Reflector where
  router := chain i
  inbound := ⟨0, Nat.two_pos⟩
  outbound := ⟨1, Nat.one_lt_two⟩
  nowMs := 1000
  later path := { chain i with adjRibIn := AdjRibIn.new.insert path.peerAddr path }.runDecisionProcess
  same _ := rfl

def entering : AdvertisedRoute := ⟨.igp, .sequence [65001], ⟨192, 0, 2, 1⟩, none, some 100, none, []⟩

/-- The thirty-fourth speaker is of the first one's cluster, which has just fallen off the list. -/
theorem reflectAlong_returns : let walk := (List.range 34).map chained
    (reflectAlong Network.lan entering walk).isSome ∧ (walk.map fun s => s.router.routerId).Nodup ∧
      (∀ s ∈ walk, s.router.localAs = 65000) ∧ ¬ (walk.map Reflector.clusterId).Nodup := by
  decide +kernel

theorem reflectAlong_thirtyThree :
    ∃ out, reflectAlong Network.lan entering ((List.range 33).map chained) = some out ∧
    (((List.range 33).map chained).map Reflector.clusterId).Nodup := by
  obtain ⟨out, hout⟩ := Option.isSome_iff_exists.mp
    (show (reflectAlong Network.lan entering ((List.range 33).map chained)).isSome from by decide +kernel)
  refine ⟨out, hout, (reflectAlong_visits_once_iff hout).mpr fun i j hij hj => ?_⟩
  simp only [List.length_map, List.length_range, maxClusterListLen] at hij hj
  omega

end SystemsLab.Bgp
