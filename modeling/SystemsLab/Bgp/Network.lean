import SystemsLab.Bgp.Advertise
import SystemsLab.Lib.Descent

/-!
# Networks of speakers

Speakers joined by external sessions, at rest: a best path learned from a neighbour is the neighbour's own with one
AS in front (`Network.forwards_without_loops`).
-/

namespace SystemsLab.Bgp

variable {p : Ipv4Prefix} {route : AdvertisedRoute} {path : BgpPath}

namespace BgpRouter
variable {n : Nat}

/-- What import accepts of a `route` when nothing was heard from the peer before. -/
def accepts (r : BgpRouter n) (idx : Fin n) (nowMs : Nat) (p : Ipv4Prefix) (route : AdvertisedRoute) :
    Option BgpPath :=
  let addr := (r.peerAt idx).addr
  let fresh := { r with adjRibIn := r.adjRibIn.clearPeer addr }
  match fresh.importUpdate idx nowMs (.announce (attributesFor route (r.peerAt idx).fourOctetAs) [p]) with
  | (after, .ok ()) => after.adjRibIn.get? addr p
  | (_, .error _) => none

theorem accepts_eq_some {r : BgpRouter n} {idx : Fin n} {nowMs : Nat}
    (h : r.accepts idx nowMs p route = some path) :
    r.reflectionLoop route.originatorId route.clusterList = none ∧ ∃ policyLp policyMed,
      path = r.importedPath idx nowMs (attributesFor route (r.peerAt idx).fourOctetAs) policyLp policyMed p := by
  unfold accepts at h
  simp only at h
  split at h
  · rename_i after heq
    have hentry := congrArg (fun res => res.1.adjRibIn.get? (r.peerAt idx).addr p) heq
    rcases importUpdate_entry (hentry.trans h) with hold | ⟨attrs, hattrs, hloops, hbuilt⟩
    · rw [AdjRibIn.get?_clearPeer, if_pos rfl] at hold
      cases hold
    · obtain ⟨lp, med, rfl⟩ := builds_eq_some hbuilt
      obtain rfl := Option.some.inj hattrs
      exact ⟨by_contra fun h => hloops (.inl h), lp, med, rfl⟩
  · cases h

end BgpRouter

/-- Speakers joined by external sessions; `far i idx` is the other end of the session that speaker `i` keeps as
`idx`.
-/
structure Network (ι : Type) where
  degree : ι → Nat
  router : (i : ι) → BgpRouter (degree i)
  far : (i : ι) → Fin (degree i) → (j : ι) × Fin (degree j)
  far_far : ∀ i idx, far (far i idx).1 (far i idx).2 = ⟨i, idx⟩
  remoteAs_far : ∀ i idx, ((router i).peerAt idx).remoteAs = (router (far i idx).1).localAs
  addr_far : ∀ i idx, ((router i).peerAt idx).addr = ((router (far i idx).1).peerAt (far i idx).2).localAddr
  external : ∀ i idx, (router i).isEbgp idx = true

namespace Network
variable {ι : Type} (N : Network ι)

def outbound (i : ι) (idx : Fin (N.degree i)) (p : Ipv4Prefix) : Option AdvertisedRoute :=
  ((N.router (N.far i idx).1).computeAdjRibOut (N.far i idx).2).get? p

structure Quiescent : Prop where
  /-- Routes come from neighbours only. -/
  heard : ∀ i a p path, (N.router i).adjRibIn.get? a p = some path →
    ∃ idx : Fin (N.degree i), ((N.router i).peerAt idx).addr = a
  synced : ∀ i (idx : Fin (N.degree i)) p, ∃ nowMs, (N.router i).adjRibIn.get? ((N.router i).peerAt idx).addr p =
    (N.outbound i idx p).bind ((N.router i).accepts idx nowMs p)
  decided : ∀ i, (N.router i).locRib = (N.router i).runDecisionProcess.locRib

def best (p : Ipv4Prefix) (i : ι) : Option BgpPath := (N.router i).locRib.get? p

def originates (p : Ipv4Prefix) (i : ι) : Prop := ((N.router i).originated.get? p).isSome

def session (i : ι) (path : BgpPath) : Option (Fin (N.degree i)) :=
  (List.finRange (N.degree i)).find? fun idx => ((N.router i).peerAt idx).addr = path.peerAddr

def next (p : Ipv4Prefix) (i : ι) : Option ι :=
  (N.best p i).bind fun path => if path.isLocal then none else (N.session i path).map fun idx => (N.far i idx).1

variable {N}

theorem outbound_eq_some {i : ι} {idx : Fin (N.degree i)}
    (h : N.outbound i idx p = some route) :
    ∃ path, N.best p (N.far i idx).1 = some path ∧ route.asPath.length = path.asPath.length + 1 := by
  rw [outbound, BgpRouter.computeAdjRibOut, SortedMap.get?_filterMap] at h
  obtain ⟨path, hpath, hroute⟩ := Option.bind_eq_some_iff.mp h
  obtain ⟨-, lp, med, rfl⟩ := BgpRouter.exportRoute_eq_some hroute
  refine ⟨path, hpath, ?_⟩
  rw [BgpRouter.advertisedRoute]
  simp only [N.external, if_true]
  exact AsPath.length_prepend _ _

theorem Quiescent.step (hq : N.Quiescent) {i : ι} (h : N.best p i = some path) :
    (N.next p i = none ∧ N.originates p i) ∨ ∃ j path', N.next p i = some j ∧ N.best p j = some path' ∧
      path.asPath.length = path'.asPath.length + 1 := by
  have hrib : (N.router i).newRib.get? p = some path := by
    rw [best, hq.decided i] at h
    exact h
  rcases BgpRouter.newRib_origin hrib with hlocal | ⟨a, ha⟩
  · left
    obtain ⟨nextHop, horig, rfl⟩ := Option.map_eq_some_iff.mp hlocal
    refine ⟨?_, by rw [originates, horig]; rfl⟩
    rw [next, h]
    rfl
  · right
    -- The path is under the address of a neighbour, and that address is in the path.
    have hlearned : ∀ idx : Fin (N.degree i), ((N.router i).peerAt idx).addr = a →
        ∃ route, N.outbound i idx p = some route ∧
        path.peerAddr = a ∧ path.isLocal = false ∧ path.asPath = route.asPath := by
      intro idx hidx
      obtain ⟨nowMs, hsync⟩ := hq.synced i idx p
      rw [hidx, ha] at hsync
      obtain ⟨route, hroute, hacc⟩ := Option.bind_eq_some_iff.mp hsync.symm
      obtain ⟨-, lp, med, rfl⟩ := BgpRouter.accepts_eq_some hacc
      exact ⟨route, hroute, hidx, by simp [BgpPath.isLocal, BgpRouter.importedPath, N.external], rfl⟩
    obtain ⟨idx₀, hidx₀⟩ := hq.heard i a p path ha
    obtain ⟨-, -, hpeer, hremote, -⟩ := hlearned idx₀ hidx₀
    obtain ⟨idx, hsession⟩ : ∃ idx, N.session i path = some idx := by
      rw [← Option.isSome_iff_exists, session, List.find?_isSome]
      exact ⟨idx₀, List.mem_finRange _, by simpa [hpeer] using hidx₀⟩
    have hidx : ((N.router i).peerAt idx).addr = a := by
      rw [← hpeer]
      simpa using List.find?_some hsession
    obtain ⟨route, hroute, -, -, hpath⟩ := hlearned idx hidx
    obtain ⟨path', hbest, hlen⟩ := outbound_eq_some hroute
    refine ⟨_, path', ?_, hbest, by rw [hpath, hlen]⟩
    rw [next, h, Option.bind_some, hremote, hsession]
    rfl

/-- In a network at rest, whoever follows the best paths to a prefix arrives at a speaker that originates it, having
met no speaker twice. -/
theorem forwards_without_loops (hq : N.Quiescent) (p : Ipv4Prefix) (i : ι) (path : BgpPath)
    (h : N.best p i = some path) :
    ∃ k ≤ path.asPath.length, ∃ j, follow (N.next p) k i = some j ∧ N.originates p j ∧ N.next p j = none ∧
      ∀ m m', m < m' → ∀ x, follow (N.next p) m i = some x → follow (N.next p) m' i ≠ some x := by
  -- Speakers with a best path, ranked by its length.
  have hdescends : ∀ i, (N.best p i).isSome = true → ∀ j, N.next p i = some j → (N.best p j).isSome = true ∧
      ((N.best p j).elim 0 fun q => q.asPath.length) < (N.best p i).elim 0 fun q => q.asPath.length := by
    intro i hi j hj
    obtain ⟨path, hpath⟩ := Option.isSome_iff_exists.mp hi
    rcases hq.step hpath with ⟨hnone, -⟩ | ⟨j', path', hj', hbest, hlen⟩
    · rw [hnone] at hj
      cases hj
    · obtain rfl : j' = j := Option.some.inj (hj'.symm.trans hj)
      rw [hpath, hbest]
      simp [hlen]
  have hi : (N.best p i).isSome = true := by rw [h]; rfl
  obtain ⟨k, hk, j, hfollow, hj, hend⟩ := follow_ends hdescends i hi
  obtain ⟨path', hpath'⟩ := Option.isSome_iff_exists.mp hj
  refine ⟨k, by simpa [h] using hk, j, hfollow, ?_, hend, fun m m' hlt x hm => follow_injective hdescends hi hlt hm⟩
  rcases hq.step hpath' with ⟨-, horig⟩ | ⟨j', _, hj', -⟩
  · exact horig
  · rw [hend] at hj'
    cases hj'

/-! ## Two speakers at rest -/

def lan : Ipv4Prefix := .new ⟨10, 1, 0, 0⟩ 16

def silentNeighbour : BgpRouter 1 where
  localAs := 65001
  routerId := ⟨10, 0, 0, 2⟩
  configuredClusterId := none
  peers := #v[{ addr := ⟨10, 0, 0, 1⟩, remoteAs := 65000, localAddr := ⟨10, 0, 0, 2⟩, state := .established,
                fourOctetAs := true }]
  adjRibIn := .new
  locRib := .empty
  adjRibOut := .new
  originated := .empty
  dirty := false
  decisionRuns := 0

def lanLearned : BgpPath :=
  silentNeighbour.importedPath 0 1000 (BgpRouter.attributesFor BgpRouter.originatedRoute true) none none lan

def neighbour : BgpRouter 1 :=
  { silentNeighbour with adjRibIn := AdjRibIn.new.insert ⟨10, 0, 0, 1⟩ lanLearned }.runDecisionProcess

def twoSpeakers : Network Bool where
  degree _ := 1
  router
    | false => (BgpRouter.originating [lan]).runDecisionProcess
    | true => neighbour
  far i _ := ⟨!i, 0⟩
  far_far i idx := by cases i <;> rw [Subsingleton.elim idx 0] <;> rfl
  remoteAs_far i idx := by cases i <;> rw [Subsingleton.elim idx 0] <;> rfl
  addr_far i idx := by cases i <;> rw [Subsingleton.elim idx 0] <;> rfl
  external i idx := by cases i <;> rw [Subsingleton.elim idx 0] <;> rfl

theorem get?_neighbour (a : Ipv4Address) (p : Ipv4Prefix) :
    neighbour.adjRibIn.get? a p = if a = ⟨10, 0, 0, 1⟩ ∧ p = lan then some lanLearned else none :=
  AdjRibIn.get?_insert _ _ _ _ _

theorem outbound_neighbour (p : Ipv4Prefix) : twoSpeakers.outbound false (0 : Fin 1) p = none := by
  change (neighbour.computeAdjRibOut 0).get? p = none
  rw [BgpRouter.computeAdjRibOut, SortedMap.get?_filterMap]
  cases hbest : neighbour.locRib.paths.get? p with
  | none => rfl
  | some path =>
    have hlearned : path = lanLearned := by
      rcases BgpRouter.newRib_origin hbest with h | ⟨a, h⟩
      · cases h
      · have h := (get?_neighbour a p).symm.trans h
        split at h
        · exact (Option.some.inj h).symm
        · cases h
    subst hlearned
    rfl

theorem quiescent_twoSpeakers : twoSpeakers.Quiescent where
  heard i a p path h := by
    cases i with
    | false => cases h
    | true =>
      have h := (get?_neighbour a p).symm.trans h
      split at h
      · rename_i ha
        exact ⟨(0 : Fin 1), ha.1.symm⟩
      · cases h
  synced i idx p := by
    obtain rfl : idx = (0 : Fin 1) := @Subsingleton.elim (Fin 1) _ _ _
    refine ⟨1000, ?_⟩
    cases i with
    | false => rw [outbound_neighbour]; rfl
    | true =>
      have hout : twoSpeakers.outbound true (0 : Fin 1) p =
          if p ∈ [lan] then some BgpRouter.originatedRoute else none :=
        BgpRouter.get?_computeAdjRibOut_originating [lan] p
      rw [hout]
      refine (get?_neighbour _ p).trans ?_
      by_cases hp : p = lan
      · subst hp
        decide +kernel
      · simp [hp]
  decided i := by cases i <;> rfl

theorem forwards_twoSpeakers : twoSpeakers.Quiescent ∧ twoSpeakers.best lan true = some lanLearned ∧
    ∃ k ≤ lanLearned.asPath.length, ∃ j, follow (twoSpeakers.next lan) k true = some j ∧
      twoSpeakers.originates lan j ∧
      twoSpeakers.next lan j = none ∧ ∀ m m', m < m' → ∀ x, follow (twoSpeakers.next lan) m true = some x →
        follow (twoSpeakers.next lan) m' true ≠ some x := by
  have hbest : twoSpeakers.best lan true = some lanLearned := by
    change neighbour.locRib.get? lan = some lanLearned
    decide +kernel
  exact ⟨quiescent_twoSpeakers, hbest, forwards_without_loops quiescent_twoSpeakers lan true lanLearned hbest⟩

end Network
end SystemsLab.Bgp
