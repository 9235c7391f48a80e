import SystemsLab.Bgp.Attributes
import SystemsLab.Lib.SortedMap
import SystemsLab.Lib.Knockout

/-!
# Routing information bases

The paths a speaker knows, the comparison of two paths to one prefix, the three
tables, and the ordered prefix policies. A table of paths files each path under
its own prefix.
-/

namespace SystemsLab.Bgp

def bgpDefaultLocalPref : UInt32 := 100

inductive PathSource
  | local
  | ebgp
  | ibgp
deriving DecidableEq, Repr

structure BgpPath where
  pfx : Ipv4Prefix
  source : PathSource
  peerAddr : Ipv4Address
  peerAs : UInt32
  peerRouterId : Ipv4Address
  origin : BgpOrigin
  asPath : AsPath
  nextHop : Ipv4Address
  med : Option UInt32
  localPref : UInt32
  atomicAggregate : Bool
  originatorId : Option Ipv4Address
  clusterList : List Ipv4Address
  fromClient : Bool
  receivedAtMs : Nat
deriving DecidableEq

variable {p : Ipv4Prefix} {path : BgpPath}

namespace BgpPath

def originated (pfx : Ipv4Prefix) (nextHop routerId : Ipv4Address) : BgpPath where
  pfx
  source := .local
  peerAddr := .unspecified
  peerAs := 0
  peerRouterId := routerId
  origin := .igp
  asPath := .empty
  nextHop
  med := none
  localPref := bgpDefaultLocalPref
  atomicAggregate := false
  originatorId := none
  clusterList := []
  fromClient := false
  receivedAtMs := 0

def isLocal (p : BgpPath) : Bool := p.source = .local

def isEbgp (p : BgpPath) : Bool := p.source = .ebgp

def sameRouteAs (p q : BgpPath) : Bool := { p with receivedAtMs := 0 } = { q with receivedAtMs := 0 }

end BgpPath

/-! ## The comparison of two paths -/

def preferTrue : Bool → Bool → Ordering
  | true, false => .lt
  | false, true => .gt
  | _, _ => .eq

def compareMed (a b : BgpPath) : Ordering :=
  if a.asPath.firstAs.isSome ∧ a.asPath.firstAs = b.asPath.firstAs then
    compare (a.med.getD 0).toNat (b.med.getD 0).toNat
  else .eq

/-- `.lt` means that `a` wins. -/
def comparePaths (a b : BgpPath) : Ordering :=
  (preferTrue a.isLocal b.isLocal).then <|
  (compare b.localPref.toNat a.localPref.toNat).then <|
  (compare a.asPath.length b.asPath.length).then <|
  (compare a.origin.toU8.toNat b.origin.toU8.toNat).then <|
  (compareMed a b).then <|
  (preferTrue a.isEbgp b.isEbgp).then <|
  (compare a.clusterList.length b.clusterList.length).then <|
  (compare a.peerRouterId b.peerRouterId).then (compare a.peerAddr b.peerAddr)

def selectBest (candidates : List BgpPath) : Option BgpPath :=
  knockout (fun next best => comparePaths next best = .lt) candidates

/-! ## Tables -/

structure PathTable where
  paths : SortedMap Ipv4Prefix BgpPath
  keyed : ∀ e ∈ paths.entries, e.2.pfx = e.1
deriving DecidableEq

namespace PathTable

def empty : PathTable := ⟨.empty, by simp [SortedMap.empty]⟩

instance : Inhabited PathTable := ⟨empty⟩

def get? (t : PathTable) (p : Ipv4Prefix) : Option BgpPath := t.paths.get? p

def insert (t : PathTable) (path : BgpPath) : PathTable where
  paths := t.paths.insert path.pfx path
  keyed := by
    intro e he
    rcases SortedMap.mem_insert.mp he with rfl | ⟨he, -⟩
    · rfl
    · exact t.keyed e he

def remove (t : PathTable) (p : Ipv4Prefix) : PathTable where
  paths := t.paths.erase p
  keyed := fun e he => t.keyed e (SortedMap.mem_erase.mp he).1

theorem pfx_of_get? {t : PathTable} (h : t.get? p = some path) : path.pfx = p :=
  t.keyed _ (SortedMap.get?_eq_some.mp h)

theorem get?_insert (t : PathTable) (path : BgpPath) (p : Ipv4Prefix) :
    (t.insert path).get? p = if p = path.pfx then some path else t.get? p := SortedMap.get?_insert _ _ _ _

theorem get?_remove (t : PathTable) (q p : Ipv4Prefix) : (t.remove q).get? p = if p = q then none else t.get? p :=
  SortedMap.get?_erase _ _ _

end PathTable

structure AdjRibIn where
  tables : SortedMap Ipv4Address PathTable
deriving DecidableEq

namespace AdjRibIn
variable {r : AdjRibIn}

def new : AdjRibIn := ⟨.empty⟩

def peerTable (r : AdjRibIn) (peer : Ipv4Address) : PathTable := (r.tables.get? peer).getD .empty

def get? (r : AdjRibIn) (peer : Ipv4Address) (p : Ipv4Prefix) : Option BgpPath := (r.peerTable peer).get? p

def insert (r : AdjRibIn) (peer : Ipv4Address) (path : BgpPath) : AdjRibIn :=
  ⟨r.tables.insert peer ((r.peerTable peer).insert path)⟩

def remove (r : AdjRibIn) (peer : Ipv4Address) (p : Ipv4Prefix) : AdjRibIn :=
  match r.tables.get? peer with
  | none => r
  | some t =>
    if (t.remove p).paths.entries.isEmpty then ⟨r.tables.erase peer⟩
    else ⟨r.tables.insert peer (t.remove p)⟩

def clearPeer (r : AdjRibIn) (peer : Ipv4Address) : AdjRibIn := ⟨r.tables.erase peer⟩

def prefixCount (r : AdjRibIn) (peer : Ipv4Address) : Nat := (r.peerTable peer).paths.size

def prefixes (r : AdjRibIn) : List Ipv4Prefix := r.tables.entries.flatMap (·.2.paths.keys)

def candidates (r : AdjRibIn) (p : Ipv4Prefix) : List BgpPath := r.tables.entries.filterMap (·.2.get? p)

theorem get?_insert (r : AdjRibIn) (peer : Ipv4Address) (path : BgpPath) (peer' : Ipv4Address) (p : Ipv4Prefix) :
    (r.insert peer path).get? peer' p = if peer' = peer ∧ p = path.pfx then some path else r.get? peer' p := by
  unfold insert get? peerTable
  rw [SortedMap.get?_insert]
  by_cases h : peer' = peer
  · subst h
    rw [if_pos rfl, Option.getD_some, PathTable.get?_insert]
    simp
  · rw [if_neg h]
    simp [h]

theorem get?_remove (r : AdjRibIn) (peer : Ipv4Address) (q : Ipv4Prefix) (peer' : Ipv4Address) (p : Ipv4Prefix) :
    (r.remove peer q).get? peer' p = if peer' = peer ∧ p = q then none else r.get? peer' p := by
  unfold remove
  cases ht : r.tables.get? peer with
  | none =>
    by_cases h : peer' = peer ∧ p = q
    · rw [if_pos h, h.1, get?, peerTable, ht]
      rfl
    · rw [if_neg h]
  | some t =>
    have hself : (t.remove q).get? p = if p = q then none else t.get? p := t.get?_remove q p
    simp only
    by_cases he : (t.remove q).paths.entries.isEmpty = true
    · -- Nothing else was stored from this peer.
      have hnone : (t.remove q).get? p = none := by
        rw [PathTable.get?, SortedMap.get?, List.isEmpty_iff.mp he]; rfl
      rw [if_pos he]
      unfold get? peerTable
      rw [SortedMap.get?_erase]
      by_cases h : peer' = peer
      · subst h
        rw [if_pos rfl, ht, Option.getD_some]
        by_cases hp : p = q
        · simp only [hp, and_self, if_true]; rfl
        · rw [hnone, if_neg hp] at hself
          simp only [hp, and_false, if_false, ← hself]; rfl
      · simp [h]
    · rw [if_neg he]
      unfold get? peerTable
      rw [SortedMap.get?_insert]
      by_cases h : peer' = peer
      · subst h
        rw [if_pos rfl, Option.getD_some, hself, ht, Option.getD_some]
        simp
      · simp [h]

theorem get?_clearPeer (r : AdjRibIn) (peer peer' : Ipv4Address) (p : Ipv4Prefix) :
    (r.clearPeer peer).get? peer' p = if peer' = peer then none else r.get? peer' p := by
  unfold clearPeer get? peerTable
  rw [SortedMap.get?_erase]
  by_cases h : peer' = peer
  · simp only [h, if_true]; rfl
  · simp [h]

theorem pfx_of_get? {peer : Ipv4Address} (h : r.get? peer p = some path) :
    path.pfx = p := PathTable.pfx_of_get? h

theorem mem_candidates : path ∈ r.candidates p ↔ ∃ peer, r.get? peer p = some path := by
  simp only [candidates, List.mem_filterMap, Prod.exists, get?, peerTable]
  constructor
  · rintro ⟨peer, t, hm, ht⟩
    exact ⟨peer, by rw [SortedMap.get?_eq_some.mpr hm]; exact ht⟩
  · rintro ⟨peer, h⟩
    cases ht : r.tables.get? peer with
    | none => rw [ht] at h; cases h
    | some t => exact ⟨peer, t, SortedMap.get?_eq_some.mp ht, by rw [ht] at h; exact h⟩

theorem mem_prefixes : p ∈ r.prefixes ↔ r.candidates p ≠ [] := by
  have hcand : r.candidates p ≠ [] ↔ ∃ path, path ∈ r.candidates p :=
    ⟨List.exists_mem_of_ne_nil _, fun ⟨_, hm⟩ hnil => by rw [hnil] at hm; cases hm⟩
  rw [hcand]
  simp only [prefixes, candidates, List.mem_flatMap, List.mem_filterMap, SortedMap.mem_keys, PathTable.get?]
  constructor
  · rintro ⟨e, he, path, hp⟩
    exact ⟨path, e, he, hp⟩
  · rintro ⟨path, e, he, hp⟩
    exact ⟨e, he, path, hp⟩

end AdjRibIn

structure AdvertisedRoute where
  origin : BgpOrigin
  asPath : AsPath
  nextHop : Ipv4Address
  med : Option UInt32
  localPref : Option UInt32
  originatorId : Option Ipv4Address
  clusterList : List Ipv4Address
deriving DecidableEq

structure AdjRibOut where
  tables : SortedMap Ipv4Address (SortedMap Ipv4Prefix AdvertisedRoute)
deriving DecidableEq

namespace AdjRibOut

def new : AdjRibOut := ⟨.empty⟩

def peerTable (r : AdjRibOut) (peer : Ipv4Address) : SortedMap Ipv4Prefix AdvertisedRoute :=
  (r.tables.get? peer).getD .empty

def get? (r : AdjRibOut) (peer : Ipv4Address) (p : Ipv4Prefix) : Option AdvertisedRoute := (r.peerTable peer).get? p

def insert (r : AdjRibOut) (peer : Ipv4Address) (p : Ipv4Prefix) (route : AdvertisedRoute) : AdjRibOut :=
  ⟨r.tables.insert peer ((r.peerTable peer).insert p route)⟩

def remove (r : AdjRibOut) (peer : Ipv4Address) (p : Ipv4Prefix) : AdjRibOut :=
  match r.tables.get? peer with
  | none => r
  | some t => if (t.erase p).entries.isEmpty then ⟨r.tables.erase peer⟩ else ⟨r.tables.insert peer (t.erase p)⟩

def prefixes (r : AdjRibOut) (peer : Ipv4Address) : List Ipv4Prefix := (r.peerTable peer).keys

theorem get?_remove_of_ne (r : AdjRibOut) (peer peer' : Ipv4Address) {p q : Ipv4Prefix} (h : p ≠ q) :
    (r.remove peer q).get? peer' p = r.get? peer' p := by
  unfold remove
  cases ht : r.tables.get? peer with
  | none => rfl
  | some t =>
    have hself : (t.erase q).get? p = t.get? p := by rw [SortedMap.get?_erase, if_neg h]
    by_cases hpeer : peer' = peer
    · subst hpeer
      rw [get?, get?, peerTable, peerTable, ht, Option.getD_some, ← hself]
      dsimp only
      split
      · rename_i hempty
        rw [SortedMap.get?_erase, if_pos rfl, SortedMap.get?, SortedMap.get?, List.isEmpty_iff.mp hempty]
        rfl
      · rw [SortedMap.get?_insert, if_pos rfl]
        rfl
    · rw [get?, get?, peerTable, peerTable]
      dsimp only
      split
      · rw [SortedMap.get?_erase, if_neg hpeer]
      · rw [SortedMap.get?_insert, if_neg hpeer]

theorem get?_foldl_remove {peer peer' : Ipv4Address} : ∀ (qs : List Ipv4Prefix) (r : AdjRibOut), p ∉ qs →
    (qs.foldl (fun out q => out.remove peer q) r).get? peer' p = r.get? peer' p
  | [], _, _ => rfl
  | q :: qs, r, h => by
    rw [List.mem_cons, not_or] at h
    rw [List.foldl_cons, get?_foldl_remove qs _ h.2, get?_remove_of_ne r peer peer' h.1]

end AdjRibOut

/-! ## Policies -/

inductive PolicyAction
  | permit
  | deny
deriving DecidableEq

inductive PrefixMatch
  | any
  | exact (p : Ipv4Prefix)
  | orLonger (p : Ipv4Prefix)
deriving DecidableEq

def PrefixMatch.matches : PrefixMatch → Ipv4Prefix → Bool
  | .any, _ => true
  | .exact p, q => p = q
  | .orLonger p, q => p.length ≤ q.length ∧ p.contains q.address

structure PolicyRule where
  seq : Nat
  matchPrefix : PrefixMatch
  action : PolicyAction
  setLocalPref : Option UInt32
  setMed : Option UInt32
deriving DecidableEq

inductive PolicyOutcome
  | denied
  | permitted (setLocalPref setMed : Option UInt32)
deriving DecidableEq

structure RoutePolicy where
  rules : List PolicyRule
  defaultAction : PolicyAction
deriving DecidableEq

namespace RoutePolicy

def new : RoutePolicy := ⟨[], .permit⟩

def apply (policy : RoutePolicy) (p : Ipv4Prefix) : PolicyOutcome :=
  match policy.rules.find? (·.matchPrefix.matches p) with
  | some rule =>
    match rule.action with
    | .deny => .denied
    | .permit => .permitted rule.setLocalPref rule.setMed
  | none =>
    match policy.defaultAction with
    | .deny => .denied
    | .permit => .permitted none none

end RoutePolicy

end SystemsLab.Bgp
