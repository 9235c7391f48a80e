import Mathlib.Algebra.Order.Ring.Nat
import Mathlib.Algebra.Order.BigOperators.Group.List
import Mathlib.Data.List.Dedup
import SystemsLab.Net.Routing

/-!
# The shortest path computation of OSPF

The database is the list of its links. Which entry of least cost a heap pops, and in which order a hash map is
walked, is left open: `SpfOrder`. The labels that the loop leaves are the costs of shortest walks.
-/

namespace SystemsLab.Net

open Function

structure OspfLink where
  a : Ipv4Address
  b : Ipv4Address
  cost : UInt32
deriving DecidableEq, Repr

structure OspfLsdb where
  links : List OspfLink
deriving DecidableEq, Repr

namespace OspfLsdb

def addLink (l : OspfLsdb) (a b : Ipv4Address) (cost : UInt32) : OspfLsdb := ⟨l.links ++ [⟨a, b, cost⟩]⟩

def new : OspfLsdb :=
  ((OspfLsdb.mk []).addLink ⟨1, 1, 1, 1⟩ ⟨2, 2, 2, 2⟩ 10 |>.addLink ⟨2, 2, 2, 2⟩ ⟨3, 3, 3, 3⟩ 10).addLink
    ⟨1, 1, 1, 1⟩ ⟨3, 3, 3, 3⟩ 50

def neighbors (l : OspfLsdb) (router : Ipv4Address) : List (Ipv4Address × UInt32) :=
  l.links.flatMap fun e => (if e.a = router then [(e.b, e.cost)] else []) ++
    (if e.b = router then [(e.a, e.cost)] else [])

def routers (l : OspfLsdb) : List Ipv4Address := l.links.flatMap fun e => [e.a, e.b]

theorem mem_routers_of_mem_neighbors {l : OspfLsdb} {router next : Ipv4Address} {cost : UInt32}
    (h : (next, cost) ∈ l.neighbors router) : next ∈ l.routers := by
  obtain ⟨e, he, h⟩ := List.mem_flatMap.mp h
  refine List.mem_flatMap.mpr ⟨e, he, ?_⟩
  rcases List.mem_append.mp h with h | h <;> split at h <;> simp_all

end OspfLsdb

structure SpfNode where
  cost : UInt32
  router : Ipv4Address
deriving DecidableEq, Repr

structure SpfOrder where
  pop : List SpfNode → Option (SpfNode × List SpfNode)
  pop_eq_none : ∀ {heap}, pop heap = none → heap = []
  pop_eq_some : ∀ {heap node rest}, pop heap = some (node, rest) →
    (node :: rest).Perm heap ∧ ∀ other ∈ heap, node.cost ≤ other.cost
  walk : List Ipv4Address → List Ipv4Address
  walk_perm : ∀ routers, (walk routers).Perm routers

def popFirstMin : List SpfNode → Option (SpfNode × List SpfNode)
  | [] => none
  | node :: heap =>
    match popFirstMin heap with
    | none => some (node, [])
    | some (other, rest) => if node.cost ≤ other.cost then some (node, heap) else some (other, node :: rest)

theorem popFirstMin_eq_none : ∀ {heap : List SpfNode}, popFirstMin heap = none → heap = []
  | [], _ => rfl
  | node :: heap, h => by
    rw [popFirstMin] at h
    split at h
    · cases h
    · split at h <;> cases h

theorem popFirstMin_eq_some :
    ∀ {heap : List SpfNode} {node : SpfNode} {rest : List SpfNode}, popFirstMin heap = some (node, rest) →
    (node :: rest).Perm heap ∧ ∀ other ∈ heap, node.cost ≤ other.cost
  | node :: heap, least, rest, h => by
    rw [popFirstMin] at h
    split at h
    · rename_i hnone
      cases h
      rw [popFirstMin_eq_none hnone]
      exact ⟨.refl _, by simp⟩
    · rename_i other others hsome
      obtain ⟨hperm, hmin⟩ := popFirstMin_eq_some hsome
      split at h
      · rename_i hle
        cases h
        refine ⟨.refl _, fun x hx => ?_⟩
        rcases List.mem_cons.mp hx with rfl | hx
        · exact UInt32.le_refl _
        · exact UInt32.le_trans hle (hmin x hx)
      · rename_i hle
        cases h
        refine ⟨(List.Perm.swap _ _ _).trans (hperm.cons _), fun x hx => ?_⟩
        rcases List.mem_cons.mp hx with rfl | hx
        · exact UInt32.le_of_lt (UInt32.not_le.mp hle)
        · exact hmin x hx

def SpfOrder.firstMin : SpfOrder where
  pop := popFirstMin
  pop_eq_none := popFirstMin_eq_none
  pop_eq_some := popFirstMin_eq_some
  walk routers := routers
  walk_perm _ := .refl _

structure SpfState where
  dist : Ipv4Address → Option UInt32
  nextHop : Ipv4Address → Option Ipv4Address
  heap : List SpfNode

namespace SpfState
variable {routers : List Ipv4Address}

/-- `dist.get(&router).unwrap_or(&u32::MAX)`. -/
def distance (s : SpfState) (router : Ipv4Address) : UInt32 := (s.dist router).getD 0xFFFFFFFF

def start (src : Ipv4Address) : SpfState := ⟨update (fun _ => none) src (some 0), fun _ => none, [⟨0, src⟩]⟩

def relax (src router : Ipv4Address) (cost : UInt32) (s : SpfState) (edge : Ipv4Address × UInt32) : SpfState :=
  let nextCost := cost + edge.2
  if nextCost < s.distance edge.1 then
    { dist := update s.dist edge.1 (some nextCost)
      nextHop := update s.nextHop edge.1 (if router = src then some edge.1 else s.nextHop router)
      heap := s.heap ++ [⟨nextCost, edge.1⟩] }
  else s

def visit (lsdb : OspfLsdb) (src : Ipv4Address) (s : SpfState) (node : SpfNode) (rest : List SpfNode) : SpfState :=
  if s.distance node.router < node.cost then { s with heap := rest }
  else (lsdb.neighbors node.router).foldl (relax src node.router node.cost) { s with heap := rest }

def loop (order : SpfOrder) (lsdb : OspfLsdb) (src : Ipv4Address) : Nat → SpfState → SpfState
  | 0, s => s
  | fuel + 1, s =>
    match order.pop s.heap with
    | none => s
    | some (node, rest) => loop order lsdb src fuel (s.visit lsdb src node rest)

/-! ## The loop ends -/

def weight (routers : List Ipv4Address) (s : SpfState) : Nat :=
  s.heap.length + 2 * (routers.map fun r => (s.distance r).toNat).sum

theorem weight_relax {edge : Ipv4Address × UInt32} (hmem : edge.1 ∈ routers) (src router : Ipv4Address)
    (cost : UInt32) (s : SpfState) : (s.relax src router cost edge).weight routers ≤ s.weight routers := by
  unfold relax
  dsimp only
  split
  · rename_i hlt
    have hother : ∀ r, r ≠ edge.1 →
        (update s.dist edge.1 (some (cost + edge.2)) r).getD 0xFFFFFFFF = s.distance r :=
      fun r hr => by rw [update_of_ne hr]; rfl
    have hself : (update s.dist edge.1 (some (cost + edge.2)) edge.1).getD 0xFFFFFFFF = cost + edge.2 := by
      rw [update_self]; rfl
    have hsum : (routers.map fun r => ((update s.dist edge.1 (some (cost + edge.2)) r).getD 0xFFFFFFFF).toNat).sum <
        (routers.map fun r => (s.distance r).toNat).sum := by
      apply List.sum_lt_sum
      · intro r _
        by_cases hr : r = edge.1
        · rw [hr, hself]
          exact (UInt32.lt_iff_toNat_lt.mp hlt).le
        · rw [hother r hr]
      · exact ⟨edge.1, hmem, by rw [hself]; exact UInt32.lt_iff_toNat_lt.mp hlt⟩
    simp only [weight, distance, List.length_append, List.length_singleton] at hsum ⊢
    omega
  · exact le_rfl

theorem weight_foldl_relax {edges : List (Ipv4Address × UInt32)} (hmem : ∀ e ∈ edges, e.1 ∈ routers)
    (src router : Ipv4Address) (cost : UInt32) (s : SpfState) :
    (edges.foldl (relax src router cost) s).weight routers ≤ s.weight routers := by
  induction edges generalizing s with
  | nil => exact le_rfl
  | cons edge edges ih =>
    rw [List.forall_mem_cons] at hmem
    exact (ih hmem.2 _).trans (weight_relax hmem.1 src router cost s)

theorem weight_visit_lt {order : SpfOrder} {lsdb : OspfLsdb} {s : SpfState} {node : SpfNode} {rest : List SpfNode}
    (hpop : order.pop s.heap = some (node, rest)) (src : Ipv4Address) :
    (s.visit lsdb src node rest).weight lsdb.routers < s.weight lsdb.routers := by
  have hlen := (order.pop_eq_some hpop).1.length_eq
  rw [List.length_cons] at hlen
  have hrest : ({ s with heap := rest } : SpfState).weight lsdb.routers < s.weight lsdb.routers := by
    simp only [weight, distance]
    omega
  rw [visit]
  split
  · exact hrest
  · exact (weight_foldl_relax (fun e he => OspfLsdb.mem_routers_of_mem_neighbors he) src _ _ _).trans_lt hrest

theorem heap_loop (order : SpfOrder) (lsdb : OspfLsdb) (src : Ipv4Address) :
    ∀ (fuel : Nat) (s : SpfState), s.weight lsdb.routers ≤ fuel → (loop order lsdb src fuel s).heap = []
  | 0, s, h => by
    rw [weight] at h
    rw [loop]
    exact List.eq_nil_of_length_eq_zero (by omega)
  | fuel + 1, s, h => by
    rw [loop]
    split
    · rename_i hpop
      exact order.pop_eq_none hpop
    · rename_i node rest hpop
      exact heap_loop order lsdb src fuel _ (Nat.le_of_lt_succ ((weight_visit_lt hpop src).trans_le h))

theorem weight_start_le (routers : List Ipv4Address) (src : Ipv4Address) :
    (start src).weight routers ≤ 1 + 2 * (routers.length * 2 ^ 32) := by
  have hsum : (routers.map fun r => ((start src).distance r).toNat).sum ≤ routers.length * 2 ^ 32 := by
    have := List.sum_le_card_nsmul (routers.map fun r => ((start src).distance r).toNat) (2 ^ 32) (by
      intro x hx
      obtain ⟨r, -, rfl⟩ := List.mem_map.mp hx
      exact (UInt32.toNat_lt _).le)
    simpa using this
  have hheap : (start src).heap.length = 1 := rfl
  rw [weight, hheap]
  omega

end SpfState

namespace OspfLsdb

def spf (order : SpfOrder) (lsdb : OspfLsdb) (src : Ipv4Address) : SpfState :=
  SpfState.loop order lsdb src (1 + 2 * (lsdb.routers.length * 2 ^ 32)) (.start src)

theorem heap_spf (order : SpfOrder) (lsdb : OspfLsdb) (src : Ipv4Address) : (lsdb.spf order src).heap = [] :=
  SpfState.heap_loop order lsdb src _ _ (SpfState.weight_start_le _ _)

structure ShortestPath where
  router : Ipv4Address
  cost : UInt32
  nextHop : Option Ipv4Address
deriving DecidableEq, Repr

def computeShortestPaths (order : SpfOrder) (lsdb : OspfLsdb) (src : Ipv4Address) : List ShortestPath :=
  let s := lsdb.spf order src
  (order.walk (lsdb.routers.dedup.filter (· ≠ src))).filterMap fun r => (s.dist r).map fun c => ⟨r, c, s.nextHop r⟩

end OspfLsdb

/-! ## The labels are shortest -/

/-- A walk along links from `src`: the router after `src`, the cost and the end. -/
inductive OspfLsdb.Walk (l : OspfLsdb) (src : Ipv4Address) : Option Ipv4Address → Nat → Ipv4Address → Prop
  | nil : Walk l src none 0 src
  | snoc {hop cost router edge} : Walk l src hop cost router → edge ∈ l.neighbors router →
      Walk l src (some (hop.getD edge.1)) (cost + edge.2.toNat) edge.1

variable {l : OspfLsdb} {src : Ipv4Address}

theorem OspfLsdb.Walk.of_ne {router : Ipv4Address} {hop : Option Ipv4Address} {cost : Nat}
    (h : l.Walk src hop cost router) (hne : router ≠ src) : (∃ first, hop = some first) ∧ router ∈ l.routers := by
  cases h with
  | nil => exact absurd rfl hne
  | snoc _ he => exact ⟨⟨_, rfl⟩, mem_routers_of_mem_neighbors he⟩

namespace SpfState

/-- Each label is the cost of a walk, modulo `2 ^ 32`, and so is that of the visited `node`. No link lowers a label,
unless its router is queued, or is `node` and the link is still to come. -/
structure Labelled (l : OspfLsdb) (src : Ipv4Address) (node : SpfNode) (todo : List (Ipv4Address × UInt32))
    (s : SpfState) : Prop where
  root : s.dist src = some 0 ∧ s.nextHop src = none
  walk : ∀ r c, s.dist r = some c → ∃ cost, l.Walk src (s.nextHop r) cost r ∧ c = .ofNat cost
  visited : ∃ cost, l.Walk src (s.nextHop node.router) cost node.router ∧ node.cost = .ofNat cost
  heap : ∀ n ∈ s.heap, ∃ c, s.dist n.router = some c ∧ c ≤ n.cost
  closed : ∀ r c e, s.dist r = some c → e ∈ l.neighbors r →
    ⟨c, r⟩ ∈ s.heap ∨ ⟨c, r⟩ = node ∧ e ∈ todo ∨ s.distance e.1 ≤ c + e.2

namespace Labelled
variable {edge : Ipv4Address × UInt32} {s : SpfState} {node : SpfNode} {todo : List (Ipv4Address × UInt32)}

theorem relax (h : Labelled l src node (edge :: todo) s) (he : edge ∈ l.neighbors node.router) :
    Labelled l src node todo (s.relax src node.router node.cost edge) := by
  obtain ⟨hroot, hwalk, ⟨cost, hu, hc⟩, hheap, hclosed⟩ := h
  rw [SpfState.relax]
  split
  · rename_i hlt
    have hsrc : src ≠ edge.1 := by grind [distance, UInt32.not_lt_zero]
    have hhop : (if node.router = src then some edge.1 else s.nextHop node.router) =
        some ((s.nextHop node.router).getD edge.1) := by
      have := hu.of_ne
      grind
    have hnext := hu.snoc he
    have hcost : node.cost + edge.2 = .ofNat (cost + edge.2.toNat) := by
      rw [UInt32.ofNat_add, UInt32.ofNat_toNat, hc]
    rw [hhop]
    refine ⟨⟨(update_of_ne hsrc ..).trans hroot.1, (update_of_ne hsrc ..).trans hroot.2⟩, ?_,
      ⟨cost, ?_, hc⟩, ?_, ?_⟩
    -- the router that was reached has its new label and is queued, the others are as before
    all_goals grind [update_apply, distance]
  · exact ⟨hroot, hwalk, ⟨cost, hu, hc⟩, hheap, by grind⟩

theorem foldl_relax {edges : List (Ipv4Address × UInt32)} (h : Labelled l src node edges s)
    (he : edges ⊆ l.neighbors node.router) :
    Labelled l src node [] (edges.foldl (SpfState.relax src node.router node.cost) s) := by
  induction edges generalizing s with
  | nil => exact h
  | cons edge edges ih =>
    obtain ⟨hedge, he⟩ := List.cons_subset.mp he
    exact ih (h.relax hedge) he

theorem visit {last : SpfNode} {rest : List SpfNode} (h : Labelled l src last [] s)
    (hpop : (node :: rest).Perm s.heap) :
    ∃ last, Labelled l src last [] (s.visit l src node rest) := by
  have hmem : ∀ n, n ∈ s.heap ↔ n = node ∨ n ∈ rest := fun n => hpop.mem_iff.symm.trans List.mem_cons
  obtain ⟨hroot, hwalk, hlast, hheap, hclosed⟩ := h
  obtain ⟨c, hdist, hle⟩ := hheap node ((hmem node).mpr (.inl rfl))
  have hdistance : s.distance node.router = c := by rw [distance, hdist, Option.getD_some]
  rw [SpfState.visit]
  split
  · -- a stale entry: its router has got a lower label since
    exact ⟨last, hroot, hwalk, hlast, by grind, by grind [distance]⟩
  · rename_i hlt
    obtain rfl : c = node.cost := UInt32.le_antisymm hle (hdistance ▸ UInt32.not_lt.mp hlt)
    exact ⟨node, foldl_relax ⟨hroot, hwalk, hwalk _ _ hdist, by grind, by grind [distance]⟩ (List.Subset.refl _)⟩

theorem loop {order : SpfOrder} : ∀ {fuel : Nat} {s : SpfState}, (∃ last, Labelled l src last [] s) →
    ∃ last, Labelled l src last [] (SpfState.loop order l src fuel s)
  | 0, _, h => h
  | fuel + 1, s, h => by
    rw [SpfState.loop]
    split
    · exact h
    · rename_i hpop
      obtain ⟨_, h⟩ := h
      exact loop (h.visit (order.pop_eq_some hpop).1)

theorem start : Labelled l src ⟨0, src⟩ [] (.start src) := by
  have hdist : ∀ r, (SpfState.start src).dist r = if r = src then some 0 else none :=
    update_apply (fun _ => none) src (some 0)
  have hwalk : ∃ cost, l.Walk src ((SpfState.start src).nextHop src) cost src ∧ 0 = UInt32.ofNat cost :=
    ⟨0, .nil, rfl⟩
  have hsrc := (hdist src).trans (if_pos rfl)
  have hheap : (SpfState.start src).heap = [⟨0, src⟩] := rfl
  refine ⟨⟨hsrc, rfl⟩, by grind, hwalk, fun n hn => ?_, by grind⟩
  obtain rfl := List.mem_singleton.mp hn
  exact ⟨0, hsrc, UInt32.le_refl 0⟩

/-- With nothing queued, no walk is cheaper than the label of its end. -/
theorem le_walk (h : Labelled l src node [] s) (hheap : s.heap = []) {hop : Option Ipv4Address} {cost : Nat}
    {router : Ipv4Address} (hw : l.Walk src hop cost router) (hlt : cost < 2 ^ 32 - 1) :
    ∃ c, s.dist router = some c ∧ c.toNat ≤ cost := by
  induction hw with
  | nil => exact ⟨0, h.root.1, Nat.le_refl _⟩
  | @snoc hop cost router edge hw he ih =>
    obtain ⟨c, hdist, hc⟩ := ih (by omega)
    have hle : s.distance edge.1 ≤ c + edge.2 := by simpa [hheap] using h.closed router c edge hdist he
    rw [UInt32.le_iff_toNat_le, UInt32.toNat_add, Nat.mod_eq_of_lt (by omega), distance] at hle
    cases hd : s.dist edge.1 with
    | none =>
      -- a router without a label would be at `u32::MAX`
      rw [hd, Option.getD_none, show (0xFFFFFFFF : UInt32).toNat = 2 ^ 32 - 1 from rfl] at hle
      omega
    | some d =>
      rw [hd, Option.getD_some] at hle
      exact ⟨d, rfl, by omega⟩

end Labelled
end SpfState

namespace OspfLsdb

/-- Every reported cost is, modulo `2 ^ 32`, that of a walk that starts with the reported hop; and a router that
some walk reaches for less than `u32::MAX` is reported at no more than that walk's cost. -/
theorem computeShortestPaths_shortest (order : SpfOrder) (l : OspfLsdb) (src : Ipv4Address) :
    (∀ p ∈ l.computeShortestPaths order src, p.router ≠ src ∧
      ∃ cost, l.Walk src p.nextHop cost p.router ∧ p.cost = .ofNat cost) ∧
    ∀ hop cost router, l.Walk src hop cost router → router ≠ src → cost < 2 ^ 32 - 1 →
      ∃ p ∈ l.computeShortestPaths order src, p.router = router ∧ p.cost.toNat ≤ cost := by
  -- over any state, since the kernel would run `spf` on its fuel to compare two of its fields
  suffices hall : ∀ s, (∃ last, SpfState.Labelled l src last [] s) → s.heap = [] →
      (∀ p, p ∈ l.computeShortestPaths order src ↔ ∃ r, (r ∈ l.routers ∧ r ≠ src) ∧
        ∃ c, s.dist r = some c ∧ ⟨r, c, s.nextHop r⟩ = p) → _ by
    refine hall (l.spf order src) ?_ (heap_spf order l src) ?_
    · rw [spf]
      exact SpfState.Labelled.loop ⟨_, .start⟩
    · simp only [computeShortestPaths, List.mem_filterMap, (order.walk_perm _).mem_iff, List.mem_filter,
        List.mem_dedup, decide_eq_true_eq, Option.map_eq_some_iff, implies_true]
  rintro s ⟨_, h⟩ hheap hmem
  constructor
  · intro p hp
    obtain ⟨r, ⟨-, hne⟩, c, hdist, rfl⟩ := (hmem p).mp hp
    exact ⟨hne, h.walk r c hdist⟩
  · intro hop cost router hw hne hlt
    obtain ⟨c, hdist, hle⟩ := h.le_walk hheap hw hlt
    exact ⟨_, (hmem _).mpr ⟨router, ⟨(hw.of_ne hne).2, hne⟩, c, hdist, rfl⟩, rfl, hle⟩

end OspfLsdb

/-- For a router: its subnet and mask, the interface towards it and the address of its near side. -/
abbrev NeighborSubnets : Type := Ipv4Address → Option (Ipv4Address × Nat × String × Ipv4Address)

def spfRoute (subnets : NeighborSubnets) (path : OspfLsdb.ShortestPath) : Option RouteEntry := do
  let nextHopRouter ← path.nextHop
  let (destNet, mask, interface, nextHopIp) ← subnets path.router
  let nHop :=
    if nextHopRouter = path.router then nextHopIp
    else match subnets nextHopRouter with
      | some (_, _, _, nhIp) => nhIp
      | none => nextHopIp
  pure (.withSource destNet mask (some nHop) interface .static)

theorem source_spfRoute {subnets : NeighborSubnets} {path : OspfLsdb.ShortestPath} {e : RouteEntry}
    (h : spfRoute subnets path = some e) : e.source = .static := by
  simp only [spfRoute, Option.bind_eq_bind, Option.bind_eq_some_iff] at h
  obtain ⟨_, _, _, _, h⟩ := h
  cases h
  rfl

end SystemsLab.Net
