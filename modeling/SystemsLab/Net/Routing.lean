import SystemsLab.Lib.RankedTable
import SystemsLab.Net.Address

/-!
# The IPv4 routing table

Longest prefix first, then lowest administrative distance. A route replaces the one for its prefix from its own
source only.
-/

namespace SystemsLab.Net

inductive RouteSource
  | connected
  | ra
  | raRoute
  | static
  | bgp
  | ospf
  | rip
deriving DecidableEq, Repr

def RouteSource.distance : RouteSource → Nat
  | .connected => 0
  | .ra => 0
  | .static => 1
  | .raRoute => 10
  | .bgp => 20
  | .ospf => 110
  | .rip => 120

structure RouteEntry where
  destination : Ipv4Address
  prefixLen : Nat
  gateway : Option Ipv4Address
  interface : String
  source : RouteSource
deriving DecidableEq, Repr

namespace RouteEntry

def withSource (destination : Ipv4Address) (prefixLen : Nat) (gateway : Option Ipv4Address) (interface : String)
    (source : RouteSource) : RouteEntry := ⟨destination, min prefixLen 32, gateway, interface, source⟩

def netmask (e : RouteEntry) : BitVec 32 := if e.prefixLen = 0 then 0 else ~~~(Ipv4Address.hostMask e.prefixLen)

def matchesIp (e : RouteEntry) (ip : Ipv4Address) : Bool :=
  ip.toU32 &&& e.netmask = e.destination.toU32 &&& e.netmask

def nextHop (e : RouteEntry) (destination : Ipv4Address) : Ipv4Address := e.gateway.getD destination

def distance (e : RouteEntry) : Nat := e.source.distance

def key (e : RouteEntry) : (Ipv4Address × Nat) × RouteSource :=
  ((e.destination.mask e.prefixLen, e.prefixLen), e.source)

def rank (e : RouteEntry) : ℕᵒᵈ ×ₗ ℕ := toLex (OrderDual.toDual e.prefixLen, e.distance)

end RouteEntry

abbrev RoutingTable : Type := RankedTable RouteEntry.key RouteEntry.rank

namespace RoutingTable

def new : RoutingTable := RankedTable.empty

variable (t : RoutingTable)

def addRouteFrom (destination : Ipv4Address) (prefixLen : Nat) (gateway : Option Ipv4Address)
    (interface : String) (source : RouteSource) : RoutingTable :=
  t.put (.withSource destination prefixLen gateway interface source)

def addRoute (destination : Ipv4Address) (prefixLen : Nat) (gateway : Option Ipv4Address)
    (interface : String) : RoutingTable := t.addRouteFrom destination prefixLen gateway interface .static

def removeRoute (destination : Ipv4Address) (prefixLen : Nat) (source : RouteSource) : RoutingTable :=
  t.retain fun r => ¬ r.key = ((destination.mask prefixLen, prefixLen), source)

def removeAllFrom (source : RouteSource) : RoutingTable := t.retain fun r => r.source ≠ source

def lookup (dstIp : Ipv4Address) : Option RouteEntry := t.entries.find? (·.matchesIp dstIp)

theorem matches_of_lookup {t : RoutingTable} {dstIp : Ipv4Address} {e : RouteEntry} (h : t.lookup dstIp = some e) :
    e.matchesIp dstIp := (List.find?_eq_some_iff_append.mp h).1

theorem lookup_best {t : RoutingTable} {dstIp : Ipv4Address} {e e' : RouteEntry} (h : t.lookup dstIp = some e)
    (he' : e' ∈ t)
    (hm : e'.matchesIp dstIp) :
    e'.prefixLen < e.prefixLen ∨ e'.prefixLen = e.prefixLen ∧ e.distance ≤ e'.distance := by
  have hle := rank_find?_le t.ranked h he' hm
  rw [RouteEntry.rank, RouteEntry.rank, Prod.Lex.toLex_le_toLex] at hle
  exact hle.imp OrderDual.toDual_lt_toDual.mp (And.imp_left fun h => (OrderDual.toDual_inj.mp h).symm)

/-! ## The table as a map -/

abbrev Routes : Type := (Ipv4Address × Nat) × RouteSource → Option RouteEntry

/-- A table after some edits, and the map from prefixes and sources to routes that the same edits lead to. -/
inductive Edited : RoutingTable → Routes → Prop
  | new : Edited new fun _ => none
  | add {t m} (destination prefixLen gateway interface source) : Edited t m →
      Edited (t.addRouteFrom destination prefixLen gateway interface source)
        (let e := .withSource destination prefixLen gateway interface source; Function.update m e.key (some e))
  | remove {t m} (destination prefixLen source) : Edited t m → Edited (t.removeRoute destination prefixLen source)
      (Function.update m ((destination.mask prefixLen, prefixLen), source) none)
  | removeAll {t m} (source) : Edited t m → Edited (t.removeAllFrom source) fun k =>
    if k.2 = source then none else m k

theorem Edited.mem_iff {t : RoutingTable} {m : Routes} (h : Edited t m) (e : RouteEntry) :
    e ∈ t ↔ m e.key = some e := by
  induction h with
  | new => simp [RoutingTable.new, RankedTable.empty, RankedTable.mem_def]
  | add _ _ _ _ _ _ ih =>
    rw [addRouteFrom, RankedTable.mem_put, ih, Function.update_apply]
    grind
  | remove _ _ _ _ ih =>
    rw [removeRoute, RankedTable.mem_retain, ih, Function.update_apply]
    grind
  | removeAll _ _ ih =>
    rw [removeAllFrom, RankedTable.mem_retain, ih]
    grind [RouteEntry.key]

/-- A lookup finds, of the routes in the map that match, one of the longest prefix and then of the lowest
distance. -/
theorem lookup_longest_match {t : RoutingTable} {m : Routes} (h : Edited t m) (ip : Ipv4Address) :
    (∀ e, e ∈ t ↔ m e.key = some e) ∧ (t.lookup ip = none → ∀ e, m e.key = some e → ¬ e.matchesIp ip) ∧
    ∀ e, t.lookup ip = some e → m e.key = some e ∧ e.matchesIp ip ∧ ∀ e', m e'.key = some e' → e'.matchesIp ip →
      e'.prefixLen < e.prefixLen ∨ e'.prefixLen = e.prefixLen ∧ e.distance ≤ e'.distance := by
  refine ⟨h.mem_iff, fun hnone e he => ?_, fun e hsome => ⟨?_, matches_of_lookup hsome, fun e' he' => ?_⟩⟩
  · exact List.find?_eq_none.mp hnone e ((h.mem_iff e).mpr he)
  · exact (h.mem_iff e).mp (List.mem_of_find?_eq_some hsome)
  · exact lookup_best hsome ((h.mem_iff e').mpr he')

/-- The longest of three prefixes that match is removed again, so the next one is found. -/
theorem lookup_overlapping_routes :
    let t := (((new.addRouteFrom ⟨0, 0, 0, 0⟩ 0 none "eth0" .static).addRouteFrom ⟨10, 1, 0, 0⟩ 16 none "eth2"
      .static).addRouteFrom ⟨10, 0, 0, 0⟩ 8 none "eth1" .static).removeRoute ⟨10, 1, 0, 0⟩ 16 .static
    t.lookup ⟨10, 1, 2, 3⟩ = some ⟨⟨10, 0, 0, 0⟩, 8, none, "eth1", .static⟩ ∧
      ∀ e ∈ t, e.matchesIp ⟨10, 1, 2, 3⟩ → e.prefixLen < 8 ∨ e.prefixLen = 8 ∧ 1 ≤ e.distance := by
  intro t
  have hfound : t.lookup ⟨10, 1, 2, 3⟩ = some ⟨⟨10, 0, 0, 0⟩, 8, none, "eth1", .static⟩ := by decide +kernel
  obtain ⟨hmem, -, hbest⟩ := lookup_longest_match
    (.remove ⟨10, 1, 0, 0⟩ 16 .static (.add _ _ _ _ _ (.add _ _ _ _ _ (.add _ _ _ _ _ .new)))) ⟨10, 1, 2, 3⟩
  exact ⟨hfound, fun e he => (hbest _ hfound).2.2 e ((hmem e).mp he)⟩

end RoutingTable

end SystemsLab.Net
