import Mathlib.Data.List.Induction
import SystemsLab.Net.Link
import SystemsLab.Net.Routing

/-!
# RIPv2

An advertised entry is learned if its prefix is new or its metric lower than the one kept, so what is kept may be
older than what its next hop last said (`processAdvertisement_correct_iff`).
-/

namespace SystemsLab.Net

def ripPort : UInt16 := 520

def ripInfinityMetric : UInt32 := 16

def ripAfiIpv4 : UInt16 := 2

structure RipEntry where
  addressFamily : UInt16
  routeTag : UInt16
  ip : Ipv4Address
  subnetMask : Ipv4Address
  nextHop : Ipv4Address
  metric : UInt32
deriving DecidableEq, Repr

structure RipPacket where
  command : UInt8
  version : UInt8
  routingDomain : UInt16
  entries : List RipEntry
deriving DecidableEq, Repr

inductive RipError
  | packetTooShort (len : Nat)
  | invalidVersion (version : UInt8)
  | invalidEntrySize (len : Nat)
deriving DecidableEq, Repr

def RipEntry.parse (chunk : List UInt8) : RipEntry :=
  ⟨u16At chunk 0, u16At chunk 2, ipv4At chunk 4, ipv4At chunk 8, ipv4At chunk 12, u32At chunk 16⟩

def RipEntry.serialize (e : RipEntry) : List UInt8 :=
  u16Bytes e.addressFamily ++ u16Bytes e.routeTag ++ e.ip.octets ++ e.subnetMask.octets ++ e.nextHop.octets ++
    u32Bytes e.metric

def RipEntry.prefixLen (e : RipEntry) : Nat := (List.range 32).countP e.subnetMask.toU32.getLsbD

def RipEntry.key (e : RipEntry) : Ipv4Address × Nat := (e.ip, e.prefixLen)

namespace RipPacket

def parse (data : List UInt8) : Except RipError RipPacket := do
  require (4 ≤ data.length) (.packetTooShort data.length)
  let version := octet data 1
  require (version = 2) (.invalidVersion version)
  let entryBytes := data.drop 4
  require (entryBytes.length % 20 = 0) (.invalidEntrySize entryBytes.length)
  pure ⟨octet data 0, version, u16At data 2,
    (List.range (entryBytes.length / 20)).map fun i => .parse (slice entryBytes (20 * i) (20 * (i + 1)))⟩

def serialize (p : RipPacket) : List UInt8 :=
  [p.command, p.version] ++ u16Bytes p.routingDomain ++ p.entries.flatMap RipEntry.serialize

end RipPacket

structure RipMetric where
  dest : Ipv4Address
  prefixLen : Nat
  metric : UInt32
deriving DecidableEq, Repr

def RipMetric.key (m : RipMetric) : Ipv4Address × Nat := (m.dest, m.prefixLen)

structure RipEngine where
  routes : RoutingTable
  routeMetrics : List RipMetric

namespace RipEngine

def new : RipEngine := ⟨.new, []⟩

variable (eng : RipEngine)

def addLocalNetwork (dest : Ipv4Address) (prefixLen : Nat) (interface : String) : RipEngine :=
  ⟨eng.routes.addRoute dest prefixLen none interface, eng.routeMetrics ++ [⟨dest, prefixLen, 1⟩]⟩

def learnedMetric (entry : RipEntry) : Option UInt32 :=
  if entry.addressFamily ≠ ripAfiIpv4 then none else
    -- the addition wraps; a build with overflow checks panics instead
    let newMetric := min (entry.metric + 1) ripInfinityMetric
    if ripInfinityMetric ≤ newMetric then none
    else match eng.routeMetrics.find? (·.key = (entry.ip, entry.prefixLen)) with
      | some known => if newMetric < known.metric then some newMetric else none
      | none => some newMetric

def learnedRoute (neighborIp : Ipv4Address) (interface : String) (entry : RipEntry) : RouteEntry :=
  .withSource entry.ip entry.prefixLen (some neighborIp) interface .static

def learn (neighborIp : Ipv4Address) (interface : String) (entry : RipEntry) (metric : UInt32) : RipEngine where
  routes := eng.routes.addRoute entry.ip entry.prefixLen (some neighborIp) interface
  routeMetrics := putEntry RipMetric.key ⟨entry.ip, entry.prefixLen, metric⟩ eng.routeMetrics

def processEntries (neighborIp : Ipv4Address) (interface : String) : RipEngine → List RipEntry → RipEngine × Nat
  | eng, [] => (eng, 0)
  | eng, entry :: entries =>
    match eng.learnedMetric entry with
    | some metric =>
      let (eng, updated) :=
        processEntries neighborIp interface (eng.learn neighborIp interface entry metric) entries
      (eng, updated + 1)
    | none => processEntries neighborIp interface eng entries

def processAdvertisement (neighborIp : Ipv4Address) (pkt : RipPacket) (interface : String) : RipEngine × Nat :=
  processEntries neighborIp interface eng pkt.entries

def learnedRoutes (neighborIp : Ipv4Address) (interface : String) : RipEngine → List RipEntry → List RouteEntry
  | _, [] => []
  | eng, entry :: entries =>
    match eng.learnedMetric entry with
    | some metric =>
      learnedRoute neighborIp interface entry ::
        learnedRoutes neighborIp interface (eng.learn neighborIp interface entry metric) entries
    | none => learnedRoutes neighborIp interface eng entries

theorem routes_processEntries (neighborIp : Ipv4Address) (interface : String) (eng : RipEngine)
    (entries : List RipEntry) :
    (processEntries neighborIp interface eng entries).1.routes =
      eng.routes.putAll (learnedRoutes neighborIp interface eng entries) := by
  induction entries generalizing eng with
  | nil => rfl
  | cons entry entries ih =>
    rw [processEntries, learnedRoutes]
    split
    · rw [ih]
      rfl
    · exact ih eng

theorem routes_processAdvertisement (eng : RipEngine) (neighborIp : Ipv4Address) (pkt : RipPacket)
    (interface : String) :
    (eng.processAdvertisement neighborIp pkt interface).1.routes =
      eng.routes.putAll (learnedRoutes neighborIp interface eng pkt.entries) :=
  routes_processEntries neighborIp interface eng pkt.entries

theorem source_learnedRoutes {neighborIp : Ipv4Address} {interface : String} {eng : RipEngine}
    {entries : List RipEntry} {e : RouteEntry}
    (h : e ∈ learnedRoutes neighborIp interface eng entries) : e.source = .static := by
  induction entries generalizing eng with
  | nil => cases h
  | cons entry entries ih =>
    rw [learnedRoutes] at h
    split at h
    · rcases List.mem_cons.mp h with rfl | h
      · rfl
      · exact ih h
    · exact ih h

end RipEngine

/-! ## The metrics and what the neighbours last said -/

/-- A prefix as the routing table keys it, without host bits. -/
def tablePrefix (dest : Ipv4Address) (prefixLen : Nat) : Ipv4Address × Nat :=
  (dest.mask (min prefixLen 32), min prefixLen 32)

namespace RipEntry

def tableKey (e : RipEntry) : Ipv4Address × Nat := tablePrefix e.ip e.prefixLen

/-- `entry.metric + 1` overflows, which panics where overflow is checked. -/
def Overflows (e : RipEntry) : Prop := e.addressFamily = ripAfiIpv4 ∧ e.metric = 0xFFFFFFFF

/-- The distance through the sender, unless that is infinite. -/
def offer (e : RipEntry) : Option Nat :=
  if e.addressFamily = ripAfiIpv4 ∧ e.metric.toNat + 1 < 16 then some (e.metric.toNat + 1) else none

theorem offer_eq_some {e : RipEntry} {x : Nat} :
    e.offer = some x ↔ (e.addressFamily = ripAfiIpv4 ∧ e.metric.toNat + 1 < 16) ∧ e.metric.toNat + 1 = x := by
  simp [offer]

end RipEntry

structure Advertisement where
  neighborIp : Ipv4Address
  pkt : RipPacket
  interface : String

/-- The metrics advertised, each under the neighbour and the prefix it is for. -/
def Advertisement.heard (a : Advertisement) : List ((Ipv4Address × Ipv4Address × Nat) × UInt32) :=
  (a.pkt.entries.filter (·.addressFamily = ripAfiIpv4)).map fun e => ((a.neighborIp, e.tableKey), e.metric)

def Advertisement.Overflows (a : Advertisement) : Prop := ∃ e ∈ a.pkt.entries, e.Overflows

namespace RipEngine

def withNetworks (nets : List (Ipv4Address × Nat × String)) : RipEngine :=
  nets.foldl (fun eng net => eng.addLocalNetwork net.1 net.2.1 net.2.2) new

def run (eng : RipEngine) (as : List Advertisement) : RipEngine :=
  as.foldl (fun eng a => (eng.processAdvertisement a.neighborIp a.pkt a.interface).1) eng

/-- The route for the prefix has this next hop. -/
def Via (eng : RipEngine) (k : Ipv4Address × Nat) (nextHop : Ipv4Address) : Prop :=
  ∃ r ∈ eng.routes, r.key = (k, .static) ∧ r.gateway = some nextHop

def Bounded (eng : RipEngine) : Prop := ∀ m ∈ eng.routeMetrics, 1 ≤ m.metric.toNat ∧ m.metric.toNat ≤ 15

/-- The advertised metric is below infinity once incremented, and is what the engine has. -/
def Keeps (eng : RipEngine) (k : Ipv4Address × Nat) (metric : UInt32) : Prop :=
  metric.toNat + 1 < 16 ∧
    ∀ m ∈ eng.routeMetrics, tablePrefix m.dest m.prefixLen = k → m.metric.toNat = metric.toNat + 1

structure Correct (eng : RipEngine) (as : List Advertisement) : Prop where
  safe : ∀ a ∈ as, ¬ a.Overflows
  bounded : eng.Bounded
  latest : ∀ k nextHop, eng.Via k nextHop →
    ∃ metric, lastWrite (as.flatMap Advertisement.heard) (nextHop, k) = some metric ∧ eng.Keeps k metric

/-- The metric found for a destination, which is keyed with its host bits. -/
def kept (eng : RipEngine) (dest : Ipv4Address × Nat) : Option Nat :=
  (eng.routeMetrics.find? (·.key = dest)).map (·.metric.toNat)

/-- The lowest of the metric found for a destination and of what the entries offer for it. -/
def lowest (eng : RipEngine) (entries : List RipEntry) (dest : Ipv4Address × Nat) : Option Nat :=
  ((entries.filter (·.key = dest)).map RipEntry.offer).foldl (Option.merge min) (eng.kept dest)

/-- An entry for the prefix offers less than what is found for its destination. -/
def Improved (eng : RipEngine) (entries : List RipEntry) (k : Ipv4Address × Nat) : Prop :=
  ∃ e ∈ entries, e.tableKey = k ∧ ∃ x ∈ e.offer, ∀ y ∈ eng.kept e.key, x < y

/-- Where the sender is the next hop for a prefix, or an entry is about to make it so, its last word on the prefix
gives the lowest metric for each destination that the table takes for the prefix. -/
def Heeds (eng : RipEngine) (a : Advertisement) : Prop :=
  ¬ a.Overflows ∧ ∀ k metric, lastWrite a.heard (a.neighborIp, k) = some metric →
    eng.Via k a.neighborIp ∨ eng.Improved a.pkt.entries k →
      metric.toNat + 1 < 16 ∧ ∀ dest x, tablePrefix dest.1 dest.2 = k →
        eng.lowest a.pkt.entries dest = some x → x = metric.toNat + 1

/-- Only a local network added twice has two rows. -/
def Distinct (eng : RipEngine) : Prop :=
  eng.routeMetrics.Pairwise fun m m' => m.key = m'.key → m.metric = 1 ∧ m'.metric = 1

section
variable {eng : RipEngine} {as : List Advertisement} {a : Advertisement} {neighborIp : Ipv4Address}
  {interface : String} {e : RipEntry} {entries : List RipEntry} {metric : UInt32} {k : Ipv4Address × Nat}

theorem family_of_learnedMetric (h : eng.learnedMetric e = some metric) : e.addressFamily = ripAfiIpv4 := by
  by_contra hfamily
  rw [learnedMetric, if_pos hfamily] at h
  cases h

theorem learnedMetric_eq_some (hsafe : ¬ e.Overflows) :
    eng.learnedMetric e = some metric ↔ e.offer = some metric.toNat ∧ ∀ y ∈ eng.kept e.key, metric.toNat < y := by
  by_cases hfamily : e.addressFamily = ripAfiIpv4
  swap
  · simp [learnedMetric, RipEntry.offer, hfamily]
  have hmax : e.metric.toNat ≠ 0xFFFFFFFF := fun h => hsafe ⟨hfamily, UInt32.toNat_inj.mp h⟩
  have hnext : (e.metric + 1).toNat = e.metric.toNat + 1 := by
    have := e.metric.toNat_lt
    rw [UInt32.toNat_add, UInt32.toNat_one]
    omega
  have hinf : ripInfinityMetric ≤ e.metric + 1 ↔ 16 ≤ e.metric.toNat + 1 := by
    rw [UInt32.le_iff_toNat_le, hnext]
    rfl
  have hmin : min (e.metric + 1) ripInfinityMetric =
      if e.metric + 1 ≤ ripInfinityMetric then e.metric + 1 else ripInfinityMetric := rfl
  rw [learnedMetric, if_neg (not_not.mpr hfamily), hmin]
  dsimp only
  by_cases hfinite : e.metric.toNat + 1 < 16
  swap
  · have hle : ripInfinityMetric ≤
        if e.metric + 1 ≤ ripInfinityMetric then e.metric + 1 else ripInfinityMetric := by
      split
      · exact hinf.mpr (by omega)
      · exact UInt32.le_refl _
    rw [if_pos hle]
    simp [RipEntry.offer, hfinite]
  have hle : e.metric + 1 ≤ ripInfinityMetric := by
    rw [UInt32.le_iff_toNat_le, hnext]
    exact hfinite.le
  have hoffer : e.offer = some metric.toNat ↔ e.metric + 1 = metric := by
    rw [RipEntry.offer_eq_some, and_iff_right ⟨hfamily, hfinite⟩, ← hnext, UInt32.toNat_inj]
  rw [if_pos hle, if_neg (by rw [hinf]; omega), hoffer, kept]
  change (match eng.routeMetrics.find? (·.key = e.key) with | some known => _ | none => _) = _ ↔ _
  cases eng.routeMetrics.find? (·.key = e.key) with
  | none => simp
  | some known =>
    simp only [Option.map_some, Option.mem_some_iff, forall_eq', ← UInt32.lt_iff_toNat_lt]
    split <;> grind

theorem learnedMetric_eq_none (hsafe : ¬ e.Overflows) :
    eng.learnedMetric e = none ↔ ∀ x ∈ e.offer, ∃ y ∈ eng.kept e.key, y ≤ x := by
  constructor
  · intro h x hx
    have hlt : x < UInt32.size := by
      obtain ⟨⟨-, hfinite⟩, rfl⟩ := RipEntry.offer_eq_some.mp hx
      exact hfinite.trans (by decide)
    have htoNat : (UInt32.ofNat x).toNat = x := UInt32.toNat_ofNat_of_lt' hlt
    by_contra hno
    have hlearned : eng.learnedMetric e = some (UInt32.ofNat x) :=
      (learnedMetric_eq_some hsafe).mpr ⟨htoNat.symm ▸ hx, fun y hy => by
        by_contra hle
        exact hno ⟨y, hy, by omega⟩⟩
    rw [h] at hlearned
    cases hlearned
  · intro h
    by_contra hne
    obtain ⟨metric, hmetric⟩ := Option.ne_none_iff_exists'.mp hne
    obtain ⟨hoffer, hlower⟩ := (learnedMetric_eq_some hsafe).mp hmetric
    obtain ⟨y, hy, hle⟩ := h _ hoffer
    exact absurd (hlower y hy) (by omega)

theorem mem_heard (he : e ∈ a.pkt.entries) (h : eng.learnedMetric e = some metric) :
    ((a.neighborIp, e.tableKey), e.metric) ∈ a.heard :=
  List.mem_map_of_mem (List.mem_filter.mpr ⟨he, decide_eq_true (family_of_learnedMetric h)⟩)

theorem processEntries_induct {P : RipEngine → Prop}
    (hlearn : ∀ eng e metric, e ∈ entries → eng.learnedMetric e = some metric → P eng →
      P (eng.learn neighborIp interface e metric)) (h : P eng) :
    P (processEntries neighborIp interface eng entries).1 := by
  induction entries generalizing eng with
  | nil => exact h
  | cons e entries ih =>
    have hrest := fun eng e' metric he => hlearn eng e' metric (List.mem_cons_of_mem e he)
    rw [processEntries]
    split
    · rename_i metric hmetric
      exact ih hrest (hlearn eng e metric List.mem_cons_self hmetric h)
    · exact ih hrest h

theorem kept_learn (dest : Ipv4Address × Nat) :
    (eng.learn neighborIp interface e metric).kept dest =
      if e.key = dest then some metric.toNat else eng.kept dest := by
  rw [kept, learn, find?_putEntry]
  change (if e.key = dest then _ else _ : Option RipMetric).map _ = _
  split <;> rfl

theorem via_learn :
    (eng.learn neighborIp interface e metric).Via k neighborIp ↔ e.tableKey = k ∨ eng.Via k neighborIp := by
  constructor
  · rintro ⟨r, hr, hkey, hgateway⟩
    rcases RankedTable.mem_put.mp hr with rfl | ⟨hr, -⟩
    · exact .inl (congrArg Prod.fst hkey)
    · exact .inr ⟨r, hr, hkey, hgateway⟩
  · intro h
    by_cases hk : e.tableKey = k
    · exact ⟨learnedRoute neighborIp interface e, RankedTable.mem_put.mpr (.inl rfl), congrArg (·, _) hk, rfl⟩
    · obtain ⟨r, hr, hkey, hgateway⟩ := h.resolve_left hk
      refine ⟨r, RankedTable.mem_put.mpr (.inr ⟨hr, fun hr' => hk ?_⟩), hkey, hgateway⟩
      exact congrArg Prod.fst (hr'.symm.trans hkey)

theorem kept_processEntries (hsafe : ∀ e ∈ entries, ¬ e.Overflows) (dest : Ipv4Address × Nat) :
    (processEntries neighborIp interface eng entries).1.kept dest = eng.lowest entries dest := by
  induction entries generalizing eng with
  | nil => rfl
  | cons e entries ih =>
    obtain ⟨he, hrest⟩ := List.forall_mem_cons.mp hsafe
    rw [processEntries, lowest, List.filter_cons]
    cases hmetric : eng.learnedMetric e with
    | none =>
      have hpass := (learnedMetric_eq_none he).mp hmetric
      dsimp only
      rw [ih hrest, lowest]
      split
      · rename_i hdest
        rw [decide_eq_true_eq] at hdest
        subst hdest
        rw [List.map_cons, List.foldl_cons]
        congr 1
        cases hoffer : e.offer with
        | none => exact Option.merge_none_right.symm
        | some x =>
          obtain ⟨y, hy, hle⟩ := hpass x hoffer
          rw [hy, Option.merge, min_eq_left hle]
      · rfl
    | some metric =>
      obtain ⟨hoffer, hlower⟩ := (learnedMetric_eq_some he).mp hmetric
      dsimp only
      rw [ih hrest, lowest, kept_learn]
      by_cases hdest : e.key = dest
      · subst hdest
        rw [if_pos rfl, if_pos (decide_eq_true rfl), List.map_cons, List.foldl_cons, hoffer]
        congr 1
        cases hkept : eng.kept e.key with
        | none => rfl
        | some y => rw [Option.merge, min_eq_right (hlower y hkept).le]
      · rw [if_neg hdest, if_neg (by simpa using hdest)]

theorem via_processEntries (hsafe : ∀ e ∈ entries, ¬ e.Overflows) :
    (processEntries neighborIp interface eng entries).1.Via k neighborIp ↔
      eng.Via k neighborIp ∨ eng.Improved entries k := by
  induction entries generalizing eng with
  | nil => simp [processEntries, Improved]
  | cons e entries ih =>
    obtain ⟨he, hrest⟩ := List.forall_mem_cons.mp hsafe
    rw [processEntries, Improved, List.exists_mem_cons_iff]
    cases hmetric : eng.learnedMetric e with
    | none =>
      have hpass := (learnedMetric_eq_none he).mp hmetric
      dsimp only
      rw [ih hrest]
      refine or_congr_right (or_iff_right ?_).symm
      rintro ⟨-, x, hx, hlower⟩
      obtain ⟨y, hy, hle⟩ := hpass x hx
      exact absurd (hlower y hy) (by omega)
    | some metric =>
      have hbetter := (learnedMetric_eq_some he).mp hmetric
      dsimp only
      rw [ih hrest, via_learn]
      by_cases hk : e.tableKey = k
      · exact iff_of_true (.inl (.inl hk)) (.inr (.inl ⟨hk, _, hbetter⟩))
      -- the entries for another prefix find what they found before
      have hsame : (eng.learn neighborIp interface e metric).Improved entries k ↔ eng.Improved entries k := by
        refine exists_congr fun e' => and_congr_right fun _ => and_congr_right fun hk' => ?_
        have hne : e.key ≠ e'.key := by
          intro h
          refine hk (Eq.trans ?_ hk')
          exact congrArg (fun dest : Ipv4Address × Nat => tablePrefix dest.1 dest.2) h
        rw [kept_learn, if_neg hne]
      rw [hsame, or_iff_right hk]
      exact or_congr_right (or_iff_right fun h => hk h.1).symm

theorem kept_of_mem (h : eng.Distinct) {m : RipMetric} (hm : m ∈ eng.routeMetrics) :
    eng.kept m.key = some m.metric.toNat := by
  obtain ⟨routes, rows⟩ := eng
  rw [Distinct] at h
  rw [kept]
  induction rows with
  | nil => cases hm
  | cons first rows ih =>
    obtain ⟨hfirst, hrows⟩ := List.pairwise_cons.mp h
    rw [List.find?_cons]
    by_cases hkey : first.key = m.key
    · rw [decide_eq_true hkey]
      rcases List.mem_cons.mp hm with rfl | hm
      · rfl
      · obtain ⟨hone, hone'⟩ := hfirst m hm hkey
        simp [hone, hone']
    · rw [decide_eq_false hkey]
      exact ih hrows ((List.mem_cons.mp hm).resolve_left fun h => hkey (congrArg RipMetric.key h.symm))

theorem keeps_iff (h : eng.Distinct) :
    eng.Keeps k metric ↔ metric.toNat + 1 < 16 ∧ ∀ dest x, tablePrefix dest.1 dest.2 = k →
      eng.kept dest = some x → x = metric.toNat + 1 := by
  refine and_congr_right fun _ => ⟨fun hrows dest x hdest hx => ?_, fun hkept m hm hk => ?_⟩
  · obtain ⟨m, hm, rfl⟩ := Option.map_eq_some_iff.mp hx
    have hkey : m.key = dest := by simpa using List.find?_some hm
    subst hkey
    exact hrows m (List.mem_of_find?_eq_some hm) hdest
  · exact hkept m.key _ hk (kept_of_mem h hm)

theorem distinct_learn (h : eng.Distinct) (hpos : 1 ≤ metric.toNat)
    (hlower : ∀ y ∈ eng.kept e.key, metric.toNat < y) : (eng.learn neighborIp interface e metric).Distinct := by
  obtain ⟨routes, rows⟩ := eng
  rw [Distinct] at h ⊢
  rw [kept] at hlower
  change (putEntry RipMetric.key ⟨e.ip, e.prefixLen, metric⟩ rows).Pairwise _
  induction rows with
  | nil => exact List.pairwise_singleton _ _
  | cons first rows ih =>
    obtain ⟨hfirst, hrows⟩ := List.pairwise_cons.mp h
    rw [List.find?_cons] at hlower
    rw [putEntry]
    split
    · -- a row that is undercut is not a local network's, so it was the only one
      rename_i hkey
      change first.key = e.key at hkey
      have hlt : metric.toNat < first.metric.toNat := by
        rw [decide_eq_true hkey] at hlower
        exact hlower _ rfl
      refine List.pairwise_cons.mpr ⟨fun m hm hm' => ?_, hrows⟩
      rw [(hfirst m hm (hkey.trans hm')).1, UInt32.toNat_one] at hlt
      omega
    · rename_i hkey
      change ¬ first.key = e.key at hkey
      rw [decide_eq_false hkey] at hlower
      refine List.pairwise_cons.mpr ⟨fun m hm hm' => ?_, ih hrows hlower⟩
      rcases mem_of_mem_putEntry hm with rfl | hm
      · exact absurd hm' hkey
      · exact hfirst m hm hm'

/-- What an advertisement leaves alone: the prefixes it does not mention and those routed through others. -/
theorem run_frame {nextHop : Ipv4Address} (hsilent : (nextHop, k) ∉ a.heard.map Prod.fst) :
    (eng.run [a]).Via k nextHop → eng.Via k nextHop ∧
      ∀ m ∈ (eng.run [a]).routeMetrics, tablePrefix m.dest m.prefixLen = k → m ∈ eng.routeMetrics := by
  refine processEntries_induct (P := fun eng' => eng'.Via k nextHop → eng.Via k nextHop ∧
    ∀ m ∈ eng'.routeMetrics, tablePrefix m.dest m.prefixLen = k → m ∈ eng.routeMetrics) ?_
    fun hvia => ⟨hvia, fun m hm _ => hm⟩
  rintro eng' e metric he hmetric ih ⟨r, hr, hkey, hgateway⟩
  rcases RankedTable.mem_put.mp hr with rfl | ⟨hr, hne⟩
  · -- the route this entry taught goes through the sender, for a prefix that is mentioned
    cases congrArg Prod.fst hkey
    cases hgateway
    exact absurd (List.mem_map_of_mem (mem_heard he hmetric)) hsilent
  · obtain ⟨hvia, hrows⟩ := ih ⟨r, hr, hkey, hgateway⟩
    refine ⟨hvia, fun m hm hk => ?_⟩
    rcases mem_of_mem_putEntry hm with rfl | hm
    · exact absurd (hkey.trans (congrArg (·, RouteSource.static) hk.symm)) hne
    · exact hrows m hm hk

theorem safe_entries (hsafe : ¬ a.Overflows) : ∀ e ∈ a.pkt.entries, ¬ e.Overflows :=
  fun e he h => hsafe ⟨e, he, h⟩

theorem run_induct {P : RipEngine → Prop} (hsafe : ¬ a.Overflows)
    (hlearn : ∀ eng e metric, e.offer = some metric.toNat → (∀ y ∈ eng.kept e.key, metric.toNat < y) → P eng →
      P (eng.learn a.neighborIp a.interface e metric)) (h : P eng) : P (eng.run [a]) := by
  refine processEntries_induct (fun eng e metric he hmetric => ?_) h
  obtain ⟨hoffer, hlower⟩ := (learnedMetric_eq_some (safe_entries hsafe e he)).mp hmetric
  exact hlearn eng e metric hoffer hlower

theorem run_bounded (hsafe : ¬ a.Overflows) (h : eng.Bounded) : (eng.run [a]).Bounded := by
  refine run_induct hsafe (fun eng e metric hoffer _ ih m hm => ?_) h
  rcases mem_of_mem_putEntry hm with rfl | hm
  · obtain ⟨⟨-, hfinite⟩, hmetric⟩ := RipEntry.offer_eq_some.mp hoffer
    dsimp only
    omega
  · exact ih m hm

theorem run_distinct (hsafe : ¬ a.Overflows) (h : eng.Distinct) : (eng.run [a]).Distinct := by
  refine run_induct hsafe (fun eng e metric hoffer hlower ih => distinct_learn ih ?_ hlower) h
  obtain ⟨-, hmetric⟩ := RipEntry.offer_eq_some.mp hoffer
  omega

theorem rows_withNetworks (nets : List (Ipv4Address × Nat × String)) :
    (∀ m ∈ (withNetworks nets).routeMetrics, m.metric = 1) ∧
      ∀ r ∈ (withNetworks nets).routes, r.gateway = none := by
  refine List.foldlRecOn (motive := fun eng : RipEngine =>
    (∀ m ∈ eng.routeMetrics, m.metric = 1) ∧ ∀ r ∈ eng.routes, r.gateway = none)
    nets _ ⟨nofun, nofun⟩ fun eng ⟨hm, hr⟩ net _ => ⟨fun m h => ?_, fun r h => ?_⟩
  · rcases List.mem_append.mp h with h | h
    · exact hm m h
    · rw [List.mem_singleton.mp h]
  · rcases RankedTable.mem_put.mp h with rfl | ⟨h, -⟩
    · rfl
    · exact hr r h

theorem correct_withNetworks (nets : List (Ipv4Address × Nat × String)) : (withNetworks nets).Correct [] := by
  obtain ⟨hrows, hroutes⟩ := rows_withNetworks nets
  refine ⟨nofun, fun m hm => ?_, ?_⟩
  · rw [hrows m hm]
    decide
  · rintro k nextHop ⟨r, hr, -, hgateway⟩
    rw [hroutes r hr] at hgateway
    cases hgateway

theorem distinct_run (nets : List (Ipv4Address × Nat × String)) (hsafe : ∀ a ∈ as, ¬ a.Overflows) :
    ((withNetworks nets).run as).Distinct := by
  refine List.foldlRecOn as _ ?_ fun eng h a ha => run_distinct (hsafe a ha) h
  have hone := (rows_withNetworks nets).1
  exact List.pairwise_of_forall_mem_list fun m hm m' hm' _ => ⟨hone m hm, hone m' hm'⟩

theorem heeds_iff (hsafe : ¬ a.Overflows) (h : eng.Distinct) :
    eng.Heeds a ↔ ∀ k nextHop metric, lastWrite a.heard (nextHop, k) = some metric → (eng.run [a]).Via k nextHop →
      (eng.run [a]).Keeps k metric := by
  have hvia (k) : (eng.run [a]).Via k a.neighborIp ↔ eng.Via k a.neighborIp ∨ eng.Improved a.pkt.entries k :=
    via_processEntries (safe_entries hsafe)
  have hkept (dest) : (eng.run [a]).kept dest = eng.lowest a.pkt.entries dest :=
    kept_processEntries (safe_entries hsafe) dest
  simp only [keeps_iff (run_distinct hsafe h), hkept]
  constructor
  · intro heeds k nextHop metric hsaid hnext
    obtain ⟨e, -, he⟩ := List.mem_map.mp (lastWrite_mem hsaid)
    obtain rfl : a.neighborIp = nextHop := congrArg (·.1.1) he
    exact heeds.2 k metric hsaid ((hvia k).mp hnext)
  · exact fun hrun => ⟨hsafe, fun k metric hsaid hnext => hrun k _ metric hsaid ((hvia k).mpr hnext)⟩

theorem Correct.receive (h : eng.Correct as) (hd : eng.Distinct) (heeds : eng.Heeds a) :
    (eng.run [a]).Correct (as ++ [a]) where
  safe b hb := by
    rcases List.mem_append.mp hb with hb | hb
    · exact h.safe b hb
    · exact List.mem_singleton.mp hb ▸ heeds.1
  bounded := run_bounded heeds.1 h.bounded
  latest k nextHop hvia := by
    rw [List.flatMap_append, List.flatMap_singleton, lastWrite_append]
    cases hsaid : lastWrite a.heard (nextHop, k) with
    | some metric => exact ⟨metric, rfl, (heeds_iff heeds.1 hd).mp heeds k nextHop metric hsaid hvia⟩
    | none =>
      obtain ⟨hbefore, hrows⟩ := run_frame (lastWrite_eq_none.mp hsaid) hvia
      obtain ⟨metric, hlast, hfinite, hkeeps⟩ := h.latest k nextHop hbefore
      exact ⟨metric, hlast, hfinite, fun m hm hk => hkeeps m (hrows m hm hk) hk⟩

theorem Correct.heeds (h : (eng.run [a]).Correct (as ++ [a])) (hd : eng.Distinct) : eng.Heeds a := by
  refine (heeds_iff (h.safe a (by simp)) hd).mpr fun k nextHop metric hsaid hvia => ?_
  obtain ⟨metric', hlast, hkeeps⟩ := h.latest k nextHop hvia
  rw [List.flatMap_append, List.flatMap_singleton, lastWrite_append, hsaid] at hlast
  cases hlast
  exact hkeeps

end

/-- The engine stays correct exactly as long as the last word of the next hop of a prefix, once incremented, is
the lowest metric there is for it. Worse news is not taken, and a route taken over under other host bits leaves the
metrics kept for its prefix as they were. -/
theorem processAdvertisement_correct_iff (nets : List (Ipv4Address × Nat × String)) (as : List Advertisement) :
    (∀ front, front <+: as → ((withNetworks nets).run front).Correct front) ↔
      ∀ front a, front ++ [a] <+: as → ((withNetworks nets).run front).Heeds a := by
  have hrun (front a) : (withNetworks nets).run (front ++ [a]) = ((withNetworks nets).run front).run [a] :=
    List.foldl_append
  constructor
  · intro h front a hfront
    have hcorrect := h _ hfront
    have hsafe := (h front ((List.prefix_append front [a]).trans hfront)).safe
    rw [hrun] at hcorrect
    exact hcorrect.heeds (distinct_run nets hsafe)
  · intro h front
    induction front using List.reverseRecOn with
    | nil => exact fun _ => correct_withNetworks nets
    | append_singleton front a ih =>
      intro hfront
      have hcorrect := ih ((List.prefix_append front [a]).trans hfront)
      rw [hrun]
      exact hcorrect.receive (distinct_run nets hcorrect.safe) (h front a hfront)

/-- Worse news from the next hop of a prefix is passed over. -/
theorem processAdvertisement_keeps_stale_metric :
    let said (metric : UInt32) : Advertisement :=
      ⟨⟨192, 168, 0, 2⟩, ⟨2, 2, 0, [⟨2, 0, ⟨10, 0, 0, 0⟩, ⟨255, 0, 0, 0⟩, .unspecified, metric⟩]⟩, "eth0"⟩
    ¬ ((withNetworks []).run [said 1, said 5]).Correct [said 1, said 5] := by
  intro said h
  have hvia : ((withNetworks []).run [said 1, said 5]).Via (⟨10, 0, 0, 0⟩, 8) ⟨192, 168, 0, 2⟩ :=
    ⟨⟨⟨10, 0, 0, 0⟩, 8, some ⟨192, 168, 0, 2⟩, "eth0", .static⟩,
      RankedTable.mem_def.mpr (by decide +kernel), by decide +kernel, rfl⟩
  obtain ⟨metric, hlast, -, hkeeps⟩ := h.latest _ _ hvia
  have hmetric : metric = 5 := Option.some.inj (hlast.symm.trans (by decide +kernel))
  have hrow : (⟨⟨10, 0, 0, 0⟩, 8, 2⟩ : RipMetric) ∈ ((withNetworks []).run [said 1, said 5]).routeMetrics := by
    decide +kernel
  exact absurd (hkeeps _ hrow (by decide +kernel)) (by rw [hmetric]; decide)

end RipEngine

end SystemsLab.Net
