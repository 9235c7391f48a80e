import Mathlib.Data.List.Pairwise
import Mathlib.Data.Prod.Lex
import Mathlib.Data.Finset.Max
import SystemsLab.Bgp.Rib

/-!
# Best-path selection

`compare_paths` is two lexicographic comparisons with the MED among paths of one neighbouring AS between them, which
makes it intransitive (`selectBest_true_winner_iff`).
-/

namespace SystemsLab.Bgp

namespace BgpPath

def standing (p : BgpPath) : Bool ×ₗ ℕᵒᵈ ×ₗ ℕ ×ₗ ℕ :=
  toLex (!p.isLocal, toLex (OrderDual.toDual p.localPref.toNat, toLex (p.asPath.length, p.origin.toU8.toNat)))

def rank (p : BgpPath) : Bool ×ₗ ℕ ×ₗ Ipv4Address ×ₗ Ipv4Address :=
  toLex (!p.isEbgp, toLex (p.clusterList.length, toLex (p.peerRouterId, p.peerAddr)))

def medValue (p : BgpPath) : ℕ := (p.med.getD 0).toNat

def MedComparable (a b : BgpPath) : Prop := a.asPath.firstAs.isSome ∧ a.asPath.firstAs = b.asPath.firstAs

instance (a b : BgpPath) : Decidable (a.MedComparable b) := inferInstanceAs (Decidable (_ ∧ _))

theorem MedComparable.symm {a b : BgpPath} (h : a.MedComparable b) : b.MedComparable a := ⟨h.2 ▸ h.1, h.2.symm⟩

theorem MedComparable.trans {a b c : BgpPath} (h : a.MedComparable b) (h' : b.MedComparable c) :
    a.MedComparable c :=
  ⟨h.1, h.2.trans h'.2⟩

def Outranks (a b : BgpPath) : Prop :=
  a.standing < b.standing ∨ a.standing = b.standing ∧
    (a.MedComparable b ∧ a.medValue < b.medValue ∨
      (a.MedComparable b → a.medValue = b.medValue) ∧ a.rank < b.rank)

def Rivals (a b : BgpPath) : Prop :=
  ¬ (a.isLocal = true ∧ b.isLocal = true) ∧ (a.isLocal = false → b.isLocal = false → a.peerAddr ≠ b.peerAddr)

instance (a b : BgpPath) : Decidable (a.Rivals b) := inferInstanceAs (Decidable (_ ∧ _))

instance : Std.Symm Rivals := ⟨fun _ _ h => ⟨fun h' => h.1 ⟨h'.2, h'.1⟩, fun hb ha => (h.2 ha hb).symm⟩⟩

end BgpPath

/-! ## The comparison -/

theorem preferTrue_eq (x y : Bool) : preferTrue x y = compare (!x) (!y) := by cases x <;> cases y <;> rfl

theorem compare_toLex {α β : Type} [LinearOrder α] [LinearOrder β] (a c : α) (b d : β) :
    compare (toLex (a, b)) (toLex (c, d)) = (compare a c).then (compare b d) := rfl

theorem comparePaths_eq (a b : BgpPath) : comparePaths a b =
    (compare a.standing b.standing).then ((compareMed a b).then (compare a.rank b.rank)) := by
  have hpref : compare (OrderDual.toDual a.localPref.toNat) (OrderDual.toDual b.localPref.toNat) =
      compare b.localPref.toNat a.localPref.toNat := rfl
  simp only [comparePaths, preferTrue_eq, BgpPath.standing, BgpPath.rank, compare_toLex, hpref, Ordering.then_assoc]

theorem comparePaths_lt {a b : BgpPath} : comparePaths a b = .lt ↔ a.Outranks b := by
  have hmed : compareMed a b = if a.MedComparable b then compare a.medValue b.medValue else .eq := rfl
  rw [comparePaths_eq, hmed]
  simp only [Ordering.then_eq_lt, compare_lt_iff_lt, compare_eq_iff_eq, BgpPath.Outranks]
  by_cases h : a.MedComparable b
  · simp [h, compare_lt_iff_lt]
  · simp [h]

namespace BgpPath
variable {a b : BgpPath}

theorem Outranks.asymm (h : a.Outranks b) : ¬ b.Outranks a := by
  rintro h'
  rcases h with h | ⟨he, hm⟩
  · rcases h' with h' | ⟨he', -⟩
    · exact lt_asymm h h'
    · exact h.ne he'.symm
  · rcases h' with h' | ⟨-, hm'⟩
    · exact h'.ne he.symm
    · rcases hm with ⟨hc, hm⟩ | ⟨hm, hr⟩ <;> rcases hm' with ⟨hc', hm'⟩ | ⟨hm', hr'⟩
      · omega
      · have := hm' hc.symm; omega
      · have := hm hc'.symm; omega
      · exact lt_asymm hr hr'

theorem rank_ne_of_peerAddr_ne (h : a.peerAddr ≠ b.peerAddr) : a.rank ≠ b.rank := by
  intro he
  simp only [rank, EmbeddingLike.apply_eq_iff_eq, Prod.mk.injEq] at he
  exact h he.2.2.2

theorem Rivals.rank_ne (h : a.Rivals b) (hs : a.standing = b.standing) : a.rank ≠ b.rank := by
  have hlocal : (!a.isLocal) = !b.isLocal := by
    simp only [standing, EmbeddingLike.apply_eq_iff_eq, Prod.mk.injEq] at hs
    exact hs.1
  cases ha : a.isLocal with
  | true =>
    rw [ha] at hlocal
    exact absurd ⟨ha, by simpa using hlocal.symm⟩ h.1
  | false =>
    rw [ha] at hlocal
    exact rank_ne_of_peerAddr_ne (h.2 ha (by simpa using hlocal.symm))

end BgpPath

/-! ## A true winner -/

/-- The candidate that `select_best` returns beats every other one, in every order. -/
def TrueWinner (cs : List BgpPath) : Prop :=
  (∃ c, selectBest cs = some c ∧ ∀ d ∈ cs, d ≠ c → comparePaths c d = .lt) ∧
    ∀ cs', cs'.Perm cs → selectBest cs' = selectBest cs

/-- `m` has the least rank of the candidates of best standing, `g` is the choice of the AS of `m` among them, and
`d`, of another AS, stands between the two in rank. So `m` beats `d`, `d` beats `g`, and `g` beats `m`. -/
structure Undercut (cs : List BgpPath) (m g d : BgpPath) : Prop where
  mem_m : m ∈ cs
  mem_g : g ∈ cs
  mem_d : d ∈ cs
  best : ∀ c ∈ cs, m.standing ≤ c.standing
  standing_g : g.standing = m.standing
  standing_d : d.standing = m.standing
  first : ∀ c ∈ cs, c.standing = m.standing → m.rank ≤ c.rank
  sameAs : m.MedComparable g
  choice : ∀ c ∈ cs, c.standing = m.standing → m.MedComparable c →
    g.medValue < c.medValue ∨ g.medValue = c.medValue ∧ g.rank ≤ c.rank
  otherAs : ¬ m.MedComparable d
  between : d.rank < g.rank

theorem Undercut.no_dominator {cs : List BgpPath} {m g d : BgpPath} (h : Undercut cs m g d) {c : BgpPath}
    (hc : c ∈ cs)
    (hall : ∀ x ∈ cs, x ≠ c → c.Outranks x) : False := by
  have hstand : c.standing = m.standing := by
    by_cases hcm : m = c
    · rw [hcm]
    · rcases hall m h.mem_m hcm with hlt | ⟨he, -⟩
      · exact absurd hlt (not_lt.mpr (h.best c hc))
      · exact he
  by_cases hcomp : m.MedComparable c
  · -- `c` is of the AS of `m`, so it can only be `g`, and `d` beats `g`.
    have hcg : c = g := by
      by_contra hne
      rcases hall g h.mem_g (Ne.symm hne) with hlt | ⟨-, hmed | hrank⟩
      · exact absurd (hstand.trans h.standing_g.symm) hlt.ne
      · rcases h.choice c hc hstand hcomp with hg | ⟨hg, -⟩ <;> omega
      · have he := hrank.1 (hcomp.symm.trans h.sameAs)
        rcases h.choice c hc hstand hcomp with hg | ⟨-, hg⟩
        · omega
        · exact absurd hrank.2 (not_lt.mpr hg)
    subst hcg
    have hdne : d ≠ c := fun hd => h.otherAs (hd ▸ hcomp)
    rcases hall d h.mem_d hdne with hlt | ⟨-, hmed | hrank⟩
    · exact absurd (hstand.trans h.standing_d.symm) hlt.ne
    · exact h.otherAs (hcomp.trans hmed.1)
    · exact lt_asymm h.between hrank.2
  · -- `c` is of another AS, so it would have to rank before `m`.
    have hne : m ≠ c := by
      rintro rfl
      exact hcomp ⟨h.sameAs.1, rfl⟩
    rcases hall m h.mem_m hne with hlt | ⟨-, hmed | hrank⟩
    · exact absurd hstand hlt.ne
    · exact hcomp hmed.1.symm
    · exact absurd hrank.2 (not_lt.mpr (h.first c hc hstand))

theorem exists_dominator {cs : List BgpPath} (hne : cs ≠ []) (hr : cs.Pairwise BgpPath.Rivals)
    (hno : ∀ m g d, ¬ Undercut cs m g d) : ∃ c ∈ cs, ∀ x ∈ cs, x ≠ c → c.Outranks x := by
  have hrank : ∀ x ∈ cs, ∀ y ∈ cs, x ≠ y → x.standing = y.standing → x.rank ≠ y.rank := by
    intro x hx y hy hxy hs
    exact (hr.forall hx hy hxy).rank_ne hs
  -- The candidates of best standing, the first of them in rank, and the choice of its AS.
  obtain ⟨t, ht, htop⟩ := cs.toFinset.exists_min_image BgpPath.standing (by simpa using hne)
  simp only [List.mem_toFinset] at ht htop
  let tier := cs.toFinset.filter fun c => c.standing = t.standing
  have htier : ∀ {c}, c ∈ tier ↔ c ∈ cs ∧ c.standing = t.standing := by simp [tier]
  obtain ⟨m, hm, hfirst⟩ := tier.exists_min_image BgpPath.rank ⟨t, htier.mpr ⟨ht, rfl⟩⟩
  obtain ⟨hmcs, hms⟩ := htier.mp hm
  have hbelow : ∀ x ∈ cs, x.standing ≠ t.standing → t.standing < x.standing := fun x hx hxs =>
    lt_of_le_of_ne (htop x hx) (Ne.symm hxs)
  by_cases hsome : m.asPath.firstAs.isSome
  · let kin := tier.filter fun c => m.MedComparable c
    have hkin : ∀ {c}, c ∈ kin ↔ c ∈ tier ∧ m.MedComparable c := by simp [kin]
    obtain ⟨g, hg, hchoice⟩ := kin.exists_min_image (fun c => toLex (c.medValue, c.rank))
      ⟨m, hkin.mpr ⟨hm, hsome, rfl⟩⟩
    obtain ⟨hgt, hgm⟩ := hkin.mp hg
    obtain ⟨hgcs, hgs⟩ := htier.mp hgt
    refine ⟨g, hgcs, fun x hx hxg => ?_⟩
    by_cases hxs : x.standing = t.standing
    · refine .inr ⟨hgs.trans hxs.symm, ?_⟩
      have hgx := hrank g hgcs x hx (Ne.symm hxg) (hgs.trans hxs.symm)
      by_cases hmx : m.MedComparable x
      · have hle := Prod.Lex.toLex_le_toLex.mp (hchoice x (hkin.mpr ⟨htier.mpr ⟨hx, hxs⟩, hmx⟩))
        rcases hle with hlt | ⟨he, hle⟩
        · exact .inl ⟨hgm.symm.trans hmx, hlt⟩
        · exact .inr ⟨fun _ => he, lt_of_le_of_ne hle hgx⟩
      · refine .inr ⟨fun h => absurd (hgm.trans h) hmx, lt_of_le_of_ne (not_lt.mp fun hlt => ?_) hgx⟩
        -- A path of another AS before `g` in rank would undercut it.
        refine hno m g x ⟨hmcs, hgcs, hx, fun c hc => hms ▸ htop c hc, hgs.trans hms.symm, hxs.trans hms.symm,
          fun c hc hcs => hfirst c (htier.mpr ⟨hc, hcs.trans hms⟩), hgm, fun c hc hcs hcm => ?_, hmx, hlt⟩
        exact Prod.Lex.toLex_le_toLex.mp (hchoice c (hkin.mpr ⟨htier.mpr ⟨hc, hcs.trans hms⟩, hcm⟩))
    · exact .inl (hgs ▸ hbelow x hx hxs)
  · -- The first in rank names no AS, so its MED is never compared.
    refine ⟨m, hmcs, fun x hx hxm => ?_⟩
    by_cases hxs : x.standing = t.standing
    · have hne := hrank m hmcs x hx (Ne.symm hxm) (hms.trans hxs.symm)
      exact .inr ⟨hms.trans hxs.symm, .inr ⟨fun h => absurd h.1 hsome,
        lt_of_le_of_ne (hfirst x (htier.mpr ⟨hx, hxs⟩)) hne⟩⟩
    · exact .inl (hms ▸ hbelow x hx hxs)

theorem selectBest_true_winner_iff (cs : List BgpPath) (hne : cs ≠ []) (hr : cs.Pairwise BgpPath.Rivals) :
    TrueWinner cs ↔ ¬ ∃ m g d, Undercut cs m g d := by
  have hwalk : TrueWinner cs ↔ ∃ c ∈ cs, ∀ d ∈ cs, d ≠ c → comparePaths c d = .lt :=
    knockout_perm_iff fun x _ y _ hxy hyx =>
      (comparePaths_lt.mp hxy).asymm (comparePaths_lt.mp hyx)
  simp only [hwalk, comparePaths_lt]
  constructor
  · rintro ⟨c, hc, hall⟩ ⟨m, g, d, h⟩
    exact h.no_dominator hc hall
  · intro hno
    exact exists_dominator hne hr fun m g d h => hno ⟨m, g, d, h⟩

/-! ## Three peers -/

def learnedFrom (peer : UInt8) (asns : List UInt32) (med : Option UInt32) : BgpPath where
  pfx := .new ⟨10, 30, 0, 0⟩ 24
  source := .ebgp
  peerAddr := ⟨10, 0, 0, peer⟩
  peerAs := asns.headD 0
  peerRouterId := ⟨1, 1, 1, peer⟩
  origin := .igp
  asPath := .sequence asns
  nextHop := ⟨10, 0, 0, peer⟩
  med
  localPref := bgpDefaultLocalPref
  atomicAggregate := false
  originatorId := none
  clusterList := []
  fromClient := false
  receivedAtMs := 0

/-- Two peers of AS 65001 with different MEDs and one of AS 65002: each path beats the next one. -/
theorem selectBest_depends_on_order :
    let m := learnedFrom 1 [65001, 65100] (some 10)
    let d := learnedFrom 2 [65002, 65100] none
    let g := learnedFrom 3 [65001, 65100] (some 5)
    [m, d, g].Pairwise BgpPath.Rivals ∧ comparePaths m d = .lt ∧ comparePaths d g = .lt ∧ comparePaths g m = .lt ∧
      selectBest [m, d, g] = some g ∧ selectBest [g, d, m] = some m ∧ ¬ TrueWinner [m, d, g] := by
  intro m d g
  have h₁ : selectBest [m, d, g] = some g := by decide +kernel
  have h₂ : selectBest [g, d, m] = some m := by decide +kernel
  refine ⟨by decide +kernel, by decide +kernel, by decide +kernel, by decide +kernel, h₁, h₂, fun h => ?_⟩
  have hperm : [g, d, m].Perm [m, d, g] := List.reverse_perm [m, d, g]
  have hsame := h.2 _ hperm
  rw [h₁, h₂] at hsame
  exact absurd (Option.some.inj hsame) (by decide +kernel)

theorem selectBest_three_neighbours :
    let cs := [learnedFrom 1 [65001, 65100] (some 10), learnedFrom 2 [65002, 65100] none,
      learnedFrom 3 [65003, 65100] (some 5)]
    cs ≠ [] ∧ cs.Pairwise BgpPath.Rivals ∧ TrueWinner cs := by
  intro cs
  have hne : cs ≠ [] := by simp [cs]
  have hr : cs.Pairwise BgpPath.Rivals := by decide +kernel
  refine ⟨hne, hr, (selectBest_true_winner_iff cs hne hr).mpr ?_⟩
  rintro ⟨m, g, d, h⟩
  have hall : ∀ x ∈ cs, ∀ y ∈ cs, x.MedComparable y → x = y := by decide +kernel
  have hgm : m = g := hall m h.mem_m g h.mem_g h.sameAs
  exact absurd h.between (not_lt.mpr (hgm ▸ h.first d h.mem_d h.standing_d))

end SystemsLab.Bgp
