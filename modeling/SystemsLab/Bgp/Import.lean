import SystemsLab.Bgp.Router

/-!
# What an UPDATE and a decision leave behind

An announcement supersedes the peer's older one when it reaches the policy stage; the exits before that stage leave
the older path in the running (`importUpdate_supersedes_iff`).
-/

namespace SystemsLab.Bgp

variable {path : BgpPath} {p : Ipv4Prefix}
namespace BgpRouter
variable {n : Nat}

/-! ## Withdrawals -/

theorem foldl_withdrawPrefix (addr : Ipv4Address) : ∀ (ws : List Ipv4Prefix) (r : BgpRouter n),
    ∃ t d, ws.foldl (fun r p => r.withdrawPrefix addr p) r = { r with adjRibIn := t, dirty := d } ∧
      ∀ a p, t.get? a p = if a = addr ∧ p ∈ ws then none else r.adjRibIn.get? a p
  | [], r => ⟨r.adjRibIn, r.dirty, rfl, by simp⟩
  | w :: ws, r => by
    obtain ⟨t, d, heq, ht⟩ := foldl_withdrawPrefix addr ws (r.withdrawPrefix addr w)
    refine ⟨t, d, heq, fun a p => ?_⟩
    rw [ht, withdrawPrefix, AdjRibIn.get?_remove]
    by_cases ha : a = addr <;> by_cases hp : p = w <;> simp [ha, hp]

/-! ## Announcements -/

def builds (r : BgpRouter n) (idx : Fin n) (nowMs : Nat) (attrs : BgpPathAttributes) (p : Ipv4Prefix) :
    Option BgpPath :=
  match (r.peerAt idx).importPolicy.apply p with
  | .denied => none
  | .permitted policyLp policyMed => some (r.importedPath idx nowMs attrs policyLp policyMed p)

theorem builds_eq_some {r : BgpRouter n} {idx : Fin n} {nowMs : Nat} {attrs : BgpPathAttributes}
    (h : r.builds idx nowMs attrs p = some path) :
    ∃ policyLp policyMed, path = r.importedPath idx nowMs attrs policyLp policyMed p := by
  unfold builds at h
  cases hp : (r.peerAt idx).importPolicy.apply p with
  | denied => rw [hp] at h; cases h
  | permitted lp med => rw [hp] at h; exact ⟨lp, med, (Option.some.inj h).symm⟩

def SameSetup (idx : Fin n) (r r' : BgpRouter n) : Prop :=
  r'.localAs = r.localAs ∧
    ∃ c s, (r'.peerAt idx) = { r.peerAt idx with counters := c, enhancedRefreshStaleIpv4 := s }

section
variable {idx : Fin n} {r r' : BgpRouter n}

theorem SameSetup.addr (h : SameSetup idx r r') : (r'.peerAt idx).addr = (r.peerAt idx).addr := by
  obtain ⟨-, c, s, hp⟩ := h
  rw [hp]

theorem SameSetup.localAddr (h : SameSetup idx r r') : (r'.peerAt idx).localAddr = (r.peerAt idx).localAddr := by
  obtain ⟨-, c, s, hp⟩ := h
  rw [hp]

theorem SameSetup.builds (h : SameSetup idx r r') (nowMs : Nat) (attrs : BgpPathAttributes) (p : Ipv4Prefix) :
    r'.builds idx nowMs attrs p = r.builds idx nowMs attrs p := by
  obtain ⟨has, c, s, hp⟩ := h
  unfold BgpRouter.builds importedPath isEbgp
  simp only [hp, has, BgpPeer.isClient]

theorem SameSetup.of_set {q : BgpPeer} (has : r'.localAs = r.localAs)
    (hset : r'.peers = (r.modifyPeer idx fun _ => q).peers)
    (hq : ∃ c s, q = { r.peerAt idx with counters := c, enhancedRefreshStaleIpv4 := s }) : SameSetup idx r r' := by
  obtain ⟨c, s, rfl⟩ := hq
  exact ⟨has, c, s, by simp [hset, modifyPeer]⟩

variable {nowMs : Nat} {attrs : BgpPathAttributes}

theorem importPrefix_setup (r : BgpRouter n) (idx : Fin n) (nowMs : Nat) (attrs : BgpPathAttributes)
    (p : Ipv4Prefix) :
    SameSetup idx r (r.importPrefix idx nowMs attrs p).1 := by
  unfold importPrefix
  by_cases hown : attrs.nextHop = (r.peerAt idx).localAddr
  · simp only [if_pos hown]
    exact .of_set rfl rfl ⟨_, _, rfl⟩
  · simp only [if_neg hown]
    cases (r.peerAt idx).importPolicy.apply p with
    | denied =>
      simp only
      exact .of_set rfl rfl ⟨_, _, rfl⟩
    | permitted lp med =>
      simp only
      split <;> exact .of_set rfl rfl ⟨_, _, rfl⟩

theorem get?_importPrefix (hown : attrs.nextHop ≠ (r.peerAt idx).localAddr) (p : Ipv4Prefix) (a : Ipv4Address)
    (q : Ipv4Prefix) : (r.importPrefix idx nowMs attrs p).1.adjRibIn.get? a q =
      if a = (r.peerAt idx).addr ∧ q = p then r.builds idx nowMs attrs p else r.adjRibIn.get? a q := by
  unfold importPrefix builds
  simp only [if_neg hown]
  cases (r.peerAt idx).importPolicy.apply p with
  | denied => exact AdjRibIn.get?_remove _ _ _ _ _
  | permitted lp med =>
    simp only
    split <;> exact AdjRibIn.get?_insert _ _ _ _ _

theorem importPrefix_own (hown : attrs.nextHop = (r.peerAt idx).localAddr) (p : Ipv4Prefix) :
    (r.importPrefix idx nowMs attrs p).1.adjRibIn = r.adjRibIn := by
  unfold importPrefix
  simp only [if_pos hown]
  rfl

theorem importNlri_own : ∀ (ps : List Ipv4Prefix) {r : BgpRouter n}, attrs.nextHop = (r.peerAt idx).localAddr →
    (importNlri idx nowMs attrs r ps).1.adjRibIn = r.adjRibIn
  | [], _, _ => rfl
  | p :: ps, r, hown => by
    have hstep := @importPrefix_own n idx r nowMs attrs hown p
    have hsetup := importPrefix_setup r idx nowMs attrs p
    unfold importNlri
    rcases hres : r.importPrefix idx nowMs attrs p with ⟨r', res⟩
    rw [hres] at hstep hsetup
    cases res with
    | error note => exact hstep
    | ok u => exact (importNlri_own ps (hown.trans hsetup.localAddr.symm)).trans hstep

theorem get?_importNlri (a : Ipv4Address) (q : Ipv4Prefix) : ∀ (ps : List Ipv4Prefix) {r : BgpRouter n},
    attrs.nextHop ≠ (r.peerAt idx).localAddr → (importNlri idx nowMs attrs r ps).2 = .ok () →
    (importNlri idx nowMs attrs r ps).1.adjRibIn.get? a q =
      if a = (r.peerAt idx).addr ∧ q ∈ ps then r.builds idx nowMs attrs q else r.adjRibIn.get? a q
  | [], _, _, _ => by simp [importNlri]
  | p :: ps, r, hown, hok => by
    have hstep := @get?_importPrefix n idx r nowMs attrs hown p a q
    have hsetup := importPrefix_setup r idx nowMs attrs p
    unfold importNlri at hok ⊢
    rcases hres : r.importPrefix idx nowMs attrs p with ⟨r', res⟩
    rw [hres] at hstep hsetup hok
    cases res with
    | error note => cases hok
    | ok u =>
      simp only
      rw [get?_importNlri a q ps (by rw [hsetup.localAddr]; exact hown) hok, hsetup.addr, hsetup.builds, hstep]
      generalize (r.peerAt idx).addr = addr
      by_cases ha : a = addr <;> by_cases hq : q ∈ ps <;> by_cases hp : q = p <;> simp [ha, hq, hp]

theorem importNlri_entry {a : Ipv4Address} {q : Ipv4Prefix} : ∀ (ps : List Ipv4Prefix)
    {r : BgpRouter n}, (importNlri idx nowMs attrs r ps).1.adjRibIn.get? a q = some path →
    r.adjRibIn.get? a q = some path ∨ r.builds idx nowMs attrs q = some path
  | [], _, h => .inl h
  | p :: ps, r, h => by
    have hsetup := importPrefix_setup r idx nowMs attrs p
    have hstep : (r.importPrefix idx nowMs attrs p).1.adjRibIn.get? a q = some path →
        r.adjRibIn.get? a q = some path ∨ r.builds idx nowMs attrs q = some path := by
      intro h
      by_cases hown : attrs.nextHop = (r.peerAt idx).localAddr
      · rw [importPrefix_own hown] at h
        exact .inl h
      · rw [get?_importPrefix hown] at h
        by_cases hq : a = (r.peerAt idx).addr ∧ q = p
        · rw [if_pos hq] at h
          exact .inr (hq.2 ▸ h)
        · rw [if_neg hq] at h
          exact .inl h
    unfold importNlri at h
    rcases hres : r.importPrefix idx nowMs attrs p with ⟨r', res⟩
    rw [hres] at h hstep hsetup
    cases res with
    | error note => exact hstep h
    | ok u =>
      rcases importNlri_entry ps h with h | h
      · exact hstep h
      · exact .inr (hsetup.builds nowMs attrs q ▸ h)

end

/-! ## The whole UPDATE -/

def Loops (r : BgpRouter n) (attrs : BgpPathAttributes) : Prop :=
  r.reflectionLoop attrs.originatorId attrs.clusterList ≠ none ∨ attrs.asPath.contains r.localAs = true

theorem importUpdate_cases (r : BgpRouter n) (idx : Fin n) (nowMs : Nat) (u : BgpUpdateMessage) : ∃ r₁,
    SameSetup idx r r₁ ∧
    (∀ a p, r₁.adjRibIn.get? a p =
      if a = (r.peerAt idx).addr ∧ p ∈ u.withdrawn then none else r.adjRibIn.get? a p) ∧
    (((r.importUpdate idx nowMs u).1.adjRibIn = r₁.adjRibIn ∧
        ((r.importUpdate idx nowMs u).2 = .ok () → u.nlri = [] ∨ ∀ attrs ∈ u.attributes, r.Loops attrs)) ∨
      ∃ attrs, u.attributes = some attrs ∧ ¬ r.Loops attrs ∧
        r.importUpdate idx nowMs u = importNlri idx nowMs attrs r₁ u.nlri) := by
  obtain ⟨t, d, hfold, ht⟩ := foldl_withdrawPrefix (r.peerAt idx).addr u.withdrawn r
  refine ⟨{ r with adjRibIn := t, dirty := d }, ⟨rfl, _, _, rfl⟩, ht, ?_⟩
  unfold importUpdate
  simp only [hfold]
  cases ha : u.attributes with
  | none => exact .inl ⟨rfl, fun _ => .inr fun _ h => by cases h⟩
  | some attrs =>
    simp only
    by_cases hn : u.nlri.isEmpty = true
    · rw [if_pos hn]
      exact .inl ⟨rfl, fun _ => .inl (List.isEmpty_iff.mp hn)⟩
    rw [if_neg hn]
    by_cases hnh : unusableNextHop attrs.nextHop = true
    · rw [if_pos hnh]
      exact .inl ⟨rfl, fun h => by cases h⟩
    rw [if_neg hnh]
    split
    · exact .inl ⟨rfl, fun h => by cases h⟩
    have hrl : ∀ t d, ({ r with adjRibIn := t, dirty := d } : BgpRouter n).reflectionLoop attrs.originatorId
        attrs.clusterList = r.reflectionLoop attrs.originatorId attrs.clusterList := fun _ _ => rfl
    have hloops : r.Loops attrs → ∀ x ∈ some attrs, r.Loops x := fun h x hx => Option.mem_some.mp hx ▸ h
    rw [hrl]
    cases hl : r.reflectionLoop attrs.originatorId attrs.clusterList with
    | some kind =>
      have h : r.Loops attrs := .inl (by rw [hl]; exact Option.some_ne_none _)
      cases kind <;> exact .inl ⟨rfl, fun _ => .inr (hloops h)⟩
    | none =>
      simp only
      by_cases hc : attrs.asPath.contains r.localAs = true
      · rw [if_pos hc]
        exact .inl ⟨rfl, fun _ => .inr (hloops (.inr hc))⟩
      · rw [if_neg hc]
        exact .inr ⟨attrs, rfl, fun h => h.elim (fun h => h hl) hc, rfl⟩

section
variable {r : BgpRouter n} {idx : Fin n} {nowMs : Nat} {u : BgpUpdateMessage} {p : Ipv4Prefix} {path : BgpPath}

theorem importUpdate_entry {a : Ipv4Address} (h : (r.importUpdate idx nowMs u).1.adjRibIn.get? a p = some path) :
    r.adjRibIn.get? a p = some path ∨
      ∃ attrs ∈ u.attributes, ¬ r.Loops attrs ∧ r.builds idx nowMs attrs p = some path := by
  obtain ⟨r₁, hsetup, ht, hcases⟩ := r.importUpdate_cases idx nowMs u
  have hkept : r₁.adjRibIn.get? a p = some path → r.adjRibIn.get? a p = some path := by
    rw [ht]
    split
    · intro h; cases h
    · exact id
  rcases hcases with ⟨heq, -⟩ | ⟨attrs, hattrs, hloops, heq⟩
  · rw [heq] at h
    exact .inl (hkept h)
  · rw [heq] at h
    rcases importNlri_entry _ h with h | h
    · exact .inl (hkept h)
    · exact .inr ⟨attrs, hattrs, hloops, hsetup.builds nowMs attrs p ▸ h⟩

variable (r idx) in
def Considers (attrs : BgpPathAttributes) : Prop := ¬ r.Loops attrs ∧ attrs.nextHop ≠ (r.peerAt idx).localAddr

theorem get?_importUpdate_considered (hok : (r.importUpdate idx nowMs u).2 = .ok ()) {attrs : BgpPathAttributes}
    (ha : u.attributes = some attrs) (hc : r.Considers idx attrs) (hp : p ∈ u.nlri) :
    (r.importUpdate idx nowMs u).1.adjRibIn.get? (r.peerAt idx).addr p = r.builds idx nowMs attrs p := by
  obtain ⟨r₁, hsetup, -, ⟨-, hstop⟩ | ⟨attrs', ha', -, heq⟩⟩ := r.importUpdate_cases idx nowMs u
  · rcases hstop hok with hn | hl
    · rw [hn] at hp; cases hp
    · exact absurd (hl attrs ha) hc.1
  · obtain rfl : attrs = attrs' := Option.some.inj (ha.symm.trans ha')
    rw [heq] at hok ⊢
    rw [get?_importNlri _ p u.nlri (by rw [hsetup.localAddr]; exact hc.2) hok, hsetup.addr, if_pos ⟨rfl, hp⟩,
      hsetup.builds]

theorem get?_importUpdate_refused (hc : ∀ attrs ∈ u.attributes, ¬ r.Considers idx attrs) (p : Ipv4Prefix) :
    (r.importUpdate idx nowMs u).1.adjRibIn.get? (r.peerAt idx).addr p =
      if p ∈ u.withdrawn then none else r.adjRibIn.get? (r.peerAt idx).addr p := by
  obtain ⟨r₁, hsetup, ht, hcases⟩ := r.importUpdate_cases idx nowMs u
  have htable : (r.importUpdate idx nowMs u).1.adjRibIn = r₁.adjRibIn := by
    rcases hcases with ⟨heq, -⟩ | ⟨attrs, ha, hl, heq⟩
    · exact heq
    · have hown : attrs.nextHop = (r.peerAt idx).localAddr := by
        by_contra hne
        exact hc attrs ha ⟨hl, hne⟩
      rw [heq]
      exact importNlri_own _ (hown.trans hsetup.localAddr.symm)
  rw [htable, ht]
  simp only [true_and]

end

/-! ## The decision process -/

theorem mem_candidatesFor {r : BgpRouter n} (h : path ∈ r.candidatesFor p) :
    r.localCandidate p = some path ∨ ∃ a, r.adjRibIn.get? a p = some path := by
  rcases List.mem_append.mp h with h | h
  · right
    apply AdjRibIn.mem_candidates.mp
    unfold learnedCandidates at h
    simp only at h
    split at h
    · exact h
    · exact List.mem_of_mem_filter h
  · exact .inl (Option.mem_toList.mp h)

theorem selectBest_mem {cs : List BgpPath} {c : BgpPath} (h : selectBest cs = some c) : c ∈ cs := knockout_mem _ h

theorem pfx_of_selectBest {r : BgpRouter n} (h : selectBest (r.candidatesFor p) = some path) : path.pfx = p := by
  rcases mem_candidatesFor (selectBest_mem h) with h | ⟨a, h⟩
  · obtain ⟨nextHop, -, rfl⟩ := Option.map_eq_some_iff.mp h
    rfl
  · exact AdjRibIn.pfx_of_get? h

theorem paths_foldl_insert {g : Ipv4Prefix → Option BgpPath} (hg : ∀ p path, g p = some path → path.pfx = p) :
    ∀ (ps : List Ipv4Prefix) (t : PathTable), (ps.foldl (fun rib p => (g p).elim rib rib.insert) t).paths =
      ps.foldl (fun m p => (g p).elim m (m.insert p)) t.paths
  | [], _ => rfl
  | p :: ps, t => by
    rw [List.foldl_cons, List.foldl_cons, paths_foldl_insert hg ps]
    cases hp : g p with
    | none => rfl
    | some path =>
      simp only [Option.elim_some, PathTable.insert]
      rw [hg p path hp]

theorem get?_newRib (r : BgpRouter n) (p : Ipv4Prefix) : r.newRib.get? p = selectBest (r.candidatesFor p) := by
  have hg : ∀ p path, selectBest (r.candidatesFor p) = some path → path.pfx = p := fun _ _ => pfx_of_selectBest
  rw [newRib, PathTable.get?, paths_foldl_insert hg,
    SortedMap.get?_foldl_insert fun p => selectBest (r.candidatesFor p)]
  by_cases hp : p ∈ (SortedMap.ofKeys (r.adjRibIn.prefixes ++ r.originated.keys)).keys
  · rw [if_pos hp]
    exact Option.or_none
  · -- No one advertises or originates the prefix.
    rw [if_neg hp]
    rw [SortedMap.mem_keys_ofKeys, List.mem_append, not_or, AdjRibIn.mem_prefixes, not_not,
      SortedMap.mem_keys] at hp
    have horig : r.originated.get? p = none := Option.eq_none_iff_forall_ne_some.mpr fun x hx => hp.2 ⟨x, hx⟩
    have : r.candidatesFor p = [] := by simp [candidatesFor, learnedCandidates, localCandidate, hp.1, horig]
    rw [this]
    rfl

theorem newRib_origin {r : BgpRouter n} (h : r.newRib.get? p = some path) :
    r.localCandidate p = some path ∨ ∃ a, r.adjRibIn.get? a p = some path :=
  mem_candidatesFor (selectBest_mem (r.get?_newRib p ▸ h))

/-! ## Implicit withdrawal -/

/-- What is held from the peer for an announced prefix was built from the UPDATE's attributes. So is the best path,
where it is the peer's. -/
def Supersedes (r : BgpRouter n) (idx : Fin n) (nowMs : Nat) (u : BgpUpdateMessage) : Prop :=
  let after := (r.importUpdate idx nowMs u).1
  ∀ p ∈ u.nlri, ∀ path,
    (after.adjRibIn.get? (r.peerAt idx).addr p = some path →
      ∃ attrs ∈ u.attributes, r.builds idx nowMs attrs p = some path) ∧
    (after.runDecisionProcess.locRib.get? p = some path → after.localCandidate p = some path ∨
      ∃ a, after.adjRibIn.get? a p = some path ∧
        (a = (r.peerAt idx).addr → ∃ attrs ∈ u.attributes, r.builds idx nowMs attrs p = some path))

theorem importUpdate_supersedes_iff (r : BgpRouter n) (idx : Fin n) (nowMs : Nat) (u : BgpUpdateMessage)
    (hok : (r.importUpdate idx nowMs u).2 = .ok ()) :
    r.Supersedes idx nowMs u ↔ (∃ attrs ∈ u.attributes, r.Considers idx attrs) ∨
      ∀ p ∈ u.nlri, p ∉ u.withdrawn → ∀ path, r.adjRibIn.get? (r.peerAt idx).addr p = some path →
        ∃ attrs ∈ u.attributes, r.builds idx nowMs attrs p = some path := by
  -- The Loc-RIB follows the Adj-RIB-In, so only the entries matter.
  have hentries : r.Supersedes idx nowMs u ↔ ∀ p ∈ u.nlri, ∀ path,
      (r.importUpdate idx nowMs u).1.adjRibIn.get? (r.peerAt idx).addr p = some path →
        ∃ attrs ∈ u.attributes, r.builds idx nowMs attrs p = some path := by
    refine ⟨fun h p hp path => (h p hp path).1, fun h p hp path => ⟨h p hp path, fun hbest => ?_⟩⟩
    rcases newRib_origin hbest with hl | ⟨a, ha⟩
    · exact .inl hl
    · exact .inr ⟨a, ha, fun heq => h p hp path (heq ▸ ha)⟩
  rw [hentries]
  by_cases hc : ∃ attrs ∈ u.attributes, r.Considers idx attrs
  · obtain ⟨attrs, ha, hcons⟩ := hc
    refine ⟨fun _ => .inl ⟨attrs, ha, hcons⟩, fun _ p hp path hentry => ⟨attrs, ha, ?_⟩⟩
    rw [← get?_importUpdate_considered hok ha hcons hp]
    exact hentry
  · have hrefused := fun p => @get?_importUpdate_refused n r idx nowMs u (fun attrs ha h => hc ⟨attrs, ha, h⟩) p
    simp only [hrefused, hc, false_or]
    refine forall₂_congr fun p _ => ?_
    by_cases hw : p ∈ u.withdrawn <;> simp [hw]

def borderSpeaker : BgpRouter 1 where
  localAs := 65000
  routerId := ⟨10, 0, 0, 1⟩
  configuredClusterId := none
  peers := #v[{ addr := ⟨10, 0, 0, 2⟩, remoteAs := 65001, localAddr := ⟨10, 0, 0, 1⟩, state := .established }]
  adjRibIn := .new
  locRib := .empty
  adjRibOut := .new
  originated := .empty
  dirty := false
  decisionRuns := 0

def announced (asns : List UInt32) : BgpUpdateMessage :=
  .announce (attributesFor ⟨.igp, .sequence asns, ⟨10, 0, 0, 2⟩, none, none, none, []⟩ true) [.new ⟨10, 1, 0, 0⟩ 16]

/-- The second announcement is an AS loop: it is passed over without an error, and the first one stays. -/
theorem importUpdate_keeps_superseded :
    let r := (borderSpeaker.importUpdate 0 1000 (announced [65001])).1
    let after := r.importUpdate 0 2000 (announced [65001, 65000])
    let p := Ipv4Prefix.new ⟨10, 1, 0, 0⟩ 16
    after.2 = .ok () ∧
      (after.1.adjRibIn.get? ⟨10, 0, 0, 2⟩ p).map (·.asPath) = some (.sequence [65001]) ∧
      (after.1.runDecisionProcess.locRib.get? p).map (·.asPath) = some (.sequence [65001]) ∧
      ¬ r.Supersedes 0 2000 (announced [65001, 65000]) := by
  intro r after p
  have hentry : (after.1.adjRibIn.get? ⟨10, 0, 0, 2⟩ p).map (·.asPath) = some (.sequence [65001]) := by
    decide +kernel
  refine ⟨by decide +kernel, hentry, by decide +kernel, fun h => ?_⟩
  obtain ⟨path, hpath, hasns⟩ := Option.map_eq_some_iff.mp hentry
  obtain ⟨attrs, hattrs, hbuilt⟩ := (h p (List.mem_singleton_self p) path).1 hpath
  obtain ⟨_, _, rfl⟩ := builds_eq_some hbuilt
  -- A path built from the second announcement has two ASes.
  rw [← Option.some.inj hattrs] at hasns
  exact absurd (show AsPath.sequence [65001, 65000] = AsPath.sequence [65001] from hasns) (by decide)

theorem importUpdate_supersedes_longer :
    let r := (borderSpeaker.importUpdate 0 1000 (announced [65001])).1
    (r.importUpdate 0 2000 (announced [65001, 65002])).2 = .ok () ∧
      r.Supersedes 0 2000 (announced [65001, 65002]) := by
  intro r
  have hok : (r.importUpdate 0 2000 (announced [65001, 65002])).2 = .ok () := by decide +kernel
  refine ⟨hok, (importUpdate_supersedes_iff r 0 2000 _ hok).mpr (.inl ⟨_, rfl, ?_, ?_⟩)⟩
  · unfold Loops
    decide +kernel
  · decide +kernel

end BgpRouter
end SystemsLab.Bgp
