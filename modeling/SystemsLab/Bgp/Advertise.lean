import Mathlib.Data.List.Induction
import SystemsLab.Bgp.Import

/-!
# What a speaker sends

All prefixes that are withdrawn go into one UPDATE, and all prefixes announced with the same attributes into one
more. A peer takes them exactly when they fit a BGP message, which nothing in the pass sees to
(`advertiseToPeer_received_iff`).
-/

namespace SystemsLab.Bgp

variable {route : AdvertisedRoute} {forceRefresh : Bool}

/-! ## The size of an UPDATE -/

def BgpUpdateMessage.frameLen (u : BgpUpdateMessage) : Nat :=
  bgpHeaderLen + 4 + (u.withdrawn.map Ipv4Prefix.encodedLen).sum + u.encodeAttributes.length +
    (u.nlri.map Ipv4Prefix.encodedLen).sum

theorem length_serialize_update (u : BgpUpdateMessage) : (BgpPdu.update u).serialize.length = u.frameLen := by
  rw [BgpPdu.length_serialize, BgpUpdateMessage.frameLen]
  simp only [BgpPdu.body, BgpUpdateMessage.encodeBody, List.length_append, length_u16Bytes,
    Ipv4Prefix.length_encodeList]
  omega

theorem plain_withdraw (fourOctetAs : Bool) (ws : List Ipv4Prefix) :
    (BgpUpdateMessage.withdraw ws).Plain fourOctetAs where
  mpReach _ h := by cases h
  mpUnreach _ h := by cases h
  clusters _ h := by cases h
  width _ h := by cases h
  described h := absurd rfl h

theorem plain_announce (h : route.clusterList.length ≤ maxClusterListLen) (fourOctetAs : Bool)
    (ps : List Ipv4Prefix) :
    (BgpUpdateMessage.announce (BgpRouter.attributesFor route fourOctetAs) ps).Plain fourOctetAs where
  mpReach _ ha := by cases ha; rfl
  mpUnreach _ ha := by cases ha; rfl
  clusters _ ha := by cases ha; exact h
  width _ ha := by cases ha; rfl
  described _ := ⟨_, rfl⟩

/-! ## Groups -/

section
variable {fourOctetAs : Bool} {es : List (Ipv4Prefix × AdvertisedRoute)}

/-- The routes whose attributes are encoded as `key`. -/
def sharing (fourOctetAs : Bool) (es : List (Ipv4Prefix × AdvertisedRoute)) (key : List Nat) :
    List (Ipv4Prefix × AdvertisedRoute) := es.filter fun e => groupKey e.2 fourOctetAs = key

/-- A group has the attributes of its first route and the prefixes of all that share them. -/
theorem get?_foldl_addToGroup (key : List Nat) : (es.foldl (addToGroup fourOctetAs) .empty).get? key =
    (sharing fourOctetAs es key).head?.map fun e => (e.2, (sharing fourOctetAs es key).map Prod.fst) := by
  induction es using List.reverseRecOn with
  | nil => rfl
  | append_singleton es e ih =>
    rw [List.foldl_append, List.foldl_cons, List.foldl_nil, addToGroup, SortedMap.get?_insert, sharing,
      List.filter_append, ← sharing]
    by_cases hkey : key = groupKey e.2 fourOctetAs
    · subst hkey
      rw [if_pos rfl, ih, List.filter_cons_of_pos (by simp)]
      cases sharing fourOctetAs es (groupKey e.2 fourOctetAs) with
      | nil => rfl
      | cons first rest => simp
    · rw [if_neg hkey, ih, List.filter_cons_of_neg (by simpa using Ne.symm hkey), List.filter_nil, List.append_nil]

theorem mem_foldl_addToGroup {g : List Nat × AdvertisedRoute × List Ipv4Prefix}
    (h : g ∈ (es.foldl (addToGroup fourOctetAs) .empty).entries) :
    ∃ e ∈ es, g.2 = (e.2, (sharing fourOctetAs es (groupKey e.2 fourOctetAs)).map Prod.fst) := by
  have hget := SortedMap.get?_eq_some.mpr h
  rw [get?_foldl_addToGroup] at hget
  obtain ⟨e, he, heq⟩ := Option.map_eq_some_iff.mp hget
  obtain ⟨hmem, hkey⟩ := List.mem_filter.mp (List.mem_of_head? he)
  rw [decide_eq_true_eq] at hkey
  exact ⟨e, hmem, by rw [← heq, hkey]⟩

theorem exists_group (fourOctetAs : Bool) {e : Ipv4Prefix × AdvertisedRoute} (h : e ∈ es) : ∃ route,
    groupKey route fourOctetAs = groupKey e.2 fourOctetAs ∧
      (groupKey e.2 fourOctetAs, route, (sharing fourOctetAs es (groupKey e.2 fourOctetAs)).map Prod.fst) ∈
        (es.foldl (addToGroup fourOctetAs) .empty).entries := by
  have hmem : e ∈ sharing fourOctetAs es (groupKey e.2 fourOctetAs) := List.mem_filter.mpr ⟨h, by simp⟩
  obtain ⟨first, hfirst⟩ := Option.isSome_iff_exists.mp (List.isSome_head?.mpr (List.ne_nil_of_mem hmem))
  have hkey := (List.mem_filter.mp (List.mem_of_head? hfirst)).2
  rw [decide_eq_true_eq] at hkey
  refine ⟨first.2, hkey, SortedMap.get?_eq_some.mp ?_⟩
  rw [get?_foldl_addToGroup, hfirst]
  rfl

theorem frameLen_announce (route : AdvertisedRoute) (fourOctetAs : Bool) {ps : List Ipv4Prefix} (hps : ps ≠ []) :
    (BgpUpdateMessage.announce (BgpRouter.attributesFor route fourOctetAs) ps).frameLen =
      bgpHeaderLen + 4 + (groupKey route fourOctetAs).length + (ps.map Ipv4Prefix.encodedLen).sum := by
  obtain ⟨p, ps, rfl⟩ := List.exists_cons_of_ne_nil hps
  rw [groupKey, List.length_map]
  rfl

end

namespace BgpRouter
variable {n : Nat}

theorem exportRoute_eq_some {r : BgpRouter n} {idx : Fin n} {p : Ipv4Prefix} {best : BgpPath}
    (h : r.exportRoute idx p best = some route) :
    best.peerAddr ≠ (r.peerAt idx).addr ∧
      ∃ policyLp policyMed, route = r.advertisedRoute idx best policyLp policyMed := by
  unfold exportRoute at h
  simp only at h
  by_cases hback : best.peerAddr = (r.peerAt idx).addr
  · rw [if_pos hback] at h; cases h
  rw [if_neg hback] at h
  refine ⟨hback, ?_⟩
  split at h
  · cases h
  cases hpolicy : (r.peerAt idx).exportPolicy.apply p with
  | denied => rw [hpolicy] at h; cases h
  | permitted lp med =>
    rw [hpolicy] at h
    simp only at h
    split at h
    · cases h
    · exact ⟨lp, med, (Option.some.inj h).symm⟩

theorem clusterList_advertisedRoute (r : BgpRouter n) (idx : Fin n) (best : BgpPath)
    (policyLp policyMed : Option UInt32) :
    (r.advertisedRoute idx best policyLp policyMed).clusterList.length ≤ maxClusterListLen := by
  unfold advertisedRoute
  simp only
  split
  · exact List.length_take_le _ _
  · exact Nat.zero_le _

/-- The routes a pass announces: during a refresh all of them, otherwise those the peer was not told last. -/
def changes (r : BgpRouter n) (idx : Fin n) (forceRefresh : Bool) : List (Ipv4Prefix × AdvertisedRoute) :=
  (r.computeAdjRibOut idx).entries.filter fun e =>
    forceRefresh || r.adjRibOut.get? (r.peerAt idx).addr e.1 ≠ some e.2

theorem clusterList_changes {r : BgpRouter n} {idx : Fin n} {e : Ipv4Prefix × AdvertisedRoute}
    (he : e ∈ r.changes idx forceRefresh) : e.2.clusterList.length ≤ maxClusterListLen := by
  have hdesired := SortedMap.get?_eq_some.mpr (List.mem_of_mem_filter he)
  rw [computeAdjRibOut, SortedMap.get?_filterMap] at hdesired
  obtain ⟨best, -, hroute⟩ := Option.bind_eq_some_iff.mp hdesired
  obtain ⟨-, lp, med, heq⟩ := exportRoute_eq_some hroute
  rw [heq]
  exact r.clusterList_advertisedRoute idx best lp med

/-- Taking back prefixes that are not exported does not change what is announced. -/
theorem announcements_eq {r : BgpRouter n} {idx : Fin n} {out : AdjRibOut}
    (hout : ∀ p ∉ r.withdrawals idx, out.get? (r.peerAt idx).addr p = r.adjRibOut.get? (r.peerAt idx).addr p) :
    r.announcements idx forceRefresh out =
      (r.changes idx forceRefresh).foldl (addToGroup (r.peerAt idx).fourOctetAs) .empty := by
  rw [announcements, changes]
  congr 1
  refine List.filter_congr fun e he => ?_
  rw [hout e.1 fun hw => ?_]
  have hnone := (List.mem_filter.mp hw).2
  rw [SortedMap.get?_eq_some.mpr he] at hnone
  cases hnone

/-- Nothing but the state of a refresh and the counters differs. -/
theorem differences_modifyPeer (r : BgpRouter n) (idx : Fin n) {f : BgpPeer → BgpPeer}
    (hf : ∀ q, ∃ outbound counters, f q = { q with enhancedRefreshOutbound := outbound, counters := counters }) :
    (r.modifyPeer idx f).withdrawals idx = r.withdrawals idx ∧
      (r.modifyPeer idx f).changes idx forceRefresh = r.changes idx forceRefresh ∧
      ((r.modifyPeer idx f).peerAt idx).fourOctetAs = (r.peerAt idx).fourOctetAs := by
  obtain ⟨outbound, counters, hq⟩ := hf (r.peerAt idx)
  have hpeer : (r.modifyPeer idx f).peerAt idx = { r.peerAt idx with
      enhancedRefreshOutbound := outbound, counters := counters } := by
    rw [← hq]
    simp [modifyPeer]
  have hexport : (r.modifyPeer idx f).exportRoute idx = r.exportRoute idx := by
    funext p best
    simp only [exportRoute, advertisedRoute, propagation, isEbgp, hpeer]
    rfl
  have hcompute : (r.modifyPeer idx f).computeAdjRibOut idx = r.computeAdjRibOut idx := by
    rw [computeAdjRibOut, hexport]
    rfl
  simp only [withdrawals, changes, hcompute, hpeer]
  exact ⟨rfl, rfl, trivial⟩

end BgpRouter

/-! ## What is passed to `send_pdu` -/

namespace Sending
variable {n : Nat} {σ : Type} (io : SocketRuntime σ) (idx : Fin n)

theorem sendPdu_spec (pdu : BgpPdu) (s : Sending n σ) : (s.sendPdu io idx pdu).1.passed = s.passed ++ [pdu] ∧
    (s.sendPdu io idx pdu).1.router.adjRibOut = s.router.adjRibOut ∧
      ((s.sendPdu io idx pdu).2 = true → (s.sendPdu io idx pdu).1.router = s.router) := by
  unfold sendPdu
  simp only
  split
  · exact ⟨rfl, rfl, nofun⟩
  split
  · exact ⟨rfl, rfl, nofun⟩
  split
  · split
    · exact ⟨rfl, rfl, fun _ => rfl⟩
    · exact ⟨rfl, rfl, nofun⟩
  · exact ⟨rfl, rfl, nofun⟩

theorem passed_sendWithdrawn (ws : List Ipv4Prefix) (s : Sending n σ) : (s.sendWithdrawn io idx ws).1.passed =
    s.passed ++ if ws.isEmpty then [] else [.update (.withdraw ws)] := by
  have hpassed := (s.sendPdu_spec io idx (.update (.withdraw ws))).1
  unfold sendWithdrawn
  by_cases hws : ws.isEmpty = true
  · simp [hws]
  · rw [if_neg hws, if_neg hws]
    rcases hres : s.sendPdu io idx (.update (.withdraw ws)) with ⟨s', sent⟩
    rw [hres] at hpassed
    cases sent <;> exact hpassed

theorem get?_sendWithdrawn {ws : List Ipv4Prefix} {p : Ipv4Prefix} (hp : p ∉ ws) (s : Sending n σ)
    (addr : Ipv4Address) :
    (s.sendWithdrawn io idx ws).1.router.adjRibOut.get? addr p = s.router.adjRibOut.get? addr p := by
  have hout := (s.sendPdu_spec io idx (.update (.withdraw ws))).2.1
  unfold sendWithdrawn
  split
  · rfl
  rcases hres : s.sendPdu io idx (.update (.withdraw ws)) with ⟨s', sent⟩
  rw [hres] at hout
  cases sent with
  | false => exact congrArg (AdjRibOut.get? · addr p) hout
  | true =>
    exact (AdjRibOut.get?_foldl_remove ws s'.router.adjRibOut hp).trans (congrArg (AdjRibOut.get? · addr p) hout)

def announceGroup (fourOctetAs : Bool) (group : AdvertisedRoute × List Ipv4Prefix) : BgpPdu :=
  .update (.announce (BgpRouter.attributesFor group.1 fourOctetAs) group.2)

theorem passed_sendGroup (fourOctetAs : Bool) (s : Sending n σ × Bool) (group : AdvertisedRoute × List Ipv4Prefix) :
    (sendGroup io idx fourOctetAs s group).1.passed = s.1.passed ++ [announceGroup fourOctetAs group] := by
  have hpassed := (s.1.sendPdu_spec io idx (announceGroup fourOctetAs group)).1
  unfold announceGroup at hpassed ⊢
  unfold sendGroup
  simp only
  rcases hres : s.1.sendPdu io idx
    (.update (.announce (BgpRouter.attributesFor group.1 fourOctetAs) group.2)) with ⟨s', sent⟩
  rw [hres] at hpassed
  cases sent <;> exact hpassed

theorem passed_foldl_sendGroup (fourOctetAs : Bool) : ∀ (groups : List (AdvertisedRoute × List Ipv4Prefix))
    (s : Sending n σ × Bool), (groups.foldl (sendGroup io idx fourOctetAs) s).1.passed =
      s.1.passed ++ groups.map (announceGroup fourOctetAs)
  | [], s => by simp
  | group :: groups, s => by
    rw [List.foldl_cons, passed_foldl_sendGroup fourOctetAs groups, passed_sendGroup, List.map_cons,
      List.append_assoc]
    rfl

/-- Everything a pass sends after its marker of a refresh. -/
theorem passed_sendDifferences (forceRefresh : Bool) (s : Sending n σ) :
    (s.sendDifferences io idx forceRefresh).1.passed = s.passed ++
      ((if (s.router.withdrawals idx).isEmpty then [] else [.update (.withdraw (s.router.withdrawals idx))]) ++
        ((s.router.changes idx forceRefresh).foldl
          (addToGroup (s.router.peerAt idx).fourOctetAs) .empty).entries.map
          fun e => announceGroup (s.router.peerAt idx).fourOctetAs e.2) := by
  unfold sendDifferences
  rw [passed_foldl_sendGroup, passed_sendWithdrawn, List.map_map, List.append_assoc,
    BgpRouter.announcements_eq fun p hp => s.get?_sendWithdrawn io idx hp _]
  rfl

end Sending

namespace BgpRouter
variable {n : Nat} {σ : Type} (io : SocketRuntime σ)

@[simp] theorem passed_finish (idx : Fin n) (family : AfiSafi) (s : Sending n σ) :
    (s.finishEnhancedRefreshReplay idx family).passed = s.passed := by
  unfold Sending.finishEnhancedRefreshReplay
  split <;> rfl

/-- The session is up, and a refresh that has to be announced to the peer first is. -/
def Reports (r : BgpRouter n) (idx : Fin n) (sockets : σ) : Prop :=
  (r.peerAt idx).isEstablished = true ∧
    (.ipv4Unicast ∈ (r.peerAt idx).refreshPending →
      (r.peerAt idx).enhancedRefreshOutbound.get? .ipv4Unicast = some .needBorr →
        ((⟨r, sockets, []⟩ : Sending n σ).sendPdu io idx (.routeRefresh ⟨.ipv4Unicast, .beginning⟩)).2 = true)

def refreshing (r : BgpRouter n) (idx : Fin n) : Bool := .ipv4Unicast ∈ (r.peerAt idx).refreshPending

/-- The messages of a pass: all that is withdrawn, and the groups of what is announced. -/
def Sent (r : BgpRouter n) (idx : Fin n) (u : BgpUpdateMessage) : Prop :=
  r.withdrawals idx ≠ [] ∧ u = .withdraw (r.withdrawals idx) ∨
    ∃ g ∈ ((r.changes idx (r.refreshing idx)).foldl (addToGroup (r.peerAt idx).fourOctetAs) .empty).entries,
      u = .announce (attributesFor g.2.1 (r.peerAt idx).fourOctetAs) g.2.2

theorem mem_sendDifferences {r : BgpRouter n} {idx : Fin n} {s : Sending n σ} {u : BgpUpdateMessage}
    (hno : BgpPdu.update u ∉ s.passed) (hw : s.router.withdrawals idx = r.withdrawals idx)
    (hc : s.router.changes idx (r.refreshing idx) = r.changes idx (r.refreshing idx))
    (hwidth : (s.router.peerAt idx).fourOctetAs = (r.peerAt idx).fourOctetAs) :
    BgpPdu.update u ∈ (s.sendDifferences io idx (r.refreshing idx)).1.passed ↔ r.Sent idx u := by
  rw [Sending.passed_sendDifferences, hw, hc, hwidth, List.mem_append, or_iff_right hno, List.mem_append, Sent]
  refine or_congr ?_ ?_
  · by_cases h : r.withdrawals idx = [] <;> simp [h]
  · simp [Sending.announceGroup, eq_comm]

/-- Before the differences goes the marker of a refresh, if it needs one. -/
structure Opened (r : BgpRouter n) (idx : Fin n) (sockets : σ) (s : Sending n σ) (sent : Bool) : Prop where
  none : ∀ u, BgpPdu.update u ∉ s.passed
  reports : r.Reports io idx sockets ↔ sent = true
  same : sent = true → s.router.withdrawals idx = r.withdrawals idx ∧
    s.router.changes idx (r.refreshing idx) = r.changes idx (r.refreshing idx) ∧
    (s.router.peerAt idx).fourOctetAs = (r.peerAt idx).fourOctetAs

theorem opened {r : BgpRouter n} {idx : Fin n} {sockets : σ} (hest : (r.peerAt idx).isEstablished = true)
    {s : Sending n σ} {sent : Bool}
    (h : (if r.refreshing idx = true then
      (⟨r, sockets, []⟩ : Sending n σ).ensureEnhancedRefreshBorr io idx .ipv4Unicast
      else (⟨r, sockets, []⟩, true)) = (s, sent)) : Opened io r idx sockets s sent := by
  have hsame : r.Reports io idx sockets → Opened io r idx sockets ⟨r, sockets, []⟩ true := fun hr =>
    ⟨by simp, iff_of_true hr rfl, fun _ => ⟨rfl, rfl, rfl⟩⟩
  by_cases href : .ipv4Unicast ∈ (r.peerAt idx).refreshPending
  · rw [if_pos (by simpa [refreshing] using href), Sending.ensureEnhancedRefreshBorr] at h
    by_cases hborr : (r.peerAt idx).enhancedRefreshOutbound.get? .ipv4Unicast = some .needBorr
    · rw [if_neg (not_not.mpr hborr)] at h
      obtain ⟨hpassed, -, hrouter⟩ :=
        Sending.sendPdu_spec io idx (.routeRefresh ⟨.ipv4Unicast, .beginning⟩) ⟨r, sockets, []⟩
      have hiff : r.Reports io idx sockets ↔ ((⟨r, sockets, []⟩ : Sending n σ).sendPdu io idx
          (.routeRefresh ⟨.ipv4Unicast, .beginning⟩)).2 = true :=
        ⟨fun hr => hr.2 href hborr, fun hs => ⟨hest, fun _ _ => hs⟩⟩
      rcases hres : (⟨r, sockets, []⟩ : Sending n σ).sendPdu io idx
        (.routeRefresh ⟨.ipv4Unicast, .beginning⟩) with ⟨s', sent'⟩
      rw [hres] at h hpassed hrouter hiff
      have hnone : ∀ u, BgpPdu.update u ∉ s'.passed := by
        rw [show s'.passed = _ from hpassed]
        simp
      cases sent' with
      | false =>
        cases h
        exact ⟨hnone, hiff, nofun⟩
      | true =>
        cases h
        refine ⟨hnone, hiff, fun _ => ?_⟩
        rw [Sending.modifyPeer, hrouter rfl]
        exact r.differences_modifyPeer idx fun q => ⟨_, _, rfl⟩
    · rw [if_pos hborr] at h
      cases h
      exact hsame ⟨hest, fun _ hneed => absurd hneed hborr⟩
  · rw [if_neg (by simpa [refreshing] using href)] at h
    cases h
    exact hsame ⟨hest, fun hin => absurd hin href⟩

theorem mem_advertiseToPeer (r : BgpRouter n) (idx : Fin n) (sockets : σ) (u : BgpUpdateMessage) :
    BgpPdu.update u ∈ (r.advertiseToPeer io idx sockets).passed ↔ r.Reports io idx sockets ∧ r.Sent idx u := by
  unfold advertiseToPeer
  simp only
  by_cases hest : (r.peerAt idx).isEstablished = true
  · rw [if_neg (by rw [hest]; decide)]
    split
    · rename_i s heq
      obtain ⟨hno, hiff, -⟩ := opened io hest heq
      exact iff_of_false (hno u) fun h => Bool.false_ne_true (hiff.mp h.1)
    · rename_i s heq
      obtain ⟨hno, hiff, hsame⟩ := opened io hest heq
      obtain ⟨hw, hc, hwidth⟩ := hsame rfl
      rw [and_iff_right (hiff.mpr rfl), ← mem_sendDifferences io (hno u) hw hc hwidth]
      split
      · rw [passed_finish]
        rfl
      · rfl
  · rw [if_pos (by rw [Bool.not_eq_true] at hest; rw [hest]; rfl)]
    exact iff_of_false List.not_mem_nil fun h => hest h.1.1

/-- What is withdrawn fits one message, and so does every attribute set with all the prefixes announced with it. -/
structure UpdatesFit (r : BgpRouter n) (idx : Fin n) : Prop where
  withdrawn : bgpHeaderLen + 4 + ((r.withdrawals idx).map Ipv4Prefix.encodedLen).sum ≤ bgpMaxMessageLen
  announced : ∀ e ∈ r.changes idx (r.refreshing idx),
    bgpHeaderLen + 4 + (attributesFor e.2 (r.peerAt idx).fourOctetAs).encode.length +
      ((sharing (r.peerAt idx).fourOctetAs (r.changes idx (r.refreshing idx))
        (groupKey e.2 (r.peerAt idx).fourOctetAs)).map fun e => e.1.encodedLen).sum ≤ bgpMaxMessageLen

theorem received_sent_iff {r : BgpRouter n} {idx : Fin n} {u : BgpUpdateMessage} (hu : r.Sent idx u) :
    Received (r.peerAt idx).fourOctetAs (BgpPdu.update u).serialize ↔ u.frameLen ≤ bgpMaxMessageLen := by
  rw [← length_serialize_update]
  rcases hu with ⟨-, rfl⟩ | ⟨g, hg, rfl⟩
  · exact received_iff (plain_withdraw _ _)
  · obtain ⟨e, he, heq⟩ := mem_foldl_addToGroup hg
    rw [heq]
    exact received_iff (plain_announce (clusterList_changes he) _ _)

theorem frameLen_group {r : BgpRouter n} {idx : Fin n} {e : Ipv4Prefix × AdvertisedRoute}
    (he : e ∈ r.changes idx forceRefresh) {route : AdvertisedRoute} {fourOctetAs : Bool}
    (hkey : groupKey route fourOctetAs = groupKey e.2 fourOctetAs) :
    (BgpUpdateMessage.announce (attributesFor route fourOctetAs)
      ((sharing fourOctetAs (r.changes idx forceRefresh) (groupKey e.2 fourOctetAs)).map Prod.fst)).frameLen =
      bgpHeaderLen + 4 + (attributesFor e.2 fourOctetAs).encode.length +
        ((sharing fourOctetAs (r.changes idx forceRefresh) (groupKey e.2 fourOctetAs)).map fun e =>
          e.1.encodedLen).sum := by
  have hmem : e ∈ sharing fourOctetAs (r.changes idx forceRefresh) (groupKey e.2 fourOctetAs) :=
    List.mem_filter.mpr ⟨he, by simp⟩
  rw [frameLen_announce _ _ (List.ne_nil_of_mem (List.mem_map_of_mem hmem)), hkey, groupKey, List.length_map,
    List.map_map]
  rfl

/-- The peer takes every UPDATE of a pass exactly if the pass sends none, or the prefixes it withdraws fit one
message and those it announces with one attribute set do. -/
theorem advertiseToPeer_received_iff (r : BgpRouter n) (idx : Fin n) (sockets : σ) :
    (∀ u, BgpPdu.update u ∈ (r.advertiseToPeer io idx sockets).passed →
      Received (r.peerAt idx).fourOctetAs (BgpPdu.update u).serialize) ↔
    (r.Reports io idx sockets → r.UpdatesFit idx) := by
  simp only [mem_advertiseToPeer, and_imp]
  constructor
  · intro h hr
    refine ⟨?_, fun e he => ?_⟩
    · by_cases hw : r.withdrawals idx = []
      · rw [hw]
        decide
      · have hsent : r.Sent idx (.withdraw (r.withdrawals idx)) := .inl ⟨hw, rfl⟩
        exact (received_sent_iff hsent).mp (h _ hr hsent)
    · obtain ⟨route, hkey, hg⟩ := exists_group (r.peerAt idx).fourOctetAs he
      have hsent : r.Sent idx _ := .inr ⟨_, hg, rfl⟩
      rw [← frameLen_group he hkey]
      exact (received_sent_iff hsent).mp (h _ hr hsent)
  · intro h u hr hu
    obtain ⟨hwithdrawn, hannounced⟩ := h hr
    refine (received_sent_iff hu).mpr ?_
    rcases hu with ⟨-, rfl⟩ | ⟨g, hg, rfl⟩
    · exact hwithdrawn
    · obtain ⟨e, he, heq⟩ := mem_foldl_addToGroup hg
      rw [heq, frameLen_group he rfl]
      exact hannounced e he

/-! ### A table that does not fit -/

/-- A speaker of AS 65000 that originates `ps`, with one external neighbour up. -/
def originating (ps : List Ipv4Prefix) : BgpRouter 1 where
  localAs := 65000
  routerId := ⟨10, 0, 0, 1⟩
  configuredClusterId := none
  peers := #v[{ addr := ⟨10, 0, 0, 2⟩, remoteAs := 65001, localAddr := ⟨10, 0, 0, 1⟩, state := .established,
                fourOctetAs := true }]
  adjRibIn := .new
  locRib := .empty
  adjRibOut := .new
  originated := ps.foldl (fun m p => m.insert p ⟨10, 0, 0, 1⟩) .empty
  dirty := true
  decisionRuns := 0

def originatedRoute : AdvertisedRoute := ⟨.igp, .sequence [65000], ⟨10, 0, 0, 1⟩, none, none, none, []⟩

section
variable (ps : List Ipv4Prefix)

theorem get?_locRib_originating (p : Ipv4Prefix) : (originating ps).runDecisionProcess.locRib.get? p =
    if p ∈ ps then some (.originated p ⟨10, 0, 0, 1⟩ ⟨10, 0, 0, 1⟩) else none := by
  have horig : (originating ps).originated.get? p = _ :=
    SortedMap.get?_foldl_insert (fun _ => some (⟨10, 0, 0, 1⟩ : Ipv4Address)) p ps .empty
  have hcands : (originating ps).candidatesFor p = ((originating ps).localCandidate p).toList := rfl
  change (originating ps).newRib.get? p = _
  rw [get?_newRib, hcands, localCandidate, horig]
  by_cases hp : p ∈ ps
  · simp only [hp, if_true]
    rfl
  · simp only [hp, if_false]
    rfl

theorem get?_computeAdjRibOut_originating (p : Ipv4Prefix) :
    ((originating ps).runDecisionProcess.computeAdjRibOut 0).get? p =
      if p ∈ ps then some originatedRoute else none := by
  have hlocal := get?_locRib_originating ps p
  rw [PathTable.get?] at hlocal
  rw [computeAdjRibOut, SortedMap.get?_filterMap, hlocal]
  by_cases hp : p ∈ ps
  · rw [if_pos hp, if_pos hp]
    rfl
  · rw [if_neg hp, if_neg hp]
    rfl

variable {ps}

theorem passed_originating (hne : ps ≠ []) (hnd : ps.Nodup) (io : SocketRuntime σ) (sockets : σ) :
    ∃ route qs, qs.Perm ps ∧ BgpPdu.update (.announce (attributesFor route true) qs) ∈
      ((originating ps).runDecisionProcess.advertiseToPeer io 0 sockets).passed := by
  have hget := get?_computeAdjRibOut_originating ps
  have hperm : ((originating ps).runDecisionProcess.computeAdjRibOut 0).keys.Perm ps := by
    refine (List.perm_ext_iff_of_nodup (SortedMap.nodup_keys _) hnd).mpr fun p => ?_
    rw [SortedMap.mem_keys, hget]
    by_cases hp : p ∈ ps <;> simp [hp]
  -- Nothing was advertised yet and all routes share their attributes: one group holds every prefix.
  have hall : (originating ps).runDecisionProcess.changes 0 false =
      ((originating ps).runDecisionProcess.computeAdjRibOut 0).entries := List.filter_eq_self.mpr fun _ _ => rfl
  have hroute : ∀ e ∈ ((originating ps).runDecisionProcess.computeAdjRibOut 0).entries, e.2 = originatedRoute := by
    intro e he
    have h := SortedMap.get?_eq_some.mpr he
    rw [hget] at h
    split at h
    · exact (Option.some.inj h).symm
    · cases h
  obtain ⟨e, he⟩ : ∃ e, e ∈ ((originating ps).runDecisionProcess.computeAdjRibOut 0).entries := by
    refine List.exists_mem_of_ne_nil _ fun hnil => ?_
    rw [SortedMap.keys, hnil] at hperm
    exact hne hperm.symm.eq_nil
  obtain ⟨route, -, hg⟩ := exists_group true he
  have hshare : sharing true ((originating ps).runDecisionProcess.computeAdjRibOut 0).entries (groupKey e.2 true) =
      ((originating ps).runDecisionProcess.computeAdjRibOut 0).entries :=
    List.filter_eq_self.mpr fun e' he' => by rw [hroute e' he', hroute e he]; simp
  rw [hshare, ← hall] at hg
  refine ⟨route, _, hperm, (mem_advertiseToPeer io _ 0 sockets _).mpr ⟨⟨rfl, fun h => ?_⟩, .inr ⟨_, hg, ?_⟩⟩⟩
  · exact absurd h (Finset.notMem_empty _)
  · rw [hall]
    rfl

end

def hostRoute (i : Nat) : Ipv4Prefix := ⟨⟨10, 0, UInt8.ofNat (i / 256), UInt8.ofNat i⟩, 32, le_rfl, rfl⟩

theorem nodup_hostRoutes {m : Nat} (hm : m ≤ 65536) : ((List.range m).map hostRoute).Nodup := by
  refine List.Nodup.map_on (fun i hi j hj h => ?_) List.nodup_range
  rw [List.mem_range] at hi hj
  have hhigh := congrArg (fun p => p.address.c.toNat) h
  have hlow := congrArg (fun p => p.address.d.toNat) h
  simp only [hostRoute] at hhigh hlow
  rw [UInt8.toNat_ofNat', UInt8.toNat_ofNat'] at hhigh hlow
  omega

/-- A thousand host routes go into one UPDATE of more than 5000 octets, which no peer takes. -/
theorem advertiseToPeer_oversized :
    let r := (originating ((List.range 1000).map hostRoute)).runDecisionProcess
    ∀ (σ : Type) (io : SocketRuntime σ) (sockets : σ), ∃ u,
      BgpPdu.update u ∈ (r.advertiseToPeer io 0 sockets).passed ∧
      5000 < (BgpPdu.update u).serialize.length ∧ ¬ Received (r.peerAt 0).fourOctetAs
        (BgpPdu.update u).serialize := by
  intro r σ io sockets
  obtain ⟨route, qs, hperm, hpassed⟩ :=
    passed_originating (by simp) (nodup_hostRoutes (m := 1000) (by omega)) io sockets
  refine ⟨_, hpassed, ?_⟩
  have hsum : (qs.map Ipv4Prefix.encodedLen).sum = 5000 := by
    rw [(hperm.map _).sum_nat, List.map_map]
    have : Ipv4Prefix.encodedLen ∘ hostRoute = fun _ => 5 := by
      funext i
      simp [Ipv4Prefix.encodedLen, Ipv4Prefix.octetCount, hostRoute]
    rw [this, List.map_const', List.sum_replicate_nat, List.length_range]
  have hlen : 5000 < (BgpPdu.update (.announce (attributesFor route true) qs)).serialize.length := by
    rw [length_serialize_update, BgpUpdateMessage.frameLen]
    simp only [BgpUpdateMessage.announce, hsum, bgpHeaderLen]
    omega
  refine ⟨hlen, fun h => ?_⟩
  have := (received_sent_iff ((mem_advertiseToPeer io r 0 sockets _).mp hpassed).2).mp h
  rw [← length_serialize_update] at this
  unfold bgpMaxMessageLen at this
  omega

end BgpRouter
end SystemsLab.Bgp
