import Mathlib.Order.OrderIsoNat
import SystemsLab.Net.RouterSteps

/-!
# What a router hop does to the time to live

Destination NAT and the label push leave the time to live alone, and a swap leaves a top label of one or zero as it
is.
-/

namespace SystemsLab.Net

/-! ## Times to live -/

def Datagram.ttl : Datagram → UInt8
  | .ipv4 bytes => octet bytes 8
  | .mpls bytes => octet bytes 3

namespace Hop

def receivedTtl (h : Hop) : UInt8 := h.received.ttl

def sentTtl (h : Hop) : UInt8 :=
  match h.kind, h.sent with
  | .push, .mpls bytes => (Datagram.ipv4 (bytes.drop 4)).ttl
  | _, sent => sent.ttl

def ConsumesTtl (h : Hop) : Prop := 1 < h.receivedTtl ∧ h.sentTtl < h.receivedTtl

def Guarded (h : Hop) : Prop := h.kind ≠ .dnat ∧ h.kind ≠ .push ∧ (h.kind = .swap → 1 < h.receivedTtl)

instance (h : Hop) : Decidable h.ConsumesTtl := inferInstanceAs (Decidable (_ ∧ _))

instance (h : Hop) : Decidable h.Guarded := inferInstanceAs (Decidable (_ ∧ _ ∧ _))

end Hop

namespace LabRouter
variable {σ : Type} {cp : ControlPlane σ} {r : LabRouter σ} {ingress : RouterInterface}
  {eth : EthernetFrame} {h : Hop}

theorem sub_one_lt {x : UInt8} (h : 1 < x) : x - 1 < x := by
  rw [UInt8.lt_iff_toNat_lt] at h ⊢
  rw [UInt8.toNat_sub_of_le _ _ (UInt8.le_iff_toNat_le.mpr h.le)]
  have : (1 : UInt8).toNat = 1 := rfl
  omega

theorem swap_ttl {top : MplsHeader} {labels : List MplsHeader} {inner payload : List UInt8} {label : Nat}
    (hparse : MplsPacket.parse payload = .ok ⟨top :: labels, inner⟩) :
    octet (MplsPacket.mk (swapLabel label top :: labels) inner).serialize 3 =
      if 1 < octet payload 3 then octet payload 3 - 1 else octet payload 3 := by
  obtain ⟨top', rest, hlabels, httl⟩ := MplsPacket.ttl_of_parse hparse
  cases hlabels
  rw [MplsPacket.octet_serialize, ← httl]
  rfl

theorem push_payload (label : Nat) (payload : List UInt8) :
    (MplsPacket.mk [MplsHeader.new label 0 true 64] payload).serialize.drop 4 = payload := by
  rw [MplsPacket.serialize, MplsPacket.serializeLabels]
  exact List.drop_left' rfl

theorem HopOf.consumesTtl_iff (hh : HopOf cp r ingress eth h) (hpop : h.kind ≠ .pop) :
    h.ConsumesTtl ↔ h.Guarded := by
  cases hh with
  | @transit p forwarded sent hin hdecrement hsent =>
    have hreads := Ipv4Packet.reads_of_parse hin.parse
    obtain ⟨hgt, hdec, -, -⟩ := Ipv4Packet.decrementTtlInPlace_eq_some hdecrement
    rw [octet_take hreads.totalLength_gt] at hgt hdec
    have hsentTtl : octet sent 8 = octet eth.payload 8 - 1 := (hsent.2 8 (by decide)).trans hdec
    refine ⟨fun _ => ⟨nofun, nofun, nofun⟩, fun _ => ⟨hgt, ?_⟩⟩
    change octet sent 8 < octet eth.payload 8
    exact hsentTtl ▸ sub_one_lt hgt
  | @dnat p sent way hin htarget =>
    refine ⟨fun hc => ?_, fun hg => absurd rfl hg.1⟩
    obtain ⟨nat, _, -, hbuf, -⟩ := dnatTarget_eq_some htarget
    have hsent := NatTable.translateInbound_sameHead (Ipv4Packet.reads_of_parse hin.parse).five_le hbuf
    have hlt : octet sent 8 < octet eth.payload 8 := hc.2
    rw [hsent.2 8 (by decide)] at hlt
    exact absurd hlt (UInt8.lt_irrefl _)
  | @push p label egress hin httl hroute =>
    refine ⟨fun hc => ?_, fun hg => absurd rfl hg.2.1⟩
    have hlt : octet ((MplsPacket.mk [MplsHeader.new label 0 true 64] eth.payload).serialize.drop 4) 8 <
        octet eth.payload 8 := hc.2
    rw [push_payload] at hlt
    exact absurd hlt (UInt8.lt_irrefl _)
  | @swap top labels inner lfib label name egress htype hparse =>
    refine ⟨fun hc => ⟨nofun, nofun, fun _ => hc.1⟩, fun hg => ?_⟩
    have hgt : 1 < octet eth.payload 3 := hg.2.2 rfl
    refine ⟨hgt, ?_⟩
    change octet _ 3 < octet eth.payload 3
    rw [swap_ttl hparse, if_pos hgt]
    exact sub_one_lt hgt
  | pop htype => exact absurd rfl hpop

/-- The frame is forwarded without regard to its time to live: after destination NAT, with a label pushed on it, or
with its label swapped although its time to live is used up. -/
inductive Exempt (cp : ControlPlane σ) (r : LabRouter σ) (ingress : RouterInterface) (eth : EthernetFrame) : Prop
  | dnat {p : Ipv4Packet} (hin : Ipv4Input cp r ingress eth p true)
      (htarget : (r.dnatTarget ingress eth.payload).isSome)
  | push {p : Ipv4Packet} (hin : Ipv4Input cp r ingress eth p false) (httl : 1 < p.header.ttl)
      (hroute : (r.pushRoute p.header.dstIp).isSome)
  | swap {top : MplsHeader} {labels : List MplsHeader} {inner : List UInt8} {lfib : LfibTable} {label : Nat}
      {name : String}
      (htype : eth.ethertype = .mpls) (hparse : MplsPacket.parse eth.payload = .ok ⟨top :: labels, inner⟩)
      (hlfib : r.lfib = some lfib) (hswap : lfib.lookup top.label = some (.swap label name))
      (hegress : (r.interfaceNamed name).isSome) (httl : top.ttl ≤ 1)

theorem HopOf.exempt (hh : HopOf cp r ingress eth h) (hg : ¬ h.Guarded) : Exempt cp r ingress eth := by
  cases hh with
  | transit | pop => exact absurd ⟨nofun, nofun, nofun⟩ hg
  | dnat hin htarget => exact .dnat hin (by rw [htarget]; rfl)
  | push hin httl hroute => exact .push hin httl (by rw [hroute]; rfl)
  | swap htype hparse hlfib hswap hegress =>
    refine .swap htype hparse hlfib hswap (by rw [hegress]; rfl)
      (UInt8.not_lt.mp fun hlt => hg ⟨nofun, nofun, fun _ => ?_⟩)
    obtain ⟨_, _, hlabels, httl⟩ := MplsPacket.ttl_of_parse hparse
    cases hlabels
    change 1 < octet eth.payload 3
    rwa [← httl]

theorem Ipv4Input.processIncomingFrame {ingressLink : String} {rawFrame : List UInt8} {p : Ipv4Packet}
    {isLocal : Bool}
    (h : Ipv4Input cp r ingress eth p isLocal) (hlink : r.linkInput cp ingressLink rawFrame = some (ingress, eth)) :
    r.processIncomingFrame cp ingressLink rawFrame =
      if isLocal then (r.learnArp ingress.name p.header.srcIp eth.srcMac).receiveLocal cp ingress ingressLink eth p
      else (r.learnArp ingress.name p.header.srcIp eth.srcMac).forwardTransit ingress ingressLink eth p := by
  rw [processIncomingFrame_ipv4 (ipv4Input_eq_some.mpr ⟨hlink, h.ethertype, h.parse, h.admitted⟩)]
  exact Ipv4Input.dispatchIpv4 ⟨h.ethertype, h.parse, h.admitted, h.udp, h.isLocal_eq⟩

theorem Exempt.hop {ingressLink : String} {rawFrame : List UInt8} (he : Exempt cp r ingress eth)
    (hlink : r.linkInput cp ingressLink rawFrame = some (ingress, eth)) :
    ∃ h ∈ (r.processIncomingFrame cp ingressLink rawFrame).2.hops, ¬ h.Guarded := by
  cases he with
  | @dnat p hin htarget =>
    obtain ⟨⟨sent, way⟩, hsome⟩ := Option.isSome_iff_exists.mp htarget
    refine ⟨⟨.dnat, .ipv4 eth.payload, .ipv4 sent⟩, ?_, fun hg => hg.1 rfl⟩
    rw [hin.processIncomingFrame hlink, if_pos rfl, receiveLocal,
      show (r.learnArp ingress.name p.header.srcIp eth.srcMac).dnatTarget ingress eth.payload =
        some (sent, way) from hsome]
    exact List.mem_singleton_self _
  | @push p hin httl hroute =>
    obtain ⟨⟨label, egress⟩, hsome⟩ := Option.isSome_iff_exists.mp hroute
    refine ⟨⟨.push, .ipv4 eth.payload,
      .mpls (MplsPacket.mk [MplsHeader.new label 0 true 64] eth.payload).serialize⟩, ?_,
      fun hg => hg.2.1 rfl⟩
    rw [hin.processIncomingFrame hlink, if_neg Bool.false_ne_true, forwardTransit, if_neg (UInt8.not_le.mpr httl)]
    have hpush : (r.learnArp ingress.name p.header.srcIp eth.srcMac).pushRoute p.header.dstIp =
        some (label, egress) := hsome
    rw [pushRoute] at hpush
    rw [hpush]
    exact List.mem_singleton_self _
  | @swap top labels inner lfib label name htype hparse hlfib hswap hegress httl =>
    obtain ⟨egress, hsome⟩ := Option.isSome_iff_exists.mp hegress
    refine ⟨⟨.swap, .mpls eth.payload, .mpls (MplsPacket.mk (swapLabel label top :: labels) inner).serialize⟩, ?_,
      fun hg => ?_⟩
    · simp only [processIncomingFrame_mpls hlink htype, receiveMpls, hparse, hlfib, hswap, hsome,
        List.mem_singleton]
    · obtain ⟨_, _, hlabels, hoctet⟩ := MplsPacket.ttl_of_parse hparse
      cases hlabels
      have hlt : 1 < octet eth.payload 3 := hg.2.2 rfl
      rw [← hoctet] at hlt
      exact UInt8.not_le.mpr hlt httl

end LabRouter

/-! ## Journeys -/

structure Visit : Type 1 where
  State : Type
  control : ControlPlane State
  router : LabRouter State
  ingressLink : String
  frame : List UInt8

namespace Visit
variable (v : Visit)

def result : LabRouter v.State × Effects := v.router.processIncomingFrame v.control v.ingressLink v.frame

def hops : List Hop := v.result.2.hops

/-- The hops are what is sent or queued on behalf of the frame, besides packets of the router's own and the packets
that were queued before. -/
structure Accounted : Prop where
  leaves : ∀ h ∈ v.hops, LabRouter.Leaves h v.result
  emitted : ∀ em ∈ v.result.2.out, LabRouter.OwnOr v.hops em.origin ∧ em.Faithful ∨
    ∃ q, v.router.Queues q ∧ em.origin = q.origin ∧ Carries em.frame (.ipv4 q.packet)
  queued : ∀ q, v.result.1.Queues q → LabRouter.OwnOr v.hops q.origin ∧ q.Faithful ∨ v.router.Queues q

theorem accounted : v.Accounted := by
  obtain ⟨hhops, hsends⟩ := LabRouter.processIncomingFrame_handles v.control v.router v.ingressLink v.frame
  have hleaves : ∀ h ∈ v.hops, LabRouter.Leaves h v.result := fun h hh => by
    obtain ⟨_, _, -, -, hleaves⟩ := hhops h hh
    exact hleaves
  cases hrip : v.router.ripInput v.control v.ingressLink v.frame with
  | none =>
    have h := hsends hrip
    exact ⟨hleaves, h.emitted, h.queued⟩
  | some input =>
    -- RIP keeps what it hears and sends nothing.
    obtain ⟨_, _, _, -, hresult⟩ := LabRouter.processIncomingFrame_rip hrip
    refine ⟨hleaves, fun em hem => ?_, fun q hq => .inr ?_⟩
    · rw [result, hresult] at hem
      cases hem
    · rw [result, hresult] at hq
      exact hq

def Exempt : Prop := ∃ ingress eth, v.router.linkInput v.control v.ingressLink v.frame = some (ingress, eth) ∧
  LabRouter.Exempt v.control v.router ingress eth

theorem exempt_iff : v.Exempt ↔ ∃ h ∈ v.hops, ¬ h.Guarded := by
  constructor
  · rintro ⟨ingress, eth, hlink, he⟩
    exact he.hop hlink
  · rintro ⟨h, hh, hg⟩
    obtain ⟨ingress, eth, hlink, hop, -⟩ := (LabRouter.processIncomingFrame_handles _ _ _ _).1 h hh
    exact ⟨ingress, eth, hlink, hop.exempt hg⟩

end Visit

/-- A packet forwarded again and again, by routers in any state. -/
structure Journey : Type 1 where
  visit : ℕ → Visit
  hop : ℕ → Hop
  taken : ∀ n, hop n ∈ (visit n).hops
  carried : ∀ n, Carries (visit (n + 1)).frame (hop n).sent

def Datagram.rank : Datagram → Nat
  | .ipv4 bytes => (Datagram.ipv4 bytes).ttl.toNat
  | .mpls bytes => 256 + (Datagram.mpls bytes).ttl.toNat

namespace LabRouter
variable {σ : Type} {cp : ControlPlane σ} {r : LabRouter σ} {ingress : RouterInterface}
  {eth : EthernetFrame} {h : Hop}

theorem HopOf.received_eq {frame : List UInt8} {d : Datagram} (hh : HopOf cp r ingress eth h)
    (heth : EthernetFrame.parse frame = .ok eth)
    (hcarries : Carries frame d) : h.received = d := by
  cases d with
  | ipv4 bytes =>
    obtain ⟨dst, src, rfl⟩ := hcarries
    rw [EthernetFrame.parse_serialize] at heth
    cases heth
    cases hh with
    | transit | dnat | push => rfl
    | swap htype | pop htype => cases htype
  | mpls bytes =>
    obtain ⟨dst, src, rfl⟩ := hcarries
    rw [EthernetFrame.parse_serialize] at heth
    cases heth
    cases hh with
    | transit hin | dnat hin | push hin => cases hin.ethertype
    | swap | pop => rfl

theorem HopOf.rank_lt (hh : HopOf cp r ingress eth h) (hg : h.Guarded) : h.sent.rank < h.received.rank := by
  by_cases hpop : h.kind = .pop
  · cases hh with
    | @pop inner htype =>
      have := (octet inner 8).toNat_lt
      change (octet inner 8).toNat < 256 + _
      omega
    | transit | dnat | push | swap => cases hpop
  · have hlt := ((hh.consumesTtl_iff hpop).mpr hg).2
    rw [UInt8.lt_iff_toNat_lt] at hlt
    cases hh with
    | transit => exact hlt
    | dnat => exact absurd rfl hg.1
    | push => exact absurd rfl hg.2.1
    | swap => exact Nat.add_lt_add_left hlt 256
    | pop => exact absurd rfl hpop

end LabRouter

namespace Journey
variable (j : Journey)

theorem hopOf (n : ℕ) : ∃ ingress eth, EthernetFrame.parse (j.visit n).frame = .ok eth ∧
    LabRouter.HopOf (j.visit n).control (j.visit n).router ingress eth (j.hop n) := by
  obtain ⟨ingress, eth, hlink, hh, -⟩ := (LabRouter.processIncomingFrame_handles _ _ _ _).1 _ (j.taken n)
  exact ⟨ingress, eth, LabRouter.parse_of_linkInput hlink, hh⟩

theorem received_succ (n : ℕ) : (j.hop (n + 1)).received = (j.hop n).sent := by
  obtain ⟨_, eth, heth, hh⟩ := j.hopOf (n + 1)
  exact hh.received_eq heth (j.carried n)

theorem exists_unguarded (N : ℕ) : ∃ n ≥ N, ¬ (j.hop n).Guarded := by
  by_contra hall
  push Not at hall
  refine not_strictAnti_of_wellFoundedLT (fun n => (j.hop (N + n)).received.rank)
    (strictAnti_nat_of_succ_lt fun n => ?_)
  obtain ⟨_, eth, -, hh⟩ := j.hopOf (N + n)
  change (j.hop (N + n + 1)).received.rank < _
  rw [j.received_succ]
  exact hh.rank_lt (hall _ (Nat.le_add_right N n))

end Journey

/-- The packets that leave on behalf of a frame, pops apart, consume time to live if and only if the frame is not
exempt, and a packet that is forwarded forever is exempt again and again. -/
theorem hops_consume_ttl (v : Visit) :
    v.Accounted ∧ ((∀ h ∈ v.hops, h.kind ≠ .pop → h.ConsumesTtl) ↔ ¬ v.Exempt) ∧
      ∀ (j : Journey) (N : ℕ), ∃ n ≥ N, (j.visit n).Exempt := by
  refine ⟨v.accounted, ?_, fun j N => ?_⟩
  · rw [v.exempt_iff]
    push Not
    refine forall₂_congr fun h hh => ?_
    obtain ⟨_, _, -, hop, -⟩ := (LabRouter.processIncomingFrame_handles _ _ _ _).1 h hh
    by_cases hpop : h.kind = .pop
    · have hguarded : h.Guarded := by simp [Hop.Guarded, hpop]
      exact ⟨fun _ => hguarded, fun _ hne => absurd hpop hne⟩
    · rw [← hop.consumesTtl_iff hpop]
      exact ⟨fun hc => hc hpop, fun hc _ => hc⟩
  · obtain ⟨n, hn, hg⟩ := j.exists_unguarded N
    exact ⟨n, hn, (j.visit n).exempt_iff.mpr ⟨_, j.taken n, hg⟩⟩

/-- A top label with a time to live of one goes round between two routers. -/
def labelLoop : Bool → Visit
  | false =>
    ⟨Unit, .idle,
      (((LabRouter.new ()).addInterface "in" ⟨2, 0, 0, 0, 0, 1⟩ ⟨10, 0, 0, 1⟩ 24 "ba").addInterface "out"
      ⟨2, 0, 0, 0, 0, 2⟩ ⟨10, 0, 1, 1⟩ 24 "ab").addMplsSwapRoute 1000 1001 "out", "ba",
      EthernetFrame.serialize .broadcast ⟨2, 0, 0, 0, 0, 4⟩ ethertypeMpls [0x00, 0x3E, 0x81, 0x01]⟩
  | true =>
    ⟨Unit, .idle,
      (((LabRouter.new ()).addInterface "in" ⟨2, 0, 0, 0, 0, 3⟩ ⟨10, 0, 1, 2⟩ 24 "ab").addInterface "out"
      ⟨2, 0, 0, 0, 0, 4⟩ ⟨10, 0, 0, 2⟩ 24 "ba").addMplsSwapRoute 1001 1000 "out", "ab",
      EthernetFrame.serialize .broadcast ⟨2, 0, 0, 0, 0, 2⟩ ethertypeMpls [0x00, 0x3E, 0x91, 0x01]⟩

def labelLoopHop : Bool → Hop
  | false => ⟨.swap, .mpls [0x00, 0x3E, 0x81, 0x01], .mpls [0x00, 0x3E, 0x91, 0x01]⟩
  | true => ⟨.swap, .mpls [0x00, 0x3E, 0x91, 0x01], .mpls [0x00, 0x3E, 0x81, 0x01]⟩

theorem labelLoop_hops (b : Bool) : (labelLoop b).hops = [labelLoopHop b] := by
  cases b <;> decide +kernel

def dnatVisit : Visit where
  State := Unit
  control := .idle
  router :=
    (((LabRouter.new ()).addInterface "lan" ⟨2, 0, 0, 0, 0, 1⟩ ⟨192, 168, 1, 1⟩ 24 "home").addInterface "wan"
    ⟨2, 0, 0, 0, 0, 2⟩ ⟨203, 0, 113, 1⟩ 24 "internet").enableNat "lan" "wan" ⟨203, 0, 113, 1⟩ |>.addPortForward 8080
      ⟨192, 168, 1, 10⟩ 80 17
  ingressLink := "internet"
  frame := EthernetFrame.serialize ⟨2, 0, 0, 0, 0, 2⟩ ⟨2, 0, 0, 0, 0, 9⟩ ethertypeIpv4
    (Ipv4Packet.serialize ⟨198, 51, 100, 7⟩ ⟨203, 0, 113, 1⟩ 17 1 1
      (UdpDatagram.serialize ⟨198, 51, 100, 7⟩ ⟨203, 0, 113, 1⟩ 5000 8080 [42]))

theorem hops_keep_ttl :
    (∃ j : Journey, ∀ n, (j.hop n).kind = .swap ∧ (j.hop n).receivedTtl = 1 ∧ (j.hop n).sentTtl = 1) ∧
      ∃ h ∈ dnatVisit.hops, h.kind = .dnat ∧ h.receivedTtl = 1 ∧ h.sentTtl = 1 := by
  refine ⟨⟨⟨fun n => labelLoop n.bodd, fun n => labelLoopHop n.bodd, fun n => ?_, fun n => ?_⟩, fun n => ?_⟩, ?_⟩
  · rw [labelLoop_hops]
    exact List.mem_singleton_self _
  · rw [Nat.bodd_succ]
    cases n.bodd
    · exact ⟨.broadcast, ⟨2, 0, 0, 0, 0, 2⟩, rfl⟩
    · exact ⟨.broadcast, ⟨2, 0, 0, 0, 0, 4⟩, rfl⟩
  · have hloop : ∀ b, (labelLoopHop b).kind = .swap ∧ (labelLoopHop b).receivedTtl = 1 ∧
        (labelLoopHop b).sentTtl = 1 := by decide
    exact hloop n.bodd
  · decide +kernel

end SystemsLab.Net
