import SystemsLab.Lib.Along
import SystemsLab.Net.Link

/-!
# The DHCP server

The server takes an address that the client names as it is, and at the end of its pool gives the last address to
everyone.
-/

namespace SystemsLab.Net

inductive DhcpMessageType
  | discover
  | offer
  | request
  | ack
  | nak
  | release
  | unknown (code : UInt8)

structure DhcpPacket where
  op : UInt8
  xid : UInt32
  ciaddr : Ipv4Address
  yiaddr : Ipv4Address
  siaddr : Ipv4Address
  chaddr : MacAddress
  msgType : DhcpMessageType
  subnetMask : Option Ipv4Address
  router : Option Ipv4Address
  dns : Option Ipv4Address
  serverId : Option Ipv4Address
  leaseTime : Option UInt32

structure DhcpServer where
  serverIp : Ipv4Address
  subnetMask : Ipv4Address
  router : Ipv4Address
  dns : Ipv4Address
  startIp : Ipv4Address
  endIp : Ipv4Address
  nextAllocU32 : BitVec 32
  leaseTimeSecs : UInt32
  leases : MacAddress → Option Ipv4Address
  next_mem : startIp.toU32 ≤ nextAllocU32 ∧ nextAllocU32 ≤ endIp.toU32

namespace DhcpServer

def new (serverIp subnetMask router dns startIp endIp : Ipv4Address) (leaseTimeSecs : UInt32)
    (hpool : startIp.toU32 ≤ endIp.toU32) : DhcpServer :=
  ⟨serverIp, subnetMask, router, dns, startIp, endIp, startIp.toU32, leaseTimeSecs, fun _ => none,
    BitVec.le_refl _, hpool⟩

variable (s : DhcpServer) (mac : MacAddress) (pkt : DhcpPacket)

def buildReply (msgType : DhcpMessageType) (ip : Ipv4Address) : DhcpPacket :=
  ⟨2, pkt.xid, .unspecified, ip, s.serverIp, pkt.chaddr, msgType, some s.subnetMask, some s.router, some s.dns,
    some s.serverIp, some s.leaseTimeSecs⟩

def buildOffer : Ipv4Address → DhcpPacket := s.buildReply pkt .offer

def buildAck : Ipv4Address → DhcpPacket := s.buildReply pkt .ack

def nextAlloc : BitVec 32 := if s.nextAllocU32 < s.endIp.toU32 then s.nextAllocU32 + 1 else s.nextAllocU32

theorem nextAlloc_mem : s.startIp.toU32 ≤ s.nextAlloc ∧ s.nextAlloc ≤ s.endIp.toU32 := by
  have := s.next_mem
  unfold nextAlloc
  split <;> bv_omega

def allocateIp : DhcpServer × Ipv4Address :=
  match s.leases mac with
  | some existing => (s, existing)
  | none =>
    let allocated := .fromU32 s.nextAllocU32
    ({ s with
      nextAllocU32 := s.nextAlloc
      next_mem := s.nextAlloc_mem
      leases := Function.update s.leases mac (some allocated) }, allocated)

def handlePacket : DhcpServer × Option DhcpPacket :=
  match pkt.msgType with
  | .discover =>
    let offered := s.allocateIp pkt.chaddr
    (offered.1, some (s.buildOffer pkt offered.2))
  | .request =>
    let assigned := if pkt.yiaddr ≠ .unspecified then (s, pkt.yiaddr) else s.allocateIp pkt.chaddr
    ({ assigned.1 with leases := Function.update assigned.1.leases pkt.chaddr (some assigned.2) },
      some (s.buildAck pkt assigned.2))
  | _ => (s, none)

def InPool (ip : Ipv4Address) : Prop := s.startIp.toU32 ≤ ip.toU32 ∧ ip.toU32 ≤ s.endIp.toU32

/-- In the pool, and leased to nobody but `mac`. -/
def Free (ip : Ipv4Address) : Prop := s.InPool ip ∧ ∀ other, s.leases other = some ip → other = mac

def Sound : Prop := ∀ mac ip, s.leases mac = some ip → s.Free mac ip

/-- A client without a lease is given the next address. -/
def Allocates : Prop := s.leases mac = none → s.Free mac (.fromU32 s.nextAllocU32)

/-- What the client is given is free. -/
def Serves : Prop :=
  match pkt.msgType with
  | .discover => s.Allocates pkt.chaddr
  | .request => if pkt.yiaddr ≠ .unspecified then s.Free pkt.chaddr pkt.yiaddr else s.Allocates pkt.chaddr
  | _ => True

/-- The leases are sound afterwards, and so is the address in the reply. -/
def Answers : Prop :=
  (s.handlePacket pkt).1.Sound ∧ ∀ r ∈ (s.handlePacket pkt).2, (s.handlePacket pkt).1.Free pkt.chaddr r.yiaddr

variable {s mac pkt}

theorem sound_update_iff (hs : s.Sound) {t : DhcpServer} {ip : Ipv4Address} (hpool : t.InPool = s.InPool)
    (hl : t.leases = Function.update s.leases mac (some ip)) : t.Sound ↔ s.Free mac ip := by
  have hself : t.leases mac = some ip := by rw [hl, Function.update_self]
  have hother : ∀ other ≠ mac, t.leases other = s.leases other := fun other h => by rw [hl, Function.update_of_ne h]
  unfold Sound Free at *
  rw [hpool]
  refine ⟨fun h => ⟨(h mac ip hself).1, fun other ho => ?_⟩, fun h m i hm => ?_⟩
  · by_contra hne
    exact hne ((h mac ip hself).2 other (hother other hne ▸ ho))
  · grind +splitImp

theorem allocateIp_spec (hs : s.Sound) (mac : MacAddress) :
    ((s.allocateIp mac).1.Sound ↔ s.Allocates mac) ∧
      (s.allocateIp mac).1.leases mac = some (s.allocateIp mac).2 := by
  unfold allocateIp Allocates
  cases hl : s.leases mac with
  | some ip => simp [hs, hl]
  | none =>
    rw [imp_iff_right rfl]
    exact ⟨sound_update_iff hs rfl rfl, Function.update_self ..⟩

theorem handlePacket_spec (hs : s.Sound) (pkt : DhcpPacket) : ((s.handlePacket pkt).1.Sound ↔ s.Serves pkt) ∧
    ∀ r ∈ (s.handlePacket pkt).2, (s.handlePacket pkt).1.leases pkt.chaddr = some r.yiaddr := by
  obtain ⟨hsound, hl⟩ := allocateIp_spec hs pkt.chaddr
  unfold Serves handlePacket
  cases pkt.msgType with
  | discover => exact ⟨hsound, by simpa [buildOffer, buildReply] using hl⟩
  | request =>
    refine ⟨?_, by simp [buildAck, buildReply]⟩
    dsimp only
    split
    · exact sound_update_iff hs rfl rfl
    · rw [← hl, Function.update_eq_self]
      exact hsound
  | _ => simpa using hs

/-- Leases are unique and in the pool, like the addresses in the replies, if and only if each client is given an
address that is free. -/
theorem leases_unique_iff {serverIp subnetMask router dns startIp endIp : Ipv4Address} {leaseTimeSecs : UInt32}
    (hpool : startIp.toU32 ≤ endIp.toU32) (pkts : List DhcpPacket) :
    let s := new serverIp subnetMask router dns startIp endIp leaseTimeSecs hpool
    Along (fun s pkt => (handlePacket s pkt).1) Answers s pkts ↔
      Along (fun s pkt => (handlePacket s pkt).1) Serves s pkts := by
  intro s
  have hs : s.Sound := fun _ _ h => nomatch h
  refine ⟨fun h => h.of_inv (fun s pkt hs h => ?_) hs, fun h => h.of_inv (fun s pkt hs h => ?_) hs⟩
  · exact ⟨(handlePacket_spec hs pkt).1.mp h.1, h.1⟩
  · obtain ⟨hsound, hl⟩ := handlePacket_spec hs pkt
    exact ⟨⟨hsound.mpr h, fun r hr => hsound.mpr h _ _ (hl r hr)⟩, hsound.mpr h⟩

def onePool : DhcpServer :=
  new ⟨10, 0, 0, 1⟩ ⟨255, 255, 255, 0⟩ ⟨10, 0, 0, 1⟩ ⟨10, 0, 0, 1⟩ ⟨10, 0, 0, 9⟩ ⟨10, 0, 0, 9⟩ 3600
    (BitVec.le_refl _)

def discover (mac : MacAddress) : DhcpPacket :=
  ⟨1, 0, .unspecified, .unspecified, .unspecified, mac, .discover, none, none, none, none, none⟩

/-- Two clients take the two addresses of a pool, and one of them asks for its own by name. -/
theorem leases_unique_twoPool :
    let twoPool := new ⟨10, 0, 0, 1⟩ ⟨255, 255, 255, 0⟩ ⟨10, 0, 0, 1⟩ ⟨10, 0, 0, 1⟩ ⟨10, 0, 0, 8⟩ ⟨10, 0, 0, 9⟩ 3600
      (by decide)
    let pkts := [discover ⟨2, 0, 0, 0, 0, 1⟩, discover ⟨2, 0, 0, 0, 0, 2⟩,
      { discover ⟨2, 0, 0, 0, 0, 1⟩ with msgType := .request, yiaddr := ⟨10, 0, 0, 8⟩ }]
    Along (fun s pkt => (handlePacket s pkt).1) Answers twoPool pkts ∧
      let s := pkts.foldl (fun s pkt => (handlePacket s pkt).1) twoPool
      s.leases ⟨2, 0, 0, 0, 0, 1⟩ = some ⟨10, 0, 0, 8⟩ ∧ s.leases ⟨2, 0, 0, 0, 0, 2⟩ = some ⟨10, 0, 0, 9⟩ := by
  intro twoPool pkts
  refine ⟨(leases_unique_iff (by decide) _).mpr ⟨fun _ => ⟨⟨by decide, by decide⟩, nofun⟩,
    fun _ => ⟨⟨by decide, by decide⟩, fun other ho => ?_⟩, ⟨⟨by decide, by decide⟩, fun other ho => ?_⟩, trivial⟩,
    by decide⟩
  · change Function.update _ _ _ other = _ at ho
    rw [Function.update_apply] at ho
    split at ho <;> cases ho
  · change Function.update (Function.update _ _ _) _ _ other = _ at ho
    rw [Function.update_apply, Function.update_apply] at ho
    split at ho
    · cases ho
    · split at ho <;> cases ho
      assumption

theorem address_leased_twice :
    let s := ((onePool.handlePacket (discover ⟨2, 0, 0, 0, 0, 1⟩)).1.handlePacket (discover ⟨2, 0, 0, 0, 0, 2⟩)).1
    s.leases ⟨2, 0, 0, 0, 0, 1⟩ = some ⟨10, 0, 0, 9⟩ ∧ s.leases ⟨2, 0, 0, 0, 0, 2⟩ = some ⟨10, 0, 0, 9⟩ := by decide

end DhcpServer
end SystemsLab.Net
