import SystemsLab.Lib.Along
import SystemsLab.Net.NetStack

/-!
# What ARP and IPv4 frames do to the host

Whatever passes the filters binds its sender's address in the ARP table, over a static entry too, and a fragment
goes to the transport code like a whole datagram.
-/

namespace SystemsLab.Net

namespace ArpTable

/-- Static entries stay, and none appears that no host can have. -/
def Kept (t t' : ArpTable) : Prop :=
  ∀ ip mac, (t ip = some (mac, .static) → t' ip = some (mac, .static)) ∧
    (t'.lookup ip = some mac → ip = .unspecified ∨ mac = .zero ∨ mac.isUnicast = false → t.lookup ip = some mac)

def Harmless (t : ArpTable) (ip : Ipv4Address) (mac : MacAddress) : Prop :=
  (∀ m, t ip ≠ some (m, .static)) ∧
    (ip = .unspecified ∨ mac = .zero ∨ mac.isUnicast = false → t.lookup ip = some mac)

@[simp] theorem kept_insert_iff (t : ArpTable) (ip : Ipv4Address) (mac : MacAddress) :
    t.Kept (t.insert ip mac) ↔ t.Harmless ip mac := by
  have hself : t.insert ip mac ip = some (mac, .dynamic) := Function.update_self ..
  have hother : ∀ i ≠ ip, t.insert ip mac i = t i := fun i hi => Function.update_of_ne hi ..
  refine ⟨fun h => ⟨fun m hm => ?_, (h ip mac).2 (by simp [lookup, hself])⟩, fun h i m => ?_⟩
  · simpa [hself] using (h ip m).1 hm
  · by_cases hi : i = ip
    · subst hi
      refine ⟨fun hm => absurd hm (h.1 m), fun hm => ?_⟩
      obtain rfl : mac = m := by simpa [lookup, hself] using hm
      exact h.2
    · rw [lookup, lookup, hother i hi]
      exact ⟨id, fun hm _ => hm⟩

@[simp] theorem kept_refl (t : ArpTable) : t.Kept t := fun _ _ => ⟨id, fun h _ => h⟩

end ArpTable

def NotIpv6 (frame : List UInt8) : Prop := ∀ eth, EthernetFrame.parse frame = .ok eth → eth.ethertype ≠ .ipv6

/-- Neither the first nor a later fragment of a datagram. -/
def Ipv4Packet.Whole (p : Ipv4Packet) : Prop := p.header.fragmentOffset = 0 ∧ p.header.moreFragments = false

def Delivery.Whole (d : Delivery) : Prop := ∀ p, Ipv4Packet.parse d.packet true = .ok p → p.Whole

namespace NetStack
variable {τ : Type} (w : RouteWalk) (tr : Transport τ) (s : NetStack τ)

/-- What `process_frame` acts on once the filters have let it in. -/
inductive Taken
  | arp (arp : ArpPacket)
  | ipv4 (srcMac : MacAddress) (p : Ipv4Packet)

def Taken.binding : Taken → Ipv4Address × MacAddress
  | arp p => (p.senderIp, p.senderMac)
  | ipv4 srcMac p => (p.header.srcIp, srcMac)

def taken (frame : List UInt8) : Option Taken :=
  match EthernetFrame.parse frame with
  | .error _ => none
  | .ok eth =>
    if s.takesFrame eth then
      match eth.ethertype with
      | .arp => (ArpPacket.parse eth.payload).toOption.map .arp
      | .ipv4 =>
        match Ipv4Packet.parse eth.payload true with
        | .ok p => if s.firewall.evaluate .input p = .accept then some (.ipv4 eth.srcMac p) else none
        | .error _ => none
      | _ => none
    else none

def Addressed (p : Ipv4Packet) : Prop :=
  ¬ (p.header.dstIp ≠ s.config.ip ∧ ¬ isBroadcastIp p.header.dstIp) ∧ ∀ n, p.header.protocol ≠ .other n

theorem arpTable_sendAll {α : Type} {send : NetStack τ → α → NetStack τ × List Emission}
    (h : ∀ s a, (send s a).1.arpTable = s.arpTable) (s : NetStack τ) (l : List α) :
    (sendAll send s l).1.arpTable = s.arpTable := by
  induction l generalizing s with
  | nil => rfl
  | cons a l ih => exact (ih _).trans (h s a)

theorem arpTable_receiveLocal (srcMac : MacAddress) (bytes : List UInt8) (p : Ipv4Packet) :
    (s.receiveLocal tr srcMac bytes p).state.arpTable = s.arpTable := by
  unfold receiveLocal
  cases p.header.protocol with
  | icmp =>
    dsimp only [receiveIcmp]
    split
    · rfl
    · split <;> rfl
  | udp =>
    dsimp only [receiveUdp]
    split
    · rfl
    · dsimp only [dispatchUdp, serveDhcp]
      split <;> split <;> (try split) <;> rfl
  | tcp => exact arpTable_sendAll (fun _ _ => rfl) _ _
  | other n => rfl

theorem receiveIpv4_spec {eth : EthernetFrame} {p : Ipv4Packet} (hp : Ipv4Packet.parse eth.payload true = .ok p)
    (hfw : s.firewall.evaluate .input p = .accept) :
    (s.receiveIpv4 tr eth).state.arpTable = s.arpTable.insert p.header.srcIp eth.srcMac ∧
      ((∀ d ∈ (s.receiveIpv4 tr eth).delivered, d.Whole) ↔ (s.Addressed p → p.Whole)) := by
  rw [receiveIpv4, hp]
  dsimp only
  rw [if_neg (not_not.mpr hfw), Addressed]
  split
  · rename_i h
    exact ⟨rfl, by simp [h]⟩
  · rename_i h
    refine ⟨arpTable_receiveLocal _ _ _ _ _, ?_⟩
    rw [receiveLocal, and_iff_right h]
    cases p.header.protocol <;> simp [Delivery.Whole, hp]

def afterFrame (frame : List UInt8) : NetStack τ := (s.processFrame w tr frame).state

theorem processFrame_spec (frame : List UInt8) :
    ((NotIpv6 frame → s.arpTable.Kept (s.afterFrame w tr frame).arpTable) ↔
      ∀ t, s.taken frame = some t → s.arpTable.Harmless t.binding.1 t.binding.2) ∧
    ((∀ d ∈ (s.processFrame w tr frame).delivered, d.Whole) ↔
      ∀ srcMac p, s.taken frame = some (.ipv4 srcMac p) → s.Addressed p → p.Whole) := by
  unfold NotIpv6 taken afterFrame processFrame
  cases EthernetFrame.parse frame with
  | error _ => simp
  | ok eth =>
    by_cases htake : s.takesFrame eth
    · simp only [htake, if_true]
      cases hty : eth.ethertype with
      | arp => cases ArpPacket.parse eth.payload <;> simp [Except.toOption, receiveArp, Taken.binding, hty]
      | ipv4 =>
        cases hp : Ipv4Packet.parse eth.payload true with
        | error _ => simp [receiveIpv4, hp]
        | ok p =>
          by_cases hfw : s.firewall.evaluate .input p = .accept
          · simp [s.receiveIpv4_spec tr hp hfw, hfw, Taken.binding, hty]
          · simp [receiveIpv4, hfw, hp]
      | ipv6 =>
        refine ⟨by simp [hty], ?_⟩
        dsimp only
        split <;> simp
      | _ => simp
    · simp [htake]

/-- Whole datagrams are handed on if and only if the filters let in no fragment addressed to the host. -/
theorem datagrams_whole_iff (frames : List (List UInt8)) :
    Along (afterFrame w tr) (fun s frame => ∀ d ∈ (s.processFrame w tr frame).delivered, d.Whole) s frames ↔
    Along (afterFrame w tr) (fun s frame => ∀ srcMac p, s.taken frame = some (.ipv4 srcMac p) →
      s.Addressed p → p.Whole) s frames := by
  simp only [fun s frame => (processFrame_spec w tr s frame).2]

/-- Static entries stay if and only if what the filters let in claims no such address. -/
theorem static_entries_kept_iff (frames : List (List UInt8)) :
    Along (afterFrame w tr) (fun s frame => NotIpv6 frame →
      s.arpTable.Kept (s.afterFrame w tr frame).arpTable) s frames ↔
    Along (afterFrame w tr) (fun s frame => ∀ t, s.taken frame = some t →
      s.arpTable.Harmless t.binding.1 t.binding.2) s frames := by
  simp only [fun s frame => (processFrame_spec w tr s frame).1]

def host : NetStack Unit :=
  { NetStack.new ⟨⟨2, 0, 0, 0, 0, 1⟩, ⟨10, 0, 0, 2⟩, none, 24, none⟩ () with
    arpTable := ArpTable.new.insertStatic ⟨10, 0, 0, 1⟩ ⟨2, 0, 0, 0, 0, 9⟩ }

def spoofed : List UInt8 := EthernetFrame.serialize .broadcast ⟨2, 0, 0, 0, 0, 6⟩ ethertypeArp
  (ArpPacket.buildReply ⟨2, 0, 0, 0, 0, 6⟩ ⟨10, 0, 0, 1⟩ .zero ⟨10, 0, 0, 2⟩).serialize

theorem static_entry_replaced : host.arpTable ⟨10, 0, 0, 1⟩ = some (⟨2, 0, 0, 0, 0, 9⟩, .static) ∧
    (host.processFrame .inOrder .idle spoofed).state.arpTable ⟨10, 0, 0, 1⟩ =
      some (⟨2, 0, 0, 0, 0, 6⟩, .dynamic) := by
  decide +kernel

/-- Of a datagram that begins elsewhere, eight octets which read as an echo reply. -/
def middle : List UInt8 :=
  [0x45, 0, 0, 28, 0, 1, 0, 1, 64, 1, 0x66, 0xdd, 10, 0, 0, 1, 10, 0, 0, 2, 0, 0, 0xff, 0xff, 0, 0, 0, 0]

theorem fragment_delivered :
    (host.processFrame .inOrder .idle (EthernetFrame.serialize .broadcast .zero ethertypeIpv4 middle)).delivered =
      [⟨.icmp, middle⟩] ∧ (Ipv4Packet.parse middle true).toOption.map (·.header.fragmentOffset) = some 1 := by
  decide +kernel

end NetStack
end SystemsLab.Net
