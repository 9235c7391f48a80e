import SystemsLab.Tcp.Turn

/-!
# What an inbound segment does to the receive side

`accept_data` cuts a segment down to what is new and inside the window, and delivers or parks the rest.
-/

namespace SystemsLab.Tcp

variable {st st' : TcpState}

namespace TcpConnection

def fitted (c : TcpConnection) (seq : Seq) (payload : List UInt8) : Option Parked :=
  (c.trimLeft seq payload).bind c.clipRight

section
variable {c : TcpConnection} {seq : Seq} {payload : List UInt8} {e : Parked}

theorem clipRight_eq_some {e' : Parked} (h : c.clipRight e = some e') :
    e'.1 = e.1 ∧ e'.2 ≠ [] ∧ e'.2 = e.2.take (c.currentRcvWnd.toNat - (seqDiff e.1 c.rcvNxt).toNat) ∧
      (seqDiff e.1 c.rcvNxt).toNat < c.currentRcvWnd.toNat := by
  unfold clipRight at h
  simp only at h
  split at h
  · cases h
  · split at h
    · cases h
    · rename_i hw
      split at h
      · cases h
      · rename_i hne
        cases h
        exact ⟨rfl, hne, rfl, Nat.lt_of_not_le hw⟩

theorem fitted_within (h : c.fitted seq payload = some e) :
    ∃ m, e.1 = ahead c.rcvNxt m ∧ m + e.2.length < 2 ^ 16 ∧ e.2 ≠ [] := by
  obtain ⟨e₀, -, hclip⟩ := Option.bind_eq_some_iff.mp h
  obtain ⟨h₁, hne, h₂, hlt⟩ := clipRight_eq_some hclip
  refine ⟨(seqDiff e₀.1 c.rcvNxt).toNat, ?_, ?_, hne⟩
  · rw [h₁]
    exact (ahead_sub _ _).symm
  · have hw := c.currentRcvWnd.toNat_lt
    rw [h₂, List.length_take]
    omega

theorem acceptData_of_none (h : c.fitted seq payload = none) : c.acceptData seq payload = c := by
  unfold fitted at h
  unfold acceptData
  rw [h]

theorem acceptData_of_next (h : c.fitted seq payload = some e) (he : e.1 = c.rcvNxt) :
    c.acceptData seq payload = c.withInbound (c.inbound.deliver e.2).drainOoo := by
  unfold fitted at h
  unfold acceptData
  rw [h]
  exact if_pos he

theorem acceptData_of_ahead (h : c.fitted seq payload = some e) (he : e.1 ≠ c.rcvNxt) :
    c.acceptData seq payload = c.withInbound (c.inbound.bufferOoo e) := by
  unfold fitted at h
  unfold acceptData
  rw [h]
  exact if_neg he

end

section
variable (c : TcpConnection) (seg : TcpSegment) (now : Nat)

/-! ## The other calls -/

theorem emitFin_keepsRest : KeepsRest c (c.emitFin now).1 := by
  rcases c.emitFin_cases now with he | ⟨-, -, -, hrest, -⟩
  · rw [he]; exact .refl c
  · exact hrest

structure KeepsReceiver (c d : TcpConnection) : Prop where
  receiver : d.receiver = c.receiver
  state : c.state.Moves d.state

theorem pollOutput_keepsReceiver : KeepsReceiver c (c.pollOutput now).1 := by
  have hsend := (c.setClock now).sendPhase_keepsRest now
  unfold pollOutput
  simp only
  split
  · exact ⟨rfl, .refl _⟩
  · split
    · exact ⟨hsend.receiver, .inr (.inl rfl)⟩
    · have hall := hsend.trans (timerPhase_cases _ now (c.setClock now).sending).1
      exact ⟨hall.receiver, hall.state⟩

theorem initiateCloseAt_keepsReceiver : KeepsReceiver c (c.initiateCloseAt now).1 := by
  unfold initiateCloseAt
  split
  · simp only
    split
    · have hrest := emitFin_keepsRest { c with currentTimeMs := now, closeRequested := true } now
      exact ⟨hrest.receiver, hrest.state⟩
    · exact ⟨rfl, .refl _⟩
  · exact ⟨rfl, .refl _⟩

theorem sendDataAt_keepsReceiver (payload : List UInt8) : KeepsReceiver c (c.sendDataAt payload now).1 := by
  unfold sendDataAt
  simp only
  split
  · have hpoll := ((c.setClock now).write payload).1.pollOutput_keepsReceiver now
    exact ⟨hpoll.receiver, hpoll.state⟩
  · exact ⟨rfl, .refl _⟩

theorem read_recvSide (n : Nat) :
    (c.read n).1.recvSide = { c.recvSide with rx := c.rxBuffer.drop n } ∧ (c.read n).1.state = c.state ∧
      (c.read n).2 = c.rxBuffer.take n := by
  unfold read
  split
  · rename_i h
    refine ⟨?_, rfl, ?_⟩
    · simp [recvSide, h]
    · simp [h]
  · exact ⟨rfl, rfl, rfl⟩

end

end TcpConnection

end SystemsLab.Tcp
