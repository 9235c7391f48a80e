import SystemsLab.Lib.Slice
import SystemsLab.Tcp.Delivery

/-!
# One direction of a connection

Every segment a sender sends is a slice of its stream, the SYN, the FIN, or an acknowledgement. A receiver of such
segments has the front of the stream in order, and slices of it parked.
-/

namespace SystemsLab.Tcp

open TcpConnection

variable {seg p : TcpSegment} {payload : List UInt8} {flags : TcpFlags} {seq : Seq}

/-- The initial sequence number, whether this side answers a SYN, the bytes taken from the buffer so far, and
whether the FIN is out. -/
@[ext]
structure Stream where
  isn : Seq
  passive : Bool
  bytes : List UInt8
  closed : Bool

namespace Stream

def first (g : Stream) : Seq := ahead g.isn 1

structure Genuine (g : Stream) (seq : Seq) (flags : TcpFlags) (payload : List UInt8) : Prop where
  syn : flags.syn = true → seq = g.isn ∧ payload = [] ∧ flags.fin = false ∧ (g.passive = true → flags.ack = true)
  data : payload ≠ [] → ∃ off, seq = ahead g.first off ∧ SliceAt g.bytes off payload
  fin : flags.fin = true → payload = [] ∧ g.closed = true ∧ seq = ahead g.first g.bytes.length

/-- The later state of the same stream. Nothing comes behind the FIN. -/
structure Grows (g g' : Stream) : Prop where
  isn : g'.isn = g.isn
  passive : g'.passive = g.passive
  bytes : g.bytes <+: g'.bytes
  closed : g.closed = true → g'.closed = true ∧ g'.bytes = g.bytes

variable {g g' g'' : Stream}

theorem Grows.refl (g : Stream) : g.Grows g := ⟨rfl, rfl, List.prefix_refl _, fun h => ⟨h, rfl⟩⟩

theorem Grows.trans (h : g.Grows g') (h' : g'.Grows g'') : g.Grows g'' := by
  refine ⟨h'.isn.trans h.isn, h'.passive.trans h.passive, h.bytes.trans h'.bytes, ?_⟩
  intro hc
  obtain ⟨h₁, h₂⟩ := h.closed hc
  obtain ⟨h₃, h₄⟩ := h'.closed h₁
  exact ⟨h₃, h₄.trans h₂⟩

theorem Grows.first (h : g.Grows g') : g'.first = g.first := by
  unfold Stream.first
  rw [h.isn]

theorem Genuine.mono (h : g.Genuine seq flags payload) (hg : g.Grows g') : g'.Genuine seq flags payload := by
  refine ⟨?_, ?_, ?_⟩
  · rw [hg.isn, hg.passive]; exact h.syn
  · intro hp
    obtain ⟨off, hs, hslice⟩ := h.data hp
    exact ⟨off, by rw [hg.first]; exact hs, hslice.mono hg.bytes⟩
  · intro hf
    obtain ⟨hp, hc, hs⟩ := h.fin hf
    obtain ⟨hc', hb⟩ := hg.closed hc
    exact ⟨hp, hc', by rw [hg.first, hb]; exact hs⟩

theorem genuine_bare (hs : flags.syn = false) (hf : flags.fin = false) : g.Genuine seq flags [] := by
  refine ⟨?_, fun h => absurd rfl h, ?_⟩
  · intro h; rw [hs] at h; cases h
  · intro h; rw [hf] at h; cases h

def append (g : Stream) (bytes : List UInt8) : Stream := { g with bytes := g.bytes ++ bytes }

def close (g : Stream) : Stream := { g with closed := true }

theorem grows_append (h : g.closed = false) (bytes : List UInt8) : g.Grows (g.append bytes) :=
  ⟨rfl, rfl, List.prefix_append _ _, fun hc => by rw [h] at hc; cases hc⟩

theorem grows_close (h : g.closed = false) : g.Grows g.close :=
  ⟨rfl, rfl, List.prefix_refl _, fun hc => by rw [h] at hc; cases hc⟩

end Stream

/-! ## The sender -/

def TcpState.writing : TcpState → Bool
  | .listen | .synSent | .synReceived | .established | .closeWait => true
  | _ => false

/-- The send side of a connection whose stream is `g` and whose owner has written `written`. -/
structure Sending (g : Stream) (written : List UInt8) (st : TcpState) (s : SendSide) : Prop where
  taken : g.bytes <+: written
  stored : st = .closed ∨ g.bytes ++ s.tx = written
  finSent : s.finSent = g.closed
  nxt : s.nxt = g.isn ∧ g.bytes = [] ∧ g.closed = false ∧ (st = .listen ∨ st = .closed) ∨
    s.nxt = ahead g.first (g.bytes.length + if g.closed then 1 else 0) ∧ st ≠ .listen
  queue : ∀ e ∈ s.queue, g.Genuine e.seqNum e.flags e.payload
  writing : st.writing = true → g.closed = false
  passive : g.passive = true → st ≠ .synSent

section
variable {g : Stream} {written : List UInt8} {st st' : TcpState} {s s' : SendSide} {a : Seq}

theorem keeps_writing (h : keeps st st' = true) :
    (st'.writing = true → st.writing = true) ∧ (st' = .listen → st = .listen) ∧ (st' = .synSent → st = .synSent) ∧
      (st = .listen ∨ st = .closed → st' = st) := by
  cases st <;> cases st' <;> first | (cases h; done) | decide

section
variable (h : Sending g written st s)
include h

theorem Sending.started (hst : st ≠ .listen) (hcl : st ≠ .closed) :
    s.nxt = ahead g.first (g.bytes.length + if g.closed then 1 else 0) := by
  rcases h.nxt with ⟨-, -, -, h | h⟩ | h
  · exact absurd h hst
  · exact absurd h hcl
  · exact h.1

theorem Sending.ack (hst : st ≠ .listen) (hcl : st ≠ .closed) (hl : st' ≠ .listen)
    (hw : st'.writing = true → st.writing = true) (hp : st' ≠ .synSent) : Sending g written st' (s.ack a) :=
  ⟨h.taken, .inr (h.stored.resolve_left hcl), h.finSent, .inr ⟨h.started hst hcl, hl⟩,
    fun e he => h.queue e (List.mem_of_mem_filter he), fun hw' => h.writing (hw hw'), fun _ => hp⟩

theorem Sending.clear : Sending g written .closed s.clear := by
  refine ⟨h.taken, .inl rfl, h.finSent, ?_, ?_, ?_, ?_⟩
  · rcases h.nxt with ⟨h₁, h₂, h₃, -⟩ | ⟨h₁, -⟩
    · exact .inl ⟨h₁, h₂, h₃, .inr rfl⟩
    · exact .inr ⟨h₁, fun h => by cases h⟩
  · intro e he; cases he
  · intro hw; cases hw
  · intro _ hs; cases hs

theorem Sending.step {p : Prop} (hstep : SendStep p a st s st' s') : Sending g written st' s' := by
  cases hstep with
  | keep hk =>
    obtain ⟨hw, hl, hsyn, hfix⟩ := keeps_writing hk
    refine ⟨h.taken, ?_, h.finSent, ?_, h.queue, fun hw' => h.writing (hw hw'), ?_⟩
    · exact h.stored.imp_left fun hcl => (hfix (.inr hcl)).trans hcl
    · rcases h.nxt with ⟨h₁, h₂, h₃, h₄⟩ | ⟨h₁, h₂⟩
      · exact .inl ⟨h₁, h₂, h₃, by rw [hfix h₄]; exact h₄⟩
      · exact .inr ⟨h₁, fun he => h₂ (hl he)⟩
    · intro hp hs
      exact h.passive hp (hsyn hs)
  | opened hst ha =>
    rcases hst with rfl | rfl
    · exact h.ack (by decide) (by decide) (by decide) (fun _ => rfl) (by decide)
    · exact h.ack (by decide) (by decide) (by decide) (fun _ => rfl) (by decide)
  | ack hst hk ha =>
    obtain ⟨hw, hl, hsyn, -⟩ := keeps_writing hk
    have hne : st ≠ .listen ∧ st ≠ .closed ∧ st ≠ .synSent := by
      rcases hst with rfl | rfl | rfl | rfl <;> decide
    exact h.ack hne.1 hne.2.1 (fun he => hne.1 (hl he)) hw (fun he => hne.2.2 (hsyn he))
  | closed hst hp ha =>
    rcases hst with ⟨rfl, rfl⟩ | ⟨rfl, rfl⟩
    · exact h.ack (by decide) (by decide) (by decide) (fun h => by cases h) (by decide)
    · exact h.ack (by decide) (by decide) (by decide) (fun h => by cases h) (by decide)
  | listen =>
    have hcl := h.writing rfl
    rcases h.nxt with ⟨hn, hb, -, -⟩ | ⟨-, hne⟩
    · refine ⟨h.taken, .inr (h.stored.resolve_left (by decide)), h.finSent, .inr ⟨?_, by decide⟩, ?_, fun _ => hcl,
        fun _ => by decide⟩
      · change ahead s.nxt 1 = _
        rw [hn, hb, hcl]
        exact (ahead_zero _).symm
      · refine List.forall_mem_append.mpr ⟨h.queue, List.forall_mem_singleton.mpr ?_⟩
        exact ⟨fun _ => ⟨hn, rfl, rfl, fun _ => rfl⟩, fun h => absurd rfl h, fun h => by cases h⟩
    · exact absurd rfl hne
  | reset _ => exact h.clear

end

theorem Sending.opened (h : Sending g written .closed s) (hn : s.nxt = g.isn) (hb : g.bytes = [])
    (hcl : g.closed = false)
    (htx : s.tx = written) (hp : g.passive = false) : Sending g written .synSent (s.push 1 .synOnly []) := by
  refine ⟨h.taken, .inr (by rw [hb]; exact htx), h.finSent, .inr ⟨?_, by decide⟩, ?_, fun _ => hcl,
    fun hp' => by rw [hp] at hp'; cases hp'⟩
  · change ahead s.nxt 1 = _
    rw [hn, hb, hcl]
    exact (ahead_zero _).symm
  · refine List.forall_mem_append.mpr ⟨h.queue, List.forall_mem_singleton.mpr ?_⟩
    exact ⟨fun _ => ⟨hn, rfl, rfl, fun hp' => by rw [hp] at hp'; cases hp'⟩, fun h => absurd rfl h,
      fun h => by cases h⟩

section
variable (h : Sending g written st s) (hst : st = .established ∨ st = .closeWait)
include h hst

theorem Sending.open_end :
    g.closed = false ∧ (st ≠ .listen ∧ st ≠ .closed ∧ st ≠ .synSent) ∧ s.nxt = ahead g.first g.bytes.length := by
  have hcl : g.closed = false := h.writing (by rcases hst with rfl | rfl <;> rfl)
  have hne : st ≠ .listen ∧ st ≠ .closed ∧ st ≠ .synSent := by rcases hst with rfl | rfl <;> decide
  have hn := h.started hne.1 hne.2.1
  rw [hcl] at hn
  exact ⟨hcl, hne, hn⟩

theorem Sending.pushData (n : Nat)
    (hf : flags.syn = false ∧ flags.fin = false) :
    Sending (g.append (s.tx.take n)) written st (s.pushData n flags) ∧
      (g.append (s.tx.take n)).Genuine s.nxt flags (s.tx.take n) := by
  obtain ⟨hcl, hne, hn⟩ := h.open_end hst
  have hnew : (g.append (s.tx.take n)).Genuine s.nxt flags (s.tx.take n) := by
    refine ⟨?_, fun _ => ⟨g.bytes.length, hn, sliceAt_end _ _⟩, ?_⟩
    · intro hs; rw [hf.1] at hs; cases hs
    · intro hs; rw [hf.2] at hs; cases hs
  have hall : g.bytes ++ s.tx = written := h.stored.resolve_left hne.2.1
  have hsplit : (g.bytes ++ s.tx.take n) ++ s.tx.drop n = written := by
    rw [List.append_assoc, List.take_append_drop, hall]
  refine ⟨⟨⟨_, hsplit⟩, .inr hsplit, h.finSent, .inr ⟨?_, hne.1⟩, ?_, fun _ => hcl, fun _ => hne.2.2⟩, hnew⟩
  · change ahead s.nxt (s.tx.take n).length = ahead g.first
      ((g.bytes ++ s.tx.take n).length + if g.closed then 1 else 0)
    rw [hn, hcl, ahead_ahead, List.length_append]
    rfl
  · exact List.forall_mem_append.mpr
      ⟨fun e he => (h.queue e he).mono (g.grows_append hcl _), List.forall_mem_singleton.mpr hnew⟩

theorem Sending.pushFin
    (hst' : st' = .finWait1 ∨ st' = .lastAck) :
    Sending g.close written st' s.pushFin ∧ g.close.Genuine s.nxt .finAck [] := by
  obtain ⟨hcl, hne, hn⟩ := h.open_end hst
  have hne' : st' ≠ .listen ∧ st'.writing = false ∧ st' ≠ .synSent := by rcases hst' with rfl | rfl <;> decide
  have hnew : g.close.Genuine s.nxt .finAck [] :=
    ⟨(fun h => by cases h), fun h => absurd rfl h, fun _ => ⟨rfl, rfl, hn⟩⟩
  refine ⟨⟨h.taken, .inr (h.stored.resolve_left hne.2.1), rfl, .inr ⟨?_, hne'.1⟩, ?_, ?_, fun _ => hne'.2.2⟩, hnew⟩
  · change ahead s.nxt 1 = ahead g.first (g.bytes.length + 1)
    rw [hn, ahead_ahead]
  · exact List.forall_mem_append.mpr
      ⟨fun e he => (h.queue e he).mono (Stream.grows_close hcl), List.forall_mem_singleton.mpr hnew⟩
  · intro hw
    rw [hne'.2.1] at hw
    cases hw

end

end

/-! ## The calls of the sender -/

def TcpSegment.Of (p : TcpSegment) (g : Stream) : Prop := g.Genuine p.seqNum p.flags p.payload

/-- From the send side `s` with stream `g`, a phase of the pump leads to `d` with stream `g'` and sends `sent`. The
stream grows by what `bytes_sent` counts. -/
structure Pumped (g : Stream) (written : List UInt8) (s : SendSide) (d : TcpConnection) (sent : List TcpSegment)
    (g' : Stream) : Prop where
  sending : Sending g' written d.state d.sendSide
  grows : g.Grows g'
  genuine : ∀ p ∈ sent, p.Of g'
  drained : ∃ k ≤ s.tx.length, g'.bytes = g.bytes ++ s.tx.take k ∧ d.sendSide.bytesSent = s.bytesSent + k ∧
    (d.sendSide.tx = s.tx.drop k ∨ d.sendSide.tx = [])

section
variable {g g' g'' : Stream} {written : List UInt8} {s : SendSide} {c d e : TcpConnection}
  {sent sent' : List TcpSegment} {now : Nat}

theorem Pumped.of_keep (h : Sending g written d.state d.sendSide) (hs : d.sendSide = s) (hp : ∀ p ∈ sent, p.Of g) :
    Pumped g written s d sent g :=
  ⟨h, .refl g, hp, 0, Nat.zero_le _, by simp, by rw [hs]; rfl, .inl (by rw [hs]; rfl)⟩

theorem Sending.idle (h : Sending g written d.state d.sendSide) : ∃ g', Pumped g written d.sendSide d [] g' :=
  ⟨g, .of_keep h rfl (fun p hp => by cases hp)⟩

theorem Pumped.trans (h : Pumped g written s d sent g') (h' : Pumped g' written d.sendSide e sent' g'') :
    Pumped g written s e (sent ++ sent') g'' := by
  refine ⟨h'.sending, h.grows.trans h'.grows, ?_, ?_⟩
  · intro p hp
    rcases List.mem_append.mp hp with hp | hp
    · exact (h.genuine p hp).mono h'.grows
    · exact h'.genuine p hp
  · obtain ⟨k, hk, hb, hs, htx⟩ := h.drained
    obtain ⟨k', hk', hb', hs', htx'⟩ := h'.drained
    rcases htx with htx | htx
    · rw [htx, List.length_drop] at hk'
      refine ⟨k + k', by omega, ?_, by omega, ?_⟩
      · rw [hb', hb, htx, List.append_assoc, ← List.take_add]
      · rw [htx, List.drop_drop] at htx'
        exact htx'
    · rw [htx, List.length_nil, Nat.le_zero] at hk'
      subst hk'
      refine ⟨k, hk, ?_, by omega, .inr ?_⟩
      · rw [hb', List.take_zero, List.append_nil, hb]
      · rw [htx] at htx'
        simpa using htx'

theorem Pumped.push (h : Sending g written d.state s)
    (hst : d.state = .established ∨ d.state = .closeWait) {n : Nat}
    (hf : flags.syn = false ∧ flags.fin = false) {p : TcpSegment} (hs : d.sendSide = s.pushData n flags)
    (hp : p.seqNum = s.nxt ∧ p.flags = flags ∧ p.payload = s.tx.take n) :
    Pumped g written s d [p] (g.append (s.tx.take n)) := by
  obtain ⟨hsend, hgen⟩ := h.pushData hst n hf
  refine ⟨by rw [hs]; exact hsend, Stream.grows_append (h.open_end hst).1 _, ?_, (s.tx.take n).length,
    List.length_take_le' _ _, ?_, ?_, .inl ?_⟩
  · intro q hq
    rw [List.mem_singleton.mp hq]
    unfold TcpSegment.Of
    rw [hp.1, hp.2.1, hp.2.2]
    exact hgen
  · change g.bytes ++ s.tx.take n = _
    rw [List.length_take, List.take_eq_take_min]
  · rw [hs]; rfl
  · rw [hs]
    change s.tx.drop n = _
    rw [List.length_take]
    by_cases hn : n ≤ s.tx.length
    · rw [Nat.min_eq_left hn]
    · rw [Nat.min_eq_right (by omega), List.drop_length, List.drop_eq_nil_of_le (by omega)]

theorem Sending.genuine {st : TcpState} (h : Sending g written st c.sendSide) :
    ∀ e ∈ c.retransmitQueue, g.Genuine e.seqNum e.flags e.payload :=
  fun e he => h.queue e.sent (List.mem_map_of_mem he)

theorem of_retransmitOldest (h : ∀ e ∈ c.retransmitQueue, g.Genuine e.seqNum e.flags e.payload) {fast : Bool}
    {p : TcpSegment}
    (hp : (c.retransmitOldest now fast).2 = some p) : p.Of g := by
  obtain ⟨-, -, -, hr⟩ := c.retransmitOldest_cases now fast
  obtain ⟨e, he, h₁, h₂, h₃, -⟩ := hr p hp
  unfold TcpSegment.Of
  rw [h₁, h₂, h₃]
  exact h e he

section
variable (h : Sending g written c.state c.sendSide)
include h

theorem emitFin_pumped : ∃ g', Pumped g written c.sendSide (c.emitFin now).1 (c.emitFin now).2.toList g' := by
  rcases c.emitFin_cases now with he | ⟨-, hst, hside, -, hp⟩
  · rw [he]
    exact h.idle
  · have hs : c.state = .established ∨ c.state = .closeWait := by tauto
    have hs' : (c.emitFin now).1.state = .finWait1 ∨ (c.emitFin now).1.state = .lastAck := by tauto
    obtain ⟨hsend, hgen⟩ := h.pushFin hs hs'
    refine ⟨g.close, by rw [hside]; exact hsend, Stream.grows_close ?_, ?_, 0, Nat.zero_le _,
      (List.append_nil _).symm, ?_, .inl ?_⟩
    · exact (h.open_end hs).1
    · intro p hp'
      rw [hp] at hp'
      rw [List.mem_singleton.mp hp']
      exact hgen
    · rw [hside]; rfl
    · rw [hside]; rfl

theorem initiateCloseAt_pumped :
    ∃ g', Pumped g written c.sendSide (c.initiateCloseAt now).1 (c.initiateCloseAt now).2.toList g' := by
  unfold initiateCloseAt
  split
  · simp only
    split
    · exact emitFin_pumped (c := { c with currentTimeMs := now, closeRequested := true }) h
    · exact ⟨g, .of_keep h rfl (fun p hp => by cases hp)⟩
  · exact ⟨g, .of_keep h rfl (fun p hp => by cases hp)⟩

theorem onRto_pumped :
    Pumped g written c.sendSide (c.onRto now).1 (c.onRto now).2 g := by
  obtain ⟨hst, hside, -⟩ := c.onRto_views now
  refine .of_keep (by rw [hst, hside]; exact h) hside ?_
  intro p hp
  unfold onRto at hp
  split at hp
  · exact of_retransmitOldest (c := { c with
      congestion := c.congestion.onTimeout
      rtt := c.rtt.backoff
      stats := { c.stats with timeouts := c.stats.timeouts + 1 } }) h.genuine (Option.mem_toList.mp hp)
  · cases hp

theorem windowUpdate_pumped :
    Pumped g written c.sendSide c.windowUpdate.1 c.windowUpdate.2 g := by
  obtain ⟨hst, hside, -⟩ := c.windowUpdate_views
  refine .of_keep (by rw [hst, hside]; exact h) hside ?_
  intro p hp
  unfold windowUpdate at hp
  split at hp
  · rw [List.mem_singleton.mp hp]
    exact Stream.genuine_bare rfl rfl
  · cases hp

theorem persist_pumped {wasSending : Bool}
    (hs : wasSending = true → c.txBuffer ≠ [] → c.state = .established ∨ c.state = .closeWait) :
    ∃ g', Pumped g written c.sendSide (c.persist wasSending now).1 (c.persist wasSending now).2 g' := by
  obtain ⟨hst, -, hc⟩ := c.persist_cases now wasSending
  rcases hc with ⟨hside, hp⟩ | ⟨hw, htx, -, hside, hp⟩
  · refine ⟨g, .of_keep (by rw [hst, hside]; exact h) hside ?_⟩
    rw [hp]
    intro p hp'; cases hp'
  · rw [hp]
    have hs' : Sending g written (c.persist wasSending now).1.state
        { c.sendSide with probes := c.sendSide.probes + 1 } := by
      rw [hst]
      exact ⟨h.taken, h.stored, h.finSent, h.nxt, h.queue, h.writing, h.passive⟩
    obtain ⟨h₁, h₂, h₃, h₄⟩ := Pumped.push (n := 1)
      (p := c.segment c.sndNxt c.rcvNxt .ackOnly c.currentRcvWnd [] (c.txBuffer.take 1)) hs'
      (by rw [hst]; exact hs hw htx) ⟨rfl, rfl⟩ hside ⟨rfl, rfl, rfl⟩
    exact ⟨_, h₁, h₂, h₃, h₄⟩

theorem expireTimeWait_sending :
    Sending g written (c.expireTimeWait now).state (c.expireTimeWait now).sendSide := by
  obtain ⟨hst, hside, -⟩ := c.expireTimeWait_views now
  rw [hside]
  rcases hst with hst | ⟨hst, hcl⟩
  · rw [hst]; exact h
  · rw [hcl]
    rw [hst] at h
    exact ⟨h.taken, .inl rfl, h.finSent, .inr ⟨h.started (by decide) (by decide), by decide⟩, h.queue,
      (fun h => by cases h), fun _ => by decide⟩

theorem pollOutput_pumped :
    ∃ g', Pumped g written c.sendSide (c.pollOutput now).1 (c.pollOutput now).2 g' := by
  refine c.pollOutput_invariant now
    (P := fun d sent => ∃ g', Pumped g written c.sendSide d sent g') ?_ ?_ ?_ ?_ ?_ ?_ ?_ ?_
  · exact Sending.idle (d := c.setClock now) h
  · rintro d sent k ⟨g', hg⟩ hst - - -
    refine ⟨_,
      hg.trans (Pumped.push (n := k) ?_ (by exact hst) ⟨rfl, rfl⟩ (d.sendChunk_sendSide now k _) ⟨rfl, rfl, rfl⟩)⟩
    exact hg.sending
  · rintro d sent ⟨g', hg⟩
    obtain ⟨g₂, h₂⟩ := @emitFin_pumped g' written d now hg.sending
    exact ⟨g₂, hg.trans h₂⟩
  · -- The segments sent before the connection is given up are of the stream all the same.
    rintro d sent ⟨g', hg⟩
    obtain ⟨k, hk, hb, hbs, -⟩ := hg.drained
    exact ⟨g', hg.sending.clear, hg.grows, hg.genuine, k, hk, hb, hbs, .inr rfl⟩
  · exact fun d sent ⟨g', hg⟩ => ⟨g', hg.trans (onRto_pumped hg.sending)⟩
  · exact fun d sent ⟨g', hg⟩ => ⟨g', hg.trans (windowUpdate_pumped hg.sending)⟩
  · rintro d sent b ⟨g', hg⟩ hs
    obtain ⟨g₂, h₂⟩ := @persist_pumped g' written d now hg.sending b hs
    exact ⟨g₂, hg.trans h₂⟩
  · rintro d sent ⟨g', hg⟩
    obtain ⟨-, hside, -⟩ := d.expireTimeWait_views now
    obtain ⟨k, hk, hb, hbs, htx⟩ := hg.drained
    refine ⟨g', expireTimeWait_sending hg.sending, hg.grows, hg.genuine, k, hk, hb, ?_, ?_⟩
    · exact (congrArg SendSide.bytesSent hside).trans hbs
    · exact htx.imp (congrArg SendSide.tx hside).trans (congrArg SendSide.tx hside).trans

end

theorem Sending.answer (h : Sending g written c.state c.sendSide)
    (hopen : c.state = .synSent → seg.flags.syn = true → seg.flags.ack = true)
    (hp : (c.handleSegmentAt seg now).2 = some p) :
    p.Of g := by
  unfold TcpSegment.Of
  rcases (c.handleSegmentAt_turn seg now).speaks.answers p hp with ⟨h₁, h₂, h₃⟩ | ⟨e, he, h₁, h₂, h₃⟩ |
    ⟨hst, h₁, h₂, h₃⟩ | ⟨hst, hsyn, hack⟩
  · rw [h₃]; exact Stream.genuine_bare h₁ h₂
  · rw [h₁, h₂, h₃]; exact h.queue e he
  · rw [h₁, h₂, h₃]
    rcases h.nxt with ⟨hn, -⟩ | ⟨-, hne⟩
    · exact ⟨fun _ => ⟨hn, rfl, rfl, fun _ => rfl⟩, fun h => absurd rfl h, fun h => by cases h⟩
    · exact absurd hst hne
  · rw [hopen hst hsyn] at hack
    cases hack

end

/-! ## The receiver -/

structure Synced (g : Stream) (returned : List UInt8) (r : RecvSide) : Prop where
  next : r.rcvNxt = ahead g.first ((returned ++ r.rx).length + if r.finReceived then 1 else 0)
  front : returned ++ r.rx <+: g.bytes
  parked : ∀ e ∈ r.ooo, e.2 ≠ [] ∧ ∃ off, e.1 = ahead g.first off ∧ SliceAt g.bytes off e.2
  fin : r.finReceived = true → g.closed = true ∧ returned ++ r.rx = g.bytes

/-- The receive side of a connection whose peer sends the stream, and whose reader has got `returned`. -/
def Receiving (g : Stream) (returned : List UInt8) (st : TcpState) (r : RecvSide) : Prop :=
  st.idle = true ∧ returned = [] ∧ r.rx = [] ∧ r.ooo = [] ∧ r.finReceived = false ∨
    st.opening = false ∧ Synced g returned r

section
variable {g g' : Stream} {returned : List UInt8} {st : TcpState} {r : RecvSide} {c : TcpConnection}
  {seg : TcpSegment} {now : Nat}

theorem Synced.mono (h : Synced g returned r) (hg : g.Grows g') : Synced g' returned r := by
  refine ⟨by rw [hg.first]; exact h.next, h.front.trans hg.bytes, ?_, ?_⟩
  · intro e he
    obtain ⟨hne, off, ho, hs⟩ := h.parked e he
    exact ⟨hne, off, by rw [hg.first]; exact ho, hs.mono hg.bytes⟩
  · intro hf
    obtain ⟨hc, hb⟩ := h.fin hf
    obtain ⟨hc', hb'⟩ := hg.closed hc
    exact ⟨hc', hb.trans hb'.symm⟩

theorem Receiving.mono (h : Receiving g returned st r) (hg : g.Grows g') : Receiving g' returned st r :=
  h.imp_right fun h => ⟨h.1, h.2.mono hg⟩

section
variable (hlen : g.bytes.length < 2 ^ 31)
include hlen

theorem extends_of_slice {e : Parked} {off : Nat} (he : e.1 = ahead g.first off)
    (hs : SliceAt g.bytes off e.2) (hne : e.2 ≠ []) :
    e.Extends g.first fun n rx => returned ++ rx <+: g.bytes ∧ (returned ++ rx).length = n := by
  intro m n rx hm hmn hn ⟨hpre, hcount⟩
  have hoff := hs.length_le hne
  have hle := hpre.length_le
  have hmo : m = off := by
    rw [he] at hm
    exact ((ahead_inj (by omega) (by omega)).mp hm).symm
  subst hmo
  have hext := hs.extend hpre (by omega)
  rw [hcount, List.append_assoc] at hext
  refine ⟨hext, ?_⟩
  rw [List.length_append, List.length_append, List.length_drop]
  rw [List.length_append] at hcount
  omega

theorem fitted_slice {n off : Nat} {e : Parked}
    (hn : c.rcvNxt = ahead g.first n) (hle : n ≤ g.bytes.length) (hseq : seq = ahead g.first off)
    (hs : SliceAt g.bytes off payload) (h : c.fitted seq payload = some e) :
    ∃ m, e.1 = ahead g.first m ∧ SliceAt g.bytes m e.2 ∧ e.2 ≠ [] := by
  obtain ⟨e₀, htrim, hclip⟩ := Option.bind_eq_some_iff.mp h
  obtain ⟨h₁, hne, h₂, -⟩ := clipRight_eq_some hclip
  suffices ∃ m, e₀.1 = ahead g.first m ∧ SliceAt g.bytes m e₀.2 by
    obtain ⟨m, hm, hsl⟩ := this
    exact ⟨m, h₁.trans hm, by rw [h₂]; exact hsl.take _, hne⟩
  unfold trimLeft at htrim
  split at htrim
  · cases htrim
  · rename_i hp
    have hoff := hs.length_le hp
    split at htrim
    · cases htrim
    · split at htrim
      · rename_i hlt
        rw [hseq, hn, seqLt_ahead (by omega) (by omega)] at hlt
        have hd : (seqDiff c.rcvNxt seq).toNat = n - off := by
          rw [hseq, hn, toNat_seqDiff_ahead (by omega) (by omega)]
        simp only [hd] at htrim
        split at htrim
        · cases htrim
        · cases htrim
          refine ⟨n, hn, ?_⟩
          have := hs.drop (n - off)
          rw [show off + (n - off) = n by omega] at this
          exact this
      · cases htrim
        exact ⟨off, hseq, hs⟩

theorem fitted_none {off : Nat}
    (hn : c.rcvNxt = ahead g.first (g.bytes.length + 1)) (hseq : seq = ahead g.first off)
    (hs : SliceAt g.bytes off payload) :
    c.fitted seq payload = none := by
  suffices c.trimLeft seq payload = none by
    unfold fitted
    rw [this]
    rfl
  unfold trimLeft
  split
  · rfl
  · rename_i hp
    have hoff := hs.length_le hp
    rw [if_pos]
    rw [hseq, ahead_ahead, hn, seqLe_ahead (by omega) (by omega)]
    omega

theorem acceptData_synced (h : Synced g returned c.recvSide)
    (hp : payload ≠ [] → ∃ off, seq = ahead g.first off ∧ SliceAt g.bytes off payload) :
    Synced g returned (c.acceptData seq payload).recvSide := by
  by_cases hpay : payload = []
  · rw [hpay, acceptData_nil]; exact h
  · obtain ⟨off, hseq, hs⟩ := hp hpay
    have hnext : c.rcvNxt = ahead g.first ((returned ++ c.rxBuffer).length + if c.finReceived then 1 else 0) :=
      h.next
    have hfront : returned ++ c.rxBuffer <+: g.bytes := h.front
    cases hf : c.finReceived with
    | true =>
      have hall : returned ++ c.rxBuffer = g.bytes := (h.fin hf).2
      rw [hf, hall] at hnext
      rw [acceptData_of_none (fitted_none hlen hnext hseq hs)]
      exact h
    | false =>
      rw [hf] at hnext
      cases hfit : c.fitted seq payload with
      | none => rw [acceptData_of_none hfit]; exact h
      | some e =>
        obtain ⟨m, hm, hsl, hne⟩ := fitted_slice hlen hnext hfront.length_le hseq hs hfit
        have hml := hsl.length_le hne
        have hle := hfront.length_le
        by_cases he : e.1 = c.rcvNxt
        · have hmn : m = (returned ++ c.rxBuffer).length := by
            rw [hm, hnext] at he
            exact (ahead_inj (by omega) (by omega)).mp he
          have hext := @extends_of_slice g returned hlen e m hm hsl hne m _ c.rxBuffer hm (by omega) (by
            have := List.length_pos_of_ne_nil hne
            omega) ⟨hfront, rfl⟩
          rw [← hmn, Nat.sub_self, List.drop_zero] at hext
          obtain ⟨n, hd⟩ := @Inbound.drainOoo_drained g.first 0 g.bytes.length
            (fun n rx => returned ++ rx <+: g.bytes ∧ (returned ++ rx).length = n) (by omega)
              (c.inbound.deliver e.2)
            (m + e.2.length) (by
              change ahead c.rcvNxt e.2.length = _
              rw [← he, hm, ahead_ahead]) (Nat.zero_le _) hml
            (fun q hq => by
              obtain ⟨hqne, o, ho, hos⟩ := h.parked q hq
              exact ⟨o, ho, Nat.zero_le o, hos.length_le hqne⟩)
            (fun q hq => by
              obtain ⟨hqne, o, ho, hos⟩ := h.parked q hq
              exact extends_of_slice hlen ho hos hqne) hext
          rw [acceptData_of_next hfit he]
          have hfin : (c.withInbound (c.inbound.deliver e.2).drainOoo).recvSide.finReceived = false := hf
          refine ⟨?_, hd.bytes.1, fun q hq => h.parked q (hd.kept hq), fun hf' => by rw [hfin] at hf'; cases hf'⟩
          rw [hfin]
          refine hd.rcvNxt.trans ?_
          exact congrArg (ahead g.first) hd.bytes.2.symm
        · rw [acceptData_of_ahead hfit he]
          have hrx : (c.withInbound (c.inbound.bufferOoo e)).recvSide.rx = c.recvSide.rx :=
            Inbound.bufferOoo_rxBuffer
          have hrn : (c.withInbound (c.inbound.bufferOoo e)).recvSide.rcvNxt = c.recvSide.rcvNxt :=
            Inbound.bufferOoo_rcvNxt
          refine ⟨by rw [hrx, hrn]; exact h.next, by rw [hrx]; exact h.front, ?_, by rw [hrx]; exact h.fin⟩
          intro q hq
          rcases Inbound.mem_of_mem_bufferOoo hq with hq | rfl
          · exact h.parked q hq
          · exact ⟨hne, m, hm, hsl⟩

theorem receive_synced (h : Synced g returned c.recvSide) (hseg : seg.Of g) :
    Synced g returned (c.receive seg now).recvSide := by
  have ha := acceptData_synced hlen h hseg.data
  rw [receive_eq]
  split
  · rename_i hfin
    simp only [finConsumed, Bool.and_eq_true, Bool.not_eq_true', decide_eq_true_eq] at hfin
    obtain ⟨⟨hf, hs⟩, hnf⟩ := hfin
    obtain ⟨hpay, hcl, hseq⟩ := hseg.fin hf
    have hsyn : seg.flags.syn = false := by
      rw [← Bool.not_eq_true]
      intro hsyn
      have := (hseg.syn hsyn).2.2.1
      rw [hf] at this
      cases this
    rw [consumeFin_recvSide]
    generalize c.acceptData seg.seqNum seg.payload = d at ha hs hnf
    have hnext : d.rcvNxt = ahead g.first ((returned ++ d.rxBuffer).length + if d.finReceived then 1 else 0) :=
      ha.next
    have hle := ha.front.length_le
    have heq : (returned ++ d.rxBuffer).length = g.bytes.length := by
      rw [hnext, hnf] at hs
      unfold finSeq at hs
      rw [hpay, hsyn, hseq] at hs
      simp only [Bool.false_eq_true, if_false, List.length_nil, ahead_zero, Nat.add_zero] at hs
      exact ((ahead_inj (by omega) (Nat.lt_of_le_of_lt hle (by omega))).mp hs).symm
    have hall : returned ++ d.rxBuffer = g.bytes := ha.front.eq_of_length heq
    refine ⟨?_, ha.front, ha.parked, fun _ => ⟨hcl, hall⟩⟩
    change ahead d.rcvNxt 1 = ahead g.first ((returned ++ d.rxBuffer).length + 1)
    rw [hnext, hnf, ahead_ahead]
    rfl
  · exact ha

theorem Receiving.step (h : Receiving g returned c.state c.recvSide) (hseg : seg.Of g)
    {c' : TcpConnection} (hstep : ReceiverStep c seg now c') : Receiving g returned c'.state c'.recvSide := by
  change Receiving g returned c'.state c'.receiver.recvSide
  cases hstep with
  | keep hst hr =>
    rw [hr]
    rcases h with ⟨hi, hb⟩ | ⟨ho, hs⟩
    · exact .inl ⟨hst.idle hi, hb⟩
    · exact .inr ⟨hst.opening_false ho, hs⟩
  | opened hs hsyn hst hr =>
    rcases h with ⟨-, h₁, h₂, h₃, h₄⟩ | ⟨ho, -⟩
    · refine .inr ⟨hst, ?_⟩
      rw [hr]
      refine ⟨?_, ?_, ?_, ?_⟩
      · change ahead seg.seqNum 1 = ahead g.first
          ((returned ++ c.recvSide.rx).length + if c.recvSide.finReceived then 1 else 0)
        rw [(hseg.syn hsyn).1, h₁, h₂, h₄]
        exact (ahead_zero _).symm
      · change returned ++ c.recvSide.rx <+: g.bytes
        rw [h₁, h₂]
        exact List.nil_prefix
      · intro e he
        change e ∈ c.recvSide.ooo at he
        rw [h₃] at he
        cases he
      · intro hf
        change c.recvSide.finReceived = true at hf
        rw [h₄] at hf
        cases hf
    · rw [hs] at ho; cases ho
  | reset hst hr =>
    rw [hr, hst]
    rcases h with ⟨-, h₁, h₂, -, h₄⟩ | ⟨-, hs⟩
    · exact .inl ⟨rfl, h₁, h₂, rfl, h₄⟩
    · exact .inr ⟨rfl, hs.next, hs.front, (fun e he => by cases he), hs.fin⟩
  | early hs hst d hd hr =>
    rcases h with ⟨hi, -⟩ | ⟨-, hsy⟩
    · rw [hs] at hi; cases hi
    · refine .inr ⟨hst, ?_⟩
      rw [hr]
      rw [← show d.recvSide = c.recvSide from congrArg Receiver.recvSide hd] at hsy
      exact acceptData_synced hlen hsy hseg.data
  | data hs hst d hd hr =>
    rcases h with ⟨hi, -⟩ | ⟨-, hsy⟩
    · rcases hs with hs | hs | hs <;> rw [hs] at hi <;> cases hi
    · refine .inr ⟨hst, ?_⟩
      rw [hr]
      rw [← show d.recvSide = c.recvSide from congrArg Receiver.recvSide hd] at hsy
      exact receive_synced hlen hsy hseg

end

end

end SystemsLab.Tcp
