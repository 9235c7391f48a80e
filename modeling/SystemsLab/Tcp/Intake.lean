import SystemsLab.Tcp.Connection

/-!
# The options of a segment

`handle_segment_at` applies every option of a segment before it has decided
whether the segment is acceptable. The loop over the options is put in closed
form here.
-/

namespace SystemsLab.Tcp

/-! ## What a list of options says -/

def TcpOption.mss? : TcpOption → Option UInt16
  | .mss m => some m
  | _ => none

def TcpOption.timestamp? : TcpOption → Option (Seq × Seq)
  | .timestamp val ecr => some (val, ecr)
  | _ => none

def TcpOption.blocks : TcpOption → List (Seq × Seq)
  | .sack blocks => blocks
  | _ => []

def lastMss (os : List TcpOption) : Option UInt16 := (os.filterMap TcpOption.mss?).getLast?

def lastTimestamp (os : List TcpOption) : Option (Seq × Seq) := (os.filterMap TcpOption.timestamp?).getLast?

def sackCovers (os : List TcpOption) (e : RetransmitSegment) : Bool :=
  (os.flatMap TcpOption.blocks).any fun b => seqGe e.seqNum b.1 && seqLe e.endSeq b.2

def markCovered (os : List TcpOption) (e : RetransmitSegment) : RetransmitSegment :=
  { e with sacked := e.sacked || sackCovers os e }

namespace TcpConnection

variable (c : TcpConnection) (o : TcpOption) (os : List TcpOption)

def optionsApplied (os : List TcpOption) : TcpConnection :=
  { c with
    stats :=
      { c.stats with sackBlocksReceived := c.stats.sackBlocksReceived + (os.flatMap TcpOption.blocks).length }
    peerMss := (lastMss os).getD c.peerMss
    congestion := { c.congestion with mss := ((lastMss os).map UInt16.toNat).getD c.congestion.mss }
    sackPermitted := c.sackPermitted || decide (.sackPermitted ∈ os)
    peerSackPermitted := c.peerSackPermitted || decide (.sackPermitted ∈ os)
    retransmitQueue := c.retransmitQueue.map (markCovered os) }

theorem markCovered_nil (e : RetransmitSegment) : markCovered [] e = e := by simp [markCovered, sackCovers]

theorem foldl_markSacked (blocks : List (Seq × Seq)) (e : RetransmitSegment) :
    blocks.foldl (fun e b => markSacked b e) e =
      { e with sacked := e.sacked || blocks.any fun b => seqGe e.seqNum b.1 && seqLe e.endSeq b.2 } := by
  induction blocks generalizing e with
  | nil => simp
  | cons b blocks ih =>
    rw [List.foldl_cons, ih]
    unfold markSacked
    split
    · rename_i h; simp [h]
    · rename_i h; simp [h]

theorem markCovered_cons (e : RetransmitSegment) :
    markCovered os (o.blocks.foldl (fun e b => markSacked b e) e) = markCovered (o :: os) e := by
  rw [foldl_markSacked]
  simp [markCovered, sackCovers, Bool.or_assoc]

theorem lastMss_cons : lastMss (o :: os) = (lastMss os).or o.mss? := by
  unfold lastMss
  cases h : o.mss? with
  | none => simp [h]
  | some m =>
    rw [List.filterMap_cons_some h, List.getLast?_cons]; cases (os.filterMap TcpOption.mss?).getLast? <;> rfl

theorem lastTimestamp_cons : lastTimestamp (o :: os) = (lastTimestamp os).or o.timestamp? := by
  unfold lastTimestamp
  cases h : o.timestamp? with
  | none => simp [h]
  | some t =>
    rw [List.filterMap_cons_some h, List.getLast?_cons]; cases (os.filterMap TcpOption.timestamp?).getLast? <;> rfl

theorem optionsApplied_nil (c : TcpConnection) : c.optionsApplied [] = c := by
  have hq : c.retransmitQueue.map (markCovered []) = c.retransmitQueue := by
    rw [List.map_congr_left (fun e _ => markCovered_nil e), List.map_id']
  unfold optionsApplied
  simp [hq, lastMss]

theorem optionsApplied_applyOption (c : TcpConnection) (ts : Option (Seq × Seq)) (o : TcpOption)
    (os : List TcpOption) :
    (applyOption (c, ts) o).1.optionsApplied os = c.optionsApplied (o :: os) ∧
      (applyOption (c, ts) o).2 = o.timestamp?.or ts := by
  have hmap : ∀ q : List RetransmitSegment, (q.map fun e => o.blocks.foldl (fun e b => markSacked b e) e).map
      (markCovered os) = q.map (markCovered (o :: os)) := by
    intro q
    rw [List.map_map]
    exact List.map_congr_left fun e _ => markCovered_cons o os e
  have hid : o.blocks = [] → ∀ q : List RetransmitSegment, q.map (markCovered os) = q.map
      (markCovered (o :: os)) := by
    intro hb q
    rw [← hmap q, hb]
    simp
  cases o with
  | sack blocks =>
    refine ⟨?_, rfl⟩
    have := hmap c.retransmitQueue
    simp only [TcpOption.blocks] at this
    unfold applyOption optionsApplied
    simp [this, lastMss_cons, TcpOption.mss?, TcpOption.blocks, Nat.add_assoc]
  | _ =>
    refine ⟨?_, rfl⟩
    have := hid rfl c.retransmitQueue
    unfold applyOption optionsApplied
    simp [lastMss_cons, TcpOption.mss?, TcpOption.blocks, this]

theorem foldl_applyOption :
    ∀ (c : TcpConnection) (ts : Option (Seq × Seq)),
      os.foldl applyOption (c, ts) = (c.optionsApplied os, (lastTimestamp os).or ts) := by
  induction os with
  | nil => intro c ts; rw [optionsApplied_nil]; simp [lastTimestamp]
  | cons o os ih =>
    intro c ts
    obtain ⟨h₁, h₂⟩ := optionsApplied_applyOption c ts o os
    rw [List.foldl_cons, ← Prod.mk.eta (p := applyOption (c, ts) o), ih, h₁, h₂, lastTimestamp_cons,
      Option.or_assoc]

def counted (now : Nat) : TcpConnection :=
  { c with currentTimeMs := now, stats := { c.stats with segmentsReceived := c.stats.segmentsReceived + 1 } }

theorem inspect_eq (c : TcpConnection) (seg : TcpSegment) (now : Nat) :
    c.inspect seg now = ((c.counted now).optionsApplied seg.options, lastTimestamp seg.options) := by
  have := foldl_applyOption seg.options (c.counted now) none
  rw [Option.or_none] at this
  exact this

/-! ## A segment on a synchronized connection -/

def timestampOf (seg : TcpSegment) : Option (Seq × Seq) :=
  if c.tsEnabled then lastTimestamp seg.options else none

def arrived (seg : TcpSegment) (now : Nat) : TcpConnection :=
  (c.counted now).optionsApplied seg.options

def stamped (seg : TcpSegment) (now : Nat) : TcpConnection :=
  (c.arrived seg now).recordTimestamp seg now (c.timestampOf seg)

section
variable {c : TcpConnection} {seg : TcpSegment} {now : Nat}

theorem intake_eq (h : c.synchronized = true ∨ seg.flags.syn = false) :
    c.intake seg now = (c.arrived seg now, c.timestampOf seg) := by
  have hn : (c.arrived seg now).negotiate seg (lastTimestamp seg.options) = c.arrived seg now := by
    unfold negotiate
    apply if_neg
    have hs : (c.arrived seg now).synchronized = c.synchronized := rfl
    rw [hs]
    cases h with
    | inl h | inr h => simp [h]
  have hi : c.inspect seg now = (c.arrived seg now, lastTimestamp seg.options) := inspect_eq c seg now
  unfold intake
  simp only [hi, hn]
  rfl

theorem pawsRejects_arrived (ts : Option (Seq × Seq)) :
    (c.arrived seg now).pawsRejects seg ts = c.pawsRejects seg ts := rfl

theorem handleSegmentAt_of_paws (h : c.synchronized = true) (hp : c.pawsRejects seg (c.timestampOf seg) = true) :
    c.handleSegmentAt seg now = ((c.arrived seg now).discardOld.1, some (c.arrived seg now).discardOld.2) := by
  unfold handleSegmentAt
  rw [intake_eq (.inl h)]
  simp only [pawsRejects_arrived, hp, if_true]

theorem handleSegmentAt_of_rst (h : c.synchronized = true) (hr : seg.flags.rst = true) :
    c.handleSegmentAt seg now = ((c.stamped seg now).handleRst seg, none) := by
  have hp : c.pawsRejects seg (c.timestampOf seg) = false := by
    cases c.timestampOf seg with
    | none => rfl
    | some t => simp [pawsRejects, hr]
  unfold handleSegmentAt
  rw [intake_eq (.inl h)]
  simp only [pawsRejects_arrived, hp, hr, Bool.false_eq_true, if_false, if_true]
  rfl

theorem handleSegmentAt_of_passed (h : c.synchronized = true) (hp : c.pawsRejects seg (c.timestampOf seg) = false)
    (hr : seg.flags.rst = false) : c.handleSegmentAt seg now = (c.stamped seg now).dispatch seg now := by
  unfold handleSegmentAt
  rw [intake_eq (.inl h)]
  simp only [pawsRejects_arrived, hp, hr, Bool.false_eq_true, if_false]
  rfl

theorem recordTimestamp_eq (c : TcpConnection) (seg : TcpSegment) (now : Nat) (ts : Option (Seq × Seq)) :
    ∃ (r : Seq) (a : Seq) (t : RttEstimator), c.recordTimestamp seg now ts =
      { c with tsRecent := r, lastTsAck := a, rtt := t } := by
  cases ts with
  | none | some p => exact ⟨_, _, _, rfl⟩

theorem stamped_eq (c : TcpConnection) (seg : TcpSegment) (now : Nat) :
    ∃ (r : Seq) (a : Seq) (t : RttEstimator), c.stamped seg now =
      { c.arrived seg now with tsRecent := r, lastTsAck := a, rtt := t } :=
  recordTimestamp_eq _ _ _ _

@[simp] theorem stamped_state : (c.stamped seg now).state = c.state := by
  obtain ⟨_, _, _, h⟩ := stamped_eq c seg now
  rw [h]
  rfl

@[simp] theorem stamped_sndUna : (c.stamped seg now).sndUna = c.sndUna := by
  obtain ⟨_, _, _, h⟩ := stamped_eq c seg now
  rw [h]
  rfl

@[simp] theorem stamped_sndNxt : (c.stamped seg now).sndNxt = c.sndNxt := by
  obtain ⟨_, _, _, h⟩ := stamped_eq c seg now
  rw [h]
  rfl

@[simp] theorem stamped_rcvNxt : (c.stamped seg now).rcvNxt = c.rcvNxt := by
  obtain ⟨_, _, _, h⟩ := stamped_eq c seg now
  rw [h]
  rfl

@[simp] theorem stamped_rcvCapacity : (c.stamped seg now).rcvCapacity = c.rcvCapacity := by
  obtain ⟨_, _, _, h⟩ := stamped_eq c seg now
  rw [h]
  rfl

@[simp] theorem stamped_rxBuffer : (c.stamped seg now).rxBuffer = c.rxBuffer := by
  obtain ⟨_, _, _, h⟩ := stamped_eq c seg now
  rw [h]
  rfl

@[simp] theorem stamped_tsEnabled : (c.stamped seg now).tsEnabled = c.tsEnabled := by
  obtain ⟨_, _, _, h⟩ := stamped_eq c seg now
  rw [h]
  rfl

@[simp] theorem stamped_retransmitQueue :
    (c.stamped seg now).retransmitQueue = c.retransmitQueue.map (markCovered seg.options) := by
  obtain ⟨_, _, _, h⟩ := stamped_eq c seg now
  rw [h]
  rfl

end

end TcpConnection

end SystemsLab.Tcp
