import Mathlib.Data.Fintype.Prod
import Mathlib.Data.Fintype.Sum
import SystemsLab.MiniOs.Descriptors

/-!
# Descriptor references are exact

A place is a descriptor slot or a stream field; it refers to a file or to an end of a pipe, and each counter equals
the number of places.
-/

namespace SystemsLab.MiniOs

open Function

/-! ## Places and what they refer to -/

inductive Ref
  | node (m : NodeId)
  | readEnd (p : PipeId)
  | writeEnd (p : PipeId)
deriving DecidableEq

variable {hand : List Ref} {r : Ref} {e : OpenFile} {p : PipeId}

instance : Fintype Stream :=
  ⟨{.stdoutNode, .stdinNode, .stdoutPipe, .stdinPipe}, fun f => by cases f <;> simp⟩

abbrev Place (n : Nat) := Fin n × (Fin maxOpenFiles ⊕ Stream)

def OpenFile.ref : OpenFile → Option Ref
  | .none => Option.none
  | .file m _ => some (.node m)
  | .pipeR p => some (.readEnd p)
  | .pipeW p => some (.writeEnd p)

def Stream.ref : Stream → Nat → Ref
  | .stdoutNode | .stdinNode => .node
  | .stdoutPipe => .writeEnd
  | .stdinPipe => .readEnd

def Kernel.holds {n : Nat} (k : Kernel n) : Place n → Option Ref
  | (i, .inl j) => (k.openFiles i j).ref
  | (i, .inr f) => ((k.streams i).get f).map f.ref

/-! ## Counters -/

namespace Objects

/-- `open_fs` calls minus `close_fs` calls of a file, readers and writers of a pipe; a freed pipe
has none. -/
def count (s : Objects) : Ref → Nat
  | .node m => s.opened m - s.closed m
  | .readEnd p => ((s.pipes p).map (·.readers)).getD 0
  | .writeEnd p => ((s.pipes p).map (·.writers)).getD 0

structure Sound (s : Objects) : Prop where
  closed_le : ∀ m, s.closed m ≤ s.opened m
  live : ∀ p, (s.pipes p).isSome ↔ 0 < s.count (.readEnd p) + s.count (.writeEnd p)
  safe : s.dangling = false

def Live (s : Objects) : Ref → Prop
  | .node _ => True
  | .readEnd p | .writeEnd p => (s.pipes p).isSome

def acquire (s : Objects) : Ref → Objects
  | .node m => s.openFs m
  | .readEnd p => s.pipeRefRead p
  | .writeEnd p => s.pipeRefWrite p

def release (s : Objects) : Ref → Objects
  | .node m => s.closeFs m
  | .readEnd p => s.pipeCloseRead p
  | .writeEnd p => s.pipeCloseWrite p

def acquire? (s : Objects) (o : Option Ref) : Objects := o.elim s s.acquire

def release? (s : Objects) (o : Option Ref) : Objects := o.elim s s.release

variable {s : Objects}

theorem takeEntry_eq (e : OpenFile) : s.takeEntry e = s.acquire? e.ref := by cases e <;> rfl

theorem dropEntry_eq (e : OpenFile) : s.dropEntry e = s.release? e.ref := by cases e <;> rfl

theorem takeStream_eq (f : Stream) (a : Option Nat) : s.takeStream f a = s.acquire? (a.map f.ref) := by
  cases a <;> cases f <;> rfl

theorem dropStream_eq (f : Stream) (a : Option Nat) : s.dropStream f a = s.release? (a.map f.ref) := by
  cases a <;> cases f <;> rfl

theorem usePipe_of_some {q : Pipe} (hp : s.pipes p = some q) (f : Pipe → Option Pipe) :
    s.usePipe p f = s.setPipe p (f q) := by
  simp [usePipe, hp]

theorem Sound.live_of_pos (hs : s.Sound) (hr : 0 < s.count r) : s.Live r := by
  cases r with
  | node m => trivial
  | readEnd p | writeEnd p => exact (hs.live p).mpr (by omega)

theorem count_setPipe (p : PipeId) (q : Option Pipe) (r : Ref) :
    (s.setPipe p q).count r =
      if r = .readEnd p then (q.map (·.readers)).getD 0
      else if r = .writeEnd p then (q.map (·.writers)).getD 0
      else s.count r := by
  cases r with
  | node m => simp [count, setPipe]
  | readEnd p' | writeEnd p' => by_cases h : p' = p <;> simp [count, setPipe, h]

theorem Sound.setPipe (hs : s.Sound) {q : Option Pipe}
    (hq : q.isSome ↔ 0 < (q.map (·.readers)).getD 0 + (q.map (·.writers)).getD 0) : (s.setPipe p q).Sound where
  closed_le := hs.closed_le
  live p' := by
    rw [count_setPipe, count_setPipe]
    by_cases h : p' = p
    · subst h; simpa [Objects.setPipe] using hq
    · simpa [Objects.setPipe, h] using hs.live p'
  safe := hs.safe

theorem count_openFs (hs : s.Sound) (m : NodeId) (r : Ref) :
    (s.openFs m).count r = s.count r + tally (some (.node m)) r := by
  cases r with
  | node m' =>
    have := hs.closed_le m'
    by_cases h : m = m'
    · subst h; simp [openFs, count]; omega
    · simp [openFs, count, tally, h, Ne.symm h]
  | readEnd p | writeEnd p => simp [openFs, count, tally]

theorem count_closeFs {m : NodeId} (hm : 0 < s.count (.node m)) (r : Ref) :
    (s.closeFs m).count r + tally (some (.node m)) r = s.count r := by
  cases r with
  | node m' =>
    by_cases h : m = m'
    · subst h; simp [closeFs, count] at hm ⊢; omega
    · simp [closeFs, count, tally, h, Ne.symm h]
  | readEnd p | writeEnd p => simp [closeFs, count, tally]

@[simp] theorem freeIfDone_readers (q : Pipe) : ((freeIfDone q).map (·.readers)).getD 0 = q.readers := by
  unfold freeIfDone; split <;> simp_all

@[simp] theorem freeIfDone_writers (q : Pipe) : ((freeIfDone q).map (·.writers)).getD 0 = q.writers := by
  unfold freeIfDone; split <;> simp_all

theorem isSome_freeIfDone (q : Pipe) : (freeIfDone q).isSome ↔ 0 < q.readers + q.writers := by
  unfold freeIfDone; split <;> simp_all; omega

theorem forall_ref (p : PipeId) {P : Ref → Prop} (hr : P (.readEnd p)) (hw : P (.writeEnd p))
    (h : ∀ r, r ≠ .readEnd p → r ≠ .writeEnd p → P r) (r : Ref) : P r := by
  by_cases h₁ : r = .readEnd p
  · exact h₁ ▸ hr
  by_cases h₂ : r = .writeEnd p
  · exact h₂ ▸ hw
  · exact h r h₁ h₂

theorem acquire_spec (hs : s.Sound) (hr : s.Live r) :
    (s.acquire r).Sound ∧ ∀ r', (s.acquire r).count r' = s.count r' + tally (some r) r' := by
  cases r with
  | node m =>
    refine ⟨⟨fun m' => ?_, hs.live, hs.safe⟩, count_openFs hs m⟩
    have := hs.closed_le m'
    by_cases h : m' = m
    · subst h; simp [acquire, openFs]; omega
    · simpa [acquire, openFs, h] using this
  | readEnd p | writeEnd p =>
    obtain ⟨q, hq⟩ := Option.isSome_iff_exists.mp hr
    simp only [acquire, pipeRefRead, pipeRefWrite, usePipe_of_some hq, count_setPipe]
    exact ⟨hs.setPipe (iff_of_true rfl (by dsimp; omega)),
      forall_ref p (by simp [count, hq, tally]) (by simp [count, hq, tally])
      fun r h h' => by simp [h, h', tally, h.symm, h'.symm]⟩

theorem release_spec (hs : s.Sound) (hr : 0 < s.count r) :
    (s.release r).Sound ∧ ∀ r', (s.release r).count r' + tally (some r) r' = s.count r' := by
  have live := hs.live_of_pos hr
  cases r with
  | node m =>
    refine ⟨⟨fun m' => ?_, hs.live, hs.safe⟩, count_closeFs hr⟩
    have := hs.closed_le m'
    by_cases h : m' = m
    · subst h; simp [release, closeFs, count] at hr ⊢; omega
    · simpa [release, closeFs, h] using this
  | readEnd p | writeEnd p =>
    obtain ⟨q, hq⟩ := Option.isSome_iff_exists.mp live
    simp only [count, hq, Option.map_some, Option.getD_some] at hr
    simp only [release, pipeCloseRead, pipeCloseWrite, usePipe_of_some hq, count_setPipe]
    exact ⟨hs.setPipe (by simp [isSome_freeIfDone]), forall_ref p (by simp [count, hq, tally] <;> omega)
      (by simp [count, hq, tally] <;> omega) fun r h h' => by simp [h, h', tally, h.symm, h'.symm]⟩

end Objects

/-! ## Balance -/

structure Balanced {n : Nat} (s : Objects) (h : Place n → Option Ref) (hand : List Ref) : Prop where
  sound : s.Sound
  exact : Exact s.count h hand

namespace Balanced
variable {n : Nat} {s : Objects} {h : Place n → Option Ref} {hand : List Ref} {o : Option Ref}

variable {x : Place n}

theorem live (hb : Balanced s h hand) (hx : h x = some r) : s.Live r :=
  hb.sound.live_of_pos (hb.exact.pos hx)

theorem acquire (hb : Balanced s h hand) (hr : s.Live r) : Balanced (s.acquire r) h (r :: hand) :=
  ⟨(Objects.acquire_spec hb.sound hr).1, hb.exact.acquire (Objects.acquire_spec hb.sound hr).2⟩

theorem release (hb : Balanced s h (r :: hand)) : Balanced (s.release r) h hand := by
  have hr : 0 < s.count r := by
    rw [hb.exact r, List.count_cons_self]
    omega
  exact ⟨(Objects.release_spec hb.sound hr).1, hb.exact.release (Objects.release_spec hb.sound hr).2⟩

theorem clear (hb : Balanced s h hand) (x : Place n) : Balanced (s.release? (h x)) (update h x none) hand := by
  have taken : Balanced s (update h x none) ((h x).toList ++ hand) :=
    ⟨hb.sound, Exact.exchange (o := none) hb.exact⟩
  cases hx : h x with
  | none => simpa [hx, Objects.release?] using taken
  | some r =>
    rw [hx] at taken
    exact taken.release

theorem place (hb : Balanced s h (o.toList ++ hand)) (hx : h x = none) : Balanced s (update h x o) hand :=
  ⟨hb.sound, by simpa [hx] using Exact.exchange (x := x) hb.exact⟩

theorem fill (hb : Balanced s h hand) (hx : h x = none) (ho : ∀ r, o = some r → s.Live r) :
    Balanced (s.acquire? o) (update h x o) hand := by
  cases o with
  | none => exact hb.place hx
  | some r => exact (hb.acquire (ho r rfl)).place (o := some r) hx

end Balanced

/-! ## What each helper changes -/

namespace Kernel
variable {n : Nat} {k : Kernel n}

@[simp] theorem holds_onObjects (f : Objects → Objects) : (k.onObjects f).holds = k.holds := rfl

theorem holds_setSlot (i : Fin n) (j : Fin maxOpenFiles) (e : OpenFile) :
    (k.setSlot i j e).holds = update k.holds (i, .inl j) e.ref := by
  funext p
  obtain ⟨i', x⟩ := p
  cases x with
  | inl j' =>
    by_cases hi : i' = i
    · subst hi
      by_cases hj : j' = j <;> simp [holds, setSlot, update, hj]
    · simp [holds, setSlot, update, hi]
  | inr f => simp [holds, setSlot, streams, update]

theorem get_set (f : Streams) (g g' : Stream) (a : Option Nat) :
    (f.set g a).get g' = if g' = g then a else f.get g' := by
  cases g <;> cases g' <;> rfl

theorem holds_setStreams (i : Fin n) (f : Streams) :
    (k.setStreams i f).holds = fun x => match x with
      | (i', .inr g) => if i' = i then (f.get g).map g.ref else k.holds (i', .inr g)
      | (i', .inl j) => k.holds (i', .inl j) := by
  funext p
  obtain ⟨i', x⟩ := p
  cases x with
  | inl j => rfl
  | inr g => by_cases hi : i' = i <;> simp [holds, setStreams, streams, ProcessTable.modify, ProcessTable.set, hi]

theorem holds_setStream (i : Fin n) (g : Stream) (a : Option Nat) :
    (k.setStreams i ((k.streams i).set g a)).holds = update k.holds (i, .inr g) (a.map g.ref) := by
  rw [holds_setStreams]
  funext p
  obtain ⟨i', x⟩ := p
  cases x with
  | inl j => simp [update]
  | inr g' =>
    by_cases hi : i' = i
    · subst hi
      by_cases hg : g' = g
      · subst hg; simp [get_set]
      · simp [get_set, hg, update, holds]
    · simp [update, hi]

structure Local (i : Fin n) (k k' : Kernel n) : Prop where
  holds : ∀ x : Place n, x.1 ≠ i → k'.holds x = k.holds x
  state : ∀ j, (k'.table.processes j).state = (k.table.processes j).state

theorem Local.refl (i : Fin n) (k : Kernel n) : Local i k k := ⟨fun _ _ => rfl, fun _ => rfl⟩

theorem Local.trans {i : Fin n} {k₁ k₂ k₃ : Kernel n} (h₁ : Local i k₁ k₂) (h₂ : Local i k₂ k₃) : Local i k₁ k₃ :=
  ⟨fun x hx => (h₂.holds x hx).trans (h₁.holds x hx), fun j => (h₂.state j).trans (h₁.state j)⟩

abbrev Balances (k : Kernel n) (hand : List Ref) : Prop := Balanced k.objects k.holds hand

theorem Local.of_update {i : Fin n} {k' : Kernel n} {y : Fin maxOpenFiles ⊕ Stream} {o : Option Ref}
    (hh : k'.holds = update k.holds (i, y) o)
    (hs : ∀ j, (k'.table.processes j).state = (k.table.processes j).state) :
    Local i k k' :=
  ⟨fun x hx => by rw [hh, update_of_ne (fun e => hx (by rw [e]))], hs⟩

theorem state_setStreams (i : Fin n) (f : Streams) (j : Fin n) :
    ((k.setStreams i f).table.processes j).state = (k.table.processes j).state := by
  by_cases h : j = i <;> simp [setStreams, ProcessTable.modify, ProcessTable.set, h]

structure Same (k k' : Kernel n) : Prop where
  holds : k'.holds = k.holds
  objects : k'.objects = k.objects
  state : ∀ j, (k'.table.processes j).state = (k.table.processes j).state

theorem same_setStreams {i : Fin n} {f : Streams} (hf : ∀ g, f.get g = (k.streams i).get g) :
    Same k (k.setStreams i f) := by
  refine ⟨?_, rfl, state_setStreams i f⟩
  rw [holds_setStreams]
  funext p
  obtain ⟨i', x⟩ := p
  cases x with
  | inl j => rfl
  | inr g => by_cases hi : i' = i <;> simp [Kernel.holds, hi, hf]

theorem same_setStdoutOffset (i : Fin n) (offset : UInt32) : Same k (k.setStdoutOffset i offset) :=
  same_setStreams fun g => by cases g <;> rfl

theorem same_setStdinOffset (i : Fin n) (offset : UInt32) : Same k (k.setStdinOffset i offset) :=
  same_setStreams fun g => by cases g <;> rfl

variable {hand : List Ref} {i : Fin n} {k' : Kernel n}

theorem Same.balances (h : Same k k') (hb : k.Balances hand) : k'.Balances hand := by
  rw [Balances, h.holds, h.objects]
  exact hb

theorem Same.frame (h : Same k k') (i : Fin n) : Local i k k' := ⟨fun x _ => by rw [h.holds], h.state⟩

theorem holds_closeFdEntry (i : Fin n) (j : Fin maxOpenFiles) :
    (k.closeFdEntry i j).holds = update k.holds (i, .inl j) none := by
  rw [closeFdEntry, holds_setSlot]; rfl

theorem holds_releaseStream (i : Fin n) (f : Stream) :
    (k.releaseStream i f).holds = update k.holds (i, .inr f) none :=
  holds_setStream (k := k.onObjects _) i f none

theorem holds_installStream (i : Fin n) (f : Stream) (a : Option Nat) :
    (k.installStream i f a).holds = update k.holds (i, .inr f) (a.map f.ref) := by
  rw [installStream, holds_onObjects, holds_setStream]

/-- Reached from `k₀` by steps of entry `i`, with the references of `hand` in no place yet. -/
structure Moved (k₀ : Kernel n) (i : Fin n) (hand : List Ref) (k : Kernel n) : Prop where
  balances : k.Balances hand
  frame : Local i k₀ k

namespace Moved
variable {k₀ : Kernel n} {j : Fin maxOpenFiles}

theorem start (hb : k.Balances hand) : Moved k i hand k := ⟨hb, .refl i k⟩

theorem put (h : Moved k₀ i hand k) {hand' : List Ref} {y : Fin maxOpenFiles ⊕ Stream} {o : Option Ref}
    (hh : k'.holds = update k.holds (i, y) o) (hs : ∀ j, (k'.table.processes j).state = (k.table.processes j).state)
    (hb : Balanced k'.objects (update k.holds (i, y) o) hand') : Moved k₀ i hand' k' :=
  ⟨by rw [Balances, hh]; exact hb, h.frame.trans (.of_update hh hs)⟩

theorem of_same (h : Moved k₀ i hand k) (hs : Same k k') : Moved k₀ i hand k' :=
  ⟨hs.balances h.balances, h.frame.trans (hs.frame i)⟩

theorem release (h : Moved k₀ i (r :: hand) k) : Moved k₀ i hand (k.onObjects (·.release r)) :=
  ⟨h.balances.release, h.frame.holds, h.frame.state⟩

theorem closeFdEntry (h : Moved k₀ i hand k) (j : Fin maxOpenFiles) : Moved k₀ i hand (k.closeFdEntry i j) := by
  have := h.balances.clear (i, .inl j)
  rw [holds, ← Objects.dropEntry_eq] at this
  exact h.put (holds_closeFdEntry i j) (fun _ => rfl) this

theorem releaseStream (h : Moved k₀ i hand k) (f : Stream) : Moved k₀ i hand (k.releaseStream i f) := by
  have := h.balances.clear (i, .inr f)
  rw [holds, ← Objects.dropStream_eq] at this
  exact h.put (holds_releaseStream i f) (state_setStreams i _) this

theorem installStream (h : Moved k₀ i hand k) {f : Stream} {a : Option Nat} (hx : k.holds (i, .inr f) = none)
    (ha : ∀ r, a.map f.ref = some r → k.objects.Live r) : Moved k₀ i hand (k.installStream i f a) := by
  have := h.balances.fill hx ha
  rw [← Objects.takeStream_eq] at this
  exact h.put (holds_installStream i f a) (state_setStreams i _) this

theorem copySlot (h : Moved k₀ i hand k) (hj : k.openFiles i j = .none)
    (he : ∀ r, e.ref = some r → k.objects.Live r) :
    Moved k₀ i hand ((k.setSlot i j e).onObjects (·.takeEntry e)) := by
  have := h.balances.fill (x := (i, .inl j)) (by simp [holds, hj, OpenFile.ref]) he
  rw [← Objects.takeEntry_eq] at this
  exact h.put (holds_setSlot i j e) (fun _ => rfl) this

theorem putSlot (h : Moved k₀ i (e.ref.toList ++ hand) k) (hj : k.openFiles i j = .none) :
    Moved k₀ i hand (k.setSlot i j e) :=
  h.put (holds_setSlot i j e) (fun _ => rfl) (h.balances.place (by simp [holds, hj, OpenFile.ref]))

end Moved

end Kernel

/-! ## The calls -/

namespace Kernel
variable {n : Nat} {k : Kernel n} {i : Fin n}
variable {j o : Fin maxOpenFiles} {k' : Kernel n}
variable {table : ProcessTable n Streams}

structure Inv (k : Kernel n) : Prop where
  balances : k.Balances []
  idle : ∀ i, (k.table.processes i).state ≠ .running → ∀ y, k.holds (i, y) = none

theorem Inv.of_moved (hk : k.Inv) (hi : (k.table.processes i).state = .running) (h : Moved k i [] k') : k'.Inv := by
  refine ⟨h.balances, fun j hj y => ?_⟩
  rw [h.frame.state j] at hj
  have hne : j ≠ i := fun e => hj (e ▸ hi)
  rw [h.frame.holds (j, y) hne]
  exact hk.idle j hj y

theorem freeSlot_eq_some (h : k.freeSlot i = some j) : k.openFiles i j = .none := by
  simpa using List.find?_some h

theorem allocFd_eq_some (h : k.allocFd i e = some (j, k')) : k.openFiles i j = .none ∧ k' = k.setSlot i j e := by
  simp only [allocFd, Option.map_eq_some_iff, Prod.mk.injEq] at h
  obtain ⟨j', hj, rfl, rfl⟩ := h
  exact ⟨freeSlot_eq_some hj, rfl⟩

theorem userFdIndex_inj {a b : Int} (ha : userFdIndex a = some j) (hb : userFdIndex b = some j) : a = b := by
  unfold userFdIndex at ha hb
  split at ha <;> split at hb <;> simp at ha hb
  rw [← hb] at ha
  simp at ha
  omega

theorem openUserFile_inv (hk : k.Inv) (hi : (k.table.processes i).state = .running) (m : NodeId) :
    (k.openUserFile i m).2.Inv := by
  unfold openUserFile
  split
  case h_1 => exact hk
  case h_2 j k' hj =>
    obtain ⟨free, rfl⟩ := allocFd_eq_some hj
    exact hk.of_moved hi (Moved.copySlot (e := .file m 0) (.start hk.balances) free (by rintro r ⟨⟩; trivial))

theorem Balances.pipeCreate (hb : k.Balances hand) {cell : Option (PipeId × (Fin pipeBufSize → UInt8))}
    {objects : Objects} (hp : k.objects.pipeCreate cell = some (p, objects)) :
    Balanced objects k.holds (.readEnd p :: .writeEnd p :: hand) := by
  unfold Objects.pipeCreate at hp
  split at hp
  · cases hp
  split at hp
  case isFalse => cases hp
  case isTrue hnone =>
    cases hp
    have hnone : k.objects.pipes p = none := by simpa using hnone
    refine ⟨hb.sound.setPipe (by simp), fun r => ?_⟩
    have h₁ := hb.exact r
    rw [Objects.count_setPipe, List.count_cons, List.count_cons]
    by_cases h : r = .readEnd p
    · subst h; simp [Objects.count, hnone] at h₁ ⊢; omega
    by_cases h' : r = .writeEnd p
    · subst h'; simp [Objects.count, hnone] at h₁ ⊢; omega
    · simp [h, h', Ne.symm h, Ne.symm h']; omega

theorem sysPipe_inv (hk : k.Inv) (hi : (k.table.processes i).state = .running) (valid : Bool)
    (cell : Option (PipeId × (Fin pipeBufSize → UInt8))) : (k.sysPipe i valid cell).2.Inv := by
  unfold sysPipe
  split
  case isTrue => exact hk
  split
  case h_1 => exact hk
  case h_2 p objects hp =>
    have h₀ : Moved k i [.readEnd p, .writeEnd p] { k with objects } :=
      ⟨hk.balances.pipeCreate hp, fun _ _ => rfl, fun _ => rfl⟩
    dsimp only
    split
    case h_1 => exact hk.of_moved hi h₀.release.release
    case h_2 r k₁ hr =>
      obtain ⟨free, rfl⟩ := allocFd_eq_some hr
      have h₁ := Moved.putSlot (e := .pipeR p) h₀ free
      split
      case h_1 =>
        -- the read end goes with its slot, the write end is still in hand
        exact hk.of_moved hi (h₁.closeFdEntry r).release
      case h_2 w k₂ hw =>
        obtain ⟨free, rfl⟩ := allocFd_eq_some hw
        exact hk.of_moved hi (h₁.putSlot (e := .pipeW p) free)

theorem Balances.live_slot (hb : k.Balances hand) (i : Fin n) (j : Fin maxOpenFiles) :
    ∀ r, (k.openFiles i j).ref = some r → k.objects.Live r :=
  fun r hr => Balanced.live (x := (i, .inl j)) hb (by simpa [holds] using hr)

theorem sysDup_inv (hk : k.Inv) (hi : (k.table.processes i).state = .running) (oldfd : Int) :
    (k.sysDup i oldfd).2.Inv := by
  unfold sysDup
  split
  case h_1 => exact hk
  case h_2 o ho =>
    dsimp only
    split
    case isTrue => exact hk
    split
    case h_1 => exact hk
    case h_2 j hj =>
      exact hk.of_moved hi (Moved.copySlot (.start hk.balances) (freeSlot_eq_some hj) (hk.balances.live_slot i o))

theorem Inv.of_same (hk : k.Inv) (h : Same k k') : k'.Inv :=
  ⟨h.balances hk.balances, fun i hi y => by rw [h.holds]; exact hk.idle i (h.state i ▸ hi) y⟩

section
variable (hk : k.Inv) (hi : (k.table.processes i).state = .running)
include hk hi

theorem dupToStream (f g g' : Stream) (hg : g' = f ∨ g' = g) {a : Nat}
    (ho : (k.openFiles i o).ref = some (g'.ref a)) :
    (((k.releaseStream i f).releaseStream i g).installStream i g' (some a)).Inv := by
  have h := ((Moved.start (i := i) hk.balances).releaseStream f).releaseStream g
  have hh : ((k.releaseStream i f).releaseStream i g).holds =
      update (update k.holds (i, .inr f) none) (i, .inr g) none := by
    rw [holds_releaseStream, holds_releaseStream]
  refine hk.of_moved hi (h.installStream ?_ ?_)
  · rw [hh]
    rcases hg with rfl | rfl <;> simp [update]
  · rintro r ⟨⟩
    refine Balanced.live (x := (i, .inl o)) h.balances ?_
    rw [hh]
    simpa [update, holds] using ho

theorem dupToStdout_inv (h : k.dupToStdout i (k.openFiles i o) = some k') : k'.Inv := by
  cases hsrc : k.openFiles i o with
  | none | pipeR p => simp [hsrc, dupToStdout] at h
  | pipeW p =>
    rw [hsrc] at h
    cases h
    exact dupToStream hk hi _ _ _ (.inl rfl) (by rw [hsrc]; rfl)
  | file m offset =>
    rw [hsrc] at h
    cases h
    exact (dupToStream hk hi _ _ _ (.inr rfl) (by rw [hsrc]; rfl)).of_same (same_setStdoutOffset i offset)

theorem dupToStdin_inv (h : k.dupToStdin i (k.openFiles i o) = some k') : k'.Inv := by
  cases hsrc : k.openFiles i o with
  | none | pipeW p => simp [hsrc, dupToStdin] at h
  | pipeR p =>
    rw [hsrc] at h
    cases h
    exact dupToStream hk hi _ _ _ (.inl rfl) (by rw [hsrc]; rfl)
  | file m offset =>
    rw [hsrc] at h
    cases h
    exact (dupToStream hk hi _ _ _ (.inr rfl) (by rw [hsrc]; rfl)).of_same (same_setStdinOffset i offset)

theorem sysDup2_inv (oldfd newfd : Int) : (k.sysDup2 i oldfd newfd).2.Inv := by
  unfold sysDup2
  split
  case h_1 => exact hk
  case h_2 o ho =>
    dsimp only
    split
    case isTrue => exact hk
    split
    case isTrue =>
      split
      case h_1 => exact hk
      case h_2 h => exact dupToStdout_inv hk hi h
    split
    case isTrue =>
      split
      case h_1 => exact hk
      case h_2 h => exact dupToStdin_inv hk hi h
    split
    case h_1 => exact hk
    case h_2 j hj =>
      split
      case isTrue => exact hk
      case isFalse hne =>
        -- the source keeps its reference while the target's is dropped
        have hoj : o ≠ j := fun e => hne (userFdIndex_inj hj (e ▸ ho))
        have h := (Moved.start (i := i) hk.balances).closeFdEntry j
        have hsrc : (k.closeFdEntry i j).openFiles i o = k.openFiles i o := by
          simp [closeFdEntry, setSlot, onObjects, hoj]
        have hfree : (k.closeFdEntry i j).openFiles i j = .none := by simp [closeFdEntry, setSlot]
        exact hk.of_moved hi (h.copySlot hfree (hsrc ▸ h.balances.live_slot i o))

theorem sysClose_inv (fd : Int) : (k.sysClose i fd).2.Inv := by
  unfold sysClose
  split
  case h_1 => exact hk
  case h_2 j hj =>
    split
    case isTrue => exact hk
    case isFalse => exact hk.of_moved hi ((Moved.start hk.balances).closeFdEntry j)

end

/-! ### Whole tables -/

variable {k₀ : Kernel n}

theorem openFiles_closeFdEntry (j j' : Fin maxOpenFiles) :
    (k.closeFdEntry i j).openFiles i j' = if j' = j then .none else k.openFiles i j' := by
  by_cases h : j' = j <;> simp [closeFdEntry, setSlot, onObjects, h]

theorem closeAll_spec (js : List (Fin maxOpenFiles)) (h : Moved k₀ i hand k) :
    let k' := js.foldl (fun k j => if k.openFiles i j = .none then k else k.closeFdEntry i j) k
    Moved k₀ i hand k' ∧ (∀ j, j ∈ js ∨ k.openFiles i j = .none → k'.openFiles i j = .none) ∧
      k'.table = k.table := by
  induction js generalizing k with
  | nil => exact ⟨h, by simp, rfl⟩
  | cons j js ih =>
    rw [List.foldl_cons]
    by_cases hj : k.openFiles i j = .none
    · rw [if_pos hj]
      obtain ⟨h', hc, ht⟩ := ih h
      refine ⟨h', fun j' h => hc j' ?_, ht⟩
      rcases h with h | h
      · rcases List.mem_cons.mp h with rfl | h
        · exact .inr hj
        · exact .inl h
      · exact .inr h
    · rw [if_neg hj]
      obtain ⟨h', hc, ht⟩ := ih (h.closeFdEntry j)
      refine ⟨h', fun j' h => hc j' ?_, ht⟩
      rw [openFiles_closeFdEntry]
      rcases h with h | h
      · rcases List.mem_cons.mp h with rfl | h
        · exact .inr (by simp)
        · exact .inl h
      · exact .inr (by simp [h])

theorem closeUserFiles_spec (h : Moved k₀ i hand k) :
    Moved k₀ i hand (k.closeUserFiles i) ∧ (∀ j, (k.closeUserFiles i).openFiles i j = .none) ∧
      (k.closeUserFiles i).table = k.table := by
  obtain ⟨h', hc, ht⟩ := closeAll_spec (List.finRange maxOpenFiles) h
  exact ⟨h', fun j => hc j (.inl (List.mem_finRange j)), ht⟩

theorem copyAll_spec (parent child : Fin n) (js : List (Fin maxOpenFiles))
    (hnd : js.Nodup) (h : Moved k₀ child hand k) (hempty : ∀ j ∈ js, k.openFiles child j = .none) :
    let k' := js.foldl (copyUserFile parent child) k
    Moved k₀ child hand k' ∧ k'.table = k.table := by
  induction js generalizing k with
  | nil => exact ⟨h, rfl⟩
  | cons j js ih =>
    obtain ⟨hj, hnd⟩ := List.nodup_cons.mp hnd
    have h₁ : Moved k₀ child hand (copyUserFile parent child k j) :=
      h.copySlot (hempty j (by simp)) (h.balances.live_slot parent j)
    have hempty₁ : ∀ j' ∈ js, (copyUserFile parent child k j).openFiles child j' = .none := by
      intro j' hj'
      have : j' ≠ j := fun e => hj (e ▸ hj')
      simpa [copyUserFile, setSlot, onObjects, this] using hempty j' (by simp [hj'])
    exact ih hnd h₁ hempty₁

/-! ### Processes -/

theorem holds_congr (hf : k'.openFiles = k.openFiles)
    (hs : ∀ i g, ((k'.streams i).get g).map g.ref = k.holds (i, .inr g)) : k'.holds = k.holds := by
  funext p
  obtain ⟨i, x⟩ := p
  cases x with
  | inl j => simp [holds, hf]
  | inr g => exact hs i g

theorem get_default (g : Stream) : (default : Streams).get g = none := by cases g <;> rfl

theorem Inv.of_table (hk : k.Inv)
    (hs : ∀ i g, ((table.processes i).own.get g).map g.ref = k.holds (i, .inr g))
    (hidle : ∀ i, (table.processes i).state ≠ .running → (k.table.processes i).state ≠ .running ∨ ∀ y,
      k.holds (i, y) = none) :
    Inv { k with table } ∧ Kernel.holds { k with table } = k.holds := by
  have hh : Kernel.holds { k with table } = k.holds := holds_congr rfl hs
  refine ⟨⟨by rw [Balances, hh]; exact hk.balances, fun i hi y => ?_⟩, hh⟩
  rw [hh]
  exact (hidle i hi).elim (fun h => hk.idle i h y) fun h => h y

theorem Inv.set_entry (hk : k.Inv) (hidle : ∀ y, k.holds (i, y) = none) {p : Process Streams} (hp : p.own = default)
    (ht : table.processes = update k.table.processes i p) :
    Inv { k with table } ∧ Kernel.holds { k with table } = k.holds := by
  refine hk.of_table (fun i' g => ?_) fun i' hi' => ?_ <;> obtain rfl | hi := eq_or_ne i' i
  · simp [ht, hp, get_default, hidle]
  · simp [streams, ht, hi, holds]
  · exact .inr hidle
  · exact .inl (by simpa [ht, hi] using hi')

theorem Inv.release (hk : k.Inv) (hidle : ∀ y, k.holds (i, y) = none) : Inv { k with table := k.table.release i } :=
  (hk.set_entry hidle rfl rfl).1

theorem Inv.of_processes (hk : k.Inv) (ht : table.processes = k.table.processes) : Inv { k with table } :=
  (hk.of_table (fun i g => by rw [ht]; rfl) fun i hi => .inl (ht ▸ hi)).1

theorem processLaunch_inv (hk : k.Inv) (caller : Option (Fin n)) (task : Bool) :
    (k.processLaunch caller task).2.Inv := by
  unfold processLaunch
  split
  case h_1 table h => exact hk.of_processes (ProcessTable.allocate_spec h).2
  case h_2 i table h =>
    obtain ⟨hunused, pid, ht, -⟩ := (ProcessTable.allocate_spec h).2
    have hidle := hk.idle i (by simp [hunused])
    obtain ⟨hk', hh⟩ := hk.set_entry hidle rfl ht
    split
    · exact hk'
    · exact hk'.release (by rw [hh]; exact hidle)

structure Inheriting (k₀ : Kernel n) (child : Fin n) (left : List Stream) (k : Kernel n) : Prop extends
    Moved k₀ child [] k where
  left : ∀ g ∈ left, k.holds (child, .inr g) = none

namespace Inheriting
variable {parent child : Fin n} {g : Stream} {left : List Stream}

theorem install (hi : Inheriting k₀ child (g :: left) k) (hne : parent ≠ child) (hg : g ∉ left) :
    Inheriting k₀ child left (k.installStream child g ((k₀.streams parent).get g)) := by
  have hput : Moved k₀ child [] (k.installStream child g ((k₀.streams parent).get g)) :=
    hi.toMoved.installStream (hi.left g (by simp)) fun r hr =>
      -- the parent still refers to it
      Balanced.live (x := (parent, .inr g)) hi.balances (by rw [hi.frame.holds _ hne]; exact hr)
  refine ⟨hput, fun g' hg' => ?_⟩
  rw [holds_installStream, update_of_ne]
  · exact hi.left g' (by simp [hg'])
  · rintro ⟨⟩
    exact hg hg'

theorem of_same (hi : Inheriting k₀ child left k) (h : Same k k') : Inheriting k₀ child left k' :=
  ⟨hi.toMoved.of_same h, fun g hg => by rw [h.holds]; exact hi.left g hg⟩

end Inheriting

theorem inheritStreams_spec {parent child : Fin n} (hne : parent ≠ child) (hb : k.Balances [])
    (hempty : ∀ g, k.holds (child, .inr g) = none) : Inheriting k child [] (k.inheritStreams parent child) := by
  have h₀ : Inheriting k child [.stdoutNode, .stdinNode, .stdoutPipe, .stdinPipe] k :=
    ⟨.start hb, fun g _ => hempty g⟩
  have h₁ := (h₀.install hne (by simp)).of_same (same_setStdoutOffset child (k.streams parent).stdoutOffset)
  have h₂ := (h₁.install hne (by simp)).of_same (same_setStdinOffset child (k.streams parent).stdinOffset)
  exact (h₂.install hne (by simp)).install hne (by simp)

theorem releaseAll_spec (gs : List Stream) (h : Moved k₀ i hand k) :
    let k' := gs.foldl (fun k g => k.releaseStream i g) k
    Moved k₀ i hand k' ∧ ∀ g, g ∈ gs ∨ k.holds (i, .inr g) = none → k'.holds (i, .inr g) = none := by
  induction gs generalizing k with
  | nil => exact ⟨h, by simp⟩
  | cons g gs ih =>
    obtain ⟨h', hc⟩ := ih (h.releaseStream g)
    refine ⟨h', fun g' h => hc g' ?_⟩
    rw [holds_releaseStream]
    by_cases hg : g' = g
    · exact .inr (by simp [hg])
    · rcases h with h | h
      · exact .inl (by simpa [hg] using h)
      · exact .inr (by simp [update, hg, h])

theorem strip_spec (h : Moved k₀ i hand k) (gs : List Stream) (hgs : ∀ g, g ∈ gs) :
    let k' := (gs.foldl (fun k g => k.releaseStream i g) k).closeUserFiles i
    Moved k₀ i hand k' ∧ ∀ y, k'.holds (i, y) = none := by
  obtain ⟨h₁, hc₁⟩ := releaseAll_spec gs h
  obtain ⟨h₂, hc₂, ht⟩ := closeUserFiles_spec h₁
  refine ⟨h₂, fun y => ?_⟩
  cases y with
  | inl j => rw [holds, hc₂ j]; rfl
  | inr g =>
    rw [holds, streams, ht]
    exact hc₁ g (.inl (hgs g))

theorem processFork_inv (hk : k.Inv) (hi : (k.table.processes i).state = .running) (task : Bool) :
    (k.processFork i task).2.Inv := by
  unfold processFork
  split
  case h_1 table h => exact hk.of_processes (ProcessTable.allocate_spec h).2
  case h_2 child table h =>
    obtain ⟨hunused, pid, (ht : table.processes = _), -⟩ := (ProcessTable.allocate_spec h).2
    have hne : i ≠ child := fun e => by rw [e, hunused] at hi; cases hi
    have hidle := hk.idle child (by simp [hunused])
    obtain ⟨hk₁, hh₁⟩ := hk.set_entry hidle rfl ht
    have hrun : (table.processes child).state = .running := by simp [ht]
    rw [← hh₁] at hidle
    have hslots : ∀ j, k.openFiles child j = .none := by
      intro j
      have := hidle (.inl j)
      cases hj : k.openFiles child j <;> simp_all [holds, OpenFile.ref]
    obtain ⟨h₂, ht₂⟩ := copyAll_spec i child (List.finRange maxOpenFiles) (List.nodup_finRange _)
      (.start hk₁.balances)
      fun j _ => hslots j
    have hstreams : ∀ g, (copyUserFiles { k with table } i child).holds (child, .inr g) = none := by
      intro g
      rw [holds, streams, copyUserFiles, ht₂]
      exact hidle (.inr g)
    have hinherit := inheritStreams_spec hne h₂.balances hstreams
    have h₃ : Moved { k with table } child [] _ := ⟨hinherit.balances, h₂.frame.trans hinherit.frame⟩
    split
    case isTrue => exact hk₁.of_moved hrun h₃
    case isFalse =>
      obtain ⟨h₄, hempty⟩ := strip_spec h₃ [.stdoutNode, .stdinNode, .stdoutPipe, .stdinPipe]
        (fun g => by cases g <;> simp)
      exact (hk₁.of_moved hrun h₄).release hempty

theorem Moved.redirect (h : Moved k₀ i hand k) (g : Stream) (a : Option NodeId) (hg : ∀ m, g.ref m = .node m) :
    Moved k₀ i hand ((k.releaseStream i g).installStream i g a) := by
  refine (h.releaseStream g).installStream (by rw [holds_releaseStream]; simp) fun r hr => ?_
  obtain ⟨m, -, rfl⟩ := Option.map_eq_some_iff.mp hr
  rw [hg m]
  trivial

theorem processRedirect_inv (hk : k.Inv) (pid : Int) (outNode : Option NodeId) (outOffset : UInt32)
    (inNode : Option NodeId) : (k.processRedirect pid outNode outOffset inNode).Inv := by
  unfold processRedirect
  split
  case h_1 => exact hk
  case h_2 i hfind =>
    split
    case isTrue => exact hk
    case isFalse hrun =>
      have hout := ((Moved.start (i := i) hk.balances).redirect .stdoutNode outNode fun _ => rfl).of_same
        (same_setStdoutOffset i outOffset)
      have hin := (hout.redirect .stdinNode inNode fun _ => rfl).of_same (same_setStdinOffset i 0)
      exact hk.of_moved (not_not.mp hrun) hin

theorem Inv.retire (hk : k.Inv) (hidle : ∀ y, k.holds (i, y) = none) (status : Int) :
    Inv { k with table := k.table.modify i fun p => { p with exitStatus := status, state := .zombie } } := by
  refine (hk.of_table (fun i' g => ?_) fun i' hi' => ?_).1 <;> obtain rfl | hi := eq_or_ne i' i
  · simp [streams, ProcessTable.modify, ProcessTable.set, holds]
  · simp [streams, ProcessTable.modify, ProcessTable.set, hi, holds]
  · exact .inr hidle
  · exact .inl (by simpa [ProcessTable.modify, ProcessTable.set, hi] using hi')

theorem Inv.leaveChildren (hk : k.Inv) (pid : Int) : Inv { k with table := k.table.leaveChildren pid } := by
  refine (hk.of_table (fun i g => ?_) fun i hi => .inl fun hrun => hi ?_).1 <;>
    simp only [ProcessTable.leaveChildren] <;> split
  · rfl
  · split
    case isTrue hz => rw [hk.idle i (by simp [hz])]; simp [Process.zeroed, get_default]
    case isFalse => rfl
  · exact hrun
  · simp [hrun]

theorem processFinishExit_inv (hk : k.Inv) (hi : (k.table.processes i).state = .running) (status : Int) :
    (k.processFinishExit i status).Inv := by
  have hk₁ := hk.leaveChildren (k.table.processes i).pid
  have hrun : ((k.table.leaveChildren (k.table.processes i).pid).processes i).state = .running := by
    simp only [ProcessTable.leaveChildren]
    split
    · exact hi
    · simp [hi]
  obtain ⟨h, hempty⟩ := strip_spec (i := i) (.start hk₁.balances) [.stdoutPipe, .stdinPipe, .stdoutNode, .stdinNode]
    (fun g => by cases g <;> simp)
  have hk₃ := (hk₁.of_moved hrun h).retire hempty status
  unfold processFinishExit
  dsimp only
  split
  case isFalse => exact hk₃
  case isTrue => exact hk₃.release fun y => hk₃.idle i (by simp [ProcessTable.modify, ProcessTable.set]) y

theorem reap_inv (hk : k.Inv) (i : Fin n) : (k.reap i).Inv := by
  unfold reap
  split
  case isTrue hz => exact hk.release (hk.idle i (by simp [hz]))
  case isFalse => exact hk

theorem step_inv (hk : k.Inv) (op : DescriptorOp n) : (k.step op).Inv := by
  unfold step
  split
  case isFalse => exact hk
  case isTrue hrun =>
    cases op with
    | processLaunch caller task => exact processLaunch_inv hk caller task
    | sysOpen i resolved | sysCreate i resolved =>
      cases resolved with
      | none => exact hk
      | some m => exact openUserFile_inv hk (hrun i rfl) m
    | sysPipe i valid cell => exact sysPipe_inv hk (hrun i rfl) valid cell
    | sysDup i oldfd => exact sysDup_inv hk (hrun i rfl) oldfd
    | sysDup2 i oldfd newfd => exact sysDup2_inv hk (hrun i rfl) oldfd newfd
    | sysClose i fd => exact sysClose_inv hk (hrun i rfl) fd
    | processFork i task => exact processFork_inv hk (hrun i rfl) task
    | processRedirect pid outNode outOffset inNode => exact processRedirect_inv hk pid outNode outOffset inNode
    | processFinishExit i status => exact processFinishExit_inv hk (hrun i rfl) status
    | reap i => exact reap_inv hk i

theorem boot_inv : (boot : Kernel n).Inv := by
  have hh : (boot : Kernel n).holds = fun _ => none := by
    funext p
    obtain ⟨i, x⟩ := p
    cases x with
    | inl j => rfl
    | inr g => simp [holds, streams, boot, ProcessTable.boot, Process.zeroed, get_default]
  refine ⟨⟨⟨fun m => Nat.le_refl _, fun p => by simp [boot, Objects.count], rfl⟩, fun r => ?_⟩,
    fun i _ y => by rw [hh]⟩
  rw [hh, holders_eq_zero (by simp)]
  cases r <;> simp [boot, Objects.count]

theorem run_inv (hk : k.Inv) (ops : List (DescriptorOp n)) : (k.run ops).Inv :=
  ops.foldlRecOn _ hk fun _ hk op _ => step_inv hk op

/-- A file's opens minus its closes are the places that refer to it; a pipe has as many readers and writers as
places refer to its ends, and is there exactly while some place does; and no freed pipe is used. -/
theorem references_exact (ops : List (DescriptorOp n)) :
    let k := (boot : Kernel n).run ops
    (∀ m, k.objects.opened m = k.objects.closed m + holders k.holds (.node m)) ∧
    (∀ p q, k.objects.pipes p = some q →
      q.readers = holders k.holds (.readEnd p) ∧ q.writers = holders k.holds (.writeEnd p)) ∧
    (∀ p, k.objects.pipes p = none ↔ holders k.holds (.readEnd p) = 0 ∧ holders k.holds (.writeEnd p) = 0) ∧
    (∀ x r, k.holds x = some r → k.objects.Live r ∧ 0 < k.objects.count r) ∧
    k.objects.dangling = false := by
  intro k
  have hk : k.Inv := run_inv boot_inv ops
  have hexact : ∀ r, k.objects.count r = holders k.holds r := fun r => by simpa using hk.balances.exact r
  refine ⟨fun m => ?_, fun p q hq => ?_, fun p => ?_, fun x r hx => ⟨hk.balances.live hx, hk.balances.exact.pos hx⟩,
    hk.balances.sound.safe⟩
  · have h₁ := hexact (.node m)
    have h₂ := hk.balances.sound.closed_le m
    simp only [Objects.count] at h₁
    omega
  · have h₁ := hexact (.readEnd p)
    have h₂ := hexact (.writeEnd p)
    simp only [Objects.count, hq] at h₁ h₂
    exact ⟨h₁, h₂⟩
  · have h := hk.balances.sound.live p
    rw [hexact, hexact] at h
    rw [← Option.not_isSome_iff_eq_none, h]
    omega

end Kernel

end SystemsLab.MiniOs
