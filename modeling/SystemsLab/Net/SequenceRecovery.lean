import Mathlib.Algebra.Group.Int.Defs
import Mathlib.Algebra.Group.Nat.Defs
import SystemsLab.Lib.Along

/-!
# The sequence recovery function

`frer_srf.rs`: frames carry packet numbers modulo `2 ^ 16`, which within the window are as far apart as the packets.
-/

namespace SystemsLab.Net

def seqDistance (a b : BitVec 16) : Int :=
  let d := b - a
  if d ≤ 0x7fff then d.toNat else d.toNat - 0x10000

abbrev SequenceHistory : Type := List Bool

namespace SequenceHistory
variable (seen : SequenceHistory)

def new (historyLength : Nat) : SequenceHistory := List.replicate historyLength false

def get (idx : Nat) : Bool := seen.getD idx false

def set (idx : Nat) : SequenceHistory := List.set seen idx true

def shiftRight (count : Nat) : SequenceHistory :=
  if seen.length ≤ count then new seen.length else new count ++ seen.take (seen.length - count)

/-- The bits are the packets among `earlier` from `m` downwards. -/
def Shows (H : Nat) (m : Int) (earlier : List Int) : Prop :=
  seen.length = H ∧ ∀ i : Nat, i < H → (seen.get i = true ↔ m - i ∈ earlier)

variable {seen} {H : Nat} {m n : Int} {earlier : List Int}

theorem get_set {i : Nat} (hi : i < seen.length) (idx : Nat) :
    (seen.set idx).get i = (decide (idx = i) || seen.get i) := by
  by_cases h : idx = i <;> simp [SequenceHistory.set, get, h, hi]

theorem length_shiftRight (count : Nat) : (seen.shiftRight count).length = seen.length := by
  rw [shiftRight]
  split
  · exact List.length_replicate
  · simp only [new, List.length_append, List.length_replicate, List.length_take]
    omega

theorem get_shiftRight {i : Nat} (hi : i < seen.length) (count : Nat) :
    (seen.shiftRight count).get i = (decide (count ≤ i) && seen.get (i - count)) := by
  rw [shiftRight]
  split
  · have h : ¬ count ≤ i := by omega
    simp [new, get, h, hi]
  · simp only [new, get, List.getD_eq_getElem?_getD, List.getElem?_append, List.length_replicate]
    by_cases h : count ≤ i
    · have h' : i - count < seen.length - count := by omega
      rw [if_neg (Nat.not_lt.mpr h), List.getElem?_take_of_lt h', decide_eq_true h, Bool.true_and]
    · rw [if_pos (Nat.not_le.mp h), decide_eq_false h, Bool.false_and, List.getElem?_replicate]
      split <;> rfl

theorem shows_new (H : Nat) (m : Int) : (new H).Shows H m [] := by
  refine ⟨List.length_replicate, fun i hi => ?_⟩
  simp [new, get, hi]

theorem Shows.set (h : seen.Shows H m earlier) (hn : n ≤ m) :
    (seen.set (m - n).toNat).Shows H m (n :: earlier) := by
  obtain ⟨rfl, hbits⟩ := h
  refine ⟨List.length_set, fun i hi => ?_⟩
  have hbit : (m - n).toNat = i ↔ m - i = n := by omega
  rw [get_set hi, List.mem_cons, ← hbits i hi, Bool.or_eq_true, decide_eq_true_eq, hbit]

theorem Shows.shiftRight (h : seen.Shows H m earlier) (hmax : ∀ k ∈ earlier, k ≤ m) (hn : m < n) :
    (seen.shiftRight (n - m).toNat).Shows H n earlier := by
  obtain ⟨rfl, hbits⟩ := h
  refine ⟨length_shiftRight _, fun i hi => ?_⟩
  rw [get_shiftRight hi, Bool.and_eq_true, decide_eq_true_eq]
  by_cases hi' : (n - m).toNat ≤ i
  · rw [and_iff_right hi', hbits _ (by omega), show m - ((i - (n - m).toNat : Nat) : Int) = n - i by omega]
  · have hnew : n - i ∉ earlier := fun hmem => by have := hmax _ hmem; omega
    simp [hi', hnew]

end SequenceHistory

inductive SrfVerdict
  | accept
  | acceptOutOfOrder
  | eliminateDuplicate
  | dropRogue
deriving DecidableEq, Repr

structure SrfStats where
  accepted : UInt64 := 0
  outOfOrderAccepted : UInt64 := 0
  duplicatesEliminated : UInt64 := 0
  rogueDropped : UInt64 := 0

/-- What each verdict adds to the counters. -/
def SrfStats.count (t : SrfStats) : SrfVerdict → SrfStats
  | .accept => { t with accepted := t.accepted + 1 }
  | .acceptOutOfOrder => { t with accepted := t.accepted + 1, outOfOrderAccepted := t.outOfOrderAccepted + 1 }
  | .eliminateDuplicate => { t with duplicatesEliminated := t.duplicatesEliminated + 1 }
  | .dropRogue => { t with rogueDropped := t.rogueDropped + 1 }

structure SrfInstance where
  recvSeq : BitVec 16
  history : SequenceHistory
  takeAny : Bool
  stats : SrfStats

namespace SrfInstance

def new (historyLength : Nat) : SrfInstance := ⟨0, .new historyLength, true, {}⟩

def conclude (s : SrfInstance) (recvSeq : BitVec 16) (history : SequenceHistory) (v : SrfVerdict) :
    SrfInstance × SrfVerdict :=
  (⟨recvSeq, history, false, s.stats.count v⟩, v)

def process (s : SrfInstance) (seq : BitVec 16) : SrfInstance × SrfVerdict :=
  let delta := seqDistance s.recvSeq seq
  let idx := (-delta).toNat - 1
  if s.takeAny then s.conclude (seq + 1) ((SequenceHistory.new s.history.length).set 0) .accept
  else if 0 ≤ delta then
    s.conclude (seq + 1) ((s.history.shiftRight (delta.toNat + 1)).set 0)
      (if 0 < delta then .acceptOutOfOrder else .accept)
  else if s.history.length ≤ idx then s.conclude s.recvSeq s.history .dropRogue
  else if s.history.get idx then s.conclude s.recvSeq s.history .eliminateDuplicate
  else s.conclude s.recvSeq (s.history.set idx) .acceptOutOfOrder

/-- The numbers that came before go with the instance. -/
def arrive (s : SrfInstance × List Int) (n : Int) : SrfInstance × List Int :=
  ((s.1.process (.ofInt 16 n)).1, n :: s.2)

/-- The newest number so far is at most `2 ^ 15` behind `n`, or less than `H` ahead. -/
def InWindow (H : Nat) (s : SrfInstance × List Int) (n : Int) : Prop :=
  ∀ m ∈ s.2, (∀ k ∈ s.2, k ≤ m) → n - 2 ^ 15 ≤ m ∧ m < n + H

instance (H : Nat) (s : SrfInstance × List Int) (n : Int) : Decidable (InWindow H s n) :=
  inferInstanceAs (Decidable (∀ m ∈ s.2, (∀ k ∈ s.2, k ≤ m) → n - 2 ^ 15 ≤ m ∧ m < n + H))

def Recovers (s : SrfInstance × List Int) (n : Int) : Prop :=
  let v := (s.1.process (.ofInt 16 n)).2
  if n ∈ s.2 then v = .eliminateDuplicate else v = .accept ∨ v = .acceptOutOfOrder

/-- The window ends at the newest number `m`, and shows what came. -/
structure Synced (H : Nat) (m : Int) (s : SrfInstance × List Int) : Prop where
  learned : s.1.takeAny = false
  newest : m ∈ s.2 ∧ ∀ k ∈ s.2, k ≤ m
  recvSeq : s.1.recvSeq = .ofInt 16 m + 1
  history : s.1.history.Shows H m s.2

theorem seqDistance_ofInt {m n : Int} (h : m < n + 2 ^ 15) (h' : n ≤ m + 2 ^ 15) :
    seqDistance (.ofInt 16 m + 1) (.ofInt 16 n) = n - m - 1 := by
  rw [show BitVec.ofInt 16 m + 1 = .ofInt 16 (m + 1) from (BitVec.ofInt_add m 1).symm]
  simp only [seqDistance, BitVec.le_def, BitVec.toNat_sub, BitVec.toNat_ofInt]
  split <;> simp at * <;> omega

variable {H : Nat} {m n : Int} {s : SrfInstance × List Int}

theorem Synced.step (hH : 1 ≤ H) (hH' : H ≤ 2 ^ 15) (h : Synced H m s) (hn : InWindow H s n) :
    Recovers s n ∧ ∃ m, Synced H m (arrive s n) := by
  obtain ⟨ht, hnew, hseq, hshows⟩ := h
  obtain ⟨hlo, hhi⟩ := hn m hnew.1 hnew.2
  have hd : seqDistance s.1.recvSeq (.ofInt 16 n) = n - m - 1 := by rw [hseq, seqDistance_ofInt] <;> omega
  simp only [Recovers, arrive, process, hd, ht, Bool.false_eq_true, if_false]
  by_cases hlt : m < n
  · -- ahead of the window, which moves on
    have hmem : n ∉ s.2 := fun hmem => by have := hnew.2 n hmem; omega
    have hshift := (hshows.shiftRight hnew.2 hlt).set (n := n) (Int.le_refl n)
    rw [show (n - m).toNat = (n - m - 1).toNat + 1 by omega, Int.sub_self] at hshift
    rw [if_neg hmem, if_pos (show 0 ≤ n - m - 1 by omega)]
    refine ⟨?_, n, rfl, ⟨List.mem_cons_self, ?_⟩, rfl, hshift⟩
    · dsimp only [conclude]
      split <;> simp
    · exact List.forall_mem_cons.mpr ⟨Int.le_refl n, fun k hk => Int.le_trans (hnew.2 k hk) (Int.le_of_lt hlt)⟩
  · have hbit := hshows.2 (m - n).toNat (by omega)
    rw [show m - ((m - n).toNat : Int) = n by omega] at hbit
    have hnewest : m ∈ n :: s.2 ∧ ∀ k ∈ n :: s.2, k ≤ m :=
      ⟨List.mem_cons_of_mem n hnew.1, List.forall_mem_cons.mpr ⟨Int.not_lt.mp hlt, hnew.2⟩⟩
    rw [if_neg (show ¬ 0 ≤ n - m - 1 by omega), show (-(n - m - 1)).toNat - 1 = (m - n).toNat by omega,
      if_neg (show ¬ s.1.history.length ≤ (m - n).toNat by rw [hshows.1]; omega)]
    by_cases hold : n ∈ s.2
    · rw [if_pos hold, if_pos (hbit.mpr hold)]
      refine ⟨rfl, m, rfl, hnewest, hseq, hshows.1, fun i hi => ?_⟩
      rw [conclude, hshows.2 i hi, List.mem_cons, or_iff_right_of_imp (· ▸ hold)]
    · rw [if_neg hold, if_neg (mt hbit.mp hold)]
      exact ⟨.inr rfl, m, rfl, hnewest, hseq, hshows.set (Int.not_lt.mp hlt)⟩

/-- Within the window the first copy of each packet is accepted and every later one is eliminated. -/
theorem recovers_exactly_once (hH : 1 ≤ H) (hH' : H ≤ 2 ^ 15) (ns : List Int)
    (h : Along arrive (InWindow H) (new H, []) ns) : Along arrive Recovers (new H, []) ns := by
  cases ns with
  | nil => trivial
  | cons n ns =>
    have hshows : ((SequenceHistory.new (SequenceHistory.new H).length).set 0).Shows H n [n] := by
      simpa [SequenceHistory.new] using (SequenceHistory.shows_new H n).set (Int.le_refl n)
    refine ⟨.inl rfl, h.2.of_inv (I := fun s => ∃ m, Synced H m s) (fun s n h => ?_)
      ⟨n, rfl, by simp [arrive], rfl, hshows⟩⟩
    exact Synced.step hH hH' h.choose_spec

/-- Numbers that wrap and come out of order, two of them twice. -/
theorem recovers_two_copies :
    Along arrive (InWindow 4) (new 4, []) [65535, 65537, 65536, 65537, 65536] ∧
      Along arrive Recovers (new 4, []) [65535, 65537, 65536, 65537, 65536] := by
  have h : Along arrive (InWindow 4) (new 4, []) [65535, 65537, 65536, 65537, 65536] := by decide
  exact ⟨h, recovers_exactly_once (by decide) (by decide) _ h⟩

end SrfInstance
end SystemsLab.Net
