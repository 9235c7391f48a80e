import Mathlib.Data.List.Basic
import Mathlib.Data.List.Perm.Basic
import Mathlib.Tactic.Common

/-!
# Picking a winner by knockout

A list is walked with the best element so far. A result that does not depend on the order is exactly an element that
beats all others (`knockout_perm_iff`).
-/

namespace SystemsLab

variable {α : Type} (beats : α → α → Prop) [DecidableRel beats] {l : List α}

def survivor (best : α) (l : List α) : α := l.foldl (fun best next => if beats next best then next else best) best

def knockout : List α → Option α
  | [] => none
  | a :: l => some (survivor beats a l)

@[simp] theorem survivor_cons (best a : α) (l : List α) :
    survivor beats best (a :: l) = survivor beats (if beats a best then a else best) l := rfl

theorem survivor_append (best : α) (l l' : List α) :
    survivor beats best (l ++ l') = survivor beats (survivor beats best l) l' := List.foldl_append

theorem survivor_mem : ∀ (best : α) (l : List α), survivor beats best l ∈ best :: l
  | best, [] => List.mem_singleton_self best
  | best, a :: l => by
    rw [survivor_cons]
    by_cases h : beats a best
    · rw [if_pos h]
      exact List.mem_cons_of_mem _ (survivor_mem a l)
    · rw [if_neg h]
      rcases List.mem_cons.mp (survivor_mem best l) with h' | h'
      · rw [h']; exact List.mem_cons_self
      · exact List.mem_cons_of_mem _ (List.mem_cons_of_mem _ h')

theorem knockout_mem {w : α} (h : knockout beats l = some w) : w ∈ l := by
  cases l with
  | nil => cases h
  | cons a l =>
    rw [← Option.some.inj h]
    exact survivor_mem beats a l

variable {beats}

theorem survivor_dominator {w : α} : ∀ {l : List α}, (∀ x ∈ l, x ≠ w → ¬ beats x w) → survivor beats w l = w
  | [], _ => rfl
  | a :: l, h => by
    rw [List.forall_mem_cons] at h
    rw [survivor_cons]
    by_cases ha : a = w
    · rw [ha, ite_self]
      exact survivor_dominator h.2
    · rw [if_neg (h.1 ha)]
      exact survivor_dominator h.2

theorem knockout_dominator {w : α} (hw : w ∈ l) (h : ∀ x ∈ l, x ≠ w → beats w x ∧ ¬ beats x w) :
    knockout beats l = some w := by
  cases l with
  | nil => cases hw
  | cons a l =>
    rw [List.forall_mem_cons] at h
    have hstay : survivor beats w l = w := survivor_dominator fun x hx hne => (h.2 x hx hne).2
    rw [knockout]
    by_cases ha : a = w
    · rw [ha, hstay]
    · -- The walk reaches `w` with some other best, which `w` beats.
      have hwl : w ∈ l := (List.mem_cons.mp hw).resolve_left fun h => ha h.symm
      obtain ⟨l₁, l₂, rfl⟩ := List.append_of_mem hwl
      have hother : ∀ x ∈ a :: l₁, x ≠ w → beats w x := by
        intro x hx hne
        rcases List.mem_cons.mp hx with rfl | hx
        · exact (h.1 hne).1
        · exact (h.2 x (List.mem_append_left _ hx) hne).1
      have htake : (if beats w (survivor beats a l₁) then w else survivor beats a l₁) = w := by
        by_cases he : survivor beats a l₁ = w
        · rw [he, ite_self]
        · rw [if_pos (hother _ (survivor_mem beats a l₁) he)]
      rw [survivor_append, survivor_cons, htake,
        survivor_dominator fun x hx hne => (h.2 x (List.mem_append_right _ (List.mem_cons_of_mem _ hx)) hne).2]

theorem knockout_perm_iff (hasymm : ∀ x ∈ l, ∀ y ∈ l, beats x y → ¬ beats y x) :
    ((∃ w, knockout beats l = some w ∧ ∀ x ∈ l, x ≠ w → beats w x) ∧
      ∀ l', l'.Perm l → knockout beats l' = knockout beats l) ↔ ∃ w ∈ l, ∀ x ∈ l, x ≠ w → beats w x := by
  constructor
  · rintro ⟨⟨w, hw, hall⟩, -⟩
    exact ⟨w, knockout_mem beats hw, hall⟩
  · rintro ⟨w, hw, hall⟩
    have hwin : ∀ l', l'.Perm l → knockout beats l' = some w := fun l' hp =>
      knockout_dominator (hp.mem_iff.mpr hw) fun x hx hne =>
        ⟨hall x (hp.mem_iff.mp hx) hne, hasymm w hw x (hp.mem_iff.mp hx) (hall x (hp.mem_iff.mp hx) hne)⟩
    exact ⟨⟨w, hwin l (.refl l), hall⟩, fun l' hp => (hwin l' hp).trans (hwin l (.refl l)).symm⟩

end SystemsLab
