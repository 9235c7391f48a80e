import Mathlib.Tactic.Common

/-!
# Walks that descend

If every step leads to a node of lower rank, a walk ends and meets no node twice (`follow_ends`,
`follow_injective`).
-/

namespace SystemsLab

variable {ι : Type} (next : ι → Option ι)

def follow : Nat → ι → Option ι
  | 0, i => some i
  | k + 1, i => (next i).bind (follow k)

theorem follow_add (m k : Nat) : ∀ i, follow next (m + k) i = (follow next m i).bind (follow next k) := by
  induction m with
  | zero => intro i; rw [Nat.zero_add]; rfl
  | succ m ih =>
    intro i
    rw [Nat.succ_add, follow, follow, Option.bind_assoc]
    cases next i with
    | none => rfl
    | some j => exact ih j

variable {next} {P : ι → Prop} {rank : ι → Nat}
  (hstep : ∀ i, P i → ∀ j, next i = some j → P j ∧ rank j < rank i)
include hstep

theorem rank_follow : ∀ {m : Nat} {i j : ι}, P i → follow next m i = some j → P j ∧ rank j + m ≤ rank i
  | 0, i, j, hi, h => by
    obtain rfl := Option.some.inj h
    exact ⟨hi, Nat.le_refl _⟩
  | m + 1, i, j, hi, h => by
    obtain ⟨i', hi', h⟩ := Option.bind_eq_some_iff.mp h
    obtain ⟨hP, hlt⟩ := hstep i hi i' hi'
    obtain ⟨hPj, hle⟩ := rank_follow hP h
    exact ⟨hPj, by omega⟩

theorem follow_ends (i : ι) (hi : P i) : ∃ k ≤ rank i, ∃ j, follow next k i = some j ∧ P j ∧ next j = none := by
  induction hr : rank i using Nat.strongRecOn generalizing i with
  | ind r ih =>
    cases hn : next i with
    | none => exact ⟨0, Nat.zero_le _, i, rfl, hi, hn⟩
    | some i' =>
      obtain ⟨hP, hlt⟩ := hstep i hi i' hn
      obtain ⟨k, hk, j, hfollow, hj⟩ := ih (rank i') (hr ▸ hlt) i' hP rfl
      exact ⟨k + 1, by omega, j, by rw [follow, hn]; exact hfollow, hj⟩

theorem follow_injective {i : ι} (hi : P i) {m m' : Nat} (hlt : m < m') {j : ι} (hm : follow next m i = some j) :
    follow next m' i ≠ some j := by
  intro hm'
  obtain ⟨d, rfl⟩ := Nat.exists_eq_add_of_lt hlt
  rw [Nat.add_assoc, follow_add, hm] at hm'
  have := (rank_follow hstep (rank_follow hstep hi hm).1 hm').2
  omega

end SystemsLab
