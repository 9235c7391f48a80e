import Mathlib.Algebra.BigOperators.Group.Finset.Piecewise
import Mathlib.Data.Fintype.Basic

/-!
# Reference counts

A counter per object says how many references there are, in places or in hand: taken but not put anywhere, or taken
out of a place and not dropped.
-/

namespace SystemsLab

variable {ι ρ : Type} [DecidableEq ρ]
variable {r : ρ} {x : ι}

def tally (o : Option ρ) (r : ρ) : Nat := if o = some r then 1 else 0

@[simp] theorem tally_none (r : ρ) : tally none r = 0 := by simp [tally]

@[simp] theorem tally_self (r : ρ) : tally (some r) r = 1 := by simp [tally]

theorem tally_some (r r' : ρ) : tally (some r) r' = if r = r' then 1 else 0 := by simp [tally]

theorem count_toList (o : Option ρ) (r : ρ) : o.toList.count r = tally o r := by
  cases o with
  | none => simp
  | some r' => simp [tally, List.count_singleton]

variable [Fintype ι]

def holders (h : ι → Option ρ) (r : ρ) : Nat := (Finset.univ.filter fun x => h x = some r).card

theorem holders_eq_sum (h : ι → Option ρ) (r : ρ) : holders h r = ∑ x, tally (h x) r := by
  rw [holders, Finset.card_filter]
  rfl

theorem holders_pos {h : ι → Option ρ} (hx : h x = some r) : 0 < holders h r :=
  Finset.card_pos.mpr ⟨x, by simp [hx]⟩

theorem holders_eq_zero {h : ι → Option ρ} (hr : ∀ x, h x ≠ some r) : holders h r = 0 := by
  simp [holders, hr]

theorem holders_update [DecidableEq ι] (h : ι → Option ρ) (x : ι) (o : Option ρ) (r : ρ) :
    holders (Function.update h x o) r + tally (h x) r = holders h r + tally o r := by
  have hu : (fun y => tally (Function.update h x o y) r) =
      Function.update (fun y => tally (h y) r) x (tally o r) := by
    funext y
    by_cases hy : y = x
    · subst hy; simp
    · simp [hy]
  rw [holders_eq_sum, holders_eq_sum, hu, Finset.sum_update_of_mem (Finset.mem_univ x),
    Finset.sdiff_singleton_eq_erase, ← Finset.add_sum_erase _ _ (Finset.mem_univ x)]
  omega

def Exact (c : ρ → Nat) (h : ι → Option ρ) (hand : List ρ) : Prop := ∀ r, c r = holders h r + hand.count r

namespace Exact
variable {c c' : ρ → Nat} {h : ι → Option ρ} {hand : List ρ}

theorem acquire (he : Exact c h hand) (hc : ∀ r', c' r' = c r' + tally (some r) r') : Exact c' h (r :: hand) := by
  intro r'
  rw [hc, he r', List.count_cons, tally_some]
  simp only [beq_iff_eq]
  omega

theorem release (he : Exact c h (r :: hand)) (hc : ∀ r', c' r' + tally (some r) r' = c r') : Exact c' h hand := by
  intro r'
  have h₁ := he r'
  have h₂ := hc r'
  rw [List.count_cons] at h₁
  rw [tally_some] at h₂
  simp only [beq_iff_eq] at h₁
  omega

theorem exchange [DecidableEq ι] {o : Option ρ} (he : Exact c h (o.toList ++ hand)) :
    Exact c (Function.update h x o) ((h x).toList ++ hand) := by
  intro r
  have h₁ := he r
  have h₂ := holders_update h x o r
  rw [List.count_append, count_toList] at h₁ ⊢
  omega

theorem pos (he : Exact c h hand) (hx : h x = some r) : 0 < c r := by
  have := holders_pos hx
  have := he r
  omega

end Exact

end SystemsLab
