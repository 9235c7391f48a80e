import Mathlib.Tactic.Common

/-!
# What holds at every step of a run
-/

namespace SystemsLab

variable {σ ι : Type} {step : σ → ι → σ} {O P Q : σ → ι → Prop}

def Along (step : σ → ι → σ) (P : σ → ι → Prop) : σ → List ι → Prop
  | _, [] => True
  | s, i :: is => P s i ∧ Along step P (step s i) is

instance decidableAlong [∀ s i, Decidable (P s i)] : ∀ s is, Decidable (Along step P s is)
  | _, [] => .isTrue trivial
  | s, i :: is =>
    have := decidableAlong (step s i) is
    inferInstanceAs (Decidable (_ ∧ _))

/-- Steps with `P` have `Q` and keep an invariant. -/
theorem Along.of_inv {I : σ → Prop} (hstep : ∀ s i, I s → P s i → Q s i ∧ I (step s i)) {s : σ} {is : List ι}
    (h : Along step P s is) (hs : I s) : Along step Q s is := by
  induction is generalizing s with
  | nil => trivial
  | cons i is ih =>
    obtain ⟨hQ, hI⟩ := hstep s i hs h.1
    exact ⟨hQ, ih h.2 hI⟩

/-- Under an invariant that holds as long as `Q` does, `P` and `Q` hold along the same runs. -/
theorem along_congr {I : σ → Prop} (heq : ∀ s i, I s → O s i → (P s i ↔ Q s i))
    (hstep : ∀ s i, I s → O s i → Q s i → I (step s i)) :
    ∀ {s : σ} {is : List ι}, I s → Along step O s is → (Along step P s is ↔ Along step Q s is)
  | _, [], _, _ => Iff.rfl
  | s, i :: is, hs, ⟨hi, his⟩ => by
    unfold Along
    rw [heq s i hs hi]
    exact and_congr_right fun hq => along_congr heq hstep (hstep s i hs hi hq) his

end SystemsLab
