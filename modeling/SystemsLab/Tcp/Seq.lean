import SystemsLab.Lib.Serial

/-!
# Sequence numbers

The comparisons of `tcp_seq.rs`. Over points seen from one base they compare the offsets.
-/

namespace SystemsLab.Tcp

abbrev Seq := BitVec 32

def seqLt (s₁ s₂ : Seq) : Bool := (s₁ - s₂).toInt < 0

def seqLe (s₁ s₂ : Seq) : Bool := (s₁ - s₂).toInt ≤ 0

def seqGt (s₁ s₂ : Seq) : Bool := 0 < (s₁ - s₂).toInt

def seqGe (s₁ s₂ : Seq) : Bool := 0 ≤ (s₁ - s₂).toInt

def seqDiff (s₂ s₁ : Seq) : Seq := s₂ - s₁

theorem seqGt_eq_not_seqLe (a b : Seq) : seqGt a b = !seqLe a b := by
  unfold seqGt seqLe
  rw [← decide_not]
  exact decide_eq_decide.mpr Int.not_le.symm

theorem seqGe_of_seqGt {a b : Seq} (h : seqGt a b = true) : seqGe a b = true := by
  simp only [seqGt, seqGe, decide_eq_true_eq] at *
  omega

@[simp] theorem seqLe_refl (a : Seq) : seqLe a a = true := by simp [seqLe]

@[simp] theorem seqGe_refl (a : Seq) : seqGe a a = true := by simp [seqGe]

theorem eq_of_seqLe_of_seqGe {a b : Seq} (h₁ : seqLe a b = true) (h₂ : seqGe a b = true) : a = b := by
  simp only [seqLe, seqGe, decide_eq_true_eq] at h₁ h₂
  have h : a - b = 0#32 := BitVec.eq_of_toInt_eq (by rw [BitVec.toInt_zero]; omega)
  have e := ahead_sub a b
  rw [h] at e
  simpa using e.symm

/-! ## Comparison of offsets -/

section
variable {b : Seq} {m n : Nat}

theorem seqLt_ahead (h₁ : n ≤ m + 2 ^ 31) (h₂ : m < n + 2 ^ 31) : seqLt (ahead b m) (ahead b n) = true ↔ m < n := by
  unfold seqLt
  rw [toInt_ahead_sub h₁ h₂, decide_eq_true_eq]
  omega

theorem seqLe_ahead (h₁ : n ≤ m + 2 ^ 31) (h₂ : m < n + 2 ^ 31) : seqLe (ahead b m) (ahead b n) = true ↔ m ≤ n := by
  unfold seqLe
  rw [toInt_ahead_sub h₁ h₂, decide_eq_true_eq]
  omega

theorem toNat_seqDiff_ahead (hmn : n ≤ m) (h : m - n < 2 ^ 32) : (seqDiff (ahead b m) (ahead b n)).toNat = m - n :=
  toNat_ahead_sub hmn h

end

end SystemsLab.Tcp
