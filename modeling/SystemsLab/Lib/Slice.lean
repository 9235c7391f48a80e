import Mathlib.Data.List.Basic
import Mathlib.Tactic.Common

/-!
# Slices of a growing stream

Slices survive trimming and the growth of the stream, and one that reaches over the end of a known front extends it.
-/

namespace SystemsLab

variable {α : Type} {s t p r : List α} {off k : Nat}

/-- The stream `s` shows `p` from `off` on. -/
def SliceAt (s : List α) (off : Nat) (p : List α) : Prop := p <+: s.drop off

section
variable (h : SliceAt s off p)
include h

theorem SliceAt.append (t : List α) : SliceAt (s ++ t) off p := by
  unfold SliceAt
  rw [List.drop_append]
  exact h.trans (List.prefix_append _ _)

theorem SliceAt.mono (hst : s <+: t) : SliceAt t off p := by
  obtain ⟨u, rfl⟩ := hst
  exact h.append u

theorem SliceAt.drop (k : Nat) : SliceAt s (off + k) (p.drop k) := by
  unfold SliceAt
  obtain ⟨u, hu⟩ := h
  rw [← List.drop_drop, ← hu, List.drop_append]
  exact List.prefix_append _ _

theorem SliceAt.take (k : Nat) : SliceAt s off (p.take k) :=
  (List.take_prefix k p).trans h

theorem SliceAt.length_le (hp : p ≠ []) : off + p.length ≤ s.length := by
  have hl := List.IsPrefix.length_le h
  have hpos := List.length_pos_of_ne_nil hp
  rw [List.length_drop] at hl
  omega

end

theorem sliceAt_end (s p : List α) : SliceAt (s ++ p) s.length p := by
  simp [SliceAt]

theorem SliceAt.extend (h : SliceAt s off p) (hr : r <+: s) (hle : off ≤ r.length) :
    r ++ p.drop (r.length - off) <+: s := by
  have hd := h.drop (r.length - off)
  rw [show off + (r.length - off) = r.length by omega] at hd
  obtain ⟨u, rfl⟩ := hr
  unfold SliceAt at hd
  rw [List.drop_left] at hd
  exact (List.prefix_append_right_inj r).mpr hd

end SystemsLab
