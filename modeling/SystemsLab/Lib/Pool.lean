import Mathlib.Data.Finset.Option
import SystemsLab.Lib.RefCount

/-!
# A pool with shared objects

Several places may hold one object; a counter per object says how many beyond the first, and the object goes back to
the pool with its last place.
-/

namespace SystemsLab

open Function

theorem of_update_none {ι ρ : Type} [DecidableEq ι] {h : ι → Option ρ} {x y : ι} {r : ρ}
    (hy : update h x none y = some r) : h y = some r := by
  by_cases hyx : y = x
  · simp [hyx] at hy
  · simpa [hyx] using hy

variable {ι ρ : Type} [Fintype ι] [DecidableEq ρ]

def heldObjects (h : ι → Option ρ) : Finset ρ := Finset.eraseNone (Finset.univ.image h)

theorem mem_heldObjects {h : ι → Option ρ} {r : ρ} : r ∈ heldObjects h ↔ ∃ x, h x = some r := by simp [heldObjects]

theorem mem_heldObjects_iff_holders {h : ι → Option ρ} {r : ρ} : r ∈ heldObjects h ↔ 0 < holders h r := by
  rw [mem_heldObjects, holders, Finset.card_pos]
  constructor
  · rintro ⟨x, hx⟩
    exact ⟨x, by simp [hx]⟩
  · rintro ⟨x, hx⟩
    exact ⟨x, by simpa using hx⟩

section
variable [DecidableEq ι] {h : ι → Option ρ} {x : ι} (hx : h x = none) (r : ρ)
include hx

theorem heldObjects_update : heldObjects (update h x (some r)) = insert r (heldObjects h) := by
  ext r'
  simp only [Finset.mem_insert, mem_heldObjects]
  constructor
  · rintro ⟨y, hy⟩
    by_cases hyx : y = x
    · subst hyx
      exact .inl (by simpa using hy.symm)
    · exact .inr ⟨y, by simpa [hyx] using hy⟩
  · rintro (rfl | ⟨y, hy⟩)
    · exact ⟨x, by simp⟩
    · have hyx : y ≠ x := by
        rintro rfl
        simp [hx] at hy
      exact ⟨y, by simpa [hyx] using hy⟩

theorem holders_fill (r' : ρ) : holders (update h x (some r)) r' = holders h r' + if r = r' then 1 else 0 := by
  have := holders_update h x (some r) r'
  rwa [hx, tally_none, Nat.add_zero, tally_some] at this

end

/-- `mark` says which objects are handed out, `extra` counts the further holders of an object and `used` the objects
handed out, `rest` of them not to the places `h`. -/
structure Backed (mark : ρ → Bool) (extra : ρ → Nat) (used rest : Nat) (h : ι → Option ρ) : Prop where
  extra_eq : ∀ r, extra r = holders h r - 1
  marked : ∀ {x r}, h x = some r → mark r = true
  used_eq : used = rest + (heldObjects h).card

namespace Backed
variable {mark : ρ → Bool} {extra : ρ → Nat} {used rest : Nat} {h : ι → Option ρ} {x : ι} {r : ρ}

section
variable (hb : Backed mark extra used rest h)
include hb

theorem holders_eq (hx : h x = some r) : holders h r = extra r + 1 := by
  have := hb.extra_eq r
  have := holders_pos hx
  omega

theorem eq_of_extra {y : ι} (hx : h x = some r) (hy : h y = some r) (he : extra r = 0) : y = x := by
  have h₁ : holders h r = 1 := by rw [hb.holders_eq hx, he]
  obtain ⟨z, hz⟩ := Finset.card_eq_one.mp h₁
  have hmem : ∀ w, h w = some r → w = z :=
    fun w hw => Finset.mem_singleton.mp (hz ▸ Finset.mem_filter.mpr ⟨Finset.mem_univ w, hw⟩)
  rw [hmem y hy, hmem x hx]

theorem mono {mark' : ρ → Bool} {used' rest' : Nat}
    (hm : ∀ {y r}, h y = some r → mark' r = true) (hu : used' + rest = used + rest') :
    Backed mark' extra used' rest' h where
  extra_eq := hb.extra_eq
  marked := hm
  used_eq := by have := hb.used_eq; omega

end

variable [DecidableEq ι]

section
variable (hb : Backed mark extra used rest h)
include hb

theorem share (hx : h x = none) (hr : 0 < holders h r) :
    Backed mark (update extra r (extra r + 1)) used rest (update h x (some r)) := by
  have hheld := mem_heldObjects_iff_holders.mpr hr
  refine ⟨fun r' => ?_, fun {y r'} hy => ?_, ?_⟩
  · have := holders_fill hx r r'
    have := hb.extra_eq r'
    grind [update_apply]
  · by_cases hyx : y = x
    · subst hyx
      obtain ⟨z, hz⟩ := mem_heldObjects.mp hheld
      have : r = r' := by simpa using hy
      exact this ▸ hb.marked hz
    · exact hb.marked (by simpa [hyx] using hy)
  · rw [heldObjects_update hx, Finset.insert_eq_self.mpr hheld]
    exact hb.used_eq

theorem fill (hx : h x = none) (hr : mark r = false) :
    Backed (update mark r true) extra (used + 1) rest (update h x (some r)) := by
  have hfree : r ∉ heldObjects h := by
    intro hm
    obtain ⟨y, hy⟩ := mem_heldObjects.mp hm
    simp [hb.marked hy] at hr
  refine ⟨fun r' => ?_, fun {y r'} hy => ?_, ?_⟩
  · have := holders_fill hx r r'
    have := hb.extra_eq r'
    rw [mem_heldObjects_iff_holders] at hfree
    grind
  · by_cases he : r' = r
    · subst he; simp
    · by_cases hyx : y = x
      · subst hyx
        exact absurd (by simpa using hy.symm) he
      · rw [update_of_ne he]
        exact hb.marked (by simpa [hyx] using hy)
  · rw [heldObjects_update hx, Finset.card_insert_of_notMem hfree, hb.used_eq]
    omega

omit hb in
omit [Fintype ι] [DecidableEq ρ] in
theorem update_none (hx : h x = some r) : update h x none x = none ∧ update (update h x none) x (some r) = h := by
  rw [update_self, update_idem, ← hx, update_eq_self]
  exact ⟨rfl, rfl⟩

theorem drop (hx : h x = some r) (hr : 0 < extra r) :
    Backed mark (update extra r (extra r - 1)) used rest (update h x none) := by
  obtain ⟨hnone, hself⟩ := update_none hx
  have hcount := holders_fill hnone r
  rw [hself] at hcount
  refine ⟨fun r' => ?_, fun hy => hb.marked (of_update_none hy), ?_⟩
  · have := hcount r'
    have := hb.extra_eq r'
    grind [update_apply]
  · have hstill : r ∈ heldObjects (update h x none) := by
      rw [mem_heldObjects_iff_holders]
      have := hcount r
      have := hb.holders_eq hx
      grind
    rw [← Finset.insert_eq_self.mpr hstill, ← heldObjects_update hnone, hself]
    exact hb.used_eq

theorem drop_last (hx : h x = some r) (hr : extra r = 0) :
    Backed (update mark r false) extra (used - 1) rest (update h x none) := by
  obtain ⟨hnone, hself⟩ := update_none hx
  have hcount := holders_fill hnone r
  rw [hself] at hcount
  refine ⟨fun r' => ?_, fun {y r'} hy => ?_, ?_⟩
  · have := hcount r'
    have := hb.extra_eq r'
    grind
  · have he : r' ≠ r := by
      rintro rfl
      obtain rfl := hb.eq_of_extra hx (of_update_none hy) hr
      simp at hy
    rw [update_of_ne he]
    exact hb.marked (of_update_none hy)
  · have hgone : r ∉ heldObjects (update h x none) := by
      rw [mem_heldObjects_iff_holders]
      have := hcount r
      have := hb.holders_eq hx
      grind
    have hcard := Finset.card_insert_of_notMem hgone
    rw [← heldObjects_update hnone, hself] at hcard
    have := hb.used_eq
    omega

end

end Backed

end SystemsLab
