import Mathlib.Data.Fintype.Prod
import SystemsLab.Lib.Pool
import SystemsLab.MiniOs.Paging

/-!
# Who holds a frame

A frame taken for a user space is held by page table entries, with `page_ref` as the count of further holders, or is
one of the three frames of the space's own tables.
-/

namespace SystemsLab.MiniOs

open Function

/-- The frames of the low user window, `USER_LOAD_BASE` to 4 MB, which the kernel keeps out of the memory
manager. -/
def Window (f : Nat) : Prop := userLoadBase / pmmBlockSize ≤ f ∧ f < 1024

instance : DecidablePred Window := fun f => inferInstanceAs (Decidable (userLoadBase / pmmBlockSize ≤ f ∧ f < 1024))

abbrev Holder (m : Nat) := Fin m × (UserPage ⊕ Fin 3)

def PageEntry.target (e : PageEntry) : Option Nat := if e.usable then some e.frame else none

theorem PageEntry.target_eq_some {e : PageEntry} {f : Nat} : e.target = some f ↔ e.usable = true ∧ e.frame = f := by
  simp [target]

theorem PageEntry.target_eq_none {e : PageEntry} : e.target = none ↔ e.usable = false := by simp [target]

def AddressSpace.tables (a : AddressSpace) : Fin 3 → Nat
  | 0 => a.directory
  | 1 => a.firstTable
  | 2 => a.extTable

def Paging.holds {m : Nat} (s : Paging m) : Holder m → Option Nat
  | (n, .inl x) => (s.pte n x).target
  | (n, .inr j) => (s.spaces n).map fun a => a.tables j

/-! ## Frames and the memory manager -/

/-- The frames the holders `h` have, since the manager had `u₀` frames in use and the heap `h₀`. -/
structure Layout {m : Nat} (u₀ h₀ : Nat) (p : Pmm) (pages : Nat) (ref : Nat → Nat)
    (h : Holder m → Option Nat) : Prop where
  backed : Backed p.memoryMap ref p.usedBlocks (u₀ + (pages - h₀)) h
  pages_le : h₀ ≤ pages
  room : p.usedBlocks ≤ p.maxBlocks
  max_le : p.maxBlocks ≤ pmmMaxBlocks
  window : ∀ {f}, Window f → p.memoryMap f = true
  managed : ∀ {y f}, h y = some f → 0 < f ∧ f < p.maxBlocks ∧ ¬ Window f
  sole : ∀ {n j f}, h (n, .inr j) = some f → ref f = 0

namespace Layout
variable {m u₀ h₀ pages : Nat} {p p' : Pmm} {ref : Nat → Nat} {h : Holder m → Option Nat}
  {x y : Holder m} {f g : Nat}

section
variable (hl : Layout u₀ h₀ p pages ref h)
include hl

theorem unheld (hf : p.memoryMap f = false) : h y ≠ some f := by
  intro hy
  simp [hl.backed.marked hy] at hf

theorem ref_of_free (hf : p.memoryMap f = false) : ref f = 0 := by
  rw [hl.backed.extra_eq, holders_eq_zero fun y => hl.unheld hf]

theorem table_ne {n k : Fin m} {j : Fin 3} {z : UserPage} (ht : h (n, .inr j) = some f) :
    h (k, .inl z) ≠ some f := by
  intro hz
  simpa using hl.backed.eq_of_extra ht hz (hl.sole ht)

end

theorem grown {hp hp' : Heap} (hl : Layout u₀ h₀ p hp.pages ref h) (hg : Heap.Grown hp p hp' p') :
    Layout u₀ h₀ p' hp'.pages ref h where
  backed := hl.backed.mono (fun hy => hg.keeps (hl.backed.marked hy)) (by
    have := hg.account
    have := hg.pages
    have := hl.pages_le
    omega)
  pages_le := hl.pages_le.trans hg.pages
  room := hg.room hl.room
  max_le := hg.max ▸ hl.max_le
  window hw := hg.keeps (hl.window hw)
  managed hy := hg.max ▸ hl.managed hy
  sole := hl.sole

section
variable (hl : Layout u₀ h₀ p pages ref h)
include hl

theorem fill (hx : h x = none) (ha : p.allocBlock = some (f, p')) :
    Layout u₀ h₀ p' pages ref (update h x (some f)) := by
  obtain ⟨hpos, hlt, hroom, hfree, rfl⟩ := Pmm.allocBlock_eq_some ha
  refine ⟨hl.backed.fill hx hfree, hl.pages_le, hroom, hl.max_le, ?_, ?_, ?_⟩
  · intro g hw
    by_cases hg : g = f
    · subst hg; simp [Pmm.take]
    · simpa [Pmm.take, hg] using hl.window hw
  · intro y g hy
    by_cases hyx : y = x
    · have : f = g := by simpa [hyx] using hy
      subst this
      exact ⟨hpos, hlt, fun hw => by simp [hl.window hw] at hfree⟩
    · exact hl.managed (by simpa [hyx] using hy)
  · intro n j g hy
    by_cases hyx : (n, .inr j) = x
    · have : f = g := by simpa [hyx] using hy
      exact this ▸ hl.ref_of_free hfree
    · exact hl.sole (by simpa [hyx] using hy)

theorem share {n k : Fin m} {z w : UserPage} (hx : h (n, .inl z) = none)
    (hy : h (k, .inl w) = some f) :
    Layout u₀ h₀ p pages (update ref f (ref f + 1)) (update h (n, .inl z) (some f)) := by
  refine ⟨hl.backed.share hx (holders_pos hy), hl.pages_le, hl.room, hl.max_le, hl.window, ?_, ?_⟩
  · intro y' g hy'
    by_cases hyx : y' = (n, .inl z)
    · have : f = g := by simpa [hyx] using hy'
      exact this ▸ hl.managed hy
    · exact hl.managed (by simpa [hyx] using hy')
  · intro n' j g hg
    have hg' : h (n', .inr j) = some g := by simpa using hg
    have hne : g ≠ f := fun he => hl.table_ne hg' (he ▸ hy)
    rw [update_of_ne hne]
    exact hl.sole hg'

theorem drop (hx : h x = some f) (hf : 0 < ref f) :
    Layout u₀ h₀ p pages (update ref f (ref f - 1)) (update h x none) := by
  refine ⟨hl.backed.drop hx hf, hl.pages_le, hl.room, hl.max_le, hl.window,
    fun hy => hl.managed (of_update_none hy), ?_⟩
  intro n j g hg
  have hne : g ≠ f := by
    rintro rfl
    have := hl.sole (of_update_none hg)
    omega
  rw [update_of_ne hne]
  exact hl.sole (of_update_none hg)

theorem drop_last (hx : h x = some f) (hf : ref f = 0) :
    Layout u₀ h₀ (p.freeBlock f) pages ref (update h x none) := by
  obtain ⟨hpos, hlt, hout⟩ := hl.managed hx
  rw [Pmm.freeBlock_eq hpos hlt (hl.backed.marked hx)]
  refine ⟨hl.backed.drop_last hx hf, hl.pages_le, ?_, hl.max_le, ?_, fun hy => hl.managed (of_update_none hy),
    fun hg => hl.sole (of_update_none hg)⟩
  · exact (Nat.sub_le _ _).trans hl.room
  · intro g hw
    have hne : g ≠ f := by
      rintro rfl
      exact hout hw
    simpa [hne] using hl.window hw

theorem used_of_none (hn : ∀ y, h y = none) : p.usedBlocks + h₀ = u₀ + pages := by
  have hnone : heldObjects h = ∅ := by
    ext r
    simp [mem_heldObjects, hn]
  have hused := hl.backed.used_eq
  rw [hnone, Finset.card_empty] at hused
  have := hl.pages_le
  omega

theorem ref_lt {z : UserPage} (hx : h x = some f)
    (hpage : ∀ {n t}, h (n, t) = some f → t = .inl z ∧ (h (n, .inr 0)).isSome) : ref f + 1 < 2 ^ 16 := by
  have hle : holders h f ≤ (heldObjects h).card := by
    refine Finset.card_le_card_of_injOn (fun y => (h (y.1, .inr 0)).getD 0) ?_ ?_
    · intro y hy
      obtain ⟨g, hg⟩ := Option.isSome_iff_exists.mp (hpage (Finset.mem_filter.mp hy).2).2
      simpa [hg] using mem_heldObjects.mpr ⟨_, hg⟩
    · intro y hy y' hy' he
      have hy := hpage (Finset.mem_filter.mp hy).2
      have hy' := hpage (Finset.mem_filter.mp hy').2
      obtain ⟨g, hg⟩ := Option.isSome_iff_exists.mp hy.2
      obtain ⟨g', hg'⟩ := Option.isSome_iff_exists.mp hy'.2
      simp only [hg, hg', Option.getD_some] at he
      have := hl.backed.eq_of_extra hg (he ▸ hg') (hl.sole hg)
      refine Prod.ext ?_ (hy.1.trans hy'.1.symm)
      simpa using this.symm
  have := hl.backed.holders_eq hx
  have := hl.backed.used_eq
  have := hl.room
  have := hl.max_le
  simp only [pmmMaxBlocks] at this
  omega

end

end Layout

end SystemsLab.MiniOs
