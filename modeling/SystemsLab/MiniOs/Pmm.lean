import Mathlib.Data.List.Basic
import Mathlib.Logic.Function.Basic
import Mathlib.Tactic.Common

/-!
# The physical memory manager

`pmm.c`: a bitmap of frames of 4096 bytes, named by their numbers, and a count of those in use. Frame 0 is never
handed out.
-/

namespace SystemsLab.MiniOs

open Function

def pmmBlockSize : Nat := 4096

def pmmMaxBlocks : Nat := 8192

structure Pmm where
  memoryMap : Nat → Bool
  maxBlocks : Nat
  usedBlocks : Nat

namespace Pmm
variable {p p' : Pmm} {count first f g : Nat}

/-- The loop of `mmap_first_free_run`, with `left` frames to look at. -/
def scanRun (p : Pmm) (count : Nat) : Nat → Nat → Nat → Nat → Option Nat
  | 0, _, _, _ => none
  | left + 1, frame, runStart, runLength =>
    if p.memoryMap frame then scanRun p count left (frame + 1) runStart 0
    else if runLength + 1 = count then some (if runLength = 0 then frame else runStart)
    else scanRun p count left (frame + 1) (if runLength = 0 then frame else runStart) (runLength + 1)

def mmapFirstFreeRun (p : Pmm) (count : Nat) : Option Nat :=
  if count = 0 ∨ p.maxBlocks < count then none else p.scanRun count (p.maxBlocks - 1) 1 0 0

def mmapSetRun (p : Pmm) (first count : Nat) : Pmm :=
  { p with
    memoryMap := fun g => p.memoryMap g || (decide (first ≤ g) && decide (g < first + count))
    usedBlocks := p.usedBlocks + count }

def allocBlocks (p : Pmm) (count : Nat) : Option (Nat × Pmm) :=
  if count = 0 ∨ p.maxBlocks - p.usedBlocks < count then none
  else (p.mmapFirstFreeRun count).map fun first => (first, p.mmapSetRun first count)

def allocBlock (p : Pmm) : Option (Nat × Pmm) := p.allocBlocks 1

/-- The body of the loop of `pmm_free_blocks`. -/
def freeFrame (p : Pmm) (f : Nat) : Pmm :=
  if p.memoryMap f then { p with memoryMap := update p.memoryMap f false, usedBlocks := p.usedBlocks - 1 } else p

def freeBlocks (p : Pmm) (first count : Nat) : Pmm :=
  if count = 0 ∨ first = 0 ∨ p.maxBlocks ≤ first ∨ p.maxBlocks - first < count then p
  else (List.range count).foldl (fun p i => p.freeFrame (first + i)) p

def freeBlock (p : Pmm) (f : Nat) : Pmm := p.freeBlocks f 1

/-! ## Allocation -/

theorem scanRun_eq_some :
    ∀ {left frame runStart runLength : Nat}, p.scanRun count left frame runStart runLength = some first →
    0 < frame → (0 < runLength → 0 < runStart ∧ runStart + runLength = frame) →
    (∀ g, runStart ≤ g → g < runStart + runLength → p.memoryMap g = false) →
    0 < first ∧ first + count ≤ frame + left ∧ ∀ g, first ≤ g → g < first + count → p.memoryMap g = false
  | 0, _, _, _, h, _, _, _ => by simp [scanRun] at h
  | left + 1, frame, runStart, runLength, h, hf, hr, hfree => by
    unfold scanRun at h
    by_cases hm : p.memoryMap frame
    · rw [if_pos hm] at h
      have := scanRun_eq_some h (by omega) (by omega) (by intro g h₁ h₂; omega)
      exact ⟨this.1, by omega, this.2.2⟩
    · rw [if_neg hm] at h
      -- The run that the free frame starts or extends.
      obtain ⟨start, hs⟩ : ∃ start, start = if runLength = 0 then frame else runStart := ⟨_, rfl⟩
      rw [← hs] at h
      have hrun : 0 < start ∧ start + (runLength + 1) = frame + 1 := by split at hs <;> omega
      have hall : ∀ g, start ≤ g → g < start + (runLength + 1) → p.memoryMap g = false := by
        intro g h₁ h₂
        by_cases hg : g = frame
        · subst hg; simpa using hm
        · exact hfree g (by split at hs <;> omega) (by split at hs <;> omega)
      split at h
      · rename_i hc
        cases h
        exact ⟨hrun.1, by omega, by rw [← hc]; exact hall⟩
      · have := scanRun_eq_some h (by omega) (fun _ => hrun) hall
        exact ⟨this.1, by omega, this.2.2⟩

theorem allocBlocks_eq_some (h : p.allocBlocks count = some (first, p')) :
    0 < first ∧ first + count ≤ p.maxBlocks ∧ p.usedBlocks + count ≤ p.maxBlocks ∧
      (∀ g, first ≤ g → g < first + count → p.memoryMap g = false) ∧ p' = p.mmapSetRun first count := by
  unfold allocBlocks at h
  split at h
  · cases h
  · rename_i hc
    simp only [Option.map_eq_some_iff, Prod.mk.injEq] at h
    obtain ⟨first, hrun, rfl, rfl⟩ := h
    unfold mmapFirstFreeRun at hrun
    split at hrun
    · cases hrun
    · have := scanRun_eq_some hrun (by omega) (by omega) (by intro g h₁ h₂; omega)
      exact ⟨this.1, by omega, by omega, this.2.2, rfl⟩

def take (p : Pmm) (f : Nat) : Pmm :=
  { p with memoryMap := update p.memoryMap f true, usedBlocks := p.usedBlocks + 1 }

theorem mmapSetRun_one (p : Pmm) (f : Nat) : p.mmapSetRun f 1 = p.take f := by
  unfold mmapSetRun take
  congr 1
  funext g
  by_cases hg : g = f
  · subst hg; simp
  · have : ¬ (f ≤ g ∧ g < f + 1) := by omega
    simp only [update_of_ne hg, ← Bool.decide_and, this, decide_false, Bool.or_false]

theorem allocBlock_eq_some (h : p.allocBlock = some (f, p')) :
    0 < f ∧ f < p.maxBlocks ∧ p.usedBlocks < p.maxBlocks ∧ p.memoryMap f = false ∧ p' = p.take f := by
  obtain ⟨h₁, h₂, h₃, h₄, rfl⟩ := allocBlocks_eq_some h
  exact ⟨h₁, h₂, h₃, h₄ f (Nat.le_refl f) (by omega), mmapSetRun_one p f⟩

/-! ## Freeing -/

section
variable (hf : 0 < f) (hm : f < p.maxBlocks)
include hf hm

theorem freeBlock_eq (hs : p.memoryMap f = true) :
    p.freeBlock f = { p with memoryMap := update p.memoryMap f false, usedBlocks := p.usedBlocks - 1 } := by
  unfold freeBlock freeBlocks
  rw [if_neg (by omega)]
  simp [freeFrame, hs]

theorem freeBlock_take (hs : p.memoryMap f = false) : (p.take f).freeBlock f = p := by
  rw [freeBlock_eq hf (show f < (p.take f).maxBlocks from hm) (by simp [take])]
  simp only [take, update_idem, Nat.add_sub_cancel]
  rw [← hs, update_eq_self]

theorem freeBlock_take_take (hs : p.memoryMap f = false) (hg : g ≠ f) :
    ((p.take f).take g).freeBlock f = p.take g := by
  rw [freeBlock_eq hf (show f < ((p.take f).take g).maxBlocks from hm) (by simp [take, hg.symm])]
  simp only [take, Nat.add_sub_cancel, update_comm hg, update_idem]
  congr 1
  rw [← hs, update_eq_self]

end

end Pmm

end SystemsLab.MiniOs
