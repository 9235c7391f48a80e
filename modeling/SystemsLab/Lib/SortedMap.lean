import Mathlib.Order.Basic
import Mathlib.Order.Lattice
import Mathlib.Data.List.Basic
import Mathlib.Tactic.Common

/-!
# Maps in key order

A finite map as the list of its entries, the keys strictly ascending, so that
walking the list is walking the keys in order and two maps with the same
entries are one map.
-/

namespace SystemsLab

@[ext] structure SortedMap (κ ν : Type) [LinearOrder κ] where
  entries : List (κ × ν)
  sorted : entries.Pairwise (·.1 < ·.1)

namespace SortedMap
variable {κ ν μ α : Type} [LinearOrder κ]
variable {m : SortedMap κ ν} {k : κ} {x : κ × ν} {v : ν}

instance [DecidableEq ν] : DecidableEq (SortedMap κ ν) := fun m m' =>
  decidable_of_iff (m.entries = m'.entries) SortedMap.ext_iff.symm

def empty : SortedMap κ ν := ⟨[], .nil⟩

instance : Inhabited (SortedMap κ ν) := ⟨empty⟩

def get? (m : SortedMap κ ν) (k : κ) : Option ν := m.entries.lookup k

def keys (m : SortedMap κ ν) : List κ := m.entries.map Prod.fst

def size (m : SortedMap κ ν) : Nat := m.entries.length

/-! ## Entries -/

theorem get?_eq_some : m.get? k = some v ↔ (k, v) ∈ m.entries := by
  obtain ⟨l, hl⟩ := m
  unfold get?
  induction l with
  | nil => simp
  | cons e l ih =>
    obtain ⟨k', v'⟩ := e
    rw [List.pairwise_cons] at hl
    rw [List.lookup_cons, List.mem_cons, Prod.mk.injEq]
    by_cases hk : k = k'
    · subst hk
      -- The key stands in front, so no later entry has it.
      have hnot : (k, v) ∉ l := fun hm => lt_irrefl k (hl.1 (k, v) hm)
      simp [hnot, eq_comm]
    · rw [beq_false_of_ne hk]
      simp [hk, ih hl.2]

theorem mem_keys : k ∈ m.keys ↔ ∃ v, m.get? k = some v := by
  simp only [get?_eq_some, keys, List.mem_map, Prod.exists, exists_and_right, exists_eq_right]

theorem nodup_keys (m : SortedMap κ ν) : m.keys.Nodup :=
  (List.pairwise_map.mpr m.sorted).imp fun h => h.ne

/-! ## Putting in and taking out -/

def insertEntry (k : κ) (v : ν) : List (κ × ν) → List (κ × ν)
  | [] => [(k, v)]
  | e :: l => if k < e.1 then (k, v) :: e :: l else if k = e.1 then (k, v) :: l else e :: insertEntry k v l

theorem mem_insertEntry :
    ∀ {l : List (κ × ν)}, l.Pairwise (·.1 < ·.1) → (x ∈ insertEntry k v l ↔ x = (k, v) ∨ x ∈ l ∧ x.1 ≠ k)
  | [], _ => by simp [insertEntry]
  | e :: l, h => by
    rw [List.pairwise_cons] at h
    have habove : ∀ {y}, y ∈ l → y.1 ≠ e.1 := fun hy => (h.1 _ hy).ne'
    unfold insertEntry
    by_cases hlt : k < e.1
    · -- Every key of the list is above the new one.
      have hne : x ∈ e :: l → x.1 ≠ k := fun hx => by
        rcases List.mem_cons.mp hx with rfl | hx
        · exact hlt.ne'
        · exact (hlt.trans (h.1 _ hx)).ne'
      rw [if_pos hlt, List.mem_cons]
      exact or_congr_right ⟨fun hx => ⟨hx, hne hx⟩, And.left⟩
    · rw [if_neg hlt]
      by_cases heq : k = e.1
      · rw [if_pos heq, List.mem_cons, List.mem_cons]
        refine or_congr_right ⟨fun hx => ⟨.inr hx, heq ▸ habove hx⟩, ?_⟩
        rintro ⟨rfl | hx, hne⟩
        · exact absurd heq.symm hne
        · exact hx
      · rw [if_neg heq, List.mem_cons, mem_insertEntry h.2, List.mem_cons]
        constructor
        · rintro (rfl | rfl | ⟨hx, hne⟩)
          · exact .inr ⟨.inl rfl, fun h => heq h.symm⟩
          · exact .inl rfl
          · exact .inr ⟨.inr hx, hne⟩
        · rintro (rfl | ⟨rfl | hx, hne⟩)
          · exact .inr (.inl rfl)
          · exact .inl rfl
          · exact .inr (.inr ⟨hx, hne⟩)

theorem sorted_insertEntry : ∀ {l : List (κ × ν)}, l.Pairwise (·.1 < ·.1) → (insertEntry k v l).Pairwise (·.1 < ·.1)
  | [], _ => List.pairwise_singleton _ _
  | e :: l, h => by
    have h' := List.pairwise_cons.mp h
    unfold insertEntry
    by_cases hlt : k < e.1
    · rw [if_pos hlt, List.pairwise_cons]
      refine ⟨fun y hy => ?_, h⟩
      rcases List.mem_cons.mp hy with rfl | hy
      · exact hlt
      · exact hlt.trans (h'.1 _ hy)
    · rw [if_neg hlt]
      by_cases heq : k = e.1
      · rw [if_pos heq, List.pairwise_cons]
        exact ⟨fun y hy => heq ▸ h'.1 _ hy, h'.2⟩
      · rw [if_neg heq, List.pairwise_cons]
        refine ⟨fun y hy => ?_, sorted_insertEntry h'.2⟩
        rcases (mem_insertEntry h'.2).mp hy with rfl | ⟨hy, -⟩
        · exact lt_of_le_of_ne (not_lt.mp hlt) (Ne.symm heq)
        · exact h'.1 _ hy

def insert (m : SortedMap κ ν) (k : κ) (v : ν) : SortedMap κ ν :=
  ⟨insertEntry k v m.entries, sorted_insertEntry m.sorted⟩

def erase (m : SortedMap κ ν) (k : κ) : SortedMap κ ν :=
  ⟨m.entries.filter (·.1 ≠ k), m.sorted.filter _⟩

theorem mem_insert :
    x ∈ (m.insert k v).entries ↔ x = (k, v) ∨ x ∈ m.entries ∧ x.1 ≠ k := mem_insertEntry m.sorted

theorem mem_erase :
    x ∈ (m.erase k).entries ↔ x ∈ m.entries ∧ x.1 ≠ k := by simp [erase]

theorem get?_insert (m : SortedMap κ ν) (k : κ) (v : ν) (k' : κ) [Decidable (k' = k)] :
    (m.insert k v).get? k' = if k' = k then some v else m.get? k' := by
  ext w
  rw [get?_eq_some, mem_insert]
  by_cases h : k' = k
  · simp [h, eq_comm]
  · simp [h, get?_eq_some]

theorem get?_erase (m : SortedMap κ ν) (k k' : κ) [Decidable (k' = k)] :
    (m.erase k).get? k' = if k' = k then none else m.get? k' := by
  ext w
  rw [get?_eq_some, mem_erase]
  by_cases h : k' = k
  · simp [h]
  · simp [h, get?_eq_some]

/-! ## Walking a map -/

def filterMap (f : κ → ν → Option μ) (m : SortedMap κ ν) : SortedMap κ μ where
  entries := m.entries.filterMap fun e => (f e.1 e.2).map (e.1, ·)
  sorted := by
    refine List.Pairwise.filterMap _ (fun e e' h x hx y hy => ?_) m.sorted
    simp only [Option.map_eq_some_iff] at hx hy
    obtain ⟨_, -, rfl⟩ := hx
    obtain ⟨_, -, rfl⟩ := hy
    exact h

theorem get?_filterMap (f : κ → ν → Option μ) (m : SortedMap κ ν) (k : κ) :
    (m.filterMap f).get? k = (m.get? k).bind (f k) := by
  ext w
  rw [get?_eq_some, Option.bind_eq_some_iff]
  simp only [filterMap, List.mem_filterMap, Option.map_eq_some_iff, Prod.mk.injEq, get?_eq_some, Prod.exists]
  constructor
  · rintro ⟨_, v, hm, _, hf, rfl, rfl⟩
    exact ⟨v, hm, hf⟩
  · rintro ⟨v, hm, hf⟩
    exact ⟨k, v, hm, w, hf, rfl, rfl⟩

def ofKeys (ks : List κ) : SortedMap κ Unit := ks.foldl (fun m k => m.insert k ()) empty

theorem mem_keys_ofKeys {ks : List κ} : k ∈ (ofKeys ks).keys ↔ k ∈ ks := by
  have hstep : ∀ (ks : List κ) (m : SortedMap κ Unit),
      k ∈ (ks.foldl (fun m k => m.insert k ()) m).keys ↔ k ∈ ks ∨ k ∈ m.keys := by
    intro ks
    induction ks with
    | nil => simp
    | cons a ks ih =>
      intro m
      have hins : k ∈ (m.insert a ()).keys ↔ k = a ∨ k ∈ m.keys := by
        simp only [mem_keys, get?_insert]
        by_cases h : k = a <;> simp [h]
      rw [List.foldl_cons, ih, hins, List.mem_cons]
      tauto
  rw [ofKeys, hstep]
  simp [keys, empty]

theorem get?_foldl_insert (g : κ → Option ν) (k : κ) : ∀ (ks : List κ) (m : SortedMap κ ν),
    (ks.foldl (fun m k => (g k).elim m (m.insert k)) m).get? k = if k ∈ ks then (g k).or (m.get? k) else m.get? k
  | [], m => by simp
  | a :: ks, m => by
    rw [List.foldl_cons, get?_foldl_insert g k ks]
    by_cases ha : k = a
    · subst ha
      cases hg : g k <;> simp [get?_insert]
    · cases hg : g a <;> simp [get?_insert, ha]

end SortedMap

end SystemsLab
