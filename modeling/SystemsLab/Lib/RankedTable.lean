import Mathlib.Data.List.Sort
import SystemsLab.Lib.Overlay

/-!
# Tables searched in order of rank

Best rank first, at most one entry for each key. Looking up takes the first entry that fits (`rank_find?_le`).
-/

namespace SystemsLab

section
variable {α κ : Type} [DecidableEq κ]

def putEntry (key : α → κ) (e : α) : List α → List α
  | [] => [e]
  | x :: l => if key x = key e then e :: l else x :: putEntry key e l

theorem mem_of_mem_putEntry {key : α → κ} {e y : α} {l : List α} (h : y ∈ putEntry key e l) : y = e ∨ y ∈ l := by
  induction l with
  | nil => simpa [putEntry] using h
  | cons x l ih =>
    rw [putEntry] at h
    split at h
    · exact (List.mem_cons.mp h).imp_right (List.mem_cons_of_mem _)
    · rcases List.mem_cons.mp h with rfl | h
      · exact .inr List.mem_cons_self
      · exact (ih h).imp_right (List.mem_cons_of_mem _)

theorem keys_putEntry_subset (key : α → κ) (e : α) (l : List α) {k : κ} (h : k ∈ (putEntry key e l).map key) :
    k = key e ∨ k ∈ l.map key := by
  obtain ⟨y, hy, rfl⟩ := List.mem_map.mp h
  rcases mem_of_mem_putEntry hy with rfl | hy
  · exact .inl rfl
  · exact .inr (List.mem_map_of_mem hy)

theorem self_mem_putEntry (key : α → κ) (e : α) (l : List α) : e ∈ putEntry key e l := by
  induction l with
  | nil => exact List.mem_singleton_self e
  | cons x l ih =>
    rw [putEntry]
    split
    · exact List.mem_cons_self
    · exact List.mem_cons_of_mem _ ih

theorem find?_putEntry (key : α → κ) (e : α) (l : List α) (k : κ) :
    (putEntry key e l).find? (key · = k) = if key e = k then some e else l.find? (key · = k) := by
  induction l with
  | nil => by_cases h : key e = k <;> simp [putEntry, h]
  | cons x l ih =>
    rw [putEntry]
    split
    · rename_i hx
      by_cases h : key e = k <;> simp [hx, h]
    · rename_i hx
      by_cases h : key x = k
      · have : key e ≠ k := fun he => hx (h.trans he.symm)
        simp [h, this]
      · simp [h, ih]

theorem nodup_keys_putEntry {key : α → κ} {e : α} {l : List α} (h : (l.map key).Nodup) :
    ((putEntry key e l).map key).Nodup := by
  induction l with
  | nil => simp [putEntry]
  | cons x l ih =>
    rw [List.map_cons, List.nodup_cons] at h
    rw [putEntry]
    split
    · rename_i hx
      rw [List.map_cons, List.nodup_cons, ← hx]
      exact h
    · rename_i hx
      rw [List.map_cons, List.nodup_cons]
      exact ⟨fun hmem => (keys_putEntry_subset key e l hmem).elim hx h.1, ih h.2⟩

theorem mem_putEntry {key : α → κ} {e : α} {l : List α} (h : (l.map key).Nodup) {y : α} :
    y ∈ putEntry key e l ↔ y = e ∨ y ∈ l ∧ key y ≠ key e := by
  induction l with
  | nil => simp [putEntry]
  | cons x l ih =>
    rw [List.map_cons, List.nodup_cons] at h
    rw [putEntry]
    split
    · rename_i hx
      -- the overwritten entry was the only one with its key
      have hother : y ∈ l → key y ≠ key e := fun hy hk => h.1 (hx ▸ hk ▸ List.mem_map_of_mem hy)
      rw [List.mem_cons, List.mem_cons]
      constructor
      · rintro (rfl | hy)
        · exact .inl rfl
        · exact .inr ⟨.inr hy, hother hy⟩
      · rintro (rfl | ⟨rfl | hy, hk⟩)
        · exact .inl rfl
        · exact absurd hx hk
        · exact .inr hy
    · rename_i hx
      rw [List.mem_cons, List.mem_cons, ih h.2]
      constructor
      · rintro (rfl | rfl | ⟨hy, hk⟩)
        · exact .inr ⟨.inl rfl, hx⟩
        · exact .inl rfl
        · exact .inr ⟨.inr hy, hk⟩
      · rintro (rfl | ⟨rfl | hy, hk⟩)
        · exact .inr (.inl rfl)
        · exact .inl rfl
        · exact .inr (.inr ⟨hy, hk⟩)

end

section
variable {α ρ : Type} [LinearOrder ρ]

def rankSort (rank : α → ρ) (l : List α) : List α := l.insertionSort (rank · ≤ rank ·)

instance instTotalRank (rank : α → ρ) : Std.Total fun a b => rank a ≤ rank b :=
  ⟨fun a b => le_total (rank a) (rank b)⟩

instance instIsTransRank (rank : α → ρ) : IsTrans α fun a b => rank a ≤ rank b := ⟨fun _ _ _ => le_trans⟩

theorem rankSort_ranked (rank : α → ρ) (l : List α) : (rankSort rank l).Pairwise (rank · ≤ rank ·) :=
  List.pairwise_insertionSort _ l

theorem rankSort_perm (rank : α → ρ) (l : List α) : (rankSort rank l).Perm l := List.perm_insertionSort _ l

theorem rank_find?_le {rank : α → ρ} {l : List α} (hl : l.Pairwise (rank · ≤ rank ·)) {p : α → Bool} {x y : α}
    (hx : l.find? p = some x) (hy : y ∈ l) (hpy : p y) : rank x ≤ rank y := by
  obtain ⟨-, before, after, rfl, hbefore⟩ := List.find?_eq_some_iff_append.mp hx
  rcases List.mem_append.mp hy with hy | hy
  · exact absurd hpy (by simpa using hbefore y hy)
  · rcases List.mem_cons.mp hy with rfl | hy
    · exact le_rfl
    · exact (List.pairwise_cons.mp (List.pairwise_append.mp hl).2.1).1 y hy

end

@[ext] structure RankedTable {α κ ρ : Type} [LinearOrder ρ] (key : α → κ) (rank : α → ρ) where
  entries : List α
  ranked : entries.Pairwise (rank · ≤ rank ·)
  nodup : (entries.map key).Nodup

namespace RankedTable
variable {α κ ρ : Type} [LinearOrder ρ] {key : α → κ} {rank : α → ρ}
variable {t : RankedTable key rank}

instance : Membership α (RankedTable key rank) := ⟨fun t e => e ∈ t.entries⟩

theorem mem_def {e : α} : e ∈ t ↔ e ∈ t.entries := Iff.rfl

def empty : RankedTable key rank := ⟨[], .nil, .nil⟩

def retain (t : RankedTable key rank) (p : α → Bool) : RankedTable key rank where
  entries := t.entries.filter p
  ranked := t.ranked.sublist List.filter_sublist
  nodup := t.nodup.sublist (List.filter_sublist.map key)

theorem mem_retain {p : α → Bool} {e : α} : e ∈ t.retain p ↔ e ∈ t ∧ p e := List.mem_filter

theorem eq_of_key_eq {x y : α} (hx : x ∈ t) (hy : y ∈ t) (h : key x = key y) : x = y :=
  List.inj_on_of_nodup_map t.nodup hx hy h

section
variable [DecidableEq κ]

def put (t : RankedTable key rank) (e : α) : RankedTable key rank where
  entries := rankSort rank (putEntry key e t.entries)
  ranked := rankSort_ranked _ _
  nodup := ((rankSort_perm _ _).map key).nodup_iff.mpr (nodup_keys_putEntry t.nodup)

theorem mem_put {e y : α} : y ∈ t.put e ↔ y = e ∨ y ∈ t ∧ key y ≠ key e := by
  rw [mem_def, put, (rankSort_perm _ _).mem_iff, mem_putEntry t.nodup, mem_def]

def putAll (t : RankedTable key rank) (es : List α) : RankedTable key rank := es.foldl put t

theorem mem_putAll {es : List α} {y : α} :
    y ∈ t.putAll es ↔ lastWrite (es.map fun e => (key e, e)) (key y) = some y ∨ y ∈ t ∧ key y ∉ es.map key := by
  induction es generalizing t with
  | nil => simp [putAll, lastWrite]
  | cons e es ih =>
    have hkeys : (es.map fun e => (key e, e)).map Prod.fst = es.map key := by simp
    rw [putAll, List.foldl_cons, ← putAll, ih, mem_put, List.map_cons, lastWrite, Option.or_eq_some_iff,
      lastWrite_eq_none, hkeys, List.map_cons, List.mem_cons]
    constructor
    · rintro (h | ⟨rfl | ⟨hy, hk⟩, hlater⟩)
      · exact .inl (.inl h)
      · exact .inl (.inr ⟨hlater, if_pos rfl⟩)
      · exact .inr ⟨hy, not_or.mpr ⟨hk, hlater⟩⟩
    · rintro ((h | ⟨hlater, h⟩) | ⟨hy, hk⟩)
      · exact .inl h
      · split at h
        · exact .inr ⟨.inl (Option.some.inj h).symm, hlater⟩
        · cases h
      · exact .inr ⟨.inr ⟨hy, (not_or.mp hk).1⟩, (not_or.mp hk).2⟩

end

end RankedTable

end SystemsLab
