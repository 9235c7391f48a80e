import Mathlib.Data.Fintype.Card
import Mathlib.Data.Finset.Card
import Mathlib.Logic.Relation
import Mathlib.Order.WellFounded
import Mathlib.Tactic.Common

/-!
# Graphs given by a list of edges

`walk` goes through everything reachable with a stack, `visit` looks for a cycle depth first with one mark per node.
-/

namespace SystemsLab

open Function Relation

/-! ## Acyclic relations -/

section
variable {κ : Type} {E F : κ → κ → Prop}

def Acyclic (E : κ → κ → Prop) : Prop := ∀ x, ¬ TransGen E x x

theorem Acyclic.mono (h : Acyclic F) (hs : ∀ x y, E x y → F x y) : Acyclic E :=
  fun x hx => h x (TransGen.mono hs x x hx)

theorem Acyclic.of_leaves (h : Acyclic F) (hs : ∀ x y, E x y → F x y ∨ ∀ z, ¬ E y z) : Acyclic E := by
  have hpath : ∀ {x y}, TransGen E x y → (∃ z, E y z) → TransGen F x y := by
    intro x y hxy
    induction hxy with
    | single hxy =>
      rintro ⟨z, hz⟩
      exact .single ((hs _ _ hxy).resolve_right fun hl => hl z hz)
    | tail _ hyz ih =>
      rintro ⟨w, hw⟩
      exact (ih ⟨_, hyz⟩).tail ((hs _ _ hyz).resolve_right fun hl => hl w hw)
  intro x hx
  obtain ⟨z, hz, -⟩ := TransGen.head'_iff.mp hx
  exact h x (hpath hx ⟨z, hz⟩)

theorem Acyclic.insert {p t : κ} (h : Acyclic F) (hs : ∀ x y, E x y → F x y ∨ x = p ∧ y = t)
    (hback : ¬ ReflTransGen F t p) : Acyclic E := by
  -- Along a path, what follows the last use of the new edge starts at `t`.
  have hlast : ∀ {x y}, ReflTransGen E x y → ReflTransGen F x y ∨ ReflTransGen F t y := by
    intro x y hxy
    induction hxy with
    | refl => exact .inl .refl
    | tail _ hyz ih =>
      rcases hs _ _ hyz with hyz | ⟨-, rfl⟩
      · exact ih.imp (·.tail hyz) (·.tail hyz)
      · exact .inr .refl
  have hno : ¬ ReflTransGen E t p := fun htp => hback ((hlast htp).elim id id)
  have huse : ∀ {x y}, TransGen E x y → TransGen F x y ∨ ReflTransGen E x p ∧ ReflTransGen E t y := by
    intro x y hxy
    induction hxy with
    | single hxy =>
      rcases hs _ _ hxy with hxy | ⟨rfl, rfl⟩
      · exact .inl (.single hxy)
      · exact .inr ⟨.refl, .refl⟩
    | tail hxy hyz ih =>
      rcases hs _ _ hyz with hF | ⟨rfl, rfl⟩
      · exact ih.imp (·.tail hF) fun h => ⟨h.1, h.2.tail hyz⟩
      · exact .inr ⟨hxy.to_reflTransGen, .refl⟩
  intro x hx
  rcases huse hx with hx | ⟨hxp, htx⟩
  · exact h x hx
  · exact hno (htx.trans hxp)

theorem Acyclic.reaches [Finite κ] (h : Acyclic E) {S : κ → Prop} {r : κ}
    (hin : ∀ x, S x → x ≠ r → ∃ p, S p ∧ E p x) : ∀ x, S x → ReflTransGen E r x := by
  have : IsTrans κ (TransGen E) := ⟨fun _ _ _ => TransGen.trans⟩
  have : Std.Irrefl (TransGen E) := ⟨h⟩
  have hwf : WellFounded (TransGen E) := Finite.wellFounded_of_trans_of_irrefl _
  intro x
  induction x using hwf.induction with
  | _ x ih =>
    intro hx
    by_cases hr : x = r
    · rw [hr]
    · obtain ⟨p, hp, hpx⟩ := hin x hx hr
      exact (ih p (.single hpx) hp).tail hpx

end

/-! ## Reachability -/

section
variable {κ : Type} [DecidableEq κ] (edges : List (κ × κ))

def Edge (x y : κ) : Prop := (x, y) ∈ edges

def children (x : κ) : List κ := (edges.filter (fun e => e.1 = x)).map Prod.snd

variable {edges}

theorem mem_children {x y : κ} : y ∈ children edges x ↔ Edge edges x y := by
  simp [children, Edge]

theorem length_children_add (x : κ) (seen : List κ) (hx : x ∉ seen) :
    (children edges x).length + (edges.filter fun e => e.1 ∉ x :: seen).length =
      (edges.filter fun e => e.1 ∉ seen).length := by
  rw [children, List.length_map, ← List.countP_eq_length_filter, ← List.countP_eq_length_filter,
    ← List.countP_eq_length_filter]
  induction edges with
  | nil => rfl
  | cons e edges ih =>
    simp only [List.countP_cons]
    by_cases he : e.1 = x
    · simp [he, hx] at ih ⊢; omega
    · by_cases hs : e.1 ∈ seen <;> simp [he, hs] at ih ⊢ <;> omega

variable (edges)

/-- Pops nodes off a stack, expanding each at its first visit, until one is to stop at. Returns whether that
happened, and the nodes seen. -/
def walk (stop : κ → Bool) (seen : List κ) : List κ → Bool × List κ
  | [] => (false, seen)
  | x :: pending =>
    if x ∈ seen then walk stop seen pending
    else if stop x then (true, x :: seen)
    else walk stop (x :: seen) ((children edges x).reverse ++ pending)
termination_by pending => pending.length + (edges.filter fun e => e.1 ∉ seen).length
decreasing_by
  · simp
  · rename_i hx _
    have := @length_children_add _ _ edges x seen hx
    simp only [List.length_append, List.length_reverse, List.length_cons]
    omega

variable {edges}

theorem walk_spec {r : κ} (stop : κ → Bool) (seen pending : List κ)
    (hr : ∀ y, y ∈ seen ∨ y ∈ pending → ReflTransGen (Edge edges) r y)
    (hc : ∀ y ∈ seen, ∀ z, Edge edges y z → z ∈ seen ∨ z ∈ pending) (hs : ∀ y ∈ seen, stop y = false) :
    ((walk edges stop seen pending).1 = true → ∃ y, stop y = true ∧ ReflTransGen (Edge edges) r y) ∧
      ((walk edges stop seen pending).1 = false →
        (∀ y, y ∈ seen ∨ y ∈ pending → y ∈ (walk edges stop seen pending).2) ∧
        (∀ y ∈ (walk edges stop seen pending).2, ReflTransGen (Edge edges) r y ∧ stop y = false ∧
          ∀ z, Edge edges y z → z ∈ (walk edges stop seen pending).2)) := by
  induction seen, pending using walk.induct edges stop with
  | case1 seen =>
    rw [walk]
    refine ⟨by simp, fun _ => ⟨by simp, fun y hy => ⟨hr y (.inl hy), hs y hy, fun z hz => ?_⟩⟩⟩
    simpa using hc y hy z hz
  | case2 seen x pending hx ih =>
    have := ih (fun y hy => hr y (hy.imp_right (List.mem_cons_of_mem _)))
      (fun y hy z hz => (hc y hy z hz).elim .inl fun hm =>
        (List.mem_cons.mp hm).elim (fun he => .inl (he ▸ hx)) .inr) hs
    rw [walk, if_pos hx]
    refine ⟨this.1, fun h => ⟨fun y hy => ?_, (this.2 h).2⟩⟩
    rcases hy with hy | hy
    · exact (this.2 h).1 y (.inl hy)
    · rcases List.mem_cons.mp hy with rfl | hy
      · exact (this.2 h).1 _ (.inl hx)
      · exact (this.2 h).1 y (.inr hy)
  | case3 seen x pending hx hstop =>
    rw [walk, if_neg hx, if_pos hstop]
    exact ⟨fun _ => ⟨x, hstop, hr x (.inr List.mem_cons_self)⟩, by simp⟩
  | case4 seen x pending hx hstop ih =>
    have hx' := hr x (.inr List.mem_cons_self)
    have := ih ?_ ?_ ?_
    · rw [walk, if_neg hx, if_neg hstop]
      refine ⟨this.1, fun h => ⟨fun y hy => ?_, (this.2 h).2⟩⟩
      rcases hy with hy | hy
      · exact (this.2 h).1 y (.inl (List.mem_cons_of_mem _ hy))
      · rcases List.mem_cons.mp hy with rfl | hy
        · exact (this.2 h).1 _ (.inl List.mem_cons_self)
        · exact (this.2 h).1 y (.inr (List.mem_append_right _ hy))
    · intro y hy
      rcases hy with hy | hy
      · rcases List.mem_cons.mp hy with rfl | hy
        · exact hx'
        · exact hr y (.inl hy)
      · rcases List.mem_append.mp hy with hy | hy
        · exact hx'.tail (mem_children.mp (List.mem_reverse.mp hy))
        · exact hr y (.inr (List.mem_cons_of_mem _ hy))
    · intro y hy z hz
      rcases List.mem_cons.mp hy with rfl | hy
      · exact .inr (List.mem_append_left _ (List.mem_reverse.mpr (mem_children.mpr hz)))
      · rcases hc y hy z hz with hm | hm
        · exact .inl (List.mem_cons_of_mem _ hm)
        · rcases List.mem_cons.mp hm with rfl | hm
          · exact .inl List.mem_cons_self
          · exact .inr (List.mem_append_right _ hm)
    · intro y hy
      rcases List.mem_cons.mp hy with rfl | hy
      · simpa using hstop
      · exact hs y hy

omit [DecidableEq κ] in
theorem mem_of_reaches {S : List κ} (hc : ∀ y ∈ S, ∀ z, Edge edges y z → z ∈ S) {r x : κ} (hr : r ∈ S)
    (h : ReflTransGen (Edge edges) r x) : x ∈ S := by
  induction h with
  | refl => exact hr
  | tail _ hyz ih => exact hc _ ih _ hyz

theorem mem_walk {r x : κ} : x ∈ (walk edges (fun _ => false) [] [r]).2 ↔ ReflTransGen (Edge edges) r x := by
  obtain ⟨hfound, hall⟩ := @walk_spec _ _ edges r (fun _ => false) [] [r]
    (fun y hy => by simp at hy; rw [hy]) (by simp) (by simp)
  have hf : (walk edges (fun _ => false) [] [r]).1 = false := by
    cases h : (walk edges (fun _ => false) [] [r]).1 with
    | false => rfl
    | true => obtain ⟨y, hy, -⟩ := hfound h; cases hy
  obtain ⟨hroot, hclosed⟩ := hall hf
  exact ⟨fun hx => (hclosed x hx).1,
    mem_of_reaches (fun y hy => (hclosed y hy).2.2) (hroot r (.inr List.mem_cons_self))⟩

theorem walk_stops {r g : κ} : (walk edges (fun x => x = g) [] [r]).1 = true ↔ ReflTransGen (Edge edges) r g := by
  obtain ⟨hfound, hall⟩ := @walk_spec _ _ edges r (fun x => decide (x = g)) [] [r]
    (fun y hy => by simp at hy; rw [hy]) (by simp) (by simp)
  constructor
  · intro h
    obtain ⟨y, hy, hr⟩ := hfound h
    simp only [decide_eq_true_eq] at hy
    exact hy ▸ hr
  · intro hg
    cases h : (walk edges (fun x => decide (x = g)) [] [r]).1 with
    | true => rfl
    | false =>
      obtain ⟨hroot, hclosed⟩ := hall h
      have hmem := mem_of_reaches (fun y hy => (hclosed y hy).2.2) (hroot r (.inr List.mem_cons_self)) hg
      have := (hclosed g hmem).2.1
      simp at this

end

/-! ## Cycles -/

inductive Mark
  | entered
  | finished
  deriving DecidableEq, Repr

section
variable {κ : Type} [DecidableEq κ] (next : κ → List κ)

/-- The error is the node at which a cycle closes, or at which the recursion is too deep. -/
def visit : Nat → κ → (κ → Option Mark) → Except κ (κ → Option Mark)
  | 0, x, _ => .error x
  | depth + 1, x, marks =>
    match marks x with
    | some .entered => .error x
    | some .finished => .ok marks
    | none => do
      let marks ← (next x).foldlM (fun marks y => visit depth y marks) (update marks x (some .entered))
      pure (update marks x (some .finished))

def visitAll (depth : Nat) (xs : List κ) (marks : κ → Option Mark) : Except κ (κ → Option Mark) :=
  xs.foldlM (fun marks y => visit next depth y marks) marks

variable {next}

section
variable {marks marks' : κ → Option Mark} {x : κ}
variable {depth : Nat}

structure Settled (next : κ → List κ) (marks : κ → Option Mark) : Prop where
  closed : ∀ x, marks x = some .finished → ∀ y ∈ next x, marks y = some .finished
  acyclic : ∀ x, marks x = some .finished → ¬ TransGen (fun a b => b ∈ next a) x x

structure Progress (marks marks' : κ → Option Mark) : Prop where
  finished : ∀ x, marks x = some .finished → marks' x = some .finished
  entered : ∀ x, marks' x = some .entered ↔ marks x = some .entered

omit [DecidableEq κ] in
theorem Progress.refl (marks : κ → Option Mark) : Progress marks marks := ⟨fun _ h => h, fun _ => Iff.rfl⟩

omit [DecidableEq κ] in
theorem Progress.trans {m₁ m₂ m₃ : κ → Option Mark} (h : Progress m₁ m₂) (h' : Progress m₂ m₃) : Progress m₁ m₃ :=
  ⟨fun x hx => h'.finished x (h.finished x hx), fun x => (h'.entered x).trans (h.entered x)⟩

omit [DecidableEq κ] in
theorem Settled.reaches (h : Settled next marks) {y : κ} (hx : marks x = some .finished)
    (hxy : ReflTransGen (fun a b => b ∈ next a) x y) : marks y = some .finished := by
  induction hxy with
  | refl => exact hx
  | tail _ hyz ih => exact h.closed _ ih _ hyz

theorem Settled.enter (h : Settled next marks) (hx : marks x = none) :
    Settled next (update marks x (some .entered)) := by
  have hfin : ∀ y, update marks x (some .entered) y = some .finished ↔ marks y = some .finished := by
    intro y
    by_cases hyx : y = x
    · rw [hyx, update_self, hx]; simp
    · rw [update_of_ne hyx]
  exact ⟨fun y hy z hz => (hfin z).mpr (h.closed y ((hfin y).mp hy) z hz), fun y hy => h.acyclic y ((hfin y).mp hy)⟩

theorem Settled.finish (h : Settled next marks) (hx : marks x = some .entered)
    (hn : ∀ y ∈ next x, marks y = some .finished) : Settled next (update marks x (some .finished)) := by
  have hfin : ∀ y, marks y = some .finished → update marks x (some .finished) y = some .finished := by
    intro y hy
    by_cases hyx : y = x
    · rw [hyx, update_self]
    · rw [update_of_ne hyx, hy]
  refine ⟨fun y hy z hz => ?_, fun y hy hcyc => ?_⟩
  · by_cases hyx : y = x
    · subst hyx; exact hfin z (hn z hz)
    · rw [update_of_ne hyx] at hy
      exact hfin z (h.closed y hy z hz)
  · by_cases hyx : y = x
    · subst hyx
      -- The cycle leaves through a finished node, and finished nodes only reach finished ones.
      obtain ⟨z, hz, hzy⟩ := TransGen.head'_iff.mp hcyc
      have := h.reaches (hn z hz) hzy
      rw [hx] at this; cases this
    · rw [update_of_ne hyx] at hy
      exact h.acyclic y hy hcyc

theorem visitAll_ok (ih : ∀ {x : κ} {marks marks' : κ → Option Mark},
    visit next depth x marks = .ok marks' → Settled next marks →
      Settled next marks' ∧ Progress marks marks' ∧ marks' x = some .finished) :
    ∀ {xs : List κ} {marks marks' : κ → Option Mark}, visitAll next depth xs marks = .ok marks' →
      Settled next marks →
      Settled next marks' ∧ Progress marks marks' ∧ ∀ x ∈ xs, marks' x = some .finished
  | [], marks, marks', h, hs => by
    cases h
    exact ⟨hs, .refl _, by simp⟩
  | x :: xs, marks, marks', h, hs => by
    rw [visitAll, List.foldlM_cons] at h
    cases hv : visit next depth x marks with
    | error e => rw [hv] at h; cases h
    | ok m =>
      rw [hv] at h
      obtain ⟨hs₁, hp₁, hx⟩ := ih hv hs
      obtain ⟨hs₂, hp₂, hxs⟩ := visitAll_ok ih (show visitAll next depth xs m = .ok marks' from h) hs₁
      exact ⟨hs₂, hp₁.trans hp₂, List.forall_mem_cons.mpr ⟨hp₂.finished x hx, hxs⟩⟩

theorem visit_ok : ∀ {depth : Nat} {x : κ} {marks marks' : κ → Option Mark}, visit next depth x marks = .ok marks' →
    Settled next marks → Settled next marks' ∧ Progress marks marks' ∧ marks' x = some .finished
  | 0, x, marks, marks', h, _ => by cases h
  | depth + 1, x, marks, marks', h, hs => by
    rw [visit] at h
    split at h
    · cases h
    · rename_i hx
      cases h
      exact ⟨hs, .refl _, hx⟩
    · rename_i hx
      cases hv : visitAll next depth (next x) (update marks x (some .entered)) with
      | error e =>
        rw [visitAll] at hv
        rw [hv] at h; cases h
      | ok m =>
        obtain ⟨hs₂, hp, hn⟩ := visitAll_ok visit_ok hv (hs.enter hx)
        rw [visitAll] at hv
        rw [hv] at h
        cases h
        have hent : m x = some .entered := (hp.entered x).mpr (update_self ..)
        refine ⟨hs₂.finish hent hn, ⟨fun y hy => ?_, fun y => ?_⟩, update_self ..⟩
        · by_cases hyx : y = x
          · rw [hyx, update_self]
          · rw [update_of_ne hyx]
            exact hp.finished y (by rw [update_of_ne hyx, hy])
        · by_cases hyx : y = x
          · rw [hyx, update_self, hx]; simp
          · rw [update_of_ne hyx, hp.entered, update_of_ne hyx]

/-! A search of enough depth fails only at a cycle. -/

def unmarked (nodes : Finset κ) (marks : κ → Option Mark) : Finset κ := nodes.filter fun x => marks x = none

omit [DecidableEq κ] in
theorem Progress.unmarked_le (h : Progress marks marks') (nodes : Finset κ) :
    (unmarked nodes marks').card ≤ (unmarked nodes marks).card := by
  refine Finset.card_le_card fun x hx => ?_
  simp only [unmarked, Finset.mem_filter] at hx ⊢
  refine ⟨hx.1, ?_⟩
  cases hm : marks x with
  | none => rfl
  | some m =>
    cases m with
    | entered => rw [(h.entered x).mpr hm] at hx; cases hx.2
    | finished => rw [h.finished x hm] at hx; cases hx.2

theorem unmarked_enter {nodes : Finset κ} (hx : x ∈ nodes) (hm : marks x = none) :
    (unmarked nodes (update marks x (some .entered))).card < (unmarked nodes marks).card := by
  have hsub : unmarked nodes (update marks x (some .entered)) ⊆ unmarked nodes marks := by
    intro y hy
    simp only [unmarked, Finset.mem_filter] at hy ⊢
    by_cases hyx : y = x
    · rw [hyx]; exact ⟨hx, hm⟩
    · rw [update_of_ne hyx] at hy; exact hy
  exact Finset.card_lt_card ((Finset.ssubset_iff_of_subset hsub).mpr
    ⟨x, by simp [unmarked, hx, hm], by simp [unmarked]⟩)

section
variable {nodes : Finset κ} (hclosed : ∀ x ∈ nodes, ∀ y ∈ next x, y ∈ nodes)
variable (hac : ∀ x ∈ nodes, ¬ TransGen (fun a b => b ∈ next a) x x)

theorem visitAll_total (ih : ∀ {x : κ} {marks : κ → Option Mark}, x ∈ nodes → Settled next marks →
    (∀ y, marks y = some .entered → TransGen (fun a b => b ∈ next a) y x) → (unmarked nodes marks).card < depth →
      ∃ marks', visit next depth x marks = .ok marks') :
    ∀ {xs : List κ} {marks : κ → Option Mark}, (∀ x ∈ xs, x ∈ nodes) → Settled next marks →
      (∀ y, marks y = some .entered → ∀ x ∈ xs, TransGen (fun a b => b ∈ next a) y x) →
      (unmarked nodes marks).card < depth → ∃ marks', visitAll next depth xs marks = .ok marks'
  | [], marks, _, _, _, _ => ⟨marks, rfl⟩
  | x :: xs, marks, hx, hs, hent, hd => by
    obtain ⟨hx, hxs⟩ := List.forall_mem_cons.mp hx
    obtain ⟨m, hm⟩ := ih hx hs (fun y hy => hent y hy x List.mem_cons_self) hd
    obtain ⟨hs₁, hp, -⟩ := visit_ok hm hs
    obtain ⟨m', hm'⟩ := visitAll_total ih hxs hs₁
      (fun y hy z hz => hent y ((hp.entered y).mp hy) z (List.mem_cons_of_mem _ hz))
      (Nat.lt_of_le_of_lt (hp.unmarked_le nodes) hd)
    refine ⟨m', ?_⟩
    rw [visitAll, List.foldlM_cons, hm]
    exact hm'

include hclosed hac

theorem visit_total : ∀ {depth : Nat} {x : κ} {marks : κ → Option Mark}, x ∈ nodes → Settled next marks →
    (∀ y, marks y = some .entered → TransGen (fun a b => b ∈ next a) y x) → (unmarked nodes marks).card < depth →
      ∃ marks', visit next depth x marks = .ok marks'
  | 0, _, _, _, _, _, hd => by omega
  | depth + 1, x, marks, hx, hs, hent, hd => by
    rw [visit]
    split
    · rename_i hm
      exact absurd (hent x hm) (hac x hx)
    · exact ⟨_, rfl⟩
    · rename_i hm
      have hent₁ : ∀ y, update marks x (some .entered) y = some .entered → ∀ z ∈ next x,
          TransGen (fun a b => b ∈ next a) y z := by
        intro y hy z hz
        by_cases hyx : y = x
        · rw [hyx]; exact .single hz
        · rw [update_of_ne hyx] at hy
          exact (hent y hy).tail hz
      obtain ⟨m, hv⟩ := visitAll_total visit_total (hclosed x hx) (hs.enter hm) hent₁
        (Nat.lt_of_lt_of_le (unmarked_enter hx hm) (Nat.le_of_lt_succ hd))
      rw [visitAll] at hv
      rw [hv]
      exact ⟨_, rfl⟩

end

theorem visitAll_iff {nodes : List κ} (hclosed : ∀ x ∈ nodes, ∀ y ∈ next x, y ∈ nodes)
    (hd : nodes.length < depth) : (∃ marks, visitAll next depth nodes (fun _ => none) = .ok marks) ↔
      ∀ x ∈ nodes, ¬ TransGen (fun a b => b ∈ next a) x x := by
  have hs : Settled next (fun _ => none) := ⟨fun _ h => (nomatch h), fun _ h => (nomatch h)⟩
  constructor
  · rintro ⟨marks, hm⟩ x hx
    obtain ⟨hs', -, hfin⟩ := visitAll_ok visit_ok hm hs
    exact hs'.acyclic x (hfin x hx)
  · intro hac
    refine visitAll_total (@visit_total _ _ next nodes.toFinset ?_ ?_ depth) ?_ hs (fun _ h => (nomatch h)) ?_
    · simpa using hclosed
    · simpa using hac
    · simp
    · refine Nat.lt_of_le_of_lt ?_ hd
      exact (Finset.card_filter_le _ _).trans (List.toFinset_card_le nodes)

end

/-! ## The search without a bound -/

inductive Searches (next : κ → List κ) : List κ → (κ → Option Mark) → Except κ (κ → Option Mark) → Prop
  | nil (marks) : Searches next [] marks (.ok marks)
  | closes {x xs marks} : marks x = some .entered → Searches next (x :: xs) marks (.error x)
  | skip {x xs marks r} : marks x = some .finished → Searches next xs marks r → Searches next (x :: xs) marks r
  | fails {x xs marks y} : marks x = none → Searches next (next x) (update marks x (some .entered)) (.error y) →
      Searches next (x :: xs) marks (.error y)
  | leaves {x xs marks marks' r} : marks x = none →
      Searches next (next x) (update marks x (some .entered)) (.ok marks') →
      Searches next xs (update marks' x (some .finished)) r → Searches next (x :: xs) marks r

theorem visitAll_cons (depth : Nat) (x : κ) (xs : List κ) (marks : κ → Option Mark) :
    visitAll next depth (x :: xs) marks = (visit next depth x marks).bind (visitAll next depth xs) := by
  rw [visitAll, List.foldlM_cons]
  rfl

theorem visit_succ_of_none {x : κ} {marks : κ → Option Mark} (hx : marks x = none) (depth : Nat) :
    visit next (depth + 1) x marks = (visitAll next depth (next x) (update marks x (some .entered))).map
      (update · x (some .finished)) := by
  rw [visit, hx, visitAll]
  rfl

theorem searches_visitAll {nodes : Finset κ} (hclosed : ∀ x ∈ nodes, ∀ y ∈ next x, y ∈ nodes) :
    ∀ {depth : Nat} {xs : List κ} {marks : κ → Option Mark}, (∀ x ∈ xs, x ∈ nodes) → Settled next marks →
      (unmarked nodes marks).card < depth → Searches next xs marks (visitAll next depth xs marks) := by
  intro depth
  induction depth with
  | zero => intro xs marks _ _ hd; omega
  | succ depth ih =>
    intro xs
    induction xs with
    | nil => intro marks _ _ _; exact .nil marks
    | cons x xs ihxs =>
      intro marks hx hs hd
      obtain ⟨hx, hxs⟩ := List.forall_mem_cons.mp hx
      rw [visitAll_cons]
      cases hm : marks x with
      | some mark =>
        cases mark with
        | entered =>
          have : visit next (depth + 1) x marks = .error x := by rw [visit, hm]
          rw [this]
          exact .closes hm
        | finished =>
          have : visit next (depth + 1) x marks = .ok marks := by rw [visit, hm]
          rw [this]
          exact .skip hm (ihxs hxs hs hd)
      | none =>
        have hbelow := ih (hclosed x hx) (hs.enter hm)
          (Nat.lt_of_lt_of_le (unmarked_enter hx hm) (Nat.le_of_lt_succ hd))
        have hv := @visit_succ_of_none _ _ next x marks hm depth
        cases hr : visitAll next depth (next x) (update marks x (some .entered)) with
        | error y =>
          rw [hr] at hv hbelow
          rw [hv]
          exact .fails hm hbelow
        | ok marks' =>
          rw [hr] at hv hbelow
          obtain ⟨hs', hp, -⟩ := visit_ok hv hs
          rw [hv]
          exact .leaves hm hbelow (ihxs hxs hs' (Nat.lt_of_le_of_lt (hp.unmarked_le nodes) hd))

end

end SystemsLab
