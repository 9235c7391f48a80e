import SystemsLab.Lib.Bytes
import SystemsLab.Lib.Checked

/-!
# Reading a message front to back

Numbers in network order, reads that fail outside the bytes at hand, and the loop that reads a list of
self-delimiting records.
-/

namespace SystemsLab
variable {n b : Nat}

/-! ## Numbers in network order -/

def beBytes (w n : Nat) : List UInt8 := (leBytes w n).reverse

def beVal (l : List UInt8) : Nat := leVal l.reverse

@[simp] theorem length_beBytes (w n : Nat) : (beBytes w n).length = w := by simp [beBytes]

theorem beVal_beBytes_of_lt {w : Nat} (h : n < 256 ^ w) : beVal (beBytes w n) = n := by
  rw [beVal, beBytes, List.reverse_reverse, leVal_leBytes_of_lt h]

/-! ## Checked reads -/

section
variable {ε β : Type}

/-- The element at `i`; outside the bytes at hand it is the error `oob`. -/
def readAt (oob : ε) (l : List β) (i : Nat) : Except ε β := okOr oob l[i]?

def readSlice (oob : ε) (l : List β) (a b : Nat) : Except ε (List β) :=
  if a ≤ b ∧ b ≤ l.length then .ok (slice l a b) else .error oob

theorem readSlice_middle (oob : ε) {p m q : List β} {a : Nat} (ha : a = p.length) (hb : b = a + m.length) :
    readSlice oob (p ++ (m ++ q)) a b = .ok m := by
  subst ha hb
  rw [readSlice, if_pos (by simp), slice, List.take_append, List.drop_append]
  simp

theorem readSlice_front (oob : ε) {m q : List β} (hb : b = m.length) :
    readSlice oob (m ++ q) 0 b = .ok m := by
  simpa using @readSlice_middle b _ _ oob [] m q 0 rfl (by simp [hb])

theorem readSlice_back (oob : ε) {p m : List β} {a : Nat} (ha : a = p.length) (hb : b = a + m.length) :
    readSlice oob (p ++ m) a b = .ok m := by
  simpa using @readSlice_middle b _ _ oob p m [] a ha hb

end

/-! ## The loop over records -/

section
variable {σ α β ε : Type} (step : σ → List β → Except ε (σ × Nat))

/-- Runs `step` until nothing is left. The second argument counts what is still to be skipped. -/
def scan : List β → Nat → σ → Except ε σ
  | [], _, s => .ok s
  | _ :: rest, k + 1, s => scan rest k s
  | x :: rest, 0, s =>
    match step s (x :: rest) with
    | .error e => .error e
    | .ok (s', n) => scan rest (n - 1) s'

@[simp] theorem scan_nil (k : Nat) (s : σ) : scan step [] k s = .ok s := by cases k <;> rfl

theorem scan_skip : ∀ (l : List β) (k : Nat) (s : σ), scan step l k s = scan step (l.drop k) 0 s
  | [], k, s => by simp
  | _ :: _, 0, s => rfl
  | _ :: rest, k + 1, s => by rw [scan, scan_skip rest k s, List.drop_succ_cons]

variable {step}

theorem scan_record {r rest : List β} {s s' : σ} (hr : r ≠ []) (h : step s (r ++ rest) = .ok (s', r.length)) :
    scan step (r ++ rest) 0 s = scan step rest 0 s' := by
  cases r with
  | nil => exact absurd rfl hr
  | cons x r =>
    rw [List.cons_append] at h ⊢
    rw [scan, h]
    simp [scan_skip step (r ++ rest)]

theorem scan_flatMap {enc : α → List β} {next : σ → α → σ} : ∀ {as : List α}, (∀ a ∈ as, enc a ≠ []) →
    (∀ s, ∀ a ∈ as, ∀ rest, step s (enc a ++ rest) = .ok (next s a, (enc a).length)) →
    ∀ s : σ, scan step (as.flatMap enc) 0 s = .ok (as.foldl next s)
  | [], _, _, s => scan_nil step 0 s
  | a :: as, henc, hstep, s => by
    rw [List.forall_mem_cons] at henc
    rw [List.flatMap_cons, scan_record henc.1 (hstep s a List.mem_cons_self _),
      scan_flatMap henc.2 (fun s b hb => hstep s b (List.mem_cons_of_mem a hb)), List.foldl_cons]

theorem foldl_push (f : α → β) :
    ∀ (as : List α) (out : List β), as.foldl (fun out a => out ++ [f a]) out = out ++ as.map f
  | [], out => by simp
  | a :: as, out => by rw [List.foldl_cons, foldl_push f as]; simp

end

/-! ## Avoided errors -/

section
variable {ε α β : Type} {e : ε}
variable {e' : ε} {f : α → Except ε β} {c : Prop}

/-- The computation does not end in `e`. -/
def Avoids (e : ε) (x : Except ε α) : Prop := x ≠ .error e

@[simp] theorem avoids_bind {x : Except ε α} :
    Avoids e (x >>= f) ↔ Avoids e x ∧ ∀ a, x = .ok a → Avoids e (f a) := by
  cases x <;> simp [Avoids]

@[simp] theorem avoids_error : Avoids e (.error e' : Except ε α) ↔ e' ≠ e := by simp [Avoids]

@[simp] theorem avoids_ok (a : α) : Avoids e (.ok a) := nofun

@[simp] theorem avoids_require [Decidable c] : Avoids e (require c e') ↔ (e' = e → c) := by
  unfold Avoids require
  split <;> simp [*]

@[simp] theorem avoids_okOr {o : Option α} : Avoids e (okOr e' o) ↔ (e' = e → o.isSome) := by
  cases o <;> simp [Avoids, okOr]

@[simp] theorem avoids_readSlice {l : List β} {a : Nat} : Avoids e (readSlice e l a b) ↔ a ≤ b ∧ b ≤ l.length := by
  unfold Avoids readSlice
  split <;> simp [*]

@[simp] theorem avoids_ite [Decidable c] {x y : Except ε α} :
    Avoids e (if c then x else y) ↔ (c → Avoids e x) ∧ (¬ c → Avoids e y) := by
  split <;> simp [*]

theorem avoids_mapM : ∀ {l : List α}, (∀ a ∈ l, Avoids e (f a)) → Avoids e (l.mapM f)
  | [], _ => nofun
  | a :: l, h => by
    obtain ⟨ha, hl⟩ := List.forall_mem_cons.mp h
    rw [List.mapM_cons]
    simp [ha, avoids_mapM hl]

theorem avoids_scan {σ : Type} {step : σ → List β → Except ε (σ × Nat)} (h : ∀ s x l, Avoids e (step s (x :: l))) :
    ∀ (l : List β) (k : Nat) (s : σ), Avoids e (scan step l k s)
  | [], _, s => by simp
  | _ :: l, k + 1, s => avoids_scan h l k s
  | x :: l, 0, s => by
    have hx := h s x l
    rw [scan]
    cases hs : step s (x :: l) with
    | error e' => exact fun he => hx (hs.trans (congrArg Except.error (Except.error.inj he)))
    | ok r => exact avoids_scan h l _ r.1

end

/-! ## Chunks -/

section
variable {α : Type}

def chunksAux (n : Nat) : Nat → List α → List (List α)
  | 0, _ => []
  | fuel + 1, l => if l.isEmpty then [] else l.take n :: chunksAux n fuel (l.drop n)

def chunks (n : Nat) (l : List α) : List (List α) := chunksAux n l.length l

theorem chunksAux_spec (hn : 0 < n) : ∀ {fuel : Nat} {l : List α}, l.length ≤ fuel →
    (chunksAux n fuel l).flatten = l ∧ ∀ c ∈ chunksAux n fuel l, c ≠ [] ∧ c.length ≤ n
  | 0, l, h => by
    have : l = [] := List.length_eq_zero_iff.mp (by omega)
    simp [chunksAux, this]
  | fuel + 1, [], _ => by simp [chunksAux]
  | fuel + 1, x :: l, h => by
    have hdrop : ((x :: l).drop n).length ≤ fuel := by simp only [List.length_drop, List.length_cons] at h ⊢; omega
    obtain ⟨hflat, hall⟩ := chunksAux_spec hn hdrop
    simp only [chunksAux, List.isEmpty_cons, Bool.false_eq_true, if_false, List.flatten_cons, List.forall_mem_cons]
    refine ⟨by rw [hflat, List.take_append_drop], ⟨?_, by simp⟩, hall⟩
    intro hnil
    have := congrArg List.length hnil
    simp at this; omega

theorem mem_chunks (hn : 0 < n) {l c : List α} (hc : c ∈ chunks n l) : c ≠ [] ∧ c.length ≤ n :=
  (chunksAux_spec hn le_rfl).2 c hc

theorem flatten_chunks (hn : 0 < n) (l : List α) : (chunks n l).flatten = l := (chunksAux_spec hn le_rfl).1

theorem chunks_of_le {l : List α} (h0 : l ≠ []) (h : l.length ≤ n) : chunks n l = [l] := by
  cases l with
  | nil => exact absurd rfl h0
  | cons x l => cases l <;> simp_all [chunks, chunksAux, List.take_of_length_le, List.drop_eq_nil_of_le]

theorem chunks_flatMap {β : Type} (hn : 0 < n) {f : β → List α} : ∀ {l : List β}, (∀ x ∈ l, (f x).length = n) →
    chunks n (l.flatMap f) = l.map f := by
  have hnil : ∀ fuel, chunksAux n fuel ([] : List α) = [] := fun fuel => by cases fuel <;> rfl
  have haux : ∀ {l : List β} {fuel : Nat}, (∀ x ∈ l, (f x).length = n) → (l.flatMap f).length ≤ fuel →
      chunksAux n fuel (l.flatMap f) = l.map f := by
    intro l
    induction l with
    | nil => intro fuel _ _; exact hnil fuel
    | cons x l ih =>
      intro fuel hl hfuel
      rw [List.forall_mem_cons] at hl
      rw [List.flatMap_cons] at hfuel ⊢
      rw [List.length_append, hl.1] at hfuel
      obtain ⟨fuel, rfl⟩ : ∃ k, fuel = k + 1 := ⟨fuel - 1, by omega⟩
      have hne : (f x ++ l.flatMap f).isEmpty = false := by
        rw [List.isEmpty_eq_false_iff, ne_eq, List.append_eq_nil_iff]
        rintro ⟨h, -⟩
        rw [← hl.1, h] at hn
        exact absurd hn (by simp)
      rw [chunksAux, hne, List.take_left' hl.1, List.drop_left' hl.1, ih hl.2 (by omega)]
      rfl
  exact fun {_} hl => haux hl le_rfl

end

end SystemsLab
