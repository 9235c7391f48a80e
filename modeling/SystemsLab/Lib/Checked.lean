import Mathlib.Algebra.Ring.Nat
import Mathlib.Data.List.Basic
import Mathlib.Tactic.Common

/-!
# Checked computations

A guard that fails with a given error. Every validation in the development is a
chain of `require` steps, so `simp` turns an accepted input into the list of the
conditions it met.
-/

namespace SystemsLab

variable {ε α β : Type} {c : Prop} {u : Unit} {e : ε} {x : Except ε α}

/-- A check of every element of a list walks the list, also where the elements could be enumerated. -/
instance (priority := 1100) decidableForallMem (p : α → Prop) [DecidablePred p] (l : List α) :
    Decidable (∀ a ∈ l, p a) :=
  List.decidableBAll p l

def require (c : Prop) [Decidable c] (e : ε) : Except ε Unit := if c then .ok () else .error e

@[simp] theorem require_eq_ok [Decidable c] : require c e = .ok u ↔ c := by
  unfold require; split <;> simp [*]

theorem require_pos [Decidable c] (h : c) : require c e = .ok () := if_pos h

theorem require_neg [Decidable c] (h : ¬ c) : require c e = .error e := if_neg h

@[simp] theorem except_bind_ok (a : α) (f : α → Except ε β) : (Except.ok a >>= f) = f a := rfl

@[simp] theorem except_bind_error (e : ε) (f : α → Except ε β) : (Except.error e >>= f) = .error e := rfl

@[simp] theorem except_bind_eq_ok {f : α → Except ε β} {b : β} :
    (x >>= f) = .ok b ↔ ∃ a, x = .ok a ∧ f a = .ok b := by
  cases x <;> simp

@[simp] theorem except_map_eq_ok {f : α → β} {b : β} : f <$> x = .ok b ↔ ∃ a, x = .ok a ∧ f a = b := by
  cases x <;> simp [Functor.map, Except.map]

@[simp] theorem except_pure_eq (a : α) : (pure a : Except ε α) = .ok a := rfl

@[simp] theorem except_throw_eq (e : ε) : (throw e : Except ε α) = .error e := rfl

@[simp] theorem except_mapError_eq_ok {ε' : Type} {g : ε → ε'} {a : α} : x.mapError g = .ok a ↔ x = .ok a := by
  cases x <;> simp [Except.mapError]

theorem error_of_not_ok (h : ∀ a, x ≠ .ok a) : ∃ e, x = .error e := by
  cases x with
  | ok a => exact absurd rfl (h a)
  | error e => exact ⟨e, rfl⟩

theorem forM_eq_ok {f : α → Except ε Unit} : ∀ {l : List α} {u : Unit}, forM l f = .ok u ↔ ∀ a ∈ l, f a = .ok ()
  | [], u => by simp
  | a :: l, u => by
    have hu : (∃ x, f a = .ok x) ↔ f a = .ok () := ⟨fun ⟨_, h⟩ => h, fun h => ⟨_, h⟩⟩
    simp [@forM_eq_ok f l, hu]

def checkIf (c : Prop) [Decidable c] (x : Except ε Unit) : Except ε Unit := if c then x else .ok ()

@[simp] theorem checkIf_eq_ok [Decidable c] {x : Except ε Unit} : checkIf c x = .ok u ↔ (c → x = .ok u) := by
  unfold checkIf; split <;> simp [*]

def refuse (e : α → ε) : Option α → Except ε Unit
  | some a => .error (e a)
  | none => .ok ()

@[simp] theorem refuse_eq_ok {e : α → ε} {o : Option α} : refuse e o = .ok u ↔ o = none := by
  cases o <;> simp [refuse]

def okOr (e : ε) : Option α → Except ε α
  | some a => .ok a
  | none => .error e

@[simp] theorem okOr_eq_ok {o : Option α} {a : α} : okOr e o = .ok a ↔ o = some a := by
  cases o <;> simp [okOr]

@[simp] theorem okOr_some (e : ε) (a : α) : okOr e (some a) = .ok a := rfl

/-- What a chain of checked steps that succeeds says, as one set of rules for `simp only`. -/
theorem steps_ok :
    (∀ {ε α β : Type} {x : Except ε α} {f : α → Except ε β} {b : β}, (x >>= f) = .ok b ↔ ∃ a,
      x = .ok a ∧ f a = .ok b) ∧
    (∀ {ε : Type} {c : Prop} {e : ε} {u : Unit} [Decidable c], require c e = .ok u ↔ c) ∧
    (∀ {ε α : Type} (a : α), (pure a : Except ε α) = .ok a) ∧
      (∀ {ε α : Type} {a b : α}, (.ok a : Except ε α) = .ok b ↔ a = b) ∧
    (∀ {ε ε' α : Type} {g : ε → ε'} {x : Except ε α} {a : α}, x.mapError g = .ok a ↔ x = .ok a) ∧
    ∀ {ε α : Type} {e : ε} {o : Option α} {a : α}, okOr e o = .ok a ↔ o = some a :=
  ⟨except_bind_eq_ok, require_eq_ok, except_pure_eq, by simp, except_mapError_eq_ok, okOr_eq_ok⟩

/-! ## Checked arithmetic -/

/-- `u64::checked_add`. -/
def checkedAdd (a b : UInt64) : Option UInt64 := if a.toNat + b.toNat < 2 ^ 64 then some (a + b) else none

theorem checkedAdd_eq_some {a b c : UInt64} : checkedAdd a b = some c ↔ c.toNat = a.toNat + b.toNat := by
  unfold checkedAdd
  have hc := c.toNat_lt
  split
  · rename_i h
    rw [Option.some.injEq, ← UInt64.toNat_inj, UInt64.toNat_add, Nat.mod_eq_of_lt h, eq_comm]
  · constructor
    · simp
    · omega

end SystemsLab
