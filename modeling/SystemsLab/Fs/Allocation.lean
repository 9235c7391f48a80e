import SystemsLab.Fs.Block

/-!
# The block allocator

First-fit allocation of data blocks behind a reserved metadata prefix. The fields are private in the source, so its
invariants are fields here.
-/

namespace SystemsLab.Fs

inductive AllocationError
  | invalidLayout (totalBlocks reservedBlocks : Nat)
  | outOfRange (block totalBlocks : Nat)
  | reservedBlock (block : Nat)
  | alreadyFree (block : Nat)
  | exhausted
  deriving DecidableEq, Repr

def AllocationError.message : AllocationError → String
  | invalidLayout total reserved =>
    s!"invalid allocation layout: {reserved} reserved blocks exceed {total} total blocks"
  | outOfRange block total => s!"block {block} is outside allocator range 0..{total}"
  | reservedBlock block => s!"block {block} is reserved metadata"
  | alreadyFree block => s!"block {block} is already free"
  | exhausted => "no free data blocks remain"

inductive AllocationInvariantError
  | allocatedCountMismatch (recorded observed : Nat)
  | accountingOverflow
  | accountingMismatch (totalBlocks reservedBlocks allocatedBlocks freeBlocks : Nat)
  deriving DecidableEq, Repr

def AllocationInvariantError.message : AllocationInvariantError → String
  | allocatedCountMismatch recorded observed =>
    s!"allocated-block count mismatch: recorded {recorded}, observed {observed}"
  | accountingOverflow => "allocation accounting overflow"
  | accountingMismatch total reserved allocated free =>
    s!"allocation accounting mismatch: total={total}, reserved={reserved}, allocated={allocated}, free={free}"

structure BlockAllocator where
  totalBlocks : Nat
  reservedBlocks : Nat
  allocated : List Bool
  allocatedBlocks : Nat
  total_lt : totalBlocks < 2 ^ 64
  reserved_le : reservedBlocks ≤ totalBlocks
  length_allocated : allocated.length = totalBlocks
  reserved_clear : ∀ b < reservedBlocks, allocated[b]? ≠ some true
  count_allocated : allocated.count true = allocatedBlocks
  deriving DecidableEq

namespace BlockAllocator
variable {a : BlockAllocator} {b : UInt64} {i : Nat} {l : List Bool} {c : Nat}

def Has (a : BlockAllocator) (b : Nat) : Prop := a.allocated[b]? = some true

instance (a : BlockAllocator) (b : Nat) : Decidable (a.Has b) := inferInstanceAs (Decidable (_ = _))

theorem Has.lt {b : Nat} (h : a.Has b) : b < a.totalBlocks := by
  rw [← a.length_allocated]
  exact (List.getElem?_eq_some_iff.mp h).1

theorem Has.reserved_le {b : Nat} (h : a.Has b) : a.reservedBlocks ≤ b :=
  Nat.le_of_not_lt fun hb => a.reserved_clear b hb h

variable {a' : BlockAllocator}

theorem ext_has (ht : a.totalBlocks = a'.totalBlocks)
    (hr : a.reservedBlocks = a'.reservedBlocks) (h : ∀ b, a.Has b ↔ a'.Has b) : a = a' := by
  have hb : a.allocated = a'.allocated := by
    refine List.ext_getElem (by rw [a.length_allocated, a'.length_allocated, ht]) fun i h1 h2 => ?_
    have hi := h i
    simp only [Has, List.getElem?_eq_getElem h1, List.getElem?_eq_getElem h2, Option.some.injEq] at hi
    exact Bool.eq_iff_iff.mpr hi
  have hc : a.allocatedBlocks = a'.allocatedBlocks := by rw [← a.count_allocated, ← a'.count_allocated, hb]
  cases a; cases a'
  simp only at ht hr hb hc
  subst ht hr hb hc
  rfl

def freeBlocks (a : BlockAllocator) : Nat := a.totalBlocks - a.reservedBlocks - a.allocatedBlocks

def new (totalBlocks : UInt64) (reservedBlocks : Nat) : Except AllocationError BlockAllocator :=
  if h : reservedBlocks ≤ totalBlocks.toNat then
    .ok ⟨totalBlocks.toNat, reservedBlocks, List.replicate totalBlocks.toNat false, 0, totalBlocks.toNat_lt, h,
      List.length_replicate, by simp [List.getElem?_replicate], by simp [List.count_replicate]⟩
  else .error (.invalidLayout totalBlocks.toNat reservedBlocks)

theorem count_set_true (h : l[i]? = some false) : (l.set i true).count true = l.count true + 1 := by
  obtain ⟨hi, hf⟩ := List.getElem?_eq_some_iff.mp h
  rw [List.count_set hi]
  simp [hf]

theorem count_set_false (h : l[i]? = some true) : (l.set i false).count true = l.count true - 1 := by
  obtain ⟨hi, hf⟩ := List.getElem?_eq_some_iff.mp h
  rw [List.count_set hi]
  simp [hf]

def mark (a : BlockAllocator) (b : Nat) (hr : a.reservedBlocks ≤ b) (h : a.allocated[b]? = some false) :
    BlockAllocator where
  totalBlocks := a.totalBlocks
  reservedBlocks := a.reservedBlocks
  allocated := a.allocated.set b true
  allocatedBlocks := a.allocatedBlocks + 1
  total_lt := a.total_lt
  reserved_le := a.reserved_le
  length_allocated := by rw [List.length_set, a.length_allocated]
  reserved_clear c hc := by rw [List.getElem?_set_ne (by omega)]; exact a.reserved_clear c hc
  count_allocated := by rw [count_set_true h, a.count_allocated]

def unmark (a : BlockAllocator) (b : Nat) (hr : a.reservedBlocks ≤ b) (h : a.allocated[b]? = some true) :
    BlockAllocator where
  totalBlocks := a.totalBlocks
  reservedBlocks := a.reservedBlocks
  allocated := a.allocated.set b false
  allocatedBlocks := a.allocatedBlocks - 1
  total_lt := a.total_lt
  reserved_le := a.reserved_le
  length_allocated := by rw [List.length_set, a.length_allocated]
  reserved_clear c hc := by rw [List.getElem?_set_ne (by omega)]; exact a.reserved_clear c hc
  count_allocated := by rw [count_set_false h, a.count_allocated]

theorem has_mark {b : Nat} {hr : a.reservedBlocks ≤ b} {h : a.allocated[b]? = some false}
    : (a.mark b hr h).Has c ↔ c = b ∨ a.Has c := by
  have hb := (List.getElem?_eq_some_iff.mp h).1
  simp only [Has, mark]
  by_cases hc : c = b
  · subst hc; simp [List.getElem?_set_self hb]
  · simp [List.getElem?_set_ne (Ne.symm hc), hc]

theorem has_unmark {b : Nat} {hr : a.reservedBlocks ≤ b} {h : a.allocated[b]? = some true}
    : (a.unmark b hr h).Has c ↔ c ≠ b ∧ a.Has c := by
  have hb := (List.getElem?_eq_some_iff.mp h).1
  simp only [Has, unmark]
  by_cases hc : c = b
  · subst hc; simp [List.getElem?_set_self hb]
  · simp [List.getElem?_set_ne (Ne.symm hc), hc]

theorem firstFree_spec (h : (a.allocated.drop a.reservedBlocks).findIdx? (fun x => !x) = some i) :
    a.allocated[a.reservedBlocks + i]? = some false := by
  obtain ⟨hi, hp, -⟩ := List.findIdx?_eq_some_iff_getElem.mp h
  rw [← List.getElem?_drop, List.getElem?_eq_getElem hi]
  simpa using hp

def allocate (a : BlockAllocator) : Except AllocationError (UInt64 × BlockAllocator) :=
  match h : (a.allocated.drop a.reservedBlocks).findIdx? (fun x => !x) with
  | none => .error .exhausted
  | some i => .ok (UInt64.ofNat (a.reservedBlocks + i),
    a.mark (a.reservedBlocks + i) (Nat.le_add_right _ _) (firstFree_spec h))

def free (a : BlockAllocator) (block : UInt64) : Except AllocationError BlockAllocator :=
  if a.totalBlocks ≤ block.toNat then .error (.outOfRange block.toNat a.totalBlocks)
  else if hr : a.reservedBlocks ≤ block.toNat then
    if h : a.allocated[block.toNat]? = some true then .ok (a.unmark block.toNat hr h)
    else .error (.alreadyFree block.toNat)
  else .error (.reservedBlock block.toNat)

def isOwned (a : BlockAllocator) (block : UInt64) : Except AllocationError Bool :=
  if a.totalBlocks ≤ block.toNat then .error (.outOfRange block.toNat a.totalBlocks)
  else .ok (decide (block.toNat < a.reservedBlocks) || decide (a.Has block.toNat))

def validate (a : BlockAllocator) : Except AllocationInvariantError Unit := do
  let observed := (a.allocated.drop a.reservedBlocks).count true
  require (observed = a.allocatedBlocks) (.allocatedCountMismatch a.allocatedBlocks observed)
  let accounted := a.reservedBlocks + a.allocatedBlocks + a.freeBlocks
  require (accounted < 2 ^ 64) .accountingOverflow
  require (accounted = a.totalBlocks)
    (.accountingMismatch a.totalBlocks a.reservedBlocks a.allocatedBlocks a.freeBlocks)

/-! ## What the operations do to the set -/

theorem new_eq_ok {t : UInt64} {r : Nat} : new t r = .ok a ↔
    r ≤ t.toNat ∧ a.totalBlocks = t.toNat ∧ a.reservedBlocks = r ∧ ∀ b, ¬ a.Has b := by
  unfold new
  split
  · rename_i h
    simp only [Except.ok.injEq]
    constructor
    · rintro rfl
      exact ⟨h, rfl, rfl, fun b => by simp [Has, List.getElem?_replicate]⟩
    · rintro ⟨-, ht, hr, hb⟩
      exact ext_has ht.symm hr.symm fun b => iff_of_false (by simp [Has, List.getElem?_replicate]) (hb b)
  · simp; omega

theorem allocate_eq_ok (h : a.allocate = .ok (b, a')) :
    a.reservedBlocks ≤ b.toNat ∧ b.toNat < a.totalBlocks ∧ ¬ a.Has b.toNat ∧
      a'.totalBlocks = a.totalBlocks ∧ a'.reservedBlocks = a.reservedBlocks ∧
      (∀ c, a'.Has c ↔ c = b.toNat ∨ a.Has c) ∧
      ∀ c, a.reservedBlocks ≤ c → c < b.toNat → a.Has c := by
  unfold allocate at h
  split at h
  · cases h
  · rename_i i hi
    have hf := firstFree_spec hi
    have hl := (List.getElem?_eq_some_iff.mp hf).1
    rw [a.length_allocated] at hl
    have ht := a.total_lt
    have hb : (UInt64.ofNat (a.reservedBlocks + i)).toNat = a.reservedBlocks + i :=
      UInt64.toNat_ofNat_of_lt' (by simp only [UInt64.size]; omega)
    cases h
    rw [hb]
    refine ⟨by omega, hl, by simp [Has, hf], rfl, rfl, fun c => has_mark, fun c h1 h2 => ?_⟩
    obtain ⟨hi', -, hlt⟩ := List.findIdx?_eq_some_iff_getElem.mp hi
    have := hlt (c - a.reservedBlocks) (by omega)
    rw [List.getElem_drop] at this
    simp only [Bool.not_eq_true, Bool.not_eq_false', Nat.add_sub_cancel' h1] at this
    rw [Has, List.getElem?_eq_getElem (by rw [a.length_allocated]; omega), this]

theorem allocate_eq_error {e : AllocationError} (h : a.allocate = .error e) :
    e = .exhausted ∧ ∀ b, a.reservedBlocks ≤ b → b < a.totalBlocks → a.Has b := by
  unfold allocate at h
  split at h
  · rename_i hn
    cases h
    refine ⟨rfl, fun b h1 h2 => ?_⟩
    rw [List.findIdx?_eq_none_iff] at hn
    obtain ⟨x, hx⟩ : ∃ x, a.allocated[b]? = some x :=
      ⟨_, List.getElem?_eq_getElem (by rw [a.length_allocated]; exact h2)⟩
    have hm : (a.allocated.drop a.reservedBlocks)[b - a.reservedBlocks]? = some x := by
      rw [List.getElem?_drop, Nat.add_sub_cancel' h1, hx]
    have hxt := hn _ (List.mem_of_getElem? hm)
    rw [Has, hx]
    simpa using hxt
  · cases h

theorem free_eq_ok : a.free b = .ok a' ↔
    a.Has b.toNat ∧ a'.totalBlocks = a.totalBlocks ∧ a'.reservedBlocks = a.reservedBlocks ∧
      ∀ c, a'.Has c ↔ c ≠ b.toNat ∧ a.Has c := by
  constructor
  · intro h
    unfold free at h
    split at h
    · cases h
    · split at h
      · split at h
        · rename_i hh
          cases h
          exact ⟨hh, rfl, rfl, fun c => has_unmark⟩
        · cases h
      · cases h
  · rintro ⟨hh, ht, hr, hc⟩
    have h1 := hh.lt
    have h2 := hh.reserved_le
    rw [free, if_neg (by omega), dif_pos h2, dif_pos (show a.allocated[b.toNat]? = some true from hh)]
    exact congrArg Except.ok (ext_has ht.symm hr.symm fun c => has_unmark.trans (hc c).symm)

theorem free_of_has (h : a.Has b.toNat) : ∃ a', a.free b = .ok a' := by
  have h1 := h.lt
  have h2 := h.reserved_le
  rw [free, if_neg (by omega), dif_pos h2, dif_pos (show a.allocated[b.toNat]? = some true from h)]
  exact ⟨_, rfl⟩

theorem isOwned_eq_ok {o : Bool} : a.isOwned b = .ok o ↔
    b.toNat < a.totalBlocks ∧ (o = true ↔ b.toNat < a.reservedBlocks ∨ a.Has b.toNat) := by
  unfold isOwned
  split
  · simp; omega
  · rename_i h
    simp only [Except.ok.injEq]
    constructor
    · rintro rfl
      exact ⟨by omega, by simp⟩
    · rintro ⟨-, ho⟩
      exact Bool.eq_iff_iff.mpr (by simp [ho])

theorem count_data (a : BlockAllocator) : (a.allocated.drop a.reservedBlocks).count true = a.allocatedBlocks := by
  have hsplit := congrArg (List.count true) (List.take_append_drop a.reservedBlocks a.allocated)
  have hz : (a.allocated.take a.reservedBlocks).count true = 0 := by
    refine List.count_eq_zero.mpr fun hm => ?_
    obtain ⟨i, hi⟩ := List.mem_iff_getElem?.mp hm
    rw [List.getElem?_take] at hi
    split at hi
    · exact a.reserved_clear i (by assumption) hi
    · cases hi
  rwa [List.count_append, hz, Nat.zero_add, a.count_allocated] at hsplit

theorem allocatedBlocks_le (a : BlockAllocator) : a.allocatedBlocks ≤ a.totalBlocks - a.reservedBlocks := by
  rw [← a.count_data, ← a.length_allocated, ← List.length_drop]
  exact List.count_le_length

theorem accounting (a : BlockAllocator) : a.reservedBlocks + a.allocatedBlocks + a.freeBlocks = a.totalBlocks := by
  have h1 := a.allocatedBlocks_le
  have h2 := a.reserved_le
  rw [freeBlocks]; omega

theorem validate_eq_ok (a : BlockAllocator) : a.validate = .ok () := by
  have h := a.accounting
  have ht := a.total_lt
  simp only [validate, require_pos a.count_data, require_pos h, except_bind_ok]
  rw [require_pos (by omega)]
  rfl

end BlockAllocator

end SystemsLab.Fs
