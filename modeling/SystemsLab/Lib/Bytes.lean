import Mathlib.Data.List.Basic
import Mathlib.Tactic.Common
import Mathlib.Tactic.Ring

/-!
# Byte strings

Little-endian numbers of a fixed width, slices of a byte string, and the byte
string with one range cleared.
-/

namespace SystemsLab

variable {a b w n m off start : Nat}

/-! ## Little-endian numbers -/

/-- The low `w` bytes of `n`, the least significant first. -/
def leBytes : Nat → Nat → List UInt8
  | 0, _ => []
  | w + 1, n => UInt8.ofNat n :: leBytes w (n / 256)

def leVal : List UInt8 → Nat := List.foldr (fun b n => b.toNat + 256 * n) 0

@[simp] theorem leVal_nil : leVal [] = 0 := rfl

@[simp] theorem leVal_cons (b : UInt8) (l : List UInt8) : leVal (b :: l) = b.toNat + 256 * leVal l := rfl

@[simp] theorem length_leBytes : ∀ w n : Nat, (leBytes w n).length = w
  | 0, _ => rfl
  | w + 1, n => by rw [leBytes, List.length_cons, length_leBytes w]

theorem leVal_lt : ∀ l : List UInt8, leVal l < 256 ^ l.length
  | [] => by simp
  | b :: l => by
    have hb := b.toNat_lt
    have ih := leVal_lt l
    rw [leVal_cons, List.length_cons, Nat.pow_succ]
    omega

theorem leVal_leBytes : ∀ w n : Nat, leVal (leBytes w n) = n % 256 ^ w
  | 0, n => by simp [leBytes, Nat.mod_one]
  | w + 1, n => by
    have hp : 256 ^ (w + 1) = 256 * 256 ^ w := by ring
    rw [leBytes, leVal_cons, leVal_leBytes w, UInt8.toNat_ofNat', hp, Nat.mod_mul]

theorem leVal_leBytes_of_lt (h : n < 256 ^ w) : leVal (leBytes w n) = n := by
  rw [leVal_leBytes, Nat.mod_eq_of_lt h]

theorem leBytes_leVal : ∀ l : List UInt8, leBytes l.length (leVal l) = l
  | [] => rfl
  | b :: l => by
    have hb := b.toNat_lt
    have hd : (b.toNat + 256 * leVal l) / 256 = leVal l := by omega
    have hm : UInt8.ofNat (b.toNat + 256 * leVal l) = b := by
      apply UInt8.toNat_inj.mp
      rw [UInt8.toNat_ofNat']; omega
    rw [leVal_cons, List.length_cons, leBytes, hd, hm, leBytes_leVal l]

theorem leBytes_leVal_of_length {l : List UInt8} (h : l.length = w) : leBytes w (leVal l) = l := by
  subst h; exact leBytes_leVal l

theorem leBytes_zero : ∀ w : Nat, leBytes w 0 = List.replicate w 0
  | 0 => rfl
  | w + 1 => by rw [leBytes, Nat.zero_div, leBytes_zero w, List.replicate_succ]; rfl

/-! ## Slices -/

variable {α : Type} {l data l₁ l₂ : List α}

def slice (l : List α) (a b : Nat) : List α := (l.take b).drop a

theorem length_slice (l : List α) (a b : Nat) : (slice l a b).length = min b l.length - a := by
  simp [slice]

theorem length_slice_of_le (h : b ≤ l.length) : (slice l a b).length = b - a := by
  rw [length_slice]; omega

theorem getElem?_slice (l : List α) (a b i : Nat) : (slice l a b)[i]? = if a + i < b then l[a + i]? else none := by
  rw [slice, List.getElem?_drop, List.getElem?_take]

theorem slice_eq_nil (h : b ≤ a) : slice l a b = [] := by
  apply List.eq_nil_of_length_eq_zero
  rw [length_slice]
  omega

theorem slice_slice (l : List α) {c e : Nat} (h : a + e ≤ b) :
    slice (slice l a b) c e = slice l (a + c) (a + e) := by
  refine List.ext_getElem? fun i => ?_
  simp only [getElem?_slice, Nat.add_assoc]
  by_cases hi : c + i < e
  · rw [if_pos hi, if_pos (by omega), if_pos (by omega)]
  · rw [if_neg hi, if_neg (by omega)]

theorem slice_append_slice (l : List α) {c : Nat} (hab : a ≤ b) (hbc : b ≤ c) :
    slice l a b ++ slice l b c = slice l a c := by
  unfold slice
  have h : l.take b = (l.take c).take b := by rw [List.take_take, Nat.min_eq_left hbc]
  rw [h, ← List.take_append_drop (b - a) ((l.take c).drop a), List.drop_drop, Nat.add_sub_cancel' hab,
    List.drop_take]

theorem slice_append_drop (l : List α) (h : a ≤ b) : slice l a b ++ l.drop b = l.drop a := by
  unfold slice
  conv_rhs => rw [← List.take_append_drop (b - a) (l.drop a), List.drop_drop, Nat.add_sub_cancel' h]
  rw [List.drop_take]

theorem slice_append_right (h : l₁.length ≤ a) :
    slice (l₁ ++ l₂) a b = slice l₂ (a - l₁.length) (b - l₁.length) := by
  unfold slice
  rw [List.take_append, List.drop_append, List.drop_eq_nil_of_le (by rw [List.length_take]; omega),
    List.nil_append, List.length_take]
  by_cases hb : l₁.length ≤ b
  · rw [Nat.min_eq_right hb]
  · have : b - l₁.length = 0 := by omega
    simp [this]

theorem slice_append_left (h : b = l₁.length) : slice (l₁ ++ l₂) 0 b = l₁ := by
  subst h; simp [slice]

theorem slice_self (h : b = l.length) : slice l 0 b = l := by
  subst h; simp [slice]

theorem slice_zero_drop (l : List α) (n : Nat) : slice l 0 n = l.take n := by simp [slice]

theorem slice_set {i : Nat} {x : α} (h : i < a ∨ b ≤ i) : slice (l.set i x) a b = slice l a b := by
  unfold slice
  rcases h with h | h
  · rw [List.take_set, List.drop_set_of_lt h]
  · rw [List.take_set, List.set_eq_of_length_le (by rw [List.length_take]; omega)]

theorem slice_set_of_le {i : Nat} {x : α} (h : a ≤ i) : slice (l.set i x) a b = (slice l a b).set (i - a) x := by
  rw [slice, slice, List.take_set, List.drop_set, if_neg (Nat.not_lt.mpr h)]

/-! ## Splices -/

/-- The list with `data` in place of what stood at `start`. -/
def splice (l : List α) (start : Nat) (data : List α) : List α :=
  l.take start ++ data ++ l.drop (start + data.length)

theorem length_splice (h : start + data.length ≤ l.length) : (splice l start data).length = l.length := by
  simp only [splice, List.length_append, List.length_take, List.length_drop]
  omega

theorem getElem?_splice (h : start + data.length ≤ l.length) (i : Nat) :
    (splice l start data)[i]? =
      if i < start then l[i]? else if i < start + data.length then data[i - start]? else l[i]? := by
  have ht : (l.take start).length = start := by rw [List.length_take]; omega
  rw [splice, List.append_assoc, List.getElem?_append, ht]
  split
  · rw [List.getElem?_take_of_lt (by assumption)]
  · rw [List.getElem?_append]
    split
    · rw [if_pos (by omega)]
    · rw [if_neg (by omega), List.getElem?_drop]
      congr 1
      omega

theorem slice_splice_of_apart (h : start + data.length ≤ l.length)
    (hab : b ≤ start ∨ start + data.length ≤ a) : slice (splice l start data) a b = slice l a b := by
  refine List.ext_getElem? fun i => ?_
  rw [getElem?_slice, getElem?_slice, getElem?_splice h]
  by_cases hi : a + i < b
  · rw [if_pos hi, if_pos hi]
    rcases hab with hab | hab
    · rw [if_pos (by omega)]
    · rw [if_neg (by omega), if_neg (by omega)]
  · rw [if_neg hi, if_neg hi]

theorem slice_splice {consumed take : Nat} (h : start + data.length ≤ l.length)
    (hb : b ≤ l.length) (hpos : a + off = start + consumed) (hfirst : consumed = 0 ∨ off = 0)
    (hab : a + off + take ≤ b)
    (hlast : a + off + take = b ∨ consumed + take = data.length) (htake : consumed + take ≤ data.length) :
    slice (splice l start data) a b = splice (slice l a b) off (slice data consumed (consumed + take)) := by
  have hlen : (slice data consumed (consumed + take)).length = take := by rw [length_slice_of_le htake]; omega
  have hwin : off + take ≤ (slice l a b).length := by rw [length_slice_of_le hb]; omega
  refine List.ext_getElem? fun i => ?_
  rw [getElem?_slice, getElem?_splice h, getElem?_splice (by rwa [hlen]), hlen, getElem?_slice, getElem?_slice]
  by_cases hi : a + i < b
  · rw [if_pos hi, if_pos hi]
    by_cases h1 : i < off
    · rw [if_pos h1, if_pos (by omega)]
    · rw [if_neg h1]
      by_cases h2 : i < off + take
      · rw [if_pos h2, if_neg (by omega), if_pos (by omega), if_pos (by omega)]
        congr 1
        omega
      · rw [if_neg h2, if_neg (by omega), if_neg (by omega)]
  · rw [if_neg hi, if_neg hi, if_neg (by omega), if_neg (by omega)]

def readLe (w : Nat) (l : List UInt8) (off : Nat) : Nat := leVal (slice l off (off + w))

theorem readLe_lt (w : Nat) (l : List UInt8) (off : Nat) : readLe w l off < 256 ^ w := by
  refine Nat.lt_of_lt_of_le (leVal_lt _) (Nat.pow_le_pow_right (by omega) ?_)
  rw [length_slice]; omega

variable {l : List UInt8}

theorem leBytes_readLe (h : off + w ≤ l.length) : leBytes w (readLe w l off) = slice l off (off + w) :=
  leBytes_leVal_of_length (by rw [length_slice_of_le h]; omega)

theorem readLe_of_slice (h : slice l off (off + w) = leBytes w n) (hn : n < 256 ^ w) : readLe w l off = n := by
  rw [readLe, h, leVal_leBytes_of_lt hn]

def u64Bytes (x : UInt64) : List UInt8 := leBytes 8 x.toNat

def readU64 (l : List UInt8) (off : Nat) : UInt64 := UInt64.ofNat (readLe 8 l off)

@[simp] theorem length_u64Bytes (x : UInt64) : (u64Bytes x).length = 8 := length_leBytes 8 _

theorem toNat_readU64 (l : List UInt8) (off : Nat) : (readU64 l off).toNat = readLe 8 l off :=
  UInt64.toNat_ofNat_of_lt' (readLe_lt 8 l off)

theorem slice_eq_leBytes (h : off + w ≤ l.length) (hn : readLe w l off = n) :
    slice l off (off + w) = leBytes w n := by
  rw [← hn, leBytes_readLe h]

theorem slice_append_of_le (h : b ≤ l₁.length) : slice (l₁ ++ l₂) a b = slice l₁ a b := by
  rw [slice, slice, List.take_append_of_le_length h]

theorem readLe_append_of_le {l₁ l₂ : List UInt8} (h : off + w ≤ l₁.length) :
    readLe w (l₁ ++ l₂) off = readLe w l₁ off := by
  rw [readLe, slice_append_of_le h, readLe]

/-! ## Layouts -/

section Layout

variable {l rest : List UInt8} {w n a c : Nat} {x : UInt64}

theorem slice_eq_append {l m rest : List α} (h : a + m.length ≤ c) (hc : c ≤ l.length) :
    slice l a c = m ++ rest ↔ slice l a (a + m.length) = m ∧ slice l (a + m.length) c = rest := by
  rw [← slice_append_slice l (Nat.le_add_right a m.length) h]
  refine ⟨fun he => List.append_inj he ?_, fun ⟨hm, hr⟩ => by rw [hm, hr]⟩
  rw [length_slice_of_le (by omega), Nat.add_sub_cancel_left]

theorem slice_eq_field (h : a + w ≤ c) (hc : c ≤ l.length) (hn : n < 256 ^ w) :
    slice l a c = leBytes w n ++ rest ↔ readLe w l a = n ∧ slice l (a + w) c = rest := by
  rw [slice_eq_append (by rwa [length_leBytes]) hc, length_leBytes]
  exact and_congr_left' ⟨fun hs => readLe_of_slice hs hn, slice_eq_leBytes (by omega)⟩

theorem slice_eq_u64 (h : a + 8 ≤ c) (hc : c ≤ l.length) :
    slice l a c = u64Bytes x ++ rest ↔ readU64 l a = x ∧ slice l (a + 8) c = rest := by
  rw [u64Bytes, slice_eq_field h hc x.toNat_lt, ← toNat_readU64, UInt64.toNat_inj]

theorem slice_eq_last_field (h : a + w = c) (hc : c ≤ l.length) (hn : n < 256 ^ w) :
    slice l a c = leBytes w n ↔ readLe w l a = n := by
  rw [← List.append_nil (leBytes w n), slice_eq_field (by omega) hc hn, slice_eq_nil (by omega), and_iff_left rfl]

theorem slice_eq_last_u64 (h : a + 8 = c) (hc : c ≤ l.length) : slice l a c = u64Bytes x ↔ readU64 l a = x := by
  rw [u64Bytes, slice_eq_last_field h hc x.toNat_lt, ← toNat_readU64, UInt64.toNat_inj]

theorem drop_eq_field (h : a + w ≤ l.length) (hn : n < 256 ^ w) :
    l.drop a = leBytes w n ++ rest ↔ readLe w l a = n ∧ l.drop (a + w) = rest := by
  simpa only [slice, List.take_length] using slice_eq_field h (Nat.le_refl _) hn

def readU64s (l : List UInt8) (off n : Nat) : List UInt64 := (List.range n).map fun i => readU64 l (off + i * 8)

theorem readU64s_succ (l : List UInt8) (off n : Nat) :
    readU64s l off (n + 1) = readU64 l off :: readU64s l (off + 8) n := by
  simp only [readU64s, List.range_succ_eq_map, List.map_cons, List.map_map, Nat.zero_mul, Nat.add_zero]
  refine congrArg _ (List.map_congr_left fun i _ => ?_)
  simp only [Function.comp_apply, Nat.succ_eq_add_one]
  congr 1
  omega

theorem length_flatMap_u64Bytes (xs : List UInt64) : (xs.flatMap u64Bytes).length = xs.length * 8 := by
  induction xs with
  | nil => rfl
  | cons x xs ih => rw [List.flatMap_cons, List.length_append, ih, length_u64Bytes, List.length_cons]; omega

theorem drop_eq_u64s {xs : List UInt64} (h : l.length = a + xs.length * 8) :
    l.drop a = xs.flatMap u64Bytes ↔ readU64s l a xs.length = xs := by
  induction xs generalizing a with
  | nil => simp [readU64s, h]
  | cons x xs ih =>
    rw [List.length_cons] at h
    rw [List.length_cons, readU64s_succ, List.cons.injEq, ← ih (by omega), List.flatMap_cons, u64Bytes,
      drop_eq_field (by omega) x.toNat_lt, ← toNat_readU64, UInt64.toNat_inj]

end Layout

def padTo (n : Nat) (l : List UInt8) : List UInt8 := l ++ List.replicate (n - l.length) 0

theorem length_padTo (h : l.length ≤ n) : (padTo n l).length = n := by
  simp [padTo]; omega

theorem take_padTo (h : m = l.length) : (padTo n l).take m = l := by
  subst h; simp [padTo]

theorem drop_padTo (h : m = l.length) : (padTo n l).drop m = List.replicate (n - l.length) 0 := by
  subst h; simp [padTo]

theorem eq_padTo (hm : m ≤ l.length) (hz : ∀ b ∈ l.drop m, b = 0) : l = padTo l.length (l.take m) := by
  have hd : l.drop m = List.replicate (l.length - (l.take m).length) 0 :=
    List.eq_replicate_iff.mpr ⟨by simp; omega, hz⟩
  rw [padTo, ← hd, List.take_append_drop]

theorem eq_padTo_iff {inner : List UInt8} (hm : inner.length = m) (h : m ≤ l.length) :
    l = padTo l.length inner ↔ l.take m = inner ∧ ∀ b ∈ l.drop m, b = 0 := by
  constructor
  · intro he
    rw [he, take_padTo hm.symm, drop_padTo hm.symm]
    exact ⟨rfl, fun b hb => List.eq_of_mem_replicate hb⟩
  · rintro ⟨rfl, hz⟩
    exact eq_padTo h hz

/-! ## Clearing a range -/

def zeroRange (l : List UInt8) (a b : Nat) : List UInt8 :=
  l.mapIdx fun i x => if a ≤ i ∧ i < b then 0 else x

@[simp] theorem length_zeroRange (l : List UInt8) (a b : Nat) : (zeroRange l a b).length = l.length := by
  simp [zeroRange]

theorem zeroRange_append (p f q : List UInt8) (ha : a = p.length) (hb : b = p.length + f.length) :
    zeroRange (p ++ f ++ q) a b = p ++ List.replicate f.length 0 ++ q := by
  subst ha; subst hb
  apply List.ext_getElem?
  intro i
  simp only [zeroRange, List.getElem?_mapIdx, List.append_assoc, List.getElem?_append, List.length_replicate,
    List.getElem?_replicate]
  by_cases hp : i < p.length
  · have : ¬ (p.length ≤ i ∧ i < p.length + f.length) := by omega
    simp [hp, this]
  · by_cases hf : i - p.length < f.length
    · have : p.length ≤ i ∧ i < p.length + f.length := by omega
      simp [hp, hf, this]
    · have : ¬ (p.length ≤ i ∧ i < p.length + f.length) := by omega
      simp [hp, hf, this]

theorem zeroRange_set (l : List UInt8) (a b i : Nat) (x : UInt8) :
    zeroRange (l.set i x) a b = (zeroRange l a b).set i (if a ≤ i ∧ i < b then 0 else x) :=
  List.mapIdx_set

theorem zeroRange_eq (hab : a ≤ b) (hb : b ≤ l.length) :
    zeroRange l a b = l.take a ++ List.replicate (b - a) 0 ++ l.drop b := by
  have hl : l.take a ++ slice l a b ++ l.drop b = l := by
    rw [List.append_assoc, slice_append_drop l hab, List.take_append_drop]
  have hs := length_slice_of_le (a := a) hb
  conv_lhs => rw [← hl]
  rw [zeroRange_append _ _ _ (by rw [List.length_take]; omega) (by rw [List.length_take, hs]; omega), hs]

end SystemsLab
