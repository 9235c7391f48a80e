import SystemsLab.Lib.Bytes

/-!
# The checksum of the on-disk formats

The bitwise CRC-32 that every format module has a copy of, and records that carry their own checksum.
-/

namespace SystemsLab.Fs

variable {off : Nat} {pre post : List UInt8} {x : UInt8}

def crcBit (crc : UInt32) : UInt32 := (crc >>> 1) ^^^ (0xedb88320 &&& (0 - (crc &&& 1)))

def crcByte (crc : UInt32) (byte : UInt8) : UInt32 := Nat.repeat crcBit 8 (crc ^^^ byte.toUInt32)

def crc32 (bytes : List UInt8) : UInt32 := ~~~ bytes.foldl crcByte 0xffffffff

-- The check value of the standard CRC-32.
example : crc32 [0x31, 0x32, 0x33, 0x34, 0x35, 0x36, 0x37, 0x38, 0x39] = 0xcbf43926 := by decide +kernel

/-! ## Single bytes -/

theorem getLsbD_crcBit (crc : UInt32) (j : Nat) : (crcBit crc).toBitVec.getLsbD j =
    (crc.toBitVec.getLsbD (1 + j) ^^ ((0xedb88320#32).getLsbD j && crc.toBitVec.getLsbD 0)) := by
  have hmask : (0 - (crc &&& 1)).toBitVec = if crc.toBitVec.getLsbD 0 then BitVec.allOnes 32 else 0#32 := by
    have hone : (crc &&& 1).toBitVec = BitVec.setWidth 32 (BitVec.ofBool (crc.toBitVec.getLsbD 0)) :=
      BitVec.and_one_eq_setWidth_ofBool_getLsbD
    rw [UInt32.toBitVec_sub, hone]
    cases crc.toBitVec.getLsbD 0 <;> decide
  have hshift : (crc >>> 1).toBitVec = crc.toBitVec >>> 1 := by
    rw [UInt32.toBitVec_shiftRight]
    rfl
  rw [crcBit, UInt32.toBitVec_xor, UInt32.toBitVec_and, hmask, hshift, BitVec.getLsbD_xor, BitVec.getLsbD_and,
    BitVec.getLsbD_ushiftRight]
  congr 1
  cases h0 : crc.toBitVec.getLsbD 0 with
  | false => simp
  | true =>
    rw [if_pos rfl, BitVec.getLsbD_allOnes]
    by_cases hj : j < 32
    · simp only [hj, decide_true]
      rfl
    · simp [BitVec.getLsbD_of_ge _ j (Nat.le_of_not_lt hj)]

theorem crcBit_injective : Function.Injective crcBit := by
  intro a b h
  have hbit : ∀ j, (a.toBitVec.getLsbD (1 + j) ^^ ((0xedb88320#32).getLsbD j && a.toBitVec.getLsbD 0)) =
      (b.toBitVec.getLsbD (1 + j) ^^ ((0xedb88320#32).getLsbD j && b.toBitVec.getLsbD 0)) := by
    intro j
    rw [← getLsbD_crcBit, ← getLsbD_crcBit, h]
  -- The highest bit of the result is the bit that was shifted out.
  have hlow : a.toBitVec.getLsbD 0 = b.toBitVec.getLsbD 0 := by
    have h31 := hbit 31
    rw [BitVec.getLsbD_of_ge _ (1 + 31) (by omega), BitVec.getLsbD_of_ge _ (1 + 31) (by omega)] at h31
    simpa using h31
  refine UInt32.toBitVec_inj.mp (BitVec.eq_of_getLsbD_eq fun j hj => ?_)
  cases j with
  | zero => exact hlow
  | succ j =>
    have hj := hbit j
    rw [hlow, Nat.add_comm] at hj
    simpa using hj

theorem repeat_crcBit_injective (n : Nat) : Function.Injective (Nat.repeat crcBit n) := by
  induction n with
  | zero => exact Function.injective_id
  | succ n ih => exact crcBit_injective.comp ih

theorem crcByte_left_injective (byte : UInt8) : Function.Injective (crcByte · byte) := fun _ _ h =>
  (UInt32.xor_left_inj _).mp (repeat_crcBit_injective 8 h)

theorem crcByte_right_injective (crc : UInt32) : Function.Injective (crcByte crc) := fun _ _ h =>
  UInt8.toUInt32_inj.mp ((UInt32.xor_right_inj _).mp (repeat_crcBit_injective 8 h))

theorem foldl_crcByte_injective (bytes : List UInt8) : Function.Injective fun crc => bytes.foldl crcByte crc := by
  induction bytes with
  | nil => exact Function.injective_id
  | cons byte bytes ih => exact ih.comp (crcByte_left_injective byte)

variable {bytes : List UInt8}

theorem crc32_set_ne {i : Nat} (hi : i < bytes.length) (hx : bytes[i] ≠ x) :
    crc32 (bytes.set i x) ≠ crc32 bytes := by
  intro h
  have hsplit : bytes = bytes.take i ++ bytes[i] :: bytes.drop (i + 1) := by
    rw [List.getElem_cons_drop, List.take_append_drop]
  rw [crc32, crc32, UInt32.not_inj, List.set_eq_take_append_cons_drop, if_pos hi] at h
  conv at h => rhs; rw [hsplit]
  rw [List.foldl_append, List.foldl_append, List.foldl_cons, List.foldl_cons] at h
  exact hx (crcByte_right_injective _ (foldl_crcByte_injective _ h)).symm

/-! ## Sealed records -/

/-- A record with its checksum between `pre` and `post`. -/
def sealed (pre post : List UInt8) : List UInt8 :=
  pre ++ (leBytes 4 (crc32 (pre ++ (List.replicate 4 0 ++ post))).toNat ++ post)

/-- The four bytes at `off` are the checksum of the record with them cleared. -/
def CrcMatches (bytes : List UInt8) (off : Nat) : Prop :=
  readLe 4 bytes off = (crc32 (zeroRange bytes off (off + 4))).toNat

instance (bytes : List UInt8) (off : Nat) : Decidable (CrcMatches bytes off) := inferInstanceAs (Decidable (_ = _))

@[simp] theorem length_sealed (pre post : List UInt8) :
    (sealed pre post).length = pre.length + 4 + post.length := by
  simp [sealed]; omega

theorem crcMatches_sealed (h : off = pre.length) : CrcMatches (sealed pre post) off := by
  subst h
  have hz : zeroRange (sealed pre post) pre.length (pre.length + 4) = pre ++ (List.replicate 4 0 ++ post) := by
    rw [sealed, ← List.append_assoc, zeroRange_append _ _ _ rfl (by simp), length_leBytes, List.append_assoc]
  refine readLe_of_slice ?_ ?_
  · rw [hz, sealed, slice_append_right (Nat.le_refl _)]
    simp [slice_append_left]
  · exact UInt32.toNat_lt _

theorem eq_sealed (h : off + 4 ≤ bytes.length) (hc : CrcMatches bytes off) :
    bytes = sealed (bytes.take off) (bytes.drop (off + 4)) := by
  have hz : zeroRange bytes off (off + 4) = bytes.take off ++ (List.replicate 4 0 ++ bytes.drop (off + 4)) := by
    rw [zeroRange_eq (by omega) h, Nat.add_sub_cancel_left, List.append_assoc]
  rw [sealed, ← hz, ← hc, leBytes_readLe h, slice_append_drop _ (by omega), List.take_append_drop]

theorem eq_sealed_iff (h : off = pre.length) :
    bytes = sealed pre post ↔
      off + 4 ≤ bytes.length ∧ CrcMatches bytes off ∧ bytes.take off = pre ∧ bytes.drop (off + 4) = post := by
  constructor
  · rintro rfl
    refine ⟨by simp [h], crcMatches_sealed h, ?_, ?_⟩
    · rw [sealed, List.take_left' h.symm]
    · rw [sealed, ← List.append_assoc, List.drop_left' (by simp [h])]
  · rintro ⟨hl, hc, rfl, rfl⟩
    exact eq_sealed hl hc

theorem eq_padTo_sealed_iff {image : List UInt8} {used : Nat} (h : off = pre.length)
    (hu : off + 4 + post.length = used) (hl : used ≤ image.length) :
    image = padTo image.length (sealed pre post) ↔
      image.take off = pre ∧ slice image (off + 4) used = post ∧ CrcMatches (image.take used) off ∧
      ∀ b ∈ image.drop used, b = 0 := by
  rw [eq_padTo_iff (by rw [length_sealed, ← h, hu]) hl, eq_sealed_iff h, List.length_take, List.take_take,
    @Nat.min_eq_left off used (by omega)]
  exact ⟨fun ⟨⟨_, hc, hp, ht⟩, hz⟩ => ⟨hp, ht, hc, hz⟩, fun ⟨hp, ht, hc, hz⟩ => ⟨⟨by omega, hc, hp, ht⟩, hz⟩⟩

theorem CrcMatches.not_set {i : Nat} (h : CrcMatches bytes off)
    (hoff : off + 4 ≤ bytes.length) (hi : i < bytes.length) (hx : bytes[i] ≠ x) :
    ¬ CrcMatches (bytes.set i x) off := by
  intro h'
  rw [CrcMatches, zeroRange_set] at h'
  by_cases hin : off ≤ i ∧ i < off + 4
  · -- The byte belongs to the checksum, which was right before.
    have hzero : (zeroRange bytes off (off + 4)).set i 0 = zeroRange bytes off (off + 4) := by
      conv_rhs => rw [← @List.set_getElem_self _ (zeroRange bytes off (off + 4)) i (by simpa using hi)]
      simp [zeroRange, hin]
    rw [if_pos hin, hzero, ← h, readLe, readLe] at h'
    have hslice : slice (bytes.set i x) off (off + 4) = slice bytes off (off + 4) := by
      rw [← leBytes_readLe (by rwa [List.length_set]), ← leBytes_readLe hoff, readLe, readLe, h']
    have hbyte := congrArg (fun l => l[i - off]?) hslice
    simp only [slice, List.getElem?_drop, Nat.add_sub_cancel' hin.1, List.getElem?_take_of_lt hin.2,
      List.getElem?_set_self hi, List.getElem?_eq_getElem hi, Option.some.injEq] at hbyte
    exact hx hbyte.symm
  · -- The byte is covered by the checksum, which is the same as before.
    rw [if_neg hin, readLe, slice_set (by omega), ← readLe, h] at h'
    have hi' : i < (zeroRange bytes off (off + 4)).length := by rwa [length_zeroRange]
    have hsame : (zeroRange bytes off (off + 4)).get ⟨i, hi'⟩ = bytes[i] := by simp [zeroRange, hin]
    exact crc32_set_ne hi' (hsame.trans_ne hx) (UInt32.toNat_inj.mp h'.symm)

end SystemsLab.Fs
