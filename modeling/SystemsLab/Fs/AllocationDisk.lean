import Mathlib.Data.Nat.Bitwise
import SystemsLab.Fs.Allocation
import SystemsLab.Fs.Crc
import SystemsLab.Fs.Format

/-!
# The allocation image

A header with the checksum of a bitmap, one bit per block, and zero padding. Bits of reserved blocks and behind the
last block must be clear.
-/

namespace SystemsLab.Fs

open Prog

variable {sb : Superblock} {bitmap : List UInt8} {a : BlockAllocator} {block : Nat}
variable {image : List UInt8} {n : Nat} {u : Unit} {m : UInt64} {d : Disk}

/-! ## Bits -/

def bitMask (block : Nat) : UInt8 := 1 <<< UInt8.ofNat (block % 8)

def bitIsSet (bitmap : List UInt8) (block : Nat) : Except IoError Bool := do
  let byte ← okOr (invalidData "bitmap index out of range") bitmap[block / 8]?
  pure (byte &&& bitMask block != 0)

def setBit (bitmap : List UInt8) (block : Nat) : Except IoError (List UInt8) := do
  let byte ← okOr (invalidInput "bitmap index out of range") bitmap[block / 8]?
  pure (bitmap.set (block / 8) (byte ||| bitMask block))

def bitAt (bitmap : List UInt8) (block : Nat) : Bool := (bitmap[block / 8]?.getD 0).toNat.testBit (block % 8)

theorem toNat_bitMask (block : Nat) : (bitMask block).toNat = 2 ^ (block % 8) := by
  have h : block % 8 < 8 := Nat.mod_lt _ (by omega)
  have hp : 2 ^ (block % 8) < 2 ^ 8 := Nat.pow_lt_pow_right (by omega) h
  rw [bitMask, UInt8.toNat_shiftLeft, UInt8.toNat_ofNat', Nat.mod_eq_of_lt (show block % 8 < 2 ^ 8 by omega),
    Nat.mod_eq_of_lt h]
  simp only [UInt8.toNat_one, Nat.one_shiftLeft]
  exact Nat.mod_eq_of_lt hp

theorem and_bitMask (byte : UInt8) (block : Nat) :
    (byte &&& bitMask block != 0) = byte.toNat.testBit (block % 8) := by
  have h : (byte &&& bitMask block = 0) ↔ byte.toNat.testBit (block % 8) = false := by
    rw [← UInt8.toNat_inj, UInt8.toNat_and, toNat_bitMask, Nat.and_two_pow]
    cases byte.toNat.testBit (block % 8) <;> simp
  cases ht : byte.toNat.testBit (block % 8) with
  | true => simp [h, ht]
  | false => simp [h.mpr ht]

theorem bitIsSet_eq_ok (h : block < 8 * bitmap.length) : bitIsSet bitmap block = .ok (bitAt bitmap block) := by
  have hl : block / 8 < bitmap.length := by omega
  rw [bitIsSet, bitAt, List.getElem?_eq_getElem hl, okOr_some, except_bind_ok, and_bitMask]
  rfl

theorem setBit_eq_ok (h : block < 8 * bitmap.length) :
    ∃ bitmap', setBit bitmap block = .ok bitmap' ∧ bitmap'.length = bitmap.length ∧
      ∀ c, bitAt bitmap' c = (bitAt bitmap c || decide (c = block)) := by
  have hl : block / 8 < bitmap.length := by omega
  refine ⟨_, by rw [setBit, List.getElem?_eq_getElem hl]; rfl, List.length_set, fun c => ?_⟩
  simp only [bitAt, List.getElem?_set]
  by_cases hc : block / 8 = c / 8
  · rw [if_pos hc, if_pos hl, Option.getD_some, UInt8.toNat_or, Nat.testBit_or, toNat_bitMask,
      Nat.testBit_two_pow, ← hc, List.getElem?_eq_getElem hl, Option.getD_some]
    congr 1
    exact decide_eq_decide.mpr ⟨fun _ => by omega, fun _ => by omega⟩
  · rw [if_neg hc, decide_eq_false (by rintro rfl; exact hc rfl), Bool.or_false]

theorem ext_bitAt {l l' : List UInt8} (hl : l.length = l'.length) (h : ∀ b < 8 * l.length, bitAt l b = bitAt l' b) :
    l = l' := by
  refine List.ext_getElem hl fun i h1 h2 => UInt8.toNat_inj.mp (Nat.eq_of_testBit_eq fun j => ?_)
  by_cases hj : j < 8
  · have hb := h (8 * i + j) (by omega)
    simp only [bitAt, show (8 * i + j) / 8 = i by omega, show (8 * i + j) % 8 = j by omega,
      List.getElem?_eq_getElem h1, List.getElem?_eq_getElem h2, Option.getD_some] at hb
    exact hb
  · have hp : ∀ x : UInt8, x.toNat < 2 ^ j := fun x =>
      Nat.lt_of_lt_of_le x.toNat_lt (Nat.pow_le_pow_right (by omega) (by omega))
    rw [Nat.testBit_lt_two_pow (hp _), Nat.testBit_lt_two_pow (hp _)]

/-! ## The image -/

/-- `b"FSLALOC\0"`. -/
def allocationImageMagic : List UInt8 := [0x46, 0x53, 0x4c, 0x41, 0x4c, 0x4f, 0x43, 0]

@[simp] theorem length_allocationImageMagic : allocationImageMagic.length = 8 := by simp [allocationImageMagic]

def allocationImageVersion : Nat := 1
def allocationHeaderLen : Nat := 32

def allocationRegionLen (sb : Superblock) : Except IoError Nat := do
  let bytes := sb.allocationBlocks.toNat * blockSize
  require (bytes < 2 ^ 64) (invalidInput "allocation region byte size overflow")
  pure bytes

def requireClear (bitmap : List UInt8) (e : IoError) : List Nat → Except IoError Unit
  | [] => .ok ()
  | block :: blocks => do
    let set ← bitIsSet bitmap block
    require (set = false) e
    requireClear bitmap e blocks

def validateBitmapBits (bitmap : List UInt8) (sb : Superblock) : Except IoError Unit := do
  requireClear bitmap (invalidData "allocation bitmap marks reserved metadata as data-owned")
    (List.range sb.reservedBlocks)
  let bitCapacity := bitmap.length * 8
  require (bitCapacity < 2 ^ 64) (invalidData "bitmap bit count overflow")
  requireClear bitmap (invalidData "allocation bitmap has non-zero trailing bits")
    (List.range' sb.totalBlocks.toNat (bitCapacity - sb.totalBlocks.toNat))

def allocationHeader (bitmap : List UInt8) : List UInt8 :=
  allocationImageMagic ++ (leBytes 4 allocationImageVersion ++ (leBytes 4 0 ++ (leBytes 8 bitmap.length ++
    (leBytes 4 (crc32 bitmap).toNat ++ leBytes 4 0))))

@[simp] theorem length_allocationHeader (bitmap : List UInt8) : (allocationHeader bitmap).length = 32 := by
  simp [allocationHeader]

def encodeAllocationImage (sb : Superblock) (bitmap : List UInt8) : Except IoError (List UInt8) := do
  let bitmapLen ← allocationBitmapBytes sb.totalBlocks
  require (bitmap.length = bitmapLen.toNat)
    (invalidInput "allocation bitmap length does not match filesystem geometry")
  validateBitmapBits bitmap sb
  let regionLen ← allocationRegionLen sb
  require (allocationHeaderLen + bitmap.length ≤ regionLen)
    (invalidInput "allocation image does not fit reserved region")
  pure (padTo regionLen (allocationHeader bitmap ++ bitmap))

def decodeAllocationImage (image : List UInt8) (sb : Superblock) : Except IoError (List UInt8) := do
  let regionLen ← allocationRegionLen sb
  require (image.length = regionLen ∧ allocationHeaderLen ≤ image.length)
    (invalidData "allocation image has invalid region length")
  require (slice image 0 8 = allocationImageMagic) (invalidData "invalid allocation image magic")
  require (readLe 4 image 8 = allocationImageVersion) (invalidData "unsupported allocation image version")
  require (readLe 4 image 12 = 0 ∧ readLe 4 image 28 = 0)
    (invalidData "allocation image reserved fields are non-zero")
  let encodedBytes := readLe 8 image 16
  let expectedBytes ← allocationBitmapBytes sb.totalBlocks
  require (encodedBytes = expectedBytes.toNat)
    (invalidData "allocation bitmap length does not match filesystem geometry")
  let payloadEnd := allocationHeaderLen + encodedBytes
  require (payloadEnd ≤ image.length) (invalidData "allocation bitmap exceeds reserved region")
  let bitmap := slice image allocationHeaderLen payloadEnd
  require (readLe 4 image 24 = (crc32 bitmap).toNat) (invalidData "allocation bitmap checksum mismatch")
  require (∀ b ∈ image.drop payloadEnd, b = 0) (invalidData "allocation image padding is non-zero")
  validateBitmapBits bitmap sb
  pure bitmap

/-! ## Loading and storing -/

def validateAllocationGeometry (blockCount : Nat) (sb : Superblock) : Except IoError Unit :=
  require (blockCount = sb.totalBlocks.toNat)
    (invalidInput "allocation metadata device geometry does not match superblock")

def allocateTimes : Nat → BlockAllocator → Except AllocationError BlockAllocator
  | 0, a => .ok a
  | n + 1, a => do
    let (_, a') ← a.allocate
    allocateTimes n a'

def freeClear (bitmap : List UInt8) : List Nat → BlockAllocator → Except IoError BlockAllocator
  | [], a => .ok a
  | block :: blocks, a => do
    let set ← bitIsSet bitmap block
    if set then freeClear bitmap blocks a
    else do
      let a' ← (a.free (UInt64.ofNat block)).mapError fun e => invalidData e.message
      freeClear bitmap blocks a'

def setOwned (a : BlockAllocator) : List Nat → List UInt8 → Except IoError (List UInt8)
  | [], bitmap => .ok bitmap
  | block :: blocks, bitmap => do
    let owned ← (a.isOwned (UInt64.ofNat block)).mapError fun e => invalidInput e.message
    if owned then do
      let bitmap' ← setBit bitmap block
      setOwned a blocks bitmap'
    else setOwned a blocks bitmap

def restoreAllocator (sb : Superblock) (bitmap : List UInt8) : Except IoError BlockAllocator := do
  let fresh ← (BlockAllocator.new sb.totalBlocks sb.reservedBlocks).mapError fun e => invalidData e.message
  let dataBlocks := sb.totalBlocks.toNat - sb.reservedBlocks
  let full ← (allocateTimes dataBlocks fresh).mapError fun e => invalidData e.message
  let a ← freeClear bitmap (List.range' sb.reservedBlocks dataBlocks) full
  a.validate.mapError fun e => invalidData e.message
  pure a

def ownedBitmap (sb : Superblock) (a : BlockAllocator) : Except IoError (List UInt8) := do
  require (a.totalBlocks = sb.totalBlocks.toNat ∧ a.reservedBlocks = sb.reservedBlocks)
    (invalidInput "allocator geometry does not match superblock")
  a.validate.mapError fun e => invalidInput e.message
  let bitmapLen ← allocationBitmapBytes sb.totalBlocks
  setOwned a (List.range' sb.reservedBlocks (sb.totalBlocks.toNat - sb.reservedBlocks))
    (List.replicate bitmapLen.toNat 0)

def loadAllocator (sb : Superblock) : FsProg BlockAllocator := do
  let n ← count
  validateAllocationGeometry n sb
  let _regionLen ← allocationRegionLen sb
  let image ← readRegion sb.allocationStart.toNat sb.allocationBlocks.toNat
  let bitmap ← decodeAllocationImage image sb
  restoreAllocator sb bitmap

def storeAllocator (sb : Superblock) (a : BlockAllocator) : FsProg Unit := do
  let n ← count
  validateAllocationGeometry n sb
  let bitmap ← ownedBitmap sb a
  let image ← encodeAllocationImage sb bitmap
  writeRegion sb.allocationStart.toNat sb.allocationBlocks.toNat image
  sync

def initializeAllocationRegion (sb : Superblock) : FsProg Unit := do
  let n ← count
  validateAllocationGeometry n sb
  let bitmapLen ← allocationBitmapBytes sb.totalBlocks
  let image ← encodeAllocationImage sb (List.replicate bitmapLen.toNat 0)
  writeRegion sb.allocationStart.toNat sb.allocationBlocks.toNat image

/-! ## The image and its bitmap -/

theorem allocationBitmapBytes_eq_ok {t n : UInt64} :
    allocationBitmapBytes t = .ok n ↔ t.toNat + 7 < 2 ^ 64 ∧ n.toNat = (t.toNat + 7) / 8 := by
  simp only [allocationBitmapBytes, steps_ok, checkedAdd_eq_some, show (7 : UInt64).toNat = 7 from rfl]
  constructor
  · rintro ⟨r, hr, rfl⟩
    have := r.toNat_lt
    exact ⟨by omega, by rw [UInt64.toNat_div, hr]; rfl⟩
  · rintro ⟨hlt, hn⟩
    have h7 : (t + 7).toNat = t.toNat + 7 := by
      rw [UInt64.toNat_add, show (7 : UInt64).toNat = 7 from rfl, Nat.mod_eq_of_lt hlt]
    refine ⟨t + 7, h7, UInt64.toNat_inj.mp ?_⟩
    rw [UInt64.toNat_div, h7, hn]; rfl

theorem allocationRegionLen_eq_ok :
    allocationRegionLen sb = .ok n ↔ n = sb.allocationBlocks.toNat * blockSize ∧ n < 2 ^ 64 := by
  simp only [allocationRegionLen, steps_ok, exists_const]
  constructor
  · rintro ⟨h, rfl⟩; exact ⟨rfl, h⟩
  · rintro ⟨rfl, h⟩; exact ⟨h, rfl⟩

structure AllocationAccepted (image bitmap : List UInt8) : Prop where
  magic : slice image 0 8 = allocationImageMagic
  version : readLe 4 image 8 = allocationImageVersion
  flags : readLe 4 image 12 = 0
  reserved : readLe 4 image 28 = 0
  len : readLe 8 image 16 = bitmap.length
  used_le : allocationHeaderLen + bitmap.length ≤ image.length
  bitmap_eq : slice image allocationHeaderLen (allocationHeaderLen + bitmap.length) = bitmap
  crc : readLe 4 image 24 = (crc32 bitmap).toNat
  padding : ∀ b ∈ image.drop (allocationHeaderLen + bitmap.length), b = 0

theorem allocationAccepted_iff (h : allocationHeaderLen + bitmap.length ≤ image.length)
    (hn : image.length < 2 ^ 64) :
    AllocationAccepted image bitmap ↔ image = padTo image.length (allocationHeader bitmap ++ bitmap) := by
  have hs : allocationHeaderLen = 32 := rfl
  have hv : allocationImageVersion = 1 := rfl
  have hcrc := (crc32 bitmap).toNat_lt
  rw [eq_padTo_iff (by simp; rfl) h, ← slice_zero_drop, allocationHeader]
  simp only [List.append_assoc]
  rw [slice_eq_append (by simp; omega) h]
  simp (disch := omega) only [length_allocationImageMagic, slice_eq_field, Nat.reduceAdd]
  constructor
  · rintro ⟨h1, h2, h3, h4, h5, h6, h7, h8, h9⟩
    exact ⟨⟨h1, h2, h3, h5, h8, h4, h7⟩, h9⟩
  · rintro ⟨⟨h1, h2, h3, h5, h8, h4, h7⟩, h9⟩
    exact ⟨h1, h2, h3, h4, h5, h, h7, h8, h9⟩

theorem accepted_allocationImage (h : allocationHeaderLen + bitmap.length ≤ n)
    (hn : n < 2 ^ 64) : AllocationAccepted (padTo n (allocationHeader bitmap ++ bitmap)) bitmap := by
  have hl : (padTo n (allocationHeader bitmap ++ bitmap)).length = n := length_padTo (by simp; exact h)
  exact (allocationAccepted_iff (by rwa [hl]) (by rwa [hl])).mpr (by rw [hl])

theorem decodeAllocationImage_eq_ok :
    decodeAllocationImage image sb = .ok bitmap ↔ encodeAllocationImage sb bitmap = .ok image := by
  have hs : allocationHeaderLen = 32 := rfl
  simp only [decodeAllocationImage, encodeAllocationImage, steps_ok, exists_const]
  constructor
  · rintro ⟨n, hn, ⟨rfl, h32⟩, hm, hv, ⟨hf, hr⟩, m, hmb, hlen, hle, hc, hp, u, hb, rfl⟩
    have hl : (slice image allocationHeaderLen (allocationHeaderLen + readLe 8 image 16)).length =
        readLe 8 image 16 := by rw [length_slice_of_le hle]; omega
    have ha : AllocationAccepted image
        (slice image allocationHeaderLen (allocationHeaderLen + readLe 8 image 16)) :=
      ⟨hm, hv, hf, hr, hl.symm, by rw [hl]; exact hle, by rw [hl], hc, by rw [hl]; exact hp⟩
    exact ⟨m, hmb, by rw [hl, hlen], u, hb, _, hn, ha.used_le,
      ((allocationAccepted_iff ha.used_le (allocationRegionLen_eq_ok.mp hn).2).mp ha).symm⟩
  · rintro ⟨m, hmb, hlen, u, hb, n, hn, hle, rfl⟩
    have ha := accepted_allocationImage hle (allocationRegionLen_eq_ok.mp hn).2
    have hl : (padTo n (allocationHeader bitmap ++ bitmap)).length = n := length_padTo (by simp; omega)
    refine ⟨n, hn, ⟨hl, by omega⟩, ha.magic, ha.version, ⟨ha.flags, ha.reserved⟩, m, hmb, by rw [ha.len, hlen], ?_⟩
    rw [ha.len, ha.bitmap_eq]
    exact ⟨ha.used_le, ha.crc, ha.padding, u, hb, rfl⟩

theorem accepted_of_encode (h : encodeAllocationImage sb bitmap = .ok image) :
    AllocationAccepted image bitmap ∧ ∃ m, allocationBitmapBytes sb.totalBlocks = .ok m ∧
      bitmap.length = m.toNat := by
  simp only [encodeAllocationImage, steps_ok, exists_const] at h
  obtain ⟨m, hm, hl, u, hv, n, hn, hle, rfl⟩ := h
  exact ⟨accepted_allocationImage hle (allocationRegionLen_eq_ok.mp hn).2, m, hm, hl⟩

theorem encodeAllocationImage_set {bitmap' : List UInt8}
    (h : encodeAllocationImage sb bitmap = .ok image) {i : Nat} {x : UInt8} (hi : i < image.length)
    (hx : image[i] ≠ x) :
    encodeAllocationImage sb bitmap' ≠ .ok (image.set i x) := by
  intro h'
  have hs : allocationHeaderLen = 32 := rfl
  obtain ⟨ha, m, hm, hlen⟩ := accepted_of_encode h
  obtain ⟨ha', m', hm', hlen'⟩ := accepted_of_encode h'
  obtain rfl := Except.ok.inj (hm.symm.trans hm')
  have hused := ha.used_le
  have hsame : bitmap ≠ bitmap' := by
    rintro rfl
    have heq := congrArg (fun l => l[i]?) (Except.ok.inj (h.symm.trans h'))
    simp only [List.getElem?_set_self hi, List.getElem?_eq_getElem hi, Option.some.injEq] at heq
    exact hx heq
  have hbitmap := ha'.bitmap_eq
  rw [hlen', ← hlen] at hbitmap
  by_cases hin : allocationHeaderLen ≤ i ∧ i < allocationHeaderLen + bitmap.length
  · have hset : bitmap.set (i - allocationHeaderLen) x = bitmap' := by
      rw [← hbitmap, slice_set_of_le hin.1, ha.bitmap_eq]
    have hcrc : crc32 bitmap' = crc32 bitmap := by
      apply UInt32.toNat_inj.mp
      rw [← ha.crc, ← ha'.crc, readLe, slice_set (by omega), ← readLe]
    have hi' : i - allocationHeaderLen < bitmap.length := by omega
    refine crc32_set_ne hi' (fun hbyte => hx ?_) (hset ▸ hcrc)
    rw [← hbyte]
    have hat := congrArg (fun l => l[i - allocationHeaderLen]?) ha.bitmap_eq
    simp only [slice, List.getElem?_drop, Nat.add_sub_cancel' hin.1, List.getElem?_take_of_lt hin.2,
      List.getElem?_eq_getElem hi, List.getElem?_eq_getElem hi', Option.some.injEq] at hat
    exact hat
  · rw [slice_set (by omega), ha.bitmap_eq] at hbitmap
    exact hsame hbitmap

/-! ## The bitmap and its allocator -/

theorem bitIsSet_false :
    bitIsSet bitmap block = .ok false ↔ block < 8 * bitmap.length ∧ bitAt bitmap block = false := by
  by_cases h : block < 8 * bitmap.length
  · rw [bitIsSet_eq_ok h]; simp [h]
  · have hn : bitmap[block / 8]? = none := List.getElem?_eq_none (by omega)
    simp [bitIsSet, hn, okOr, h]

theorem requireClear_eq_ok {e : IoError} {blocks : List Nat} :
    requireClear bitmap e blocks = .ok u ↔ ∀ b ∈ blocks, b < 8 * bitmap.length ∧ bitAt bitmap b = false := by
  induction blocks with
  | nil => simp [requireClear]
  | cons b blocks ih =>
    simp only [requireClear, steps_ok, exists_const, List.forall_mem_cons, ih, ← bitIsSet_false]
    constructor
    · rintro ⟨set, hb, rfl, h⟩; exact ⟨hb, h⟩
    · rintro ⟨hb, h⟩; exact ⟨_, hb, rfl, h⟩

theorem validateBitmapBits_eq_ok :
    validateBitmapBits bitmap sb = .ok u ↔ bitmap.length * 8 < 2 ^ 64 ∧
      (∀ b < sb.reservedBlocks, b < 8 * bitmap.length ∧ bitAt bitmap b = false) ∧
      ∀ b, sb.totalBlocks.toNat ≤ b → b < 8 * bitmap.length → bitAt bitmap b = false := by
  simp only [validateBitmapBits, steps_ok, exists_const, requireClear_eq_ok, List.mem_range, List.mem_range'_1]
  constructor
  · rintro ⟨h1, h2, h3⟩
    exact ⟨h2, h1, fun b hb hlt => (h3 b ⟨hb, by omega⟩).2⟩
  · rintro ⟨h2, h1, h3⟩
    exact ⟨h1, h2, fun b hb => ⟨by omega, h3 b hb.1 (by omega)⟩⟩

theorem allocateTimes_eq_ok : ∀ {n k : Nat}, (∀ b, a.Has b ↔ a.reservedBlocks ≤ b ∧
    b < a.reservedBlocks + k) → a.reservedBlocks + k + n ≤ a.totalBlocks →
    ∃ a', allocateTimes n a = .ok a' ∧ a'.totalBlocks = a.totalBlocks ∧ a'.reservedBlocks = a.reservedBlocks ∧
      ∀ b, a'.Has b ↔ a.reservedBlocks ≤ b ∧ b < a.reservedBlocks + k + n := by
  intro n
  induction n generalizing a with
  | zero => exact fun h _ => ⟨a, rfl, rfl, rfl, h⟩
  | succ n ih =>
    intro k h hle
    cases ha : a.allocate with
    | error e =>
      have hb := (BlockAllocator.allocate_eq_error ha).2 (a.reservedBlocks + k) (by omega) (by omega)
      have := (h _).mp hb
      omega
    | ok p =>
      obtain ⟨b, a₁⟩ := p
      obtain ⟨hr, -, hn, ht₁, hr₁, hh₁, hmin⟩ := BlockAllocator.allocate_eq_ok ha
      -- The lowest free block is the first one behind those already taken.
      have hb : b.toNat = a.reservedBlocks + k := by
        have h1 : ¬ b.toNat < a.reservedBlocks + k := fun hlt => hn ((h _).mpr ⟨hr, hlt⟩)
        have h2 : ¬ a.reservedBlocks + k < b.toNat := fun hlt => by
          have := (h _).mp (hmin _ (by omega) hlt)
          omega
        omega
      obtain ⟨a', ha', ht', hr', hh'⟩ := @ih a₁ (k + 1) (fun c => by rw [hh₁, h, hr₁]; omega) (by omega)
      refine ⟨a', ?_, by omega, by omega, fun c => by rw [hh', hr₁]; omega⟩
      rw [allocateTimes, ha]
      exact ha'

theorem freeClear_eq_ok :
    ∀ {blocks : List Nat} {a : BlockAllocator}, blocks.Nodup → (∀ b ∈ blocks, b < 8 * bitmap.length ∧ a.Has b) →
    ∃ a', freeClear bitmap blocks a = .ok a' ∧ a'.totalBlocks = a.totalBlocks ∧
      a'.reservedBlocks = a.reservedBlocks ∧ ∀ c, a'.Has c ↔ a.Has c ∧ (c ∈ blocks → bitAt bitmap c = true)
  | [], a, _, _ => ⟨a, rfl, rfl, rfl, fun c => by simp⟩
  | b :: blocks, a, hn, h => by
    obtain ⟨hnb, hn⟩ := List.nodup_cons.mp hn
    obtain ⟨⟨hlt, hb⟩, h⟩ := List.forall_mem_cons.mp h
    rw [freeClear, bitIsSet_eq_ok hlt, except_bind_ok]
    cases hbit : bitAt bitmap b with
    | true =>
      obtain ⟨a', ha', ht', hr', hh'⟩ := freeClear_eq_ok hn h
      refine ⟨a', ha', ht', hr', fun c => ?_⟩
      rw [hh', List.mem_cons]
      constructor
      · rintro ⟨h1, h2⟩
        exact ⟨h1, fun hc => hc.elim (fun he => he ▸ hbit) h2⟩
      · rintro ⟨h1, h2⟩
        exact ⟨h1, fun hc => h2 (.inr hc)⟩
    | false =>
      have hb64 : (UInt64.ofNat b).toNat = b :=
        UInt64.toNat_ofNat_of_lt' (by have := hb.lt; have := a.total_lt; simp only [UInt64.size]; omega)
      obtain ⟨a₁, hf⟩ := BlockAllocator.free_of_has (show a.Has (UInt64.ofNat b).toNat by rw [hb64]; exact hb)
      obtain ⟨-, ht₁, hr₁, hh₁⟩ := BlockAllocator.free_eq_ok.mp hf
      rw [hb64] at hh₁
      obtain ⟨a', ha', ht', hr', hh'⟩ := @freeClear_eq_ok blocks a₁ hn fun c hc =>
        ⟨(h c hc).1, (hh₁ c).mpr ⟨fun he => hnb (he ▸ hc), (h c hc).2⟩⟩
      refine ⟨a', ?_, ht'.trans ht₁, hr'.trans hr₁, fun c => ?_⟩
      · simp only [Bool.false_eq_true, if_false, hf]
        exact ha'
      · rw [hh', hh₁, List.mem_cons]
        constructor
        · rintro ⟨⟨h1, h2⟩, h3⟩
          exact ⟨h2, fun hc => hc.elim (fun he => absurd he h1) h3⟩
        · rintro ⟨h1, h2⟩
          refine ⟨⟨fun he => ?_, h1⟩, fun hc => h2 (.inr hc)⟩
          rw [he, hbit] at h2
          cases h2 (.inl rfl)

theorem restoreAllocator_eq_ok (hr : sb.reservedBlocks ≤ sb.totalBlocks.toNat)
    (hl : sb.totalBlocks.toNat ≤ 8 * bitmap.length) : restoreAllocator sb bitmap = .ok a ↔
      a.totalBlocks = sb.totalBlocks.toNat ∧ a.reservedBlocks = sb.reservedBlocks ∧
      ∀ b, a.Has b ↔ sb.reservedBlocks ≤ b ∧ b < sb.totalBlocks.toNat ∧ bitAt bitmap b = true := by
  obtain ⟨fresh, hfresh⟩ : ∃ fresh, BlockAllocator.new sb.totalBlocks sb.reservedBlocks = .ok fresh := by
    rw [BlockAllocator.new, dif_pos hr]; exact ⟨_, rfl⟩
  obtain ⟨-, hft, hfr, hfh⟩ := BlockAllocator.new_eq_ok.mp hfresh
  obtain ⟨full, hfull, hgt, hgr, hgh⟩ := @allocateTimes_eq_ok fresh (sb.totalBlocks.toNat - sb.reservedBlocks) 0
    (fun b => iff_of_false (hfh b) (by omega)) (by omega)
  obtain ⟨r, hres, hrt, hrr, hrh⟩ := @freeClear_eq_ok bitmap
    (List.range' sb.reservedBlocks (sb.totalBlocks.toNat - sb.reservedBlocks)) full List.nodup_range' fun b hb => by
      rw [List.mem_range'_1] at hb
      exact ⟨by omega, (hgh b).mpr (by omega)⟩
  have hrun : restoreAllocator sb bitmap = .ok r := by
    simp [restoreAllocator, hfresh, hfull, hres, r.validate_eq_ok, Except.mapError]
  have hspec : ∀ b, r.Has b ↔ sb.reservedBlocks ≤ b ∧ b < sb.totalBlocks.toNat ∧ bitAt bitmap b = true := by
    intro b
    rw [hrh, hgh, List.mem_range'_1]
    constructor
    · rintro ⟨h1, h2⟩
      exact ⟨by omega, by omega, h2 (by omega)⟩
    · rintro ⟨h1, h2, h3⟩
      exact ⟨by omega, fun _ => h3⟩
  rw [hrun, Except.ok.injEq]
  constructor
  · rintro rfl
    exact ⟨by omega, by omega, hspec⟩
  · rintro ⟨h1, h2, h3⟩
    exact BlockAllocator.ext_has (by omega) (by omega) fun b => (hspec b).trans (h3 b).symm

theorem setOwned_eq_ok : ∀ {blocks : List Nat} {bitmap : List UInt8},
    (∀ b ∈ blocks, a.reservedBlocks ≤ b ∧ b < a.totalBlocks ∧ b < 8 * bitmap.length) →
    ∃ bitmap', setOwned a blocks bitmap = .ok bitmap' ∧ bitmap'.length = bitmap.length ∧
      ∀ c, bitAt bitmap' c = (bitAt bitmap c || decide (c ∈ blocks ∧ a.Has c))
  | [], bitmap, _ => ⟨bitmap, rfl, rfl, fun c => by simp⟩
  | b :: blocks, bitmap, h => by
    obtain ⟨⟨hr, ht, hl⟩, h⟩ := List.forall_mem_cons.mp h
    have hb64 : (UInt64.ofNat b).toNat = b :=
      UInt64.toNat_ofNat_of_lt' (by have := a.total_lt; simp only [UInt64.size]; omega)
    have ho : a.isOwned (UInt64.ofNat b) = .ok (decide (a.Has b)) := by
      refine BlockAllocator.isOwned_eq_ok.mpr ⟨by omega, ?_⟩
      rw [hb64, decide_eq_true_iff]
      exact ⟨.inr, fun h => h.resolve_left (by omega)⟩
    have hstep : setOwned a (b :: blocks) bitmap = if decide (a.Has b) then (do
        let bitmap' ← setBit bitmap b
        setOwned a blocks bitmap') else setOwned a blocks bitmap := by rw [setOwned, ho]; rfl
    rw [hstep]
    by_cases hb : a.Has b
    · obtain ⟨bm, hset, hlen, hbit⟩ := setBit_eq_ok hl
      obtain ⟨bm', hrun, hlen', hbit'⟩ := @setOwned_eq_ok blocks bm (by rw [hlen]; exact h)
      refine ⟨bm', by simp [hb, hset, hrun], by rw [hlen', hlen], fun c => ?_⟩
      rw [hbit', hbit, Bool.or_assoc, ← Bool.decide_or]
      congr 1
      refine decide_eq_decide.mpr ?_
      rw [List.mem_cons]
      constructor
      · rintro (rfl | h1)
        · exact ⟨.inl rfl, hb⟩
        · exact ⟨.inr h1.1, h1.2⟩
      · rintro ⟨h1 | h1, h2⟩
        · exact .inl h1
        · exact .inr ⟨h1, h2⟩
    · obtain ⟨bm', hrun, hlen', hbit'⟩ := @setOwned_eq_ok blocks bitmap h
      refine ⟨bm', by simp [hb, hrun], hlen', fun c => ?_⟩
      rw [hbit']
      congr 1
      refine decide_eq_decide.mpr ?_
      rw [List.mem_cons]
      exact ⟨fun h1 => ⟨.inr h1.1, h1.2⟩, fun ⟨h1, h2⟩ => ⟨h1.resolve_left fun he => hb (he ▸ h2), h2⟩⟩

theorem bitAt_replicate (n c : Nat) : bitAt (List.replicate n 0) c = false := by
  simp only [bitAt, List.getElem?_replicate]
  split <;> simp

theorem ownedBitmap_ok (hm : allocationBitmapBytes sb.totalBlocks = .ok m)
    (ht : a.totalBlocks = sb.totalBlocks.toNat)
    (hr : a.reservedBlocks = sb.reservedBlocks) : ∃ bitmap, ownedBitmap sb a = .ok bitmap ∧
      bitmap.length = m.toNat ∧ ∀ c, bitAt bitmap c = decide (a.Has c) := by
  have hm8 := (allocationBitmapBytes_eq_ok.mp hm).2
  obtain ⟨bm, hrun, hlen, hbit⟩ := @setOwned_eq_ok a
    (List.range' sb.reservedBlocks (sb.totalBlocks.toNat - sb.reservedBlocks)) (List.replicate m.toNat 0)
    fun b hb => by
      rw [List.mem_range'_1] at hb
      rw [List.length_replicate]
      omega
  rw [List.length_replicate] at hlen
  refine ⟨bm, by simp [ownedBitmap, ht, hr, a.validate_eq_ok, Except.mapError, hm, hrun, require_pos], hlen,
    fun c => ?_⟩
  rw [hbit, bitAt_replicate, Bool.false_or]
  refine decide_eq_decide.mpr ⟨And.right, fun hc => ⟨?_, hc⟩⟩
  rw [List.mem_range'_1]
  have := hc.lt
  have := hc.reserved_le
  omega

theorem ownedBitmap_eq_ok (hm : allocationBitmapBytes sb.totalBlocks = .ok m)
    (ht : a.totalBlocks = sb.totalBlocks.toNat)
    (hr : a.reservedBlocks = sb.reservedBlocks) : ownedBitmap sb a = .ok bitmap ↔
      bitmap.length = m.toNat ∧ ∀ c, bitAt bitmap c = decide (a.Has c) := by
  obtain ⟨bm, hown, hlen, hbit⟩ := ownedBitmap_ok hm ht hr
  rw [hown, Except.ok.injEq]
  constructor
  · rintro rfl
    exact ⟨hlen, hbit⟩
  · rintro ⟨h1, h2⟩
    exact ext_bitAt (by rw [hlen, h1]) fun b _ => by rw [hbit, h2]

/-! ## On the device -/

def encodeAllocator (sb : Superblock) (a : BlockAllocator) : Except IoError (List UInt8) := do
  let bitmap ← ownedBitmap sb a
  encodeAllocationImage sb bitmap

def allocationBytes (sb : Superblock) (d : Disk) : List UInt8 :=
  regionBytes d sb.allocationStart.toNat sb.allocationBlocks.toNat

instance (sb : Superblock) : (loadAllocator sb).Reads := by unfold loadAllocator; infer_instance

theorem encodeAllocationImage_inv
    (h : encodeAllocationImage sb bitmap = .ok image) : ∃ m, allocationBitmapBytes sb.totalBlocks = .ok m ∧
      bitmap.length = m.toNat ∧ validateBitmapBits bitmap sb = .ok () ∧ allocationRegionLen sb = .ok image.length ∧
      allocationHeaderLen ≤ image.length := by
  simp only [encodeAllocationImage, steps_ok, exists_const] at h
  obtain ⟨m, hm, hl, u, hv, n, hn, hle, rfl⟩ := h
  have hs : allocationHeaderLen = 32 := rfl
  rw [length_padTo (by simp; omega)]
  exact ⟨m, hm, hl, hv, hn, by omega⟩

theorem ownedBitmap_inv (h : ownedBitmap sb a = .ok bitmap) :
    a.totalBlocks = sb.totalBlocks.toNat ∧ a.reservedBlocks = sb.reservedBlocks := by
  simp only [ownedBitmap, steps_ok, exists_const] at h
  exact h.1

theorem restore_iff_encode :
    (∃ bitmap, decodeAllocationImage image sb = .ok bitmap ∧ restoreAllocator sb bitmap = .ok a) ↔
      encodeAllocator sb a = .ok image := by
  simp only [encodeAllocator, except_bind_eq_ok, decodeAllocationImage_eq_ok]
  constructor
  · rintro ⟨bitmap, he, hres⟩
    obtain ⟨m, hm, hl, hv, -, -⟩ := encodeAllocationImage_inv he
    have hm8 := (allocationBitmapBytes_eq_ok.mp hm).2
    obtain ⟨-, hvr, hvt⟩ := validateBitmapBits_eq_ok.mp hv
    have hrt : sb.reservedBlocks ≤ sb.totalBlocks.toNat := by
      simp only [restoreAllocator, steps_ok] at hres
      obtain ⟨fresh, hf, -⟩ := hres
      exact (BlockAllocator.new_eq_ok.mp hf).1
    obtain ⟨h1, h2, h3⟩ := (restoreAllocator_eq_ok hrt (by omega)).mp hres
    refine ⟨bitmap, (ownedBitmap_eq_ok hm h1 h2).mpr ⟨hl, fun c => ?_⟩, he⟩
    rw [Bool.eq_iff_iff, decide_eq_true_iff, h3]
    constructor
    · intro hc
      refine ⟨Nat.le_of_not_lt fun hlt => ?_, Nat.lt_of_not_le fun hle => ?_, hc⟩
      · rw [(hvr c hlt).2] at hc; cases hc
      · by_cases hin : c < 8 * bitmap.length
        · rw [hvt c hle hin] at hc; cases hc
        · rw [bitAt, List.getElem?_eq_none (by omega)] at hc
          simp at hc
    · exact fun hc => hc.2.2
  · rintro ⟨bitmap, ho, he⟩
    obtain ⟨m, hm, hl, hv, -, -⟩ := encodeAllocationImage_inv he
    have hm8 := (allocationBitmapBytes_eq_ok.mp hm).2
    obtain ⟨h1, h2⟩ := ownedBitmap_inv ho
    obtain ⟨-, hb⟩ := (ownedBitmap_eq_ok hm h1 h2).mp ho
    have hrt : sb.reservedBlocks ≤ sb.totalBlocks.toNat := by rw [← h1, ← h2]; exact a.reserved_le
    refine ⟨bitmap, he, (restoreAllocator_eq_ok hrt (by omega)).mpr ⟨h1, h2, fun b => ?_⟩⟩
    rw [hb, decide_eq_true_iff]
    exact ⟨fun h => ⟨h2 ▸ h.reserved_le, h1 ▸ h.lt, h⟩, fun h => h.2.2⟩

theorem loadAllocator_eq_ok :
    (loadAllocator sb).eval d = .ok a ↔ d.length = sb.totalBlocks.toNat ∧
      sb.allocationRange.stop ≤ d.length ∧ encodeAllocator sb a = .ok (allocationBytes sb d) := by
  simp only [loadAllocator, validateAllocationGeometry, eval_bind, eval_count, except_bind_ok, eval_liftM,
    steps_ok, exists_const, ← restore_iff_encode]
  constructor
  · rintro ⟨hl, n, hn, image, hi, bitmap, hd, hres⟩
    obtain ⟨rfl, hin⟩ := eval_readRegion_ok hi
    refine ⟨hl, hin fun hz => ?_, bitmap, hd, hres⟩
    obtain ⟨m, hm, -, -, -, hle⟩ := encodeAllocationImage_inv (decodeAllocationImage_eq_ok.mp hd)
    simp [hz, regionBytes, allocationHeaderLen] at hle
  · rintro ⟨hl, hin, bitmap, hd, hres⟩
    obtain ⟨m, hm, -, -, hn, -⟩ := encodeAllocationImage_inv (decodeAllocationImage_eq_ok.mp hd)
    exact ⟨hl, _, hn, _, eval_readRegion hin, bitmap, hd, hres⟩

/-- Everything `store_allocator` does before its first write. -/
def checkAllocator (sb : Superblock) (a : BlockAllocator) : FsProg (List UInt8) := do
  let n ← count
  validateAllocationGeometry n sb
  encodeAllocator sb a

instance (sb : Superblock) (a : BlockAllocator) : (checkAllocator sb a).Reads := by
  unfold checkAllocator; infer_instance

theorem storeAllocator_eq (sb : Superblock) (a : BlockAllocator) : storeAllocator sb a =
    storeRegion (checkAllocator sb a) sb.allocationStart.toNat sb.allocationBlocks.toNat := by
  simp only [storeAllocator, storeRegion, checkAllocator, encodeAllocator, liftM_eq, lift_bind, bind_assoc]

theorem checkAllocator_eq_ok :
    (checkAllocator sb a).eval d = .ok image ↔ d.length = sb.totalBlocks.toNat ∧
      encodeAllocator sb a = .ok image := by
  simp only [checkAllocator, validateAllocationGeometry, eval_bind, eval_count, except_bind_ok, eval_liftM,
    steps_ok, exists_const]

end SystemsLab.Fs
