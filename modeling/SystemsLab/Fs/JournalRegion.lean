import SystemsLab.Fs.Format
import SystemsLab.Fs.JournalCodec

/-!
# The journal region

One sealed image in the reserved blocks, padded with zeros, or all zeros for the empty log. A log may only write
home blocks.
-/

namespace SystemsLab.Fs

open LogState Prog

variable {es : List JournalEntry} {sb : Superblock} {region : List UInt8} {d : Disk}
variable {payload : List UInt8} {n : Nat} {u : Unit}

/-- The sums of the accessors do not overflow. -/
def Superblock.EndsFit (sb : Superblock) : Prop :=
  sb.allocationRange.stop < 2 ^ 64 ∧ sb.inodeRange.stop < 2 ^ 64 ∧ sb.directoryRange.stop < 2 ^ 64

def Superblock.InRanges (sb : Superblock) (b : Nat) : Prop :=
  sb.allocationRange.Contains b ∨ sb.inodeRange.Contains b ∨ sb.directoryRange.Contains b ∨ sb.dataRange.Contains b

/-- A write to the block passes the checks: the ranges can be computed, and it lies in one. -/
def Superblock.HomeBlock (sb : Superblock) (b : Nat) : Prop := sb.EndsFit ∧ sb.InRanges b

instance (sb : Superblock) : Decidable sb.EndsFit := inferInstanceAs (Decidable (_ ∧ _))

instance (sb : Superblock) (b : Nat) : Decidable (sb.InRanges b) := inferInstanceAs (Decidable (_ ∨ _))

instance (sb : Superblock) (b : Nat) : Decidable (sb.HomeBlock b) := inferInstanceAs (Decidable (_ ∧ _))

theorem Superblock.WellFormed.endsFit (h : sb.WellFormed) : sb.EndsFit := by
  have h2 := h.inodeStart_eq
  have h3 := h.directoryStart_eq
  have h4 := h.reserved_le
  have h64 := sb.totalBlocks.toNat_lt
  simp only [EndsFit, allocationRange, inodeRange, directoryRange, reservedBlocks] at h4 ⊢
  omega

def requireHome (sb : Superblock) (block : UInt64) : Except IoError Unit := do
  require sb.EndsFit (panicked "attempt to add with overflow")
  require (sb.InRanges block.toNat) (invalidData "journal write targets forbidden or invalid block")

@[simp] theorem requireHome_eq_ok {block : UInt64} : requireHome sb block = .ok u ↔ sb.HomeBlock block.toNat := by
  simp [requireHome, Superblock.HomeBlock]

def validateEntriesLoop (sb : Superblock) : Option TransactionId → List JournalEntry → Except IoError Unit
  | _, [] => .ok ()
  | active, .begin txid :: es => do
    require (active = none) (invalidData "nested journal transaction")
    validateEntriesLoop sb (some txid) es
  | active, .write txid block _ :: es => do
    require (active = some txid) (invalidData "journal write does not match active transaction")
    requireHome sb block
    validateEntriesLoop sb active es
  | active, .commit txid :: es => do
    require (active = some txid) (invalidData "journal commit does not match active transaction")
    validateEntriesLoop sb none es

def validateEntries (sb : Superblock) (entries : List JournalEntry) : Except IoError Unit :=
  validateEntriesLoop sb none entries

theorem validateEntriesLoop_eq_ok (sb : Superblock) : ∀ (es : List JournalEntry)
    (s : LogState TransactionId UInt64 Block) {u : Unit}, validateEntriesLoop sb s.active es = .ok u ↔
      (∃ s', s.scan es = some s') ∧ ∀ w ∈ logWrites es, sb.HomeBlock w.1.toNat
  | [], s, u => by simp [validateEntriesLoop, logWrites]
  | .begin txid :: es, s, u => by
    by_cases ha : s.active = none
    · simpa [validateEntriesLoop, scan_cons, step, ha, logWrites, require_pos] using
        validateEntriesLoop_eq_ok sb es ⟨some txid, [], s.applied, s.commits⟩
    · simp [validateEntriesLoop, scan_cons, step, ha]
  | .write txid block data :: es, s, u => by
    by_cases ha : s.active = some txid
    · have ih := @validateEntriesLoop_eq_ok sb es ⟨some txid, s.pending ++ [(block, data)], s.applied, s.commits⟩ u
      simp only [validateEntriesLoop, scan_cons, step, ha, logWrites, require_pos, except_bind_ok, if_true,
        Option.bind_some, steps_ok, requireHome_eq_ok, exists_const, List.filterMap_cons, List.forall_mem_cons]
      rw [ih, logWrites]
      exact and_left_comm
    · simp [validateEntriesLoop, scan_cons, step, ha]
  | .commit txid :: es, s, u => by
    by_cases ha : s.active = some txid
    · simpa [validateEntriesLoop, scan_cons, step, ha, logWrites, require_pos] using
        validateEntriesLoop_eq_ok sb es ⟨none, [], s.applied ++ s.pending, s.commits + 1⟩
    · simp [validateEntriesLoop, scan_cons, step, ha]

theorem validateEntries_eq_ok :
    validateEntries sb es = .ok u ↔ (∃ s, init.scan es = some s) ∧ ∀ w ∈ logWrites es, sb.HomeBlock w.1.toNat :=
  validateEntriesLoop_eq_ok sb es init

/-! ## The image -/

/-- `b"JRG1"`. -/
def regionMagic : List UInt8 := [0x4a, 0x52, 0x47, 0x31]

@[simp] theorem length_regionMagic : regionMagic.length = 4 := by simp [regionMagic]

def regionVersion : Nat := 1
def regionHeaderSize : Nat := 32

def validateRegion (blockCount : Nat) (sb : Superblock) : Except IoError Unit := do
  require (sb.totalBlocks.toNat = blockCount) (invalidInput "superblock block count does not match journal device")
  require (sb.journalStart = 1 ∧ sb.journalBlocks ≠ 0) (invalidInput "invalid journal reservation")
  let journalEnd ← okOr (invalidInput "journal block range overflow") (checkedAdd sb.journalStart sb.journalBlocks)
  require (journalEnd ≤ sb.totalBlocks) (invalidInput "journal reservation exceeds filesystem size")

def regionCapacity (sb : Superblock) : Except IoError Nat := do
  let bytes := sb.journalBlocks.toNat * blockSize
  require (bytes < 2 ^ 64) (invalidInput "journal region byte size overflow")
  pure bytes

def regionHeader (payloadLen : Nat) : List UInt8 :=
  regionMagic ++ (leBytes 2 regionVersion ++ (leBytes 2 0 ++ leBytes 8 payloadLen))

@[simp] theorem length_regionHeader (payloadLen : Nat) : (regionHeader payloadLen).length = 16 := by
  simp [regionHeader]

def regionImage (capacity : Nat) (payload : List UInt8) : List UInt8 :=
  padTo capacity (sealed (regionHeader payload.length) (List.replicate 12 0 ++ payload))

def encodeRegion (sb : Superblock) (entries : List JournalEntry) : Except IoError (List UInt8) := do
  let payload ← encodeEntries entries
  let capacity ← regionCapacity sb
  require (regionHeaderSize + payload.length ≤ capacity) (invalidInput "journal image exceeds reserved region")
  pure (regionImage capacity payload)

def decodeRegion (sb : Superblock) (region : List UInt8) : Except IoError (List JournalEntry) :=
  if ∀ b ∈ region, b = 0 then .ok []
  else do
    require (slice region 0 4 = regionMagic) (invalidData "invalid journal region magic")
    require (readLe 2 region 4 = regionVersion) (invalidData "unsupported journal region version")
    require (readLe 2 region 6 = 0) (invalidData "unsupported journal region flags")
    require (∀ b ∈ slice region 20 regionHeaderSize, b = 0)
      (invalidData "journal region reserved bytes are non-zero")
    let used := regionHeaderSize + readLe 8 region 8
    require (used < 2 ^ 64) (invalidData "journal region used length overflow")
    require (used ≤ region.length) (invalidData "journal payload exceeds reserved region")
    require (∀ b ∈ region.drop used, b = 0) (invalidData "journal region trailing padding is non-zero")
    require (CrcMatches (region.take used) 16) (invalidData "journal region checksum mismatch")
    let entries ← decodeEntries (slice region regionHeaderSize used)
    validateEntries sb entries
    pure entries

theorem length_regionImage {capacity : Nat} (h : regionHeaderSize + payload.length ≤ capacity) :
    (regionImage capacity payload).length = capacity := by
  have hs : regionHeaderSize = 32 := rfl
  refine length_padTo ?_
  simp; omega

structure RegionAccepted (region payload : List UInt8) : Prop where
  magic : slice region 0 4 = regionMagic
  version : readLe 2 region 4 = regionVersion
  flags : readLe 2 region 6 = 0
  reserved : ∀ b ∈ slice region 20 regionHeaderSize, b = 0
  used_lt : regionHeaderSize + readLe 8 region 8 < 2 ^ 64
  used_le : regionHeaderSize + readLe 8 region 8 ≤ region.length
  padding : ∀ b ∈ region.drop (regionHeaderSize + readLe 8 region 8), b = 0
  crc : CrcMatches (region.take (regionHeaderSize + readLe 8 region 8)) 16
  payload_eq : slice region regionHeaderSize (regionHeaderSize + readLe 8 region 8) = payload

theorem decodeRegion_eq_ok (hz : ¬ ∀ b ∈ region, b = 0) : decodeRegion sb region = .ok es ↔
      ∃ payload, RegionAccepted region payload ∧ encodeEntries es = .ok payload ∧
        validateEntries sb es = .ok () := by
  simp only [decodeRegion, if_neg hz, steps_ok, exists_const, decodeEntries_eq_ok]
  constructor
  · rintro ⟨h1, h2, h3, h4, h5, h6, h7, h8, es', he, u, hv, rfl⟩
    exact ⟨_, ⟨h1, h2, h3, h4, h5, h6, h7, h8, rfl⟩, he, hv⟩
  · rintro ⟨payload, ⟨h1, h2, h3, h4, h5, h6, h7, h8, rfl⟩, he, hv⟩
    exact ⟨h1, h2, h3, h4, h5, h6, h7, h8, es, he, (), hv, rfl⟩

theorem take_eq_regionHeader (h : 16 ≤ region.length) (hn : n < 256 ^ 8) :
    region.take 16 = regionHeader n ↔ slice region 0 4 = regionMagic ∧ readLe 2 region 4 = regionVersion ∧
      readLe 2 region 6 = 0 ∧ readLe 8 region 8 = n := by
  have hv : regionVersion = 1 := rfl
  rw [← slice_zero_drop, regionHeader, slice_eq_append (by simp) h]
  simp (disch := omega) only [length_regionMagic, slice_eq_field, slice_eq_last_field, Nat.reduceAdd]

theorem RegionAccepted.length_payload (h : RegionAccepted region payload) : payload.length = readLe 8 region 8 := by
  rw [← h.payload_eq, length_slice_of_le h.used_le]; omega

theorem regionAccepted_iff (h : regionHeaderSize + payload.length ≤ region.length)
    (hc : region.length < 2 ^ 64) : RegionAccepted region payload ↔ region = regionImage region.length payload := by
  have hs : regionHeaderSize = 32 := rfl
  rw [regionImage, @eq_padTo_sealed_iff 16 _ _ _ _ (by simp) (by simp; omega) h,
    take_eq_regionHeader (by omega) (by omega), slice_eq_append (by simp; omega) h, List.length_replicate,
    show 16 + 4 + 12 = regionHeaderSize from rfl, List.eq_replicate_iff, length_slice_of_le (by omega)]
  constructor
  · intro ha
    have hn : readLe 8 region 8 = payload.length := ha.length_payload.symm
    have hp := ha.payload_eq
    have hcrc := ha.crc
    have hz := ha.padding
    rw [hn] at hp hcrc hz
    exact ⟨⟨ha.magic, ha.version, ha.flags, hn⟩, ⟨⟨rfl, ha.reserved⟩, hp⟩, hcrc, hz⟩
  · rintro ⟨⟨h1, h2, h3, hn⟩, ⟨⟨-, h4⟩, h5⟩, h6, h7⟩
    exact ⟨h1, h2, h3, h4, by omega, by omega, by rwa [hn], by rwa [hn], by rwa [hn]⟩

theorem RegionAccepted.nonzero (h : RegionAccepted region payload) : ¬ ∀ b ∈ region, b = 0 := by
  intro hz
  have hm : (0x4a : UInt8) ∈ slice region 0 4 := by rw [h.magic]; simp [regionMagic]
  exact absurd (hz _ (List.mem_of_mem_take (List.mem_of_mem_drop hm))) (by decide)

theorem regionCapacity_eq_ok : regionCapacity sb = .ok n ↔ n = sb.journalBlocks.toNat * blockSize ∧ n < 2 ^ 64 := by
  simp only [regionCapacity, steps_ok, exists_const]
  constructor
  · rintro ⟨h, rfl⟩; exact ⟨rfl, h⟩
  · rintro ⟨rfl, h⟩; exact ⟨h, rfl⟩

theorem encodeRegion_eq_ok :
    encodeRegion sb es = .ok region ↔ ∃ payload, encodeEntries es = .ok payload ∧
      regionCapacity sb = .ok region.length ∧ regionHeaderSize + payload.length ≤ region.length ∧
      region = regionImage region.length payload := by
  simp only [encodeRegion, steps_ok, exists_const]
  constructor
  · rintro ⟨payload, hp, capacity, hc, hle, rfl⟩
    rw [length_regionImage hle]
    exact ⟨payload, hp, hc, hle, rfl⟩
  · rintro ⟨payload, hp, hc, hle, hr⟩
    exact ⟨payload, hp, _, hc, hle, hr.symm⟩

theorem decodeRegion_iff (hc : regionCapacity sb = .ok region.length) :
    (decodeRegion sb region = .ok es ∧ ¬ ∀ b ∈ region, b = 0) ↔
      encodeRegion sb es = .ok region ∧ validateEntries sb es = .ok () := by
  rw [encodeRegion_eq_ok]
  constructor
  · rintro ⟨hd, hz⟩
    obtain ⟨payload, ha, he, hv⟩ := (decodeRegion_eq_ok hz).mp hd
    have hle : regionHeaderSize + payload.length ≤ region.length := by rw [ha.length_payload]; exact ha.used_le
    exact ⟨⟨payload, he, hc, hle, (regionAccepted_iff hle (regionCapacity_eq_ok.mp hc).2).mp ha⟩, hv⟩
  · rintro ⟨⟨payload, he, -, hle, hr⟩, hv⟩
    have ha := (regionAccepted_iff hle (regionCapacity_eq_ok.mp hc).2).mpr hr
    exact ⟨(decodeRegion_eq_ok ha.nonzero).mpr ⟨payload, ha, he, hv⟩, ha.nonzero⟩

def storeJournalImage (sb : Superblock) (entries : List JournalEntry) : FsProg Unit := do
  let n ← count
  validateRegion n sb
  validateEntries sb entries
  let region ← encodeRegion sb entries
  writeRegion sb.journalStart.toNat sb.journalBlocks.toNat region
  sync

def loadJournalImage (sb : Superblock) : FsProg (List JournalEntry) := do
  let n ← count
  validateRegion n sb
  let _capacity ← regionCapacity sb
  let region ← readRegion sb.journalStart.toNat sb.journalBlocks.toNat
  decodeRegion sb region

/-! ## On the device -/

theorem validateRegion_eq_ok : validateRegion n sb = .ok u ↔
    sb.totalBlocks.toNat = n ∧ sb.journalStart = 1 ∧ sb.journalBlocks ≠ 0 ∧
      sb.journalStart.toNat + sb.journalBlocks.toNat ≤ sb.totalBlocks.toNat := by
  simp only [validateRegion, steps_ok, exists_const, checkedAdd_eq_some, UInt64.le_iff_toNat_le]
  constructor
  · rintro ⟨hn, ⟨hs, hb⟩, e, he, hle⟩
    exact ⟨hn, hs, hb, by omega⟩
  · rintro ⟨hn, hs, hb, hle⟩
    have := sb.totalBlocks.toNat_lt
    have he : (sb.journalStart + sb.journalBlocks).toNat = sb.journalStart.toNat + sb.journalBlocks.toNat := by
      rw [UInt64.toNat_add, Nat.mod_eq_of_lt (by omega)]
    exact ⟨hn, ⟨hs, hb⟩, _, he, by omega⟩

def journalBytes (sb : Superblock) (d : Disk) : List UInt8 :=
  regionBytes d sb.journalStart.toNat sb.journalBlocks.toNat

instance (sb : Superblock) : (loadJournalImage sb).Reads := by unfold loadJournalImage; infer_instance

theorem loadJournalImage_eq_ok :
    (loadJournalImage sb).eval d = .ok es ↔ validateRegion d.length sb = .ok () ∧
      regionCapacity sb = .ok (journalBytes sb d).length ∧ decodeRegion sb (journalBytes sb d) = .ok es := by
  simp only [loadJournalImage, eval_bind, eval_count, except_bind_ok, eval_liftM, except_bind_eq_ok]
  constructor
  · rintro ⟨u, hv, n, hn, region, hr, hd⟩
    obtain ⟨hl, hs, hb, hle⟩ := validateRegion_eq_ok.mp hv
    rw [eval_readRegion (by omega)] at hr
    cases hr
    rw [journalBytes, length_regionBytes (by omega), (regionCapacity_eq_ok.mp hn).1.symm]
    exact ⟨hv, hn, hd⟩
  · rintro ⟨hv, hn, hd⟩
    obtain ⟨hl, hs, hb, hle⟩ := validateRegion_eq_ok.mp hv
    exact ⟨(), hv, _, hn, _, eval_readRegion (by omega), hd⟩

def journalWrites (sb : Superblock) (region : List UInt8) : List (Nat × Block) :=
  regionWrites sb.journalStart.toNat sb.journalBlocks.toNat region

/-- Everything `store_journal_image` does before its first write. -/
def checkJournalImage (sb : Superblock) (es : List JournalEntry) : FsProg (List UInt8) := do
  let n ← count
  validateRegion n sb
  validateEntries sb es
  encodeRegion sb es

instance (sb : Superblock) (es : List JournalEntry) : (checkJournalImage sb es).Reads := by
  unfold checkJournalImage; infer_instance

theorem storeJournalImage_eq (sb : Superblock) (es : List JournalEntry) : storeJournalImage sb es =
    storeRegion (checkJournalImage sb es) sb.journalStart.toNat sb.journalBlocks.toNat := by
  simp only [storeJournalImage, storeRegion, checkJournalImage, bind_assoc]

theorem checkJournalImage_eq_ok :
    (checkJournalImage sb es).eval d = .ok region ↔ validateRegion d.length sb = .ok () ∧
      validateEntries sb es = .ok () ∧ encodeRegion sb es = .ok region := by
  simp only [checkJournalImage, eval_bind, eval_count, except_bind_ok, eval_liftM, except_bind_eq_ok]
  refine ⟨fun h => ?_, fun h => ?_⟩
  · obtain ⟨_, hv, _, he, hr⟩ := h
    exact ⟨hv, he, hr⟩
  · obtain ⟨hv, he, hr⟩ := h
    exact ⟨(), hv, (), he, hr⟩

theorem checkJournalImage_fits (hv : validateRegion d.length sb = .ok ()) (he : validateEntries sb es = .ok ())
    (h64 : sb.journalBlocks.toNat * blockSize < 2 ^ 64)
    (hfit : regionHeaderSize + es.length * (recordHeaderSize + blockSize) ≤ sb.journalBlocks.toNat * blockSize) :
    ∃ region, (checkJournalImage sb es).eval d = .ok region := by
  have hlen : ∀ es : List JournalEntry, (es.flatMap recordBytes).length ≤
      es.length * (recordHeaderSize + blockSize) := by
    intro es
    induction es with
    | nil => simp
    | cons entry es ih =>
      have hp := length_payload_le entry
      rw [List.flatMap_cons, List.length_append, List.length_cons, Nat.succ_mul, length_recordBytes]
      omega
  have hle : regionHeaderSize + (es.flatMap recordBytes).length ≤ sb.journalBlocks.toNat * blockSize :=
    Nat.le_trans (Nat.add_le_add_left (hlen es) _) hfit
  refine ⟨regionImage (sb.journalBlocks.toNat * blockSize) (es.flatMap recordBytes),
    checkJournalImage_eq_ok.mpr ⟨hv, he, encodeRegion_eq_ok.mpr ⟨_, encodeEntries_eq es, ?_⟩⟩⟩
  rw [length_regionImage hle]
  exact ⟨regionCapacity_eq_ok.mpr ⟨rfl, h64⟩, hle, rfl⟩

theorem runOn_storeJournalImage (h : (checkJournalImage sb es).eval d = .ok region) :
    (storeJournalImage sb es).runOn d = (.ok (), overlay d (journalWrites sb region)) ∧
      (storeJournalImage sb es).trace d = (journalWrites sb region).map (fun w => .write w.1 w.2) ++ [.flush] := by
  obtain ⟨hl, hs, hb, hle⟩ := validateRegion_eq_ok.mp (checkJournalImage_eq_ok.mp h).1
  rw [storeJournalImage_eq]
  exact storeRegion_ok h (by omega)

theorem storeJournalImage_error {e : IoError} (h : (checkJournalImage sb es).eval d = .error e) :
    (storeJournalImage sb es).runOn d = (.error e, d) ∧ (storeJournalImage sb es).trace d = [] := by
  rw [storeJournalImage_eq]
  exact storeRegion_error h

theorem length_encodeRegion (h : encodeRegion sb es = .ok region) :
    region.length = sb.journalBlocks.toNat * blockSize := by
  obtain ⟨_, _, hc, _⟩ := encodeRegion_eq_ok.mp h
  exact (regionCapacity_eq_ok.mp hc).1

theorem journalBytes_write (hv : validateRegion d.length sb = .ok ())
    (hl : region.length = sb.journalBlocks.toNat * blockSize) :
    journalBytes sb (overlay d (journalWrites sb region)) = region := by
  obtain ⟨hn, hs, hb, hle⟩ := validateRegion_eq_ok.mp hv
  exact regionBytes_writeRegion (by omega) hl

theorem loadJournalImage_store (h : (checkJournalImage sb es).eval d = .ok region) :
    (loadJournalImage sb).eval (overlay d (journalWrites sb region)) = .ok es := by
  obtain ⟨hv, he, hr⟩ := checkJournalImage_eq_ok.mp h
  have hc : regionCapacity sb = .ok region.length := (encodeRegion_eq_ok.mp hr).choose_spec.2.1
  have hj := journalBytes_write hv (length_encodeRegion hr)
  rw [loadJournalImage_eq_ok, length_overlay, hj]
  exact ⟨hv, hc, ((decodeRegion_iff hc).mpr ⟨hr, he⟩).1⟩

theorem storeJournalImage_load (h : (loadJournalImage sb).eval d = .ok es) (hz : ¬ ∀ b ∈ journalBytes sb d, b = 0) :
    (checkJournalImage sb es).eval d = .ok (journalBytes sb d) := by
  obtain ⟨hv, hc, hd⟩ := loadJournalImage_eq_ok.mp h
  obtain ⟨hr, he⟩ := (decodeRegion_iff hc).mp ⟨hd, hz⟩
  exact checkJournalImage_eq_ok.mpr ⟨hv, he, hr⟩

theorem overlay_journalBytes (hv : validateRegion d.length sb = .ok ()) :
    overlay d (journalWrites sb (journalBytes sb d)) = d := by
  obtain ⟨hn, hs, hb, hle⟩ := validateRegion_eq_ok.mp hv
  exact overlay_regionBytes (by omega)

theorem validateEntries_of_load (h : (loadJournalImage sb).eval d = .ok es) : validateEntries sb es = .ok () := by
  obtain ⟨hv, hc, hd⟩ := loadJournalImage_eq_ok.mp h
  by_cases hz : ∀ b ∈ journalBytes sb d, b = 0
  · rw [decodeRegion, if_pos hz] at hd; cases hd
    rfl
  · exact ((decodeRegion_iff hc).mp ⟨hd, hz⟩).2

theorem loadJournalImage_congr {d' : Disk} (hl : d.length = d'.length)
    (h : ∀ b, sb.journalRange.Contains b → d[b]? = d'[b]?) (he : (loadJournalImage sb).eval d = .ok es) :
    (loadJournalImage sb).eval d' = .ok es := by
  have hj : journalBytes sb d = journalBytes sb d' := regionBytes_congr fun b h1 h2 => h b ⟨h1, h2⟩
  rw [loadJournalImage_eq_ok, ← hl, ← hj]
  exact loadJournalImage_eq_ok.mp he

end SystemsLab.Fs
