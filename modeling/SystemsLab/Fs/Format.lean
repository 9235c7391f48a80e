import SystemsLab.Fs.Block

/-!
# The superblock

The version-5 layout: superblock, journal, allocation image, inode table and directory table, and then the data
blocks.
-/

namespace SystemsLab.Fs

structure BlockRange where
  start : Nat
  stop : Nat
  deriving DecidableEq, Repr

namespace BlockRange

def Contains (r : BlockRange) (b : Nat) : Prop := r.start ≤ b ∧ b < r.stop

instance (r : BlockRange) (b : Nat) : Decidable (r.Contains b) := inferInstanceAs (Decidable (_ ∧ _))

def size (r : BlockRange) : Nat := r.stop - r.start

end BlockRange

/-- `b"FSLABFS\0"`. -/
def superblockMagic : List UInt8 := [0x46, 0x53, 0x4c, 0x41, 0x42, 0x46, 0x53, 0]

@[simp] theorem length_superblockMagic : superblockMagic.length = 8 := by simp [superblockMagic]

def formatVersion : Nat := 5
def formatBlockSize : Nat := 4096
def defaultJournalBlocks : UInt64 := 4
def defaultInodeBlocks : UInt64 := 2
def defaultDirectoryBlocks : UInt64 := 2
def superblockBlock : Nat := 0

@[ext] structure Superblock where
  totalBlocks : UInt64
  journalStart : UInt64
  journalBlocks : UInt64
  allocationStart : UInt64
  allocationBlocks : UInt64
  inodeStart : UInt64
  inodeBlocks : UInt64
  directoryStart : UInt64
  directoryBlocks : UInt64
  deriving DecidableEq, Repr

def allocationBitmapBytes (totalBlocks : UInt64) : Except IoError UInt64 := do
  let rounded ← okOr (invalidInput "allocation bitmap size overflow") (checkedAdd totalBlocks 7)
  pure (rounded / 8)

def requiredAllocationBlocks (totalBlocks : UInt64) : Except IoError UInt64 := do
  let bytes ← allocationBitmapBytes totalBlocks
  let imageBytes ← okOr (invalidInput "allocation image size overflow") (checkedAdd 32 bytes)
  let rounded ← okOr (invalidInput "allocation image size overflow") (checkedAdd imageBytes 4095)
  pure (rounded / 4096)

variable {sb : Superblock}

namespace Superblock

def withAllMetadataBlocks (totalBlocks journalBlocks inodeBlocks directoryBlocks : UInt64) :
    Except IoError Superblock := do
  require (journalBlocks ≠ 0) (invalidInput "filesystem journal must reserve at least one block")
  require (inodeBlocks ≠ 0) (invalidInput "filesystem inode table must reserve at least one block")
  require (directoryBlocks ≠ 0) (invalidInput "filesystem directory table must reserve at least one block")
  let allocationStart ← okOr (invalidInput "journal block range overflow") (checkedAdd 1 journalBlocks)
  let allocationBlocks ← requiredAllocationBlocks totalBlocks
  let inodeStart ← okOr (invalidInput "allocation metadata block range overflow")
    (checkedAdd allocationStart allocationBlocks)
  let directoryStart ← okOr (invalidInput "inode table block range overflow") (checkedAdd inodeStart inodeBlocks)
  let metadataEnd ← okOr (invalidInput "directory table block range overflow")
    (checkedAdd directoryStart directoryBlocks)
  require (metadataEnd ≤ totalBlocks)
    (invalidInput "filesystem device is too small for durable metadata reservations")
  pure ⟨totalBlocks, 1, journalBlocks, allocationStart, allocationBlocks, inodeStart, inodeBlocks, directoryStart,
    directoryBlocks⟩

def withMetadataBlocks (totalBlocks journalBlocks inodeBlocks : UInt64) : Except IoError Superblock :=
  withAllMetadataBlocks totalBlocks journalBlocks inodeBlocks defaultDirectoryBlocks

def withJournalBlocks (totalBlocks journalBlocks : UInt64) : Except IoError Superblock :=
  withAllMetadataBlocks totalBlocks journalBlocks defaultInodeBlocks defaultDirectoryBlocks

def new (totalBlocks : UInt64) : Except IoError Superblock :=
  withAllMetadataBlocks totalBlocks defaultJournalBlocks defaultInodeBlocks defaultDirectoryBlocks

-- Where an end does not fit 64 bits the source panics. The functions below that would compute it say so, or refuse
-- the range as one past every device.

def journalRange (sb : Superblock) : BlockRange :=
  ⟨sb.journalStart.toNat, sb.journalStart.toNat + sb.journalBlocks.toNat⟩

def allocationRange (sb : Superblock) : BlockRange :=
  ⟨sb.allocationStart.toNat, sb.allocationStart.toNat + sb.allocationBlocks.toNat⟩

def inodeRange (sb : Superblock) : BlockRange :=
  ⟨sb.inodeStart.toNat, sb.inodeStart.toNat + sb.inodeBlocks.toNat⟩

def directoryRange (sb : Superblock) : BlockRange :=
  ⟨sb.directoryStart.toNat, sb.directoryStart.toNat + sb.directoryBlocks.toNat⟩

def reservedBlocks (sb : Superblock) : Nat := sb.directoryStart.toNat + sb.directoryBlocks.toNat

def dataRange (sb : Superblock) : BlockRange := ⟨sb.reservedBlocks, sb.totalBlocks.toNat⟩

def header (sb : Superblock) : List UInt8 :=
  superblockMagic ++ (leBytes 4 formatVersion ++ (leBytes 4 formatBlockSize ++ (u64Bytes sb.totalBlocks ++
    (u64Bytes sb.journalStart ++ (u64Bytes sb.journalBlocks ++ (u64Bytes sb.allocationStart ++
    (u64Bytes sb.allocationBlocks ++ (u64Bytes sb.inodeStart ++ (u64Bytes sb.inodeBlocks ++
    (u64Bytes sb.directoryStart ++ u64Bytes sb.directoryBlocks))))))))))

theorem length_header (sb : Superblock) : sb.header.length = 88 := by
  simp [header]

def encode (sb : Superblock) : Block := Block.ofBytes sb.header

def fields (bytes : List UInt8) : Superblock :=
  ⟨readU64 bytes 16, readU64 bytes 24, readU64 bytes 32, readU64 bytes 40, readU64 bytes 48, readU64 bytes 56,
    readU64 bytes 64, readU64 bytes 72, readU64 bytes 80⟩

def decode (block : Block) : Except IoError Superblock := do
  let bytes := block.bytes
  require (slice bytes 0 8 = superblockMagic) (invalidData "invalid superblock magic")
  let version := readLe 4 bytes 8
  require (version = formatVersion) (invalidData s!"unsupported filesystem format version {version}")
  require (readLe 4 bytes 12 = formatBlockSize) (invalidData "unsupported logical block size")
  let sb := fields bytes
  require (sb.journalStart = 1 ∧ sb.journalBlocks ≠ 0) (invalidData "invalid journal reservation")
  require (sb.inodeBlocks ≠ 0) (invalidData "invalid inode table reservation")
  require (sb.directoryBlocks ≠ 0) (invalidData "invalid directory table reservation")
  let expectedAllocationStart ← okOr (invalidData "journal block range overflow")
    (checkedAdd sb.journalStart sb.journalBlocks)
  require (sb.allocationStart = expectedAllocationStart)
    (invalidData "allocation metadata does not immediately follow journal")
  let expectedAllocationBlocks ←
    (requiredAllocationBlocks sb.totalBlocks).mapError fun e => invalidData e.message
  require (sb.allocationBlocks = expectedAllocationBlocks)
    (invalidData "allocation metadata reservation has invalid length")
  let expectedInodeStart ← okOr (invalidData "allocation metadata block range overflow")
    (checkedAdd sb.allocationStart sb.allocationBlocks)
  require (sb.inodeStart = expectedInodeStart)
    (invalidData "inode table does not immediately follow allocation metadata")
  let expectedDirectoryStart ← okOr (invalidData "inode table block range overflow")
    (checkedAdd sb.inodeStart sb.inodeBlocks)
  require (sb.directoryStart = expectedDirectoryStart)
    (invalidData "directory table does not immediately follow inode table")
  let metadataEnd ← okOr (invalidData "directory table block range overflow")
    (checkedAdd sb.directoryStart sb.directoryBlocks)
  require (metadataEnd ≤ sb.totalBlocks) (invalidData "durable metadata reservation exceeds filesystem size")
  require (∀ b ∈ bytes.drop 88, b = 0) (invalidData "superblock reserved bytes are non-zero")
  pure sb

/-! ## What is accepted -/

structure WellFormed (sb : Superblock) : Prop where
  journalStart_eq : sb.journalStart = 1
  journalBlocks_ne : sb.journalBlocks ≠ 0
  inodeBlocks_ne : sb.inodeBlocks ≠ 0
  directoryBlocks_ne : sb.directoryBlocks ≠ 0
  allocationStart_eq : sb.allocationStart.toNat = sb.journalStart.toNat + sb.journalBlocks.toNat
  allocationBlocks_eq : requiredAllocationBlocks sb.totalBlocks = .ok sb.allocationBlocks
  inodeStart_eq : sb.inodeStart.toNat = sb.allocationStart.toNat + sb.allocationBlocks.toNat
  directoryStart_eq : sb.directoryStart.toNat = sb.inodeStart.toNat + sb.inodeBlocks.toNat
  reserved_le : sb.reservedBlocks ≤ sb.totalBlocks.toNat

theorem WellFormed.toNat_directoryEnd (h : sb.WellFormed) :
    (sb.directoryStart + sb.directoryBlocks).toNat = sb.directoryStart.toNat + sb.directoryBlocks.toNat ∧
      sb.directoryStart.toNat + sb.directoryBlocks.toNat ≤ sb.totalBlocks.toNat := by
  have hr : sb.directoryStart.toNat + sb.directoryBlocks.toNat ≤ sb.totalBlocks.toNat := h.reserved_le
  have ht := sb.totalBlocks.toNat_lt
  exact ⟨by rw [UInt64.toNat_add, Nat.mod_eq_of_lt (by omega)], hr⟩

theorem withAllMetadataBlocks_eq_ok {t j i d : UInt64} :
    withAllMetadataBlocks t j i d = .ok sb ↔
      sb.WellFormed ∧ sb.totalBlocks = t ∧ sb.journalBlocks = j ∧ sb.inodeBlocks = i ∧ sb.directoryBlocks = d := by
  simp only [withAllMetadataBlocks, steps_ok, checkedAdd_eq_some, exists_const, UInt64.le_iff_toNat_le]
  constructor
  · rintro ⟨hj, hi, hd, a, ha, ab, hab, s, hs, ds, hds, m, hm, hle, rfl⟩
    exact ⟨⟨rfl, hj, hi, hd, ha, hab, hs, hds, by simp only [reservedBlocks]; omega⟩, rfl, rfl, rfl, rfl⟩
  · rintro ⟨h, rfl, rfl, rfl, rfl⟩
    obtain ⟨hm, hr⟩ := h.toNat_directoryEnd
    refine ⟨h.journalBlocks_ne, h.inodeBlocks_ne, h.directoryBlocks_ne, _, ?_, _, h.allocationBlocks_eq, _,
      h.inodeStart_eq, _, h.directoryStart_eq, _, hm, by omega, ?_⟩
    · rw [h.allocationStart_eq, h.journalStart_eq]
    · rw [← h.journalStart_eq]

theorem bytes_encode (sb : Superblock) : sb.encode.bytes = sb.header ++ List.replicate 4008 0 := by
  have hl := sb.length_header
  simp only [encode, Block.ofBytes, List.take_append, List.take_replicate, hl, blockSize]
  rw [List.take_of_length_le (by omega)]
  rfl

theorem eq_encode_iff {block : Block} :
    block = sb.encode ↔ slice block.bytes 0 8 = superblockMagic ∧ readLe 4 block.bytes 8 = formatVersion ∧
      readLe 4 block.bytes 12 = formatBlockSize ∧ fields block.bytes = sb ∧ ∀ b ∈ block.bytes.drop 88, b = 0 := by
  have hl : block.bytes.length = 4096 := block.length_bytes
  have hv : formatVersion = 5 := rfl
  have hb : formatBlockSize = 4096 := rfl
  have hz : slice block.bytes 88 4096 = block.bytes.drop 88 := by rw [slice, ← hl, List.take_length]
  rw [Block.ext_iff, bytes_encode, header]
  nth_rewrite 1 [← slice_self hl.symm]
  simp only [List.append_assoc]
  rw [slice_eq_append (by simp) (by omega)]
  simp (disch := omega) only [length_superblockMagic, slice_eq_field, slice_eq_u64, Nat.reduceAdd]
  rw [hz, List.eq_replicate_iff, List.length_drop, hl]
  simp only [fields, Superblock.ext_iff, and_assoc, Nat.reduceSub, true_and]

theorem fields_encode (sb : Superblock) : fields sb.encode.bytes = sb := (eq_encode_iff.mp rfl).2.2.2.1

theorem decode_eq_ok {block : Block} : decode block = .ok sb ↔ sb.WellFormed ∧ block = sb.encode := by
  constructor
  · intro h
    simp only [decode, steps_ok, checkedAdd_eq_some, exists_const, UInt64.le_iff_toNat_le] at h
    obtain ⟨hm, hv, hs, ⟨hj, hj0⟩, hi, hd, a, ha, rfl, ab, hab, rfl, s, hs', rfl, ds, hds, rfl, m, hmd, hle,
      hz, rfl⟩ := h
    exact ⟨⟨hj, hj0, hi, hd, ha, hab, hs', hds, by simp only [reservedBlocks]; omega⟩,
      eq_encode_iff.mpr ⟨hm, hv, hs, rfl, hz⟩⟩
  · rintro ⟨h, rfl⟩
    obtain ⟨hm, hr⟩ := h.toNat_directoryEnd
    obtain ⟨hmagic, hversion, hsize, -, hz⟩ := (@eq_encode_iff sb _).mp rfl
    simp only [decode, fields_encode, steps_ok, checkedAdd_eq_some, exists_const, UInt64.le_iff_toNat_le]
    exact ⟨hmagic, hversion, hsize, ⟨h.journalStart_eq, h.journalBlocks_ne⟩, h.inodeBlocks_ne,
      h.directoryBlocks_ne, _, h.allocationStart_eq, rfl, _, h.allocationBlocks_eq, rfl, _, h.inodeStart_eq, rfl, _,
      h.directoryStart_eq, rfl, _, hm, by omega, hz, trivial⟩

/-! ## The regions -/

def regions (sb : Superblock) : List BlockRange :=
  [sb.journalRange, sb.allocationRange, sb.inodeRange, sb.directoryRange]

/-- The four regions follow each other from block 1 on, and the sums of the accessors fit 64 bits. -/
structure Layout (sb : Superblock) : Prop where
  nonempty : ∀ r ∈ sb.regions, 0 < r.size
  disjoint : sb.regions.Pairwise fun r r' => ∀ b, r.Contains b → ¬ r'.Contains b
  first : sb.journalRange.start = 1
  consecutive : sb.allocationRange.start = sb.journalRange.stop ∧ sb.inodeRange.start = sb.allocationRange.stop ∧
    sb.directoryRange.start = sb.inodeRange.stop
  last : sb.directoryRange.stop = sb.reservedBlocks
  reserved_le : sb.reservedBlocks ≤ sb.totalBlocks.toNat
  no_overflow : (sb.journalStart + sb.journalBlocks).toNat = sb.journalRange.stop ∧
    (sb.allocationStart + sb.allocationBlocks).toNat = sb.allocationRange.stop ∧
    (sb.inodeStart + sb.inodeBlocks).toNat = sb.inodeRange.stop ∧
    (sb.directoryStart + sb.directoryBlocks).toNat = sb.directoryRange.stop
  /-- Room for the header of 32 bytes and one bit for each block. -/
  image : 8 * 32 + sb.totalBlocks.toNat ≤ 8 * (sb.allocationRange.size * blockSize)

theorem requiredAllocationBlocks_fits {t n : UInt64} (h : requiredAllocationBlocks t = .ok n) :
    ∃ m, allocationBitmapBytes t = .ok m ∧ 32 + m.toNat ≤ n.toNat * blockSize ∧ n.toNat * blockSize < 2 ^ 64 := by
  simp only [requiredAllocationBlocks, steps_ok, checkedAdd_eq_some] at h
  obtain ⟨m, hm, r, hr, q, hq, rfl⟩ := h
  have hlt := q.toNat_lt
  have hdiv : (q / 4096).toNat = q.toNat / 4096 := by rw [UInt64.toNat_div]; rfl
  have h32 : (32 : UInt64).toNat = 32 := rfl
  have h4095 : (4095 : UInt64).toNat = 4095 := rfl
  refine ⟨m, hm, ?_⟩
  rw [hdiv, blockSize]
  omega

theorem allocationBitmapBytes_room {t m : UInt64} (h : allocationBitmapBytes t = .ok m) :
    t.toNat ≤ 8 * m.toNat := by
  simp only [allocationBitmapBytes, steps_ok, checkedAdd_eq_some] at h
  obtain ⟨r, hr, rfl⟩ := h
  have h7 : (7 : UInt64).toNat = 7 := rfl
  have hdiv : (r / 8).toNat = r.toNat / 8 := by rw [UInt64.toNat_div]; rfl
  rw [hdiv]
  omega

theorem WellFormed.layout (h : sb.WellFormed) : sb.Layout := by
  have hj := h.journalStart_eq
  have hj1 : sb.journalStart.toNat = 1 := by rw [hj]; rfl
  have hpos : ∀ {x : UInt64}, x ≠ 0 → 0 < x.toNat := fun hx =>
    Nat.pos_of_ne_zero fun h0 => hx (UInt64.toNat_inj.mp h0)
  have hjp := hpos h.journalBlocks_ne
  have hip := hpos h.inodeBlocks_ne
  have hdp := hpos h.directoryBlocks_ne
  obtain ⟨bytes, hbytes, hfit, -⟩ := requiredAllocationBlocks_fits h.allocationBlocks_eq
  have hroom := allocationBitmapBytes_room hbytes
  rw [blockSize] at hfit
  have has := h.allocationStart_eq
  have his := h.inodeStart_eq
  have hds := h.directoryStart_eq
  have hres := h.reserved_le
  have ht := sb.totalBlocks.toNat_lt
  simp only [reservedBlocks] at hres
  have hadd : ∀ {x y : UInt64}, x.toNat + y.toNat < 2 ^ 64 → (x + y).toNat = x.toNat + y.toNat := fun hlt => by
    rw [UInt64.toNat_add, Nat.mod_eq_of_lt hlt]
  refine ⟨?_, ?_, hj1, ⟨has, his, hds⟩, rfl, h.reserved_le, ⟨?_, ?_, ?_, ?_⟩, ?_⟩
  · simp only [regions, List.forall_mem_cons, BlockRange.size, journalRange, allocationRange, inodeRange,
      directoryRange]
    exact ⟨by omega, by omega, by omega, by omega, by simp⟩
  · simp only [regions, List.pairwise_cons, List.forall_mem_cons, BlockRange.Contains, journalRange,
      allocationRange, inodeRange, directoryRange, List.not_mem_nil, false_imp_iff, implies_true, and_true,
      List.Pairwise.nil]
    exact ⟨⟨fun b h1 h2 => by omega, fun b h1 h2 => by omega, fun b h1 h2 => by omega⟩,
      ⟨fun b h1 h2 => by omega, fun b h1 h2 => by omega⟩, fun b h1 h2 => by omega⟩
  · exact hadd (by omega)
  · exact hadd (by omega)
  · exact hadd (by omega)
  · exact hadd (by omega)
  · simp only [allocationRange, BlockRange.size, blockSize]
    omega

/-- The decoder accepts exactly what the constructor makes, and that is laid out as the accessors expect. -/
theorem decode_iff_constructed (block : Block) (sb : Superblock) :
    (decode block = .ok sb ↔ ∃ t j i d, withAllMetadataBlocks t j i d = .ok sb ∧ block = sb.encode) ∧
      ∀ t j i d, withAllMetadataBlocks t j i d = .ok sb → sb.Layout := by
  refine ⟨?_, fun t j i d h => (withAllMetadataBlocks_eq_ok.mp h).1.layout⟩
  rw [decode_eq_ok]
  constructor
  · rintro ⟨hw, he⟩
    exact ⟨_, _, _, _, withAllMetadataBlocks_eq_ok.mpr ⟨hw, rfl, rfl, rfl, rfl⟩, he⟩
  · rintro ⟨t, j, i, d, hc, he⟩
    exact ⟨(withAllMetadataBlocks_eq_ok.mp hc).1, he⟩

end Superblock

def readSuperblock : FsProg Superblock := do
  let block ← Prog.getBlock superblockBlock
  let sb ← Superblock.decode block
  let n ← Prog.count
  require (sb.totalBlocks.toNat = n) (invalidData "superblock block count does not match device")
  pure sb

instance : readSuperblock.Reads := by unfold readSuperblock; infer_instance

theorem readSuperblock_eq_ok {d : Disk} :
    readSuperblock.eval d = .ok sb ↔ d[0]? = some sb.encode ∧ sb.WellFormed ∧ sb.totalBlocks.toNat = d.length := by
  simp only [readSuperblock, superblockBlock, Prog.eval_bind, Prog.eval_liftM, Prog.eval_count, except_bind_ok,
    Prog.eval_getBlock, Prog.eval_pure, steps_ok, Superblock.decode_eq_ok]
  constructor
  · rintro ⟨block, hb, sb', ⟨hw, rfl⟩, _, hn, rfl⟩
    exact ⟨hb, hw, hn⟩
  · rintro ⟨hb, hw, hn⟩
    exact ⟨_, hb, sb, ⟨hw, rfl⟩, (), hn, rfl⟩

end SystemsLab.Fs
