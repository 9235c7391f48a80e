import SystemsLab.Fs.DirectoryCodec
import SystemsLab.Fs.Format
import SystemsLab.Fs.InodeCodec
import SystemsLab.Lib.RecordStream

/-!
# Metadata tables

The inode table and the directory table are one format: a sealed header, the records, no key twice, and zero
padding.
-/

namespace SystemsLab.Fs

open Prog

variable {sb : Superblock} {d : Disk} {n : Nat}

structure TableFormat (α κ : Type) where
  noun : String
  magic : List UInt8
  duplicate : String
  torn : String
  recordHeaderLen : Nat
  encode : α → Except IoError (List UInt8)
  decode : List UInt8 → Except IoError α
  key : α → κ
  start : Superblock → UInt64
  blocks : Superblock → UInt64
  length_magic : magic.length = 8
  header_le : 12 ≤ recordHeaderLen
  decode_eq_ok : ∀ {bytes : List UInt8} {a : α}, decode bytes = .ok a ↔ encode a = .ok bytes
  length_encode : ∀ {a : α} {bytes : List UInt8}, encode a = .ok bytes →
    recordHeaderLen ≤ bytes.length ∧ readLe 4 bytes 8 = bytes.length

namespace TableFormat
variable {α κ : Type} [DecidableEq κ] (f : TableFormat α κ) {as : List α}

/-! ## Records -/

def encodeNext (seen : List κ) (a : α) : Except IoError (List UInt8) := do
  require (f.key a ∉ seen) (invalidInput f.duplicate)
  f.encode a

def decodeNext (seen : List κ) (bytes : List UInt8) : Except IoError (α × Nat) := do
  require (f.recordHeaderLen ≤ bytes.length) (unexpectedEof f.torn)
  let totalLen := readLe 4 bytes 8
  require (f.recordHeaderLen ≤ totalLen) (invalidData (f.noun ++ " record length is smaller than header"))
  require (totalLen ≤ bytes.length) (unexpectedEof f.torn)
  let a ← f.decode (bytes.take totalLen)
  require (f.key a ∉ seen) (invalidData f.duplicate)
  pure (a, totalLen)

theorem decodeNext_eq_ok {seen : List κ} {bytes : List UInt8} {a : α} :
    f.decodeNext seen bytes = .ok (a, n) ↔
      ∃ r rest, f.encodeNext seen a = .ok r ∧ bytes = r ++ rest ∧ n = r.length := by
  simp only [decodeNext, encodeNext, steps_ok, exists_const, Prod.mk.injEq, f.decode_eq_ok]
  constructor
  · rintro ⟨h1, h2, h3, a', he, hk, rfl, rfl⟩
    exact ⟨_, bytes.drop (readLe 4 bytes 8), ⟨hk, he⟩, (List.take_append_drop _ _).symm, by simp; omega⟩
  · rintro ⟨r, rest, ⟨hk, he⟩, rfl, rfl⟩
    obtain ⟨hl, hr⟩ := f.length_encode he
    have h12 := f.header_le
    have hread : readLe 4 (r ++ rest) 8 = r.length := by rw [readLe_append_of_le (by omega), hr]
    rw [hread, List.take_left, List.length_append]
    exact ⟨by omega, hl, by omega, a, he, hk, rfl, rfl⟩

def records : RecordStream (List κ) α UInt8 IoError where
  encode := f.encodeNext
  decode := f.decodeNext
  next seen a := f.key a :: seen
  decode_eq_ok := f.decodeNext_eq_ok
  encode_pos := by
    intro seen a r h
    simp only [encodeNext, steps_ok, exists_const] at h
    have := (f.length_encode h.2).1
    have := f.header_le
    omega

theorem encodeAll_eq_ok : ∀ {as : List α} {seen : List κ}, (∃ bytes, f.records.encodeAll seen as = .ok bytes) ↔
    (as.map f.key).Nodup ∧ (∀ a ∈ as, f.key a ∉ seen) ∧ ∀ a ∈ as, ∃ r, f.encode a = .ok r
  | [], seen => by simp [RecordStream.encodeAll]
  | a :: as, seen => by
    have ih := @encodeAll_eq_ok as (f.key a :: seen)
    have hcons : (∃ bytes, f.records.encodeAll seen (a :: as) = .ok bytes) ↔
        (f.key a ∉ seen ∧ ∃ r, f.encode a = .ok r) ∧
          ∃ bytes, f.records.encodeAll (f.key a :: seen) as = .ok bytes := by
      simp only [RecordStream.encodeAll, records, encodeNext, steps_ok, exists_const]
      constructor
      · rintro ⟨_, r, ⟨hk, hr⟩, rest, hrest, -⟩
        exact ⟨⟨hk, r, hr⟩, rest, hrest⟩
      · rintro ⟨⟨hk, r, hr⟩, rest, hrest⟩
        exact ⟨_, r, ⟨hk, hr⟩, rest, hrest, rfl⟩
    rw [hcons, ih, List.map_cons, List.nodup_cons, List.forall_mem_cons, List.forall_mem_cons]
    constructor
    · rintro ⟨⟨hk, hr⟩, hn, hs, he⟩
      refine ⟨⟨fun hm => ?_, hn⟩, ⟨hk, fun b hb hm => hs b hb (List.mem_cons_of_mem _ hm)⟩, hr, he⟩
      obtain ⟨b, hb, hkb⟩ := List.mem_map.mp hm
      exact hs b hb (hkb ▸ List.mem_cons_self)
    · rintro ⟨⟨hna, hn⟩, ⟨hk, hs⟩, hr, he⟩
      refine ⟨⟨hk, hr⟩, hn, fun b hb hm => ?_, he⟩
      rcases List.mem_cons.mp hm with hm | hm
      · exact hna (hm ▸ List.mem_map.mpr ⟨b, hb, rfl⟩)
      · exact hs b hb hm

/-! ## The image -/

def tableVersion : Nat := 1
def tableHeaderLen : Nat := 32

def regionLen (sb : Superblock) : Except IoError Nat := do
  let bytes := (f.blocks sb).toNat * blockSize
  require (bytes < 2 ^ 64) (invalidInput (f.noun ++ " table byte size overflow"))
  pure bytes

def header (payloadLen recordCount : Nat) : List UInt8 :=
  f.magic ++ (leBytes 4 tableVersion ++ (leBytes 4 0 ++ (leBytes 8 payloadLen ++ leBytes 4 recordCount)))

omit [DecidableEq κ] in
@[simp] theorem length_header (payloadLen recordCount : Nat) : (f.header payloadLen recordCount).length = 28 := by
  simp [header, f.length_magic]

def image (capacity : Nat) (payload : List UInt8) (recordCount : Nat) : List UInt8 :=
  padTo capacity (sealed (f.header payload.length recordCount) payload)

def encodeImage (sb : Superblock) (as : List α) : Except IoError (List UInt8) := do
  let payload ← f.records.encodeAll [] as
  let capacity ← f.regionLen sb
  require (tableHeaderLen + payload.length ≤ capacity)
    (invalidInput (f.noun ++ " table image exceeds reserved region"))
  require (as.length < 2 ^ 32) (invalidInput ("too many " ++ f.noun ++ " records"))
  pure (f.image capacity payload as.length)

def decodeImage (image : List UInt8) : Except IoError (List α) := do
  require (tableHeaderLen ≤ image.length) (invalidData (f.noun ++ " table region is shorter than header"))
  require (slice image 0 8 = f.magic) (invalidData ("invalid " ++ f.noun ++ " table magic"))
  require (readLe 4 image 8 = tableVersion) (invalidData ("unsupported " ++ f.noun ++ " table version"))
  require (readLe 4 image 12 = 0) (invalidData (f.noun ++ " table flags are non-zero"))
  let recordCount := readLe 4 image 24
  let used := tableHeaderLen + readLe 8 image 16
  require (used < 2 ^ 64) (invalidData (f.noun ++ " table used length overflow"))
  require (used ≤ image.length) (invalidData (f.noun ++ " table payload exceeds reserved region"))
  require (∀ b ∈ image.drop used, b = 0) (invalidData (f.noun ++ " table trailing padding is non-zero"))
  require (CrcMatches (image.take used) 28) (invalidData (f.noun ++ " table checksum mismatch"))
  let as ← f.records.decodeAll [] (slice image tableHeaderLen used)
  require (as.length = recordCount) (invalidData (f.noun ++ " table record count mismatch"))
  pure as

def validateGeometry (blockCount : Nat) (sb : Superblock) : Except IoError Unit := do
  require (blockCount = sb.totalBlocks.toNat)
    (invalidInput (f.noun ++ " table device geometry does not match superblock"))
  require (f.blocks sb ≠ 0 ∧ (f.start sb).toNat + (f.blocks sb).toNat ≤ sb.totalBlocks.toNat)
    (invalidInput ("invalid " ++ f.noun ++ " table reservation"))

def load (sb : Superblock) : FsProg (List α) := do
  let n ← count
  f.validateGeometry n sb
  let _regionLen ← f.regionLen sb
  let image ← readRegion (f.start sb).toNat (f.blocks sb).toNat
  f.decodeImage image

def store (sb : Superblock) (as : List α) : FsProg Unit := do
  let n ← count
  f.validateGeometry n sb
  let image ← f.encodeImage sb as
  writeRegion (f.start sb).toNat (f.blocks sb).toNat image
  sync

def initializeRegion (sb : Superblock) : FsProg Unit := do
  let n ← count
  f.validateGeometry n sb
  let image ← f.encodeImage sb []
  writeRegion (f.start sb).toNat (f.blocks sb).toNat image

/-! ## Decoding inverts encoding -/

structure Accepted (image payload : List UInt8) (recordCount : Nat) : Prop where
  magic : slice image 0 8 = f.magic
  version : readLe 4 image 8 = tableVersion
  flags : readLe 4 image 12 = 0
  count : readLe 4 image 24 = recordCount
  used_lt : tableHeaderLen + readLe 8 image 16 < 2 ^ 64
  used_le : tableHeaderLen + readLe 8 image 16 ≤ image.length
  padding : ∀ b ∈ image.drop (tableHeaderLen + readLe 8 image 16), b = 0
  crc : CrcMatches (image.take (tableHeaderLen + readLe 8 image 16)) 28
  payload_eq : slice image tableHeaderLen (tableHeaderLen + readLe 8 image 16) = payload

theorem decodeImage_accepted {image : List UInt8} : f.decodeImage image = .ok as ↔
    ∃ payload, f.Accepted image payload as.length ∧ f.records.encodeAll [] as = .ok payload := by
  simp only [decodeImage, steps_ok, exists_const, RecordStream.decodeAll_eq_ok]
  constructor
  · rintro ⟨-, h1, h2, h3, h4, h5, h6, h7, as', he, hc, rfl⟩
    exact ⟨_, ⟨h1, h2, h3, hc.symm, h4, h5, h6, h7, rfl⟩, he⟩
  · rintro ⟨payload, ⟨h1, h2, h3, hc, h4, h5, h6, h7, rfl⟩, he⟩
    exact ⟨by omega, h1, h2, h3, h4, h5, h6, h7, as, he, hc.symm, rfl⟩

section
omit [DecidableEq κ]
variable {f} {image payload : List UInt8} {recordCount : Nat}

theorem take_eq_header (h : 28 ≤ image.length) (hn : n < 256 ^ 8) (hr : recordCount < 256 ^ 4) :
    image.take 28 = f.header n recordCount ↔ slice image 0 8 = f.magic ∧ readLe 4 image 8 = tableVersion ∧
      readLe 4 image 12 = 0 ∧ readLe 8 image 16 = n ∧ readLe 4 image 24 = recordCount := by
  have hm := f.length_magic
  have hv : tableVersion = 1 := rfl
  rw [← slice_zero_drop, header, slice_eq_append (by omega) h]
  simp (disch := omega) only [hm, slice_eq_field, slice_eq_last_field, Nat.reduceAdd]

theorem Accepted.length_payload (h : f.Accepted image payload recordCount) :
    payload.length = readLe 8 image 16 := by
  rw [← h.payload_eq, length_slice_of_le h.used_le]; omega

theorem accepted_iff (h : tableHeaderLen + payload.length ≤ image.length) (hc : image.length < 2 ^ 64)
    (hr : recordCount < 2 ^ 32) :
    f.Accepted image payload recordCount ↔ image = f.image image.length payload recordCount := by
  have hs : tableHeaderLen = 32 := rfl
  rw [TableFormat.image, @eq_padTo_sealed_iff 28 _ _ _ _ (by simp) rfl h, take_eq_header (by omega) (by omega) hr]
  constructor
  · intro ha
    have hn : readLe 8 image 16 = payload.length := ha.length_payload.symm
    have hp := ha.payload_eq
    have hcrc := ha.crc
    have hz := ha.padding
    rw [hn] at hp hcrc hz
    exact ⟨⟨ha.magic, ha.version, ha.flags, hn, ha.count⟩, hp, hcrc, hz⟩
  · rintro ⟨⟨h1, h2, h3, hn, h4⟩, h5, h6, h7⟩
    exact ⟨h1, h2, h3, h4, by omega, by omega, by rwa [hn], by rwa [hn], by rwa [hn]⟩

end

omit [DecidableEq κ] in
theorem length_image {capacity : Nat} {payload : List UInt8} (h : tableHeaderLen + payload.length ≤ capacity)
    (recordCount : Nat) : (f.image capacity payload recordCount).length = capacity := by
  have hs : tableHeaderLen = 32 := rfl
  refine length_padTo ?_
  simp; omega

omit [DecidableEq κ] in
theorem regionLen_eq_ok : f.regionLen sb = .ok n ↔ n = (f.blocks sb).toNat * blockSize ∧ n < 2 ^ 64 := by
  simp only [regionLen, steps_ok, exists_const]
  constructor
  · rintro ⟨h, rfl⟩; exact ⟨rfl, h⟩
  · rintro ⟨rfl, h⟩; exact ⟨h, rfl⟩

theorem encodeImage_eq_ok {image : List UInt8} :
    f.encodeImage sb as = .ok image ↔ ∃ payload, f.records.encodeAll [] as = .ok payload ∧
      f.regionLen sb = .ok image.length ∧ tableHeaderLen + payload.length ≤ image.length ∧ as.length < 2 ^ 32 ∧
      image = f.image image.length payload as.length := by
  simp only [encodeImage, steps_ok, exists_const]
  constructor
  · rintro ⟨payload, hp, capacity, hc, hle, hn, rfl⟩
    rw [f.length_image hle]
    exact ⟨payload, hp, hc, hle, hn, rfl⟩
  · rintro ⟨payload, hp, hc, hle, hn, hr⟩
    exact ⟨payload, hp, _, hc, hle, hn, hr.symm⟩

theorem decodeImage_iff {image : List UInt8} (hc : f.regionLen sb = .ok image.length) :
    f.decodeImage image = .ok as ↔ f.encodeImage sb as = .ok image := by
  rw [encodeImage_eq_ok, decodeImage_accepted]
  constructor
  · rintro ⟨payload, ha, he⟩
    have hle : tableHeaderLen + payload.length ≤ image.length := by rw [ha.length_payload]; exact ha.used_le
    have hn : as.length < 2 ^ 32 := ha.count ▸ readLe_lt 4 image 24
    exact ⟨payload, he, hc, hle, hn, (accepted_iff hle (f.regionLen_eq_ok.mp hc).2 hn).mp ha⟩
  · rintro ⟨payload, he, -, hle, hn, hr⟩
    exact ⟨payload, (accepted_iff hle (f.regionLen_eq_ok.mp hc).2 hn).mpr hr, he⟩

/-! ## On the device -/

omit [DecidableEq κ] in
theorem validateGeometry_eq_ok {u : Unit} : f.validateGeometry n sb = .ok u ↔
    n = sb.totalBlocks.toNat ∧ f.blocks sb ≠ 0 ∧ (f.start sb).toNat +
      (f.blocks sb).toNat ≤ sb.totalBlocks.toNat := by
  simp only [validateGeometry, steps_ok, exists_const]

def tableBytes (sb : Superblock) (d : Disk) : List UInt8 := regionBytes d (f.start sb).toNat (f.blocks sb).toNat

instance (sb : Superblock) : (f.load sb).Reads := by unfold load; infer_instance

theorem load_eq_ok : (f.load sb).eval d = .ok as ↔
    f.validateGeometry d.length sb = .ok () ∧ f.encodeImage sb as = .ok (f.tableBytes sb d) := by
  simp only [load, eval_bind, eval_count, except_bind_ok, eval_liftM, except_bind_eq_ok]
  constructor
  · rintro ⟨u, hv, n, hn, image, hi, hd⟩
    obtain ⟨hl, hb, hle⟩ := f.validateGeometry_eq_ok.mp hv
    rw [eval_readRegion (by omega)] at hi
    cases hi
    refine ⟨hv, (f.decodeImage_iff ?_).mp hd⟩
    rw [tableBytes, length_regionBytes (by omega), ← (f.regionLen_eq_ok.mp hn).1]
    exact hn
  · rintro ⟨hv, he⟩
    obtain ⟨hl, hb, hle⟩ := f.validateGeometry_eq_ok.mp hv
    have hr : f.regionLen sb = .ok (f.tableBytes sb d).length := (f.encodeImage_eq_ok.mp he).choose_spec.2.1
    exact ⟨(), hv, _, hr, _, eval_readRegion (by omega), (f.decodeImage_iff hr).mpr he⟩

def checkStore (sb : Superblock) (as : List α) : FsProg (List UInt8) := do
  let n ← count
  f.validateGeometry n sb
  f.encodeImage sb as

instance (sb : Superblock) (as : List α) : (f.checkStore sb as).Reads := by unfold checkStore; infer_instance

theorem store_eq (sb : Superblock) (as : List α) :
    f.store sb as = storeRegion (f.checkStore sb as) (f.start sb).toNat (f.blocks sb).toNat := by
  simp only [store, storeRegion, checkStore, bind_assoc]

theorem checkStore_eq_ok {image : List UInt8} :
    (f.checkStore sb as).eval d = .ok image ↔
      f.validateGeometry d.length sb = .ok () ∧ f.encodeImage sb as = .ok image := by
  simp only [checkStore, eval_bind, eval_count, except_bind_ok, eval_liftM, except_bind_eq_ok]
  exact ⟨fun ⟨_, hv, hr⟩ => ⟨hv, hr⟩, fun ⟨hv, hr⟩ => ⟨(), hv, hr⟩⟩

def tableWrites (sb : Superblock) (image : List UInt8) : List (Nat × Block) :=
  regionWrites (f.start sb).toNat (f.blocks sb).toNat image

theorem runOn_store {image : List UInt8} (h : (f.checkStore sb as).eval d = .ok image) :
    (f.store sb as).runOn d = (.ok (), overlay d (f.tableWrites sb image)) ∧
      (f.store sb as).trace d = (f.tableWrites sb image).map (fun w => .write w.1 w.2) ++ [.flush] := by
  obtain ⟨hl, hb, hle⟩ := f.validateGeometry_eq_ok.mp (f.checkStore_eq_ok.mp h).1
  rw [store_eq]
  exact storeRegion_ok h (by omega)

theorem store_error {e : IoError} (h : (f.checkStore sb as).eval d = .error e) :
    (f.store sb as).runOn d = (.error e, d) ∧ (f.store sb as).trace d = [] := by
  rw [store_eq]
  exact storeRegion_error h

theorem length_encodeImage {image : List UInt8} (h : f.encodeImage sb as = .ok image) :
    image.length = (f.blocks sb).toNat * blockSize :=
  (f.regionLen_eq_ok.mp (f.encodeImage_eq_ok.mp h).choose_spec.2.1).1

theorem load_store {image : List UInt8}
    (h : (f.checkStore sb as).eval d = .ok image) :
    (f.load sb).eval (overlay d (f.tableWrites sb image)) = .ok as := by
  obtain ⟨hv, he⟩ := f.checkStore_eq_ok.mp h
  obtain ⟨hl, hb, hle⟩ := f.validateGeometry_eq_ok.mp hv
  rw [load_eq_ok, length_overlay, tableBytes, tableWrites,
    regionBytes_writeRegion (by omega) (f.length_encodeImage he)]
  exact ⟨hv, he⟩

theorem store_load (h : (f.load sb).eval d = .ok as) : (f.store sb as).runOn d = (.ok (), d) := by
  have hc := f.checkStore_eq_ok.mpr (f.load_eq_ok.mp h)
  obtain ⟨hl, hb, hle⟩ := f.validateGeometry_eq_ok.mp (f.load_eq_ok.mp h).1
  rw [(f.runOn_store hc).1, tableWrites, tableBytes, overlay_regionBytes (by omega)]

theorem load_congr {d d' : Disk} (hl : d.length = d'.length)
    (h : ∀ b, (f.start sb).toNat ≤ b → b < (f.start sb).toNat + (f.blocks sb).toNat → d[b]? = d'[b]?)
    (he : (f.load sb).eval d = .ok as) : (f.load sb).eval d' = .ok as := by
  have hb : f.tableBytes sb d = f.tableBytes sb d' := regionBytes_congr h
  rw [load_eq_ok, ← hl, ← hb]
  exact f.load_eq_ok.mp he

end TableFormat

/-! ## The two tables -/

/-- `b"FSLINOD\0"`. -/
def inodeTableMagic : List UInt8 := [0x46, 0x53, 0x4c, 0x49, 0x4e, 0x4f, 0x44, 0x00]

def inodeTable : TableFormat PersistedInode UInt64 where
  noun := "inode"
  magic := inodeTableMagic
  duplicate := "inode table contains duplicate inode identifiers"
  torn := "torn inode record in table"
  recordHeaderLen := inodeRecordHeaderLen
  encode := encodeInode
  decode := decodeInode
  key := PersistedInode.id
  start := Superblock.inodeStart
  blocks := Superblock.inodeBlocks
  length_magic := by simp [inodeTableMagic]
  header_le := by decide
  decode_eq_ok := decodeInode_eq_ok
  length_encode := by
    intro inode bytes h
    obtain ⟨he, rfl⟩ := encodeInode_eq_ok.mp h
    exact ⟨by rw [length_inodeRecord]; omega, ((inodeAccepted_iff he.len_lt).mpr rfl).total⟩

/-- `b"FSLDIR\0\0"`. -/
def directoryTableMagic : List UInt8 := [0x46, 0x53, 0x4c, 0x44, 0x49, 0x52, 0x00, 0x00]

def directoryTable : TableFormat PersistedDirectoryEntry (UInt64 × String) where
  noun := "directory"
  magic := directoryTableMagic
  duplicate := "directory table contains duplicate parent/name entry"
  torn := "torn directory entry in table"
  recordHeaderLen := directoryEntryHeaderLen
  encode := encodeDirectoryEntry
  decode := decodeDirectoryEntry
  key entry := (entry.parent, entry.name)
  start := Superblock.directoryStart
  blocks := Superblock.directoryBlocks
  length_magic := by simp [directoryTableMagic]
  header_le := by decide
  decode_eq_ok := decodeDirectoryEntry_eq_ok
  length_encode := by
    intro entry bytes h
    obtain ⟨he, rfl⟩ := encodeDirectoryEntry_eq_ok.mp h
    exact ⟨by rw [length_directoryRecord]; omega, ((entryAccepted_iff he).mpr rfl).total⟩

def loadInodeTable (sb : Superblock) : FsProg (List PersistedInode) := inodeTable.load sb

instance (sb : Superblock) : (loadInodeTable sb).Reads := inferInstanceAs (inodeTable.load sb).Reads

def storeInodeTable (sb : Superblock) (inodes : List PersistedInode) : FsProg Unit := inodeTable.store sb inodes

def initializeInodeTableRegion (sb : Superblock) : FsProg Unit := inodeTable.initializeRegion sb

def loadDirectoryTable (sb : Superblock) : FsProg (List PersistedDirectoryEntry) := directoryTable.load sb

instance (sb : Superblock) : (loadDirectoryTable sb).Reads := inferInstanceAs (directoryTable.load sb).Reads

def storeDirectoryTable (sb : Superblock) (entries : List PersistedDirectoryEntry) : FsProg Unit :=
  directoryTable.store sb entries

def initializeDirectoryTableRegion (sb : Superblock) : FsProg Unit := directoryTable.initializeRegion sb

end SystemsLab.Fs
