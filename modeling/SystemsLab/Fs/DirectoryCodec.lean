import SystemsLab.Fs.Block
import SystemsLab.Fs.Crc

/-!
# Directory entry records

One sealed record with its own length; the name is UTF-8 and a single path component
(`decodeDirectoryEntry_eq_ok`).
-/

namespace SystemsLab.Fs

structure PersistedDirectoryEntry where
  parent : UInt64
  target : UInt64
  name : String
  deriving DecidableEq, Repr

variable {entry : PersistedDirectoryEntry} {bytes : List UInt8}

/-! ## Names -/

def directoryNameMaxBytes : Nat := 255

def ValidName (name : String) : Prop :=
  name ≠ "" ∧ name ≠ "." ∧ name ≠ ".." ∧ '/' ∉ name.toList ∧ '\x00' ∉ name.toList ∧
    name.utf8ByteSize ≤ directoryNameMaxBytes

instance (name : String) : Decidable (ValidName name) := inferInstanceAs (Decidable (_ ∧ _))

def validateName (name : String) (kind : ErrorKind) : Except IoError Unit :=
  require (ValidName name) ⟨kind, "invalid directory entry name"⟩

def nameBytes (name : String) : List UInt8 := name.toByteArray.data.toList

/-- `str::from_utf8`. -/
def nameOfBytes (bytes : List UInt8) : Option String := String.fromUTF8? ⟨bytes.toArray⟩

@[simp] theorem length_nameBytes (name : String) : (nameBytes name).length = name.utf8ByteSize := by
  simp only [nameBytes, Array.length_toList]
  exact String.size_toByteArray

theorem nameOfBytes_eq_some {name : String} : nameOfBytes bytes = some name ↔ nameBytes name = bytes := by
  unfold nameOfBytes String.fromUTF8? nameBytes
  constructor
  · intro h
    split at h
    · cases h; rfl
    · cases h
  · rintro rfl
    exact dif_pos name.isValidUTF8

/-! ## The record -/

/-- `b"DNT1"`. -/
def directoryEntryMagic : List UInt8 := [0x44, 0x4e, 0x54, 0x31]

@[simp] theorem length_directoryEntryMagic : directoryEntryMagic.length = 4 := by simp [directoryEntryMagic]

def directoryEntryVersion : Nat := 1
def directoryEntryHeaderLen : Nat := 40

def directoryHeader (totalLen nameLen : Nat) (parent target : UInt64) : List UInt8 :=
  directoryEntryMagic ++ (leBytes 2 directoryEntryVersion ++ (leBytes 2 0 ++ (leBytes 4 totalLen ++
    (leBytes 2 nameLen ++ (leBytes 2 0 ++ (u64Bytes parent ++ u64Bytes target))))))

@[simp] theorem length_directoryHeader (totalLen nameLen : Nat) (parent target : UInt64) :
    (directoryHeader totalLen nameLen parent target).length = 32 := by
  simp [directoryHeader]

def directoryRecord (entry : PersistedDirectoryEntry) : List UInt8 :=
  sealed (directoryHeader (directoryEntryHeaderLen + entry.name.utf8ByteSize) entry.name.utf8ByteSize entry.parent
    entry.target) (leBytes 4 0 ++ nameBytes entry.name)

def encodeDirectoryEntry (entry : PersistedDirectoryEntry) : Except IoError (List UInt8) := do
  require (entry.parent ≠ 0 ∧ entry.target ≠ 0) (invalidInput "directory entry inode identifier zero is reserved")
  validateName entry.name .invalidInput
  require (entry.name.utf8ByteSize < 2 ^ 16) (invalidInput "directory entry name length exceeds codec limit")
  require (directoryEntryHeaderLen + entry.name.utf8ByteSize < 2 ^ 32)
    (invalidInput "directory entry length exceeds codec limit")
  pure (directoryRecord entry)

def decodeDirectoryEntry (bytes : List UInt8) : Except IoError PersistedDirectoryEntry := do
  require (directoryEntryHeaderLen ≤ bytes.length) (unexpectedEof "torn directory entry header")
  require (slice bytes 0 4 = directoryEntryMagic) (invalidData "invalid directory entry magic")
  let version := readLe 2 bytes 4
  require (version = directoryEntryVersion) (invalidData s!"unsupported directory entry version {version}")
  require (readLe 2 bytes 6 = 0 ∧ readLe 2 bytes 14 = 0 ∧ readLe 4 bytes 36 = 0)
    (invalidData "directory entry reserved fields are non-zero")
  let totalLen := readLe 4 bytes 8
  let nameLen := readLe 2 bytes 12
  require (totalLen = directoryEntryHeaderLen + nameLen)
    (invalidData "directory entry length does not match name length")
  require (totalLen ≤ bytes.length) (unexpectedEof "torn directory entry payload")
  require (bytes.length = totalLen) (invalidData "directory entry decoder requires exactly one record")
  require (CrcMatches bytes 32) (invalidData "directory entry checksum mismatch")
  let parent := readU64 bytes 16
  let target := readU64 bytes 24
  require (parent ≠ 0 ∧ target ≠ 0) (invalidData "directory entry inode identifier zero is reserved")
  let name ← okOr (invalidData "directory entry name is not UTF-8")
    (nameOfBytes (bytes.drop directoryEntryHeaderLen))
  validateName name .invalidData
  pure ⟨parent, target, name⟩

structure PersistedDirectoryEntry.Encodable (entry : PersistedDirectoryEntry) : Prop where
  parent_ne : entry.parent ≠ 0
  target_ne : entry.target ≠ 0
  name_valid : ValidName entry.name

theorem encodeDirectoryEntry_eq_ok :
    encodeDirectoryEntry entry = .ok bytes ↔ entry.Encodable ∧ directoryRecord entry = bytes := by
  have hs : directoryEntryHeaderLen = 40 := rfl
  have hm : directoryNameMaxBytes = 255 := rfl
  simp only [encodeDirectoryEntry, validateName, steps_ok, exists_const]
  constructor
  · rintro ⟨⟨h1, h2⟩, h3, -, -, h4⟩
    exact ⟨⟨h1, h2, h3⟩, h4⟩
  · rintro ⟨⟨h1, h2, h3⟩, h4⟩
    have := h3.2.2.2.2.2
    exact ⟨⟨h1, h2⟩, h3, by omega, by omega, h4⟩

structure EntryAccepted (bytes : List UInt8) (entry : PersistedDirectoryEntry) : Prop where
  magic : slice bytes 0 4 = directoryEntryMagic
  version : readLe 2 bytes 4 = directoryEntryVersion
  flags : readLe 2 bytes 6 = 0
  reserved16 : readLe 2 bytes 14 = 0
  reserved32 : readLe 4 bytes 36 = 0
  total : readLe 4 bytes 8 = bytes.length
  nameLen : readLe 2 bytes 12 = entry.name.utf8ByteSize
  length_eq : bytes.length = directoryEntryHeaderLen + entry.name.utf8ByteSize
  crc : CrcMatches bytes 32
  parent : readU64 bytes 16 = entry.parent
  target : readU64 bytes 24 = entry.target
  name : nameBytes entry.name = bytes.drop directoryEntryHeaderLen

theorem decodeDirectoryEntry_accepted :
    decodeDirectoryEntry bytes = .ok entry ↔ EntryAccepted bytes entry ∧ entry.Encodable := by
  simp only [decodeDirectoryEntry, validateName, steps_ok, exists_const, nameOfBytes_eq_some]
  constructor
  · rintro ⟨h1, h2, h3, ⟨h4, h5, h6⟩, h7, h8, h9, h10, ⟨h11, h12⟩, name, hn, hv, rfl⟩
    have hl : name.utf8ByteSize = readLe 2 bytes 12 := by
      rw [← length_nameBytes, hn, List.length_drop]; omega
    exact ⟨⟨h2, h3, h4, h5, h6, h9.symm, hl.symm, by simp only [hl]; omega, h10, rfl, rfl, hn⟩, h11, h12, hv⟩
  · rintro ⟨⟨h2, h3, h4, h5, h6, h7, h8, h9, h10, h11, h12, h13⟩, h14, h15, hv⟩
    rw [h7, h8, h11, h12]
    exact ⟨by omega, h2, h3, ⟨h4, h5, h6⟩, h9, Nat.le_refl _, rfl, h10, ⟨h14, h15⟩, entry.name, h13, hv, rfl⟩

theorem take_eq_directoryHeader {totalLen nameLen : Nat} {parent target : UInt64} (h : 32 ≤ bytes.length)
    (ht : totalLen < 256 ^ 4) (hn : nameLen < 256 ^ 2) :
    bytes.take 32 = directoryHeader totalLen nameLen parent target ↔
      slice bytes 0 4 = directoryEntryMagic ∧ readLe 2 bytes 4 = directoryEntryVersion ∧ readLe 2 bytes 6 = 0 ∧
      readLe 4 bytes 8 = totalLen ∧ readLe 2 bytes 12 = nameLen ∧ readLe 2 bytes 14 = 0 ∧
      readU64 bytes 16 = parent ∧ readU64 bytes 24 = target := by
  have hv : directoryEntryVersion = 1 := rfl
  rw [← slice_zero_drop, directoryHeader, slice_eq_append (by simp) h]
  simp (disch := omega) only [length_directoryEntryMagic, slice_eq_field, slice_eq_u64, slice_eq_last_u64,
    Nat.reduceAdd]

theorem length_directoryRecord (entry : PersistedDirectoryEntry) :
    (directoryRecord entry).length = directoryEntryHeaderLen + entry.name.utf8ByteSize := by
  simp only [directoryRecord, length_sealed, length_directoryHeader, List.length_append, length_leBytes,
    length_nameBytes, directoryEntryHeaderLen]
  omega

theorem PersistedDirectoryEntry.Encodable.nameLen_le (h : entry.Encodable) :
    entry.name.utf8ByteSize ≤ 255 := h.name_valid.2.2.2.2.2

theorem entryAccepted_iff (h : entry.Encodable) : EntryAccepted bytes entry ↔ bytes = directoryRecord entry := by
  have hs : directoryEntryHeaderLen = 40 := rfl
  have hle := h.nameLen_le
  rw [directoryRecord, @eq_sealed_iff 32 _ _ _ (by simp)]
  constructor
  · intro ha
    have hl := ha.length_eq
    exact ⟨by omega, ha.crc, (take_eq_directoryHeader (by omega) (by omega) (by omega)).mpr
      ⟨ha.magic, ha.version, ha.flags, ha.total.trans hl, ha.nameLen, ha.reserved16, ha.parent, ha.target⟩,
      (drop_eq_field (by omega) (by omega)).mpr ⟨ha.reserved32, ha.name.symm⟩⟩
  · rintro ⟨hl, hc, hhead, htail⟩
    have hlen : bytes.length = directoryEntryHeaderLen + entry.name.utf8ByteSize := by
      have := congrArg List.length htail
      simp only [List.length_drop, List.length_append, length_leBytes, length_nameBytes] at this
      omega
    obtain ⟨h1, h2, h3, h4, h5, h6, h7, h8⟩ := (take_eq_directoryHeader (by omega) (by omega) (by omega)).mp hhead
    obtain ⟨h9, h10⟩ := (drop_eq_field (by omega) (by omega)).mp htail
    exact ⟨h1, h2, h3, h6, h9, h4.trans hlen.symm, h5, hlen, hc, h7, h8, h10.symm⟩

theorem decodeDirectoryEntry_eq_ok :
    decodeDirectoryEntry bytes = .ok entry ↔ encodeDirectoryEntry entry = .ok bytes := by
  rw [decodeDirectoryEntry_accepted, encodeDirectoryEntry_eq_ok, and_comm]
  exact and_congr_right fun h => (entryAccepted_iff h).trans eq_comm

theorem decodeDirectoryEntry_set (h : encodeDirectoryEntry entry = .ok bytes)
    {i : Nat} {x : UInt8} (hi : i < bytes.length) (hx : bytes[i] ≠ x) :
    ∃ e, decodeDirectoryEntry (bytes.set i x) = .error e := by
  refine error_of_not_ok fun other hother => ?_
  have hs : directoryEntryHeaderLen = 40 := rfl
  have ha := (decodeDirectoryEntry_accepted.mp (decodeDirectoryEntry_eq_ok.mpr h)).1
  have hlen := ha.length_eq
  exact ha.crc.not_set (by omega) hi hx (decodeDirectoryEntry_accepted.mp hother).1.crc

end SystemsLab.Fs
