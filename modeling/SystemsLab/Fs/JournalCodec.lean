import SystemsLab.Fs.Crc
import SystemsLab.Fs.Journal
import SystemsLab.Lib.RecordStream

/-!
# Journal records

One sealed record after another, each with its own length and checksum (`decodeEntries_eq_ok`).
-/

namespace SystemsLab.Fs

variable {bytes : List UInt8} {entry : JournalEntry} {n : Nat}
variable {txid : TransactionId} {block : UInt64}

/-- `b"JNL1"`. -/
def recordMagic : List UInt8 := [0x4a, 0x4e, 0x4c, 0x31]

@[simp] theorem length_recordMagic : recordMagic.length = 4 := by simp [recordMagic]

def recordVersion : Nat := 1
def recordHeaderSize : Nat := 32
def kindBegin : Nat := 1
def kindWrite : Nat := 2
def kindCommit : Nat := 3

def recordParts : JournalEntry → Nat × TransactionId × UInt64 × List UInt8
  | .begin txid => (kindBegin, txid, 0, [])
  | .write txid block data => (kindWrite, txid, block, data.bytes)
  | .commit txid => (kindCommit, txid, 0, [])

def recordHeader (kind recordLen : Nat) (txid : TransactionId) (block : UInt64) : List UInt8 :=
  recordMagic ++ (leBytes 2 recordVersion ++ (leBytes 1 kind ++ (leBytes 1 0 ++ (leBytes 4 recordLen ++
    (u64Bytes txid ++ u64Bytes block)))))

@[simp] theorem length_recordHeader (kind recordLen : Nat) (txid : TransactionId) (block : UInt64) :
    (recordHeader kind recordLen txid block).length = 28 := by
  simp [recordHeader]

def encodeRecord (entry : JournalEntry) : Except IoError (List UInt8) := do
  let (kind, txid, block, payload) := recordParts entry
  let recordLen := recordHeaderSize + payload.length
  require (recordLen < 2 ^ 32) (invalidInput "journal record length exceeds u32")
  pure (sealed (recordHeader kind recordLen txid block) payload)

def requireControlRecord (block : UInt64) (payload : List UInt8) : Except IoError Unit := do
  require (block = 0) (invalidData "journal control record has non-zero block field")
  require (payload = []) (invalidData "journal control record has unexpected payload")

/-- The entry behind the cursor and the length of its record. -/
def decodeRecord (bytes : List UInt8) : Except IoError (JournalEntry × Nat) := do
  require (recordHeaderSize ≤ bytes.length) (invalidData "truncated journal record header")
  require (slice bytes 0 4 = recordMagic) (invalidData "invalid journal record magic")
  require (readLe 2 bytes 4 = recordVersion) (invalidData "unsupported journal record version")
  let kind := readLe 1 bytes 6
  require (readLe 1 bytes 7 = 0) (invalidData "unsupported journal record flags")
  let recordLen := readLe 4 bytes 8
  require (recordHeaderSize ≤ recordLen) (invalidData "journal record length is smaller than header")
  require (recordLen ≤ bytes.length) (invalidData "truncated journal record payload")
  let txid := readU64 bytes 12
  let block := readU64 bytes 20
  require (CrcMatches (bytes.take recordLen) 28) (invalidData "journal record checksum mismatch")
  let payload := slice bytes recordHeaderSize recordLen
  if kind = kindBegin then do
    requireControlRecord block payload
    pure (.begin txid, recordLen)
  else if kind = kindWrite then do
    require (payload.length = blockSize) (invalidData "journal write record has invalid payload length")
    pure (.write txid block (Block.ofBytes payload), recordLen)
  else if kind = kindCommit then do
    requireControlRecord block payload
    pure (.commit txid, recordLen)
  else .error (invalidData "unknown journal record kind")

structure RecordAccepted (bytes : List UInt8) : Prop where
  header_le : 32 ≤ bytes.length
  magic : slice bytes 0 4 = recordMagic
  version : readLe 2 bytes 4 = recordVersion
  flags : readLe 1 bytes 7 = 0
  len_ge : 32 ≤ readLe 4 bytes 8
  len_le : readLe 4 bytes 8 ≤ bytes.length
  crc : CrcMatches (bytes.take (readLe 4 bytes 8)) 28

theorem decodeRecord_inv (h : decodeRecord bytes = .ok (entry, n)) : RecordAccepted bytes ∧ n = readLe 4 bytes 8 ∧
      recordParts entry = (readLe 1 bytes 6, readU64 bytes 12, readU64 bytes 20,
        slice bytes recordHeaderSize n) := by
  simp only [decodeRecord, steps_ok, exists_const] at h
  obtain ⟨hl, hm, hv, hf, hge, hle, hc, h⟩ := h
  refine ⟨⟨hl, hm, hv, hf, hge, hle, hc⟩, ?_⟩
  split at h
  · rename_i hk
    simp only [requireControlRecord, steps_ok, exists_const, Prod.mk.injEq] at h
    obtain ⟨⟨hb, hp⟩, rfl, rfl⟩ := h
    exact ⟨rfl, by simp only [recordParts, hk, hb]; rw [← hp]⟩
  · split at h
    · rename_i hk
      simp only [steps_ok, exists_const, Prod.mk.injEq] at h
      obtain ⟨hp, rfl, rfl⟩ := h
      exact ⟨rfl, by simp [recordParts, hk, Block.bytes_ofBytes hp]⟩
    · split at h
      · rename_i hk
        simp only [requireControlRecord, steps_ok, exists_const, Prod.mk.injEq] at h
        obtain ⟨⟨hb, hp⟩, rfl, rfl⟩ := h
        exact ⟨rfl, by simp only [recordParts, hk, hb]; rw [← hp]⟩
      · cases h

theorem decodeRecord_of_accepted (h : RecordAccepted bytes)
    (he : recordParts entry = (readLe 1 bytes 6, readU64 bytes 12, readU64 bytes 20,
      slice bytes recordHeaderSize (readLe 4 bytes 8))) :
    decodeRecord bytes = .ok (entry, readLe 4 bytes 8) := by
  have hl : recordHeaderSize ≤ bytes.length := h.header_le
  have hge : recordHeaderSize ≤ readLe 4 bytes 8 := h.len_ge
  simp only [decodeRecord, require_pos hl, require_pos h.magic, require_pos h.version, require_pos h.flags,
    require_pos hge, require_pos h.len_le, require_pos h.crc, except_bind_ok]
  cases entry with
  | begin txid =>
    simp only [recordParts, Prod.mk.injEq] at he
    obtain ⟨hk, rfl, hb, hp⟩ := he
    simp [← hk, ← hb, ← hp, requireControlRecord, require_pos]
  | write txid block data =>
    simp only [recordParts, Prod.mk.injEq] at he
    obtain ⟨hk, rfl, rfl, hp⟩ := he
    simp [← hk, ← hp, kindBegin, kindWrite, require_pos data.length_bytes, Block.ofBytes_bytes]
  | commit txid =>
    simp only [recordParts, Prod.mk.injEq] at he
    obtain ⟨hk, rfl, hb, hp⟩ := he
    simp [← hk, ← hb, ← hp, kindBegin, kindWrite, kindCommit, requireControlRecord, require_pos]

def recordBytes (entry : JournalEntry) : List UInt8 :=
  let p := recordParts entry
  sealed (recordHeader p.1 (recordHeaderSize + p.2.2.2.length) p.2.1 p.2.2.1) p.2.2.2

theorem length_payload_le (entry : JournalEntry) : (recordParts entry).2.2.2.length ≤ blockSize := by
  cases entry with
  | begin txid => exact Nat.zero_le _
  | write txid block data => exact Nat.le_of_eq data.length_bytes
  | commit txid => exact Nat.zero_le _

theorem length_recordBytes (entry : JournalEntry) :
    (recordBytes entry).length = recordHeaderSize + (recordParts entry).2.2.2.length := by
  simp [recordBytes, recordHeaderSize]

theorem encodeRecord_eq (entry : JournalEntry) : encodeRecord entry = .ok (recordBytes entry) := by
  have hl := length_payload_le entry
  have h32 : recordHeaderSize + (recordParts entry).2.2.2.length < 2 ^ 32 := by
    simp only [recordHeaderSize, blockSize] at *; omega
  simp only [encodeRecord, require_pos h32]
  rfl

theorem take_eq_recordHeader {kind len : Nat} (h : 28 ≤ bytes.length)
    (hk : kind < 256 ^ 1) (hn : len < 256 ^ 4) :
    bytes.take 28 = recordHeader kind len txid block ↔
      slice bytes 0 4 = recordMagic ∧ readLe 2 bytes 4 = recordVersion ∧ readLe 1 bytes 6 = kind ∧
        readLe 1 bytes 7 = 0 ∧
      readLe 4 bytes 8 = len ∧ readU64 bytes 12 = txid ∧ readU64 bytes 20 = block := by
  have hv : recordVersion = 1 := rfl
  rw [← slice_zero_drop, recordHeader, slice_eq_append (by simp) h]
  simp (disch := omega) only [length_recordMagic, slice_eq_field, slice_eq_u64, slice_eq_last_u64, Nat.reduceAdd]

theorem take_eq_record {kind : Nat} {payload : List UInt8} (hk : kind < 256 ^ 1)
    (hn : recordHeaderSize + payload.length = n) (hlt : n < 256 ^ 4) :
    bytes.take n = sealed (recordHeader kind n txid block) payload ↔
      RecordAccepted bytes ∧ readLe 4 bytes 8 = n ∧ readLe 1 bytes 6 = kind ∧ readU64 bytes 12 = txid ∧
      readU64 bytes 20 = block ∧ slice bytes recordHeaderSize n = payload := by
  have hs : recordHeaderSize = 32 := rfl
  rw [@eq_sealed_iff 28 _ _ _ (by simp), List.length_take, List.take_take, @Nat.min_eq_left 28 n (by omega)]
  constructor
  · rintro ⟨hl, hc, hhead, htail⟩
    have hlen := congrArg List.length htail
    rw [List.length_drop, List.length_take] at hlen
    obtain ⟨h1, h2, h3, h4, h5, h6, h7⟩ := (take_eq_recordHeader (by omega) hk hlt).mp hhead
    exact ⟨⟨by omega, h1, h2, h4, by omega, by omega, by rwa [h5]⟩, h5, h3, h6, h7, htail⟩
  · rintro ⟨ha, rfl, h1, h2, h3, h4⟩
    have hle := ha.len_le
    exact ⟨by omega, ha.crc,
      (take_eq_recordHeader (by omega) hk hlt).mpr ⟨ha.magic, ha.version, h1, ha.flags, rfl, h2, h3⟩, h4⟩

theorem decodeRecord_sound (h : decodeRecord bytes = .ok (entry, n)) :
    bytes.take n = recordBytes entry ∧ n ≤ bytes.length := by
  obtain ⟨ha, rfl, hp⟩ := decodeRecord_inv h
  have hge := ha.len_ge
  have hle := ha.len_le
  have hlen : recordHeaderSize + (slice bytes recordHeaderSize (readLe 4 bytes 8)).length = readLe 4 bytes 8 := by
    rw [length_slice_of_le hle, recordHeaderSize]; omega
  simp only [recordBytes, hp, hlen]
  exact ⟨(take_eq_record (readLe_lt 1 bytes 6) hlen (readLe_lt 4 bytes 8)).mpr ⟨ha, rfl, rfl, rfl, rfl, rfl⟩, hle⟩

theorem decodeRecord_recordBytes (entry : JournalEntry) (rest : List UInt8) :
    decodeRecord (recordBytes entry ++ rest) = .ok (entry, (recordBytes entry).length) := by
  have hl := length_payload_le entry
  have hk : (recordParts entry).1 < 2 ^ 8 := by cases entry <;> exact Nat.lt_of_sub_eq_succ rfl
  have h32 : recordHeaderSize + (recordParts entry).2.2.2.length < 2 ^ 32 := by
    simp only [recordHeaderSize, blockSize] at *; omega
  have ht : (recordBytes entry ++ rest).take (recordHeaderSize + (recordParts entry).2.2.2.length) =
      recordBytes entry :=
    List.take_left' (length_recordBytes entry)
  obtain ⟨ha, hlen, h1, h2, h3, h4⟩ := (take_eq_record hk rfl h32).mp ht
  rw [length_recordBytes, ← hlen]
  exact decodeRecord_of_accepted ha (by rw [h1, h2, h3, hlen, h4])

theorem decodeRecord_eq_ok :
    decodeRecord bytes = .ok (entry, n) ↔
      ∃ rest, bytes = recordBytes entry ++ rest ∧ n = (recordBytes entry).length := by
  constructor
  · intro h
    obtain ⟨ht, hn⟩ := decodeRecord_sound h
    refine ⟨bytes.drop n, by rw [← ht, List.take_append_drop], ?_⟩
    rw [← ht, List.length_take, Nat.min_eq_left hn]
  · rintro ⟨rest, rfl, rfl⟩
    exact decodeRecord_recordBytes entry rest

/-! ## Streams -/

theorem recordBytes_pos (entry : JournalEntry) : 0 < (recordBytes entry).length := by
  rw [length_recordBytes, recordHeaderSize]; omega

def journalStream : RecordStream Unit JournalEntry UInt8 IoError where
  encode _ := encodeRecord
  decode _ := decodeRecord
  next _ _ := ()
  decode_eq_ok := by
    intro _ bytes entry n
    simp only [decodeRecord_eq_ok, encodeRecord_eq, Except.ok.injEq]
    exact ⟨fun ⟨rest, hb, hn⟩ => ⟨_, rest, rfl, hb, hn⟩, fun ⟨_, rest, he, hb, hn⟩ => ⟨rest, he ▸ hb, he ▸ hn⟩⟩
  encode_pos := by
    intro _ entry r h
    rw [encodeRecord_eq] at h; cases h
    exact recordBytes_pos entry

def encodeEntries (entries : List JournalEntry) : Except IoError (List UInt8) := journalStream.encodeAll () entries

def decodeEntries (bytes : List UInt8) : Except IoError (List JournalEntry) := journalStream.decodeAll () bytes

theorem decodeEntries_eq_ok {entries : List JournalEntry} :
    decodeEntries bytes = .ok entries ↔ encodeEntries entries = .ok bytes := RecordStream.decodeAll_eq_ok

theorem encodeEntries_eq : ∀ entries : List JournalEntry, encodeEntries entries = .ok (entries.flatMap recordBytes)
  | [] => rfl
  | entry :: entries => by
    have h := encodeEntries_eq entries
    rw [encodeEntries] at h
    rw [encodeEntries, RecordStream.encodeAll, show journalStream.encode () entry = encodeRecord entry from rfl,
      encodeRecord_eq, except_bind_ok, show journalStream.next () entry = () from rfl, h]
    rfl

end SystemsLab.Fs
