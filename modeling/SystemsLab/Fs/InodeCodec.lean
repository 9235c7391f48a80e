import Mathlib.Data.List.Chain
import Mathlib.Data.List.Sort
import SystemsLab.Fs.Block
import SystemsLab.Fs.Crc

/-!
# Inode records

One inode as a sealed record with its own length. The decoder accepts exactly
what the encoder writes (`decodeInode_eq_ok`).
-/

namespace SystemsLab.Fs

inductive InodeKind
  | file
  | directory
  deriving DecidableEq, Repr

structure PersistedInode where
  id : UInt64
  kind : InodeKind
  blocks : List UInt64
  deriving DecidableEq, Repr

variable {inode : PersistedInode} {bytes : List UInt8}

/-! ## Repeated blocks -/

/-- `windows(2).any(|pair| pair[0] == pair[1])`. -/
def adjacentEqual : List UInt64 → Bool
  | a :: b :: l => a == b || adjacentEqual (b :: l)
  | _ => false

def hasDuplicates (blocks : List UInt64) : Bool := adjacentEqual (blocks.insertionSort (· ≤ ·))

theorem adjacentEqual_eq_false : ∀ {l : List UInt64}, adjacentEqual l = false ↔ l.IsChain (· ≠ ·)
  | [] => by simp [adjacentEqual]
  | [a] => by simp [adjacentEqual]
  | a :: b :: l => by
    rw [adjacentEqual, Bool.or_eq_false_iff, beq_eq_false_iff_ne, List.isChain_cons_cons, adjacentEqual_eq_false]

@[simp] theorem hasDuplicates_eq_false {blocks : List UInt64} : hasDuplicates blocks = false ↔ blocks.Nodup := by
  have hp := List.perm_insertionSort (· ≤ ·) blocks
  have hs := List.pairwise_insertionSort (· ≤ ·) blocks
  rw [hasDuplicates, adjacentEqual_eq_false, ← hp.nodup_iff]
  constructor
  · intro hc
    have hlt : (blocks.insertionSort (· ≤ ·)).IsChain (· < ·) := by
      rw [List.isChain_iff_forall_rel_of_append_cons_cons] at hc ⊢
      intro a b l₁ l₂ hl
      have hle := List.isChain_iff_forall_rel_of_append_cons_cons.mp hs.isChain hl
      exact UInt64.lt_of_le_of_ne hle (hc hl)
    exact (List.isChain_iff_pairwise.mp hlt).imp fun h => UInt64.ne_of_lt h
  · exact fun hn => hn.isChain

/-! ## The record -/

/-- `b"INO1"`. -/
def inodeRecordMagic : List UInt8 := [0x49, 0x4e, 0x4f, 0x31]

@[simp] theorem length_inodeRecordMagic : inodeRecordMagic.length = 4 := by simp [inodeRecordMagic]

def inodeRecordVersion : Nat := 1
def inodeRecordHeaderLen : Nat := 32

def kindCode : InodeKind → Nat
  | .file => 1
  | .directory => 2

def kindOf (code : Nat) : Except IoError InodeKind :=
  if code = 1 then .ok .file
  else if code = 2 then .ok .directory
  else .error (invalidData "invalid inode kind")

theorem kindOf_eq_ok {code : Nat} {kind : InodeKind} : kindOf code = .ok kind ↔ code = kindCode kind := by
  unfold kindOf
  cases kind <;> simp only [kindCode] <;> split
  · simp [*]
  · split <;> simp [*]
  · simp [*]
  · split <;> simp [*]

def inodeHeader (kind totalLen : Nat) (id : UInt64) (blockCount : Nat) : List UInt8 :=
  inodeRecordMagic ++ (leBytes 2 inodeRecordVersion ++ (leBytes 2 kind ++ (leBytes 4 totalLen ++
    (u64Bytes id ++ leBytes 4 blockCount))))

@[simp] theorem length_inodeHeader (kind totalLen : Nat) (id : UInt64) (blockCount : Nat) :
    (inodeHeader kind totalLen id blockCount).length = 24 := by
  simp [inodeHeader]

def inodeRecord (inode : PersistedInode) : List UInt8 :=
  sealed (inodeHeader (kindCode inode.kind)
    (inodeRecordHeaderLen + inode.blocks.length * 8) inode.id inode.blocks.length)
    (leBytes 4 0 ++ inode.blocks.flatMap u64Bytes)

def encodeInode (inode : PersistedInode) : Except IoError (List UInt8) := do
  require (inode.id ≠ 0) (invalidInput "inode identifier zero is reserved")
  require (inode.blocks.length < 2 ^ 32) (invalidInput "inode block count exceeds codec limit")
  require (inodeRecordHeaderLen + inode.blocks.length * 8 < 2 ^ 32)
    (invalidInput "inode record length exceeds codec limit")
  require (hasDuplicates inode.blocks = false) (invalidInput "inode record contains duplicate block references")
  pure (inodeRecord inode)

def decodeInode (bytes : List UInt8) : Except IoError PersistedInode := do
  require (inodeRecordHeaderLen ≤ bytes.length) (unexpectedEof "torn inode record header")
  require (slice bytes 0 4 = inodeRecordMagic) (invalidData "invalid inode record magic")
  let version := readLe 2 bytes 4
  require (version = inodeRecordVersion) (invalidData s!"unsupported inode record version {version}")
  require (∀ b ∈ slice bytes 28 inodeRecordHeaderLen, b = 0)
    (invalidData "inode record reserved bytes are non-zero")
  let totalLen := readLe 4 bytes 8
  let blockCount := readLe 4 bytes 20
  require (totalLen = inodeRecordHeaderLen + blockCount * 8)
    (invalidData "inode record length does not match block count")
  require (totalLen ≤ bytes.length) (unexpectedEof "torn inode record payload")
  require (bytes.length = totalLen) (invalidData "inode decoder requires exactly one record")
  require (CrcMatches bytes 24) (invalidData "inode record checksum mismatch")
  let id := readU64 bytes 12
  require (id ≠ 0) (invalidData "inode identifier zero is reserved")
  let kind ← kindOf (readLe 2 bytes 6)
  let blocks := readU64s bytes inodeRecordHeaderLen blockCount
  require (hasDuplicates blocks = false) (invalidData "inode record contains duplicate block references")
  pure ⟨id, kind, blocks⟩

structure PersistedInode.Encodable (inode : PersistedInode) : Prop where
  id_ne : inode.id ≠ 0
  len_lt : inodeRecordHeaderLen + inode.blocks.length * 8 < 2 ^ 32
  nodup : inode.blocks.Nodup

theorem encodeInode_eq_ok : encodeInode inode = .ok bytes ↔ inode.Encodable ∧ inodeRecord inode = bytes := by
  simp only [encodeInode, steps_ok, exists_const, hasDuplicates_eq_false]
  constructor
  · rintro ⟨h1, h2, h3, h4, h5⟩
    exact ⟨⟨h1, h3, h4⟩, h5⟩
  · rintro ⟨⟨h1, h3, h4⟩, h5⟩
    exact ⟨h1, by omega, h3, h4, h5⟩

structure InodeAccepted (bytes : List UInt8) (inode : PersistedInode) : Prop where
  magic : slice bytes 0 4 = inodeRecordMagic
  version : readLe 2 bytes 4 = inodeRecordVersion
  reserved : ∀ b ∈ slice bytes 28 inodeRecordHeaderLen, b = 0
  total : readLe 4 bytes 8 = bytes.length
  count : readLe 4 bytes 20 = inode.blocks.length
  length_eq : bytes.length = inodeRecordHeaderLen + inode.blocks.length * 8
  crc : CrcMatches bytes 24
  id : readU64 bytes 12 = inode.id
  kind : readLe 2 bytes 6 = kindCode inode.kind
  blocks : readU64s bytes inodeRecordHeaderLen inode.blocks.length = inode.blocks

theorem decodeInode_accepted :
    decodeInode bytes = .ok inode ↔ InodeAccepted bytes inode ∧ inode.id ≠ 0 ∧ inode.blocks.Nodup := by
  simp only [decodeInode, steps_ok, exists_const, kindOf_eq_ok, hasDuplicates_eq_false]
  constructor
  · rintro ⟨h1, h2, h3, h4, h5, h6, h7, h8, h9, kind, h10, h11, rfl⟩
    have hl : (readU64s bytes inodeRecordHeaderLen (readLe 4 bytes 20)).length = readLe 4 bytes 20 := by
      simp [readU64s]
    refine ⟨⟨h2, h3, h4, h7.symm, hl.symm, ?_, h8, rfl, h10, ?_⟩, h9, h11⟩
    · rw [h7, h5, hl]
    · simp only [hl]
  · rintro ⟨⟨h2, h3, h4, h7, h5, h6, h8, h9, h10, h11⟩, hid, hn⟩
    rw [h5, h9, h11, h7]
    exact ⟨by omega, h2, h3, h4, h6, Nat.le_refl _, rfl, h8, hid, inode.kind, h10, hn, rfl⟩

theorem take_eq_inodeHeader {kind totalLen count : Nat} {id : UInt64} (h : 24 ≤ bytes.length) (hk : kind < 256 ^ 2)
    (ht : totalLen < 256 ^ 4) (hc : count < 256 ^ 4) :
    bytes.take 24 = inodeHeader kind totalLen id count ↔
      slice bytes 0 4 = inodeRecordMagic ∧ readLe 2 bytes 4 = inodeRecordVersion ∧ readLe 2 bytes 6 = kind ∧
      readLe 4 bytes 8 = totalLen ∧ readU64 bytes 12 = id ∧ readLe 4 bytes 20 = count := by
  have hv : inodeRecordVersion = 1 := rfl
  rw [← slice_zero_drop, inodeHeader, slice_eq_append (by simp) h]
  simp (disch := omega) only [length_inodeRecordMagic, slice_eq_field, slice_eq_u64, slice_eq_last_field,
    Nat.reduceAdd]

theorem drop_eq_inodeTail (h : bytes.length = inodeRecordHeaderLen + inode.blocks.length * 8) :
    bytes.drop 28 = leBytes 4 0 ++ inode.blocks.flatMap u64Bytes ↔
      (∀ b ∈ slice bytes 28 inodeRecordHeaderLen, b = 0) ∧
      readU64s bytes inodeRecordHeaderLen inode.blocks.length = inode.blocks := by
  have hs : inodeRecordHeaderLen = 32 := rfl
  rw [drop_eq_field (by omega) (by decide), show 28 + 4 = inodeRecordHeaderLen from rfl,
    drop_eq_u64s h, ← slice_eq_last_field hs.symm (by omega) (by decide), leBytes_zero, List.eq_replicate_iff,
    length_slice_of_le (by omega), and_iff_right (show inodeRecordHeaderLen - 28 = 4 from rfl)]

theorem length_inodeRecord (inode : PersistedInode) :
    (inodeRecord inode).length = inodeRecordHeaderLen + inode.blocks.length * 8 := by
  simp only [inodeRecord, length_sealed, length_inodeHeader, List.length_append, length_leBytes,
    length_flatMap_u64Bytes, inodeRecordHeaderLen]
  omega

theorem kindCode_lt (kind : InodeKind) : kindCode kind < 256 ^ 2 := by
  cases kind <;> decide

theorem inodeAccepted_iff (h : inodeRecordHeaderLen + inode.blocks.length * 8 < 2 ^ 32) :
    InodeAccepted bytes inode ↔ bytes = inodeRecord inode := by
  have hs : inodeRecordHeaderLen = 32 := rfl
  have hk := kindCode_lt inode.kind
  rw [inodeRecord, @eq_sealed_iff 24 _ _ _ (by simp)]
  constructor
  · intro ha
    have hl := ha.length_eq
    exact ⟨by omega, ha.crc, (take_eq_inodeHeader (by omega) hk (by omega) (by omega)).mpr
      ⟨ha.magic, ha.version, ha.kind, ha.total.trans hl, ha.id, ha.count⟩,
      (drop_eq_inodeTail hl).mpr ⟨ha.reserved, ha.blocks⟩⟩
  · rintro ⟨hl, hc, hhead, htail⟩
    have hlen : bytes.length = inodeRecordHeaderLen + inode.blocks.length * 8 := by
      have := congrArg List.length htail
      simp only [List.length_drop, List.length_append, length_leBytes, length_flatMap_u64Bytes] at this
      omega
    obtain ⟨h1, h2, h3, h4, h5, h6⟩ := (take_eq_inodeHeader (by omega) hk (by omega) (by omega)).mp hhead
    obtain ⟨h7, h8⟩ := (drop_eq_inodeTail hlen).mp htail
    exact ⟨h1, h2, h7, h4.trans hlen.symm, h6, hlen, hc, h5, h3, h8⟩

theorem decodeInode_eq_ok : decodeInode bytes = .ok inode ↔ encodeInode inode = .ok bytes := by
  rw [decodeInode_accepted, encodeInode_eq_ok]
  constructor
  · rintro ⟨ha, hid, hn⟩
    have hlt : inodeRecordHeaderLen + inode.blocks.length * 8 < 2 ^ 32 := by
      rw [← ha.length_eq, ← ha.total]
      exact readLe_lt 4 bytes 8
    exact ⟨⟨hid, hlt, hn⟩, ((inodeAccepted_iff hlt).mp ha).symm⟩
  · rintro ⟨he, rfl⟩
    exact ⟨(inodeAccepted_iff he.len_lt).mpr rfl, he.id_ne, he.nodup⟩

theorem decodeInode_set (h : encodeInode inode = .ok bytes) {i : Nat} {x : UInt8}
    (hi : i < bytes.length) (hx : bytes[i] ≠ x) : ∃ e, decodeInode (bytes.set i x) = .error e := by
  refine error_of_not_ok fun other hother => ?_
  have hs : inodeRecordHeaderLen = 32 := rfl
  have ha := (decodeInode_accepted.mp (decodeInode_eq_ok.mpr h)).1
  have hlen := ha.length_eq
  exact ha.crc.not_set (by omega) hi hx (decodeInode_accepted.mp hother).1.crc

end SystemsLab.Fs
