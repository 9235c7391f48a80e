import SystemsLab.Fs.Create

/-!
# Files as byte arrays

Reading a range of a file returns a slice of its bytes, writing one splices the data in and leaves every other file
alone.
-/

namespace SystemsLab.Fs

open Prog

variable {range : FileRangeEndpoint} {data : List UInt8} {inode : PersistedInode} {b : UInt64}
variable {other : PersistedInode} {bytes : List UInt8} {len : Nat} {js : List Nat}
variable {j i offset : Nat} {image : Nat → Block}

def fileBlocks (d : Disk) (inode : PersistedInode) : List Block := inode.blocks.map fun b => d[b.toNat]?.getD .zero

def fileBytes (d : Disk) (inode : PersistedInode) : List UInt8 := (fileBlocks d inode).flatMap Block.bytes

@[simp] theorem length_fileBlocks (d : Disk) (inode : PersistedInode) :
    (fileBlocks d inode).length = inode.blocks.length :=
  List.length_map _

theorem length_fileBytes (d : Disk) (inode : PersistedInode) :
    (fileBytes d inode).length = inode.blocks.length * blockSize := by
  rw [fileBytes, length_flatMap_bytes, length_fileBlocks]

/-! ## The loops -/

theorem Block.patch_eq (x : Block) (offset : Nat) (data : List UInt8) :
    x.patch offset data = .ofBytes (splice x.bytes offset data) :=
  rfl

def startIn (startOffset relative : Nat) : Nat := if relative = 0 then startOffset else 0

theorem range_in_blocks {firstBlock k : Nat} (hlen : 0 < len) :
    firstBlock + 0 + (offset + len + blockSize - 1) / blockSize ≤ k ↔
      firstBlock * blockSize + offset + len ≤ k * blockSize := by
  rw [show blockSize = 4096 from rfl]
  omega

theorem range_blocks_pos (hlen : 0 < len) : (offset + len + blockSize - 1) / blockSize ≠ 0 := by
  rw [show blockSize = 4096 from rfl]
  omega

theorem slice_chunk_append {start remaining : Nat} (hj : (j + 1) * blockSize ≤ bytes.length)
    (hs : start < blockSize) :
    slice (chunk bytes j).bytes start (start + min (blockSize - start) remaining) ++
        slice bytes ((j + 1) * blockSize) ((j + 1) * blockSize + (remaining - min (blockSize - start) remaining)) =
      slice bytes (j * blockSize + start) (j * blockSize + start + remaining) := by
  have hnext : (j + 1) * blockSize = j * blockSize + blockSize := Nat.succ_mul _ _
  rw [bytes_chunk hj, hnext, slice_slice _ (by omega)]
  generalize j * blockSize = base
  by_cases hlast : remaining ≤ blockSize - start
  · have hempty := @slice_eq_nil (base + blockSize) (base + blockSize + (remaining - remaining)) _ bytes (by omega)
    rw [Nat.min_eq_right hlast, hempty, List.append_nil, Nat.add_assoc]
  · have hadj : base + blockSize = base + (start + (blockSize - start)) := by omega
    have hend : base + blockSize + (remaining - (blockSize - start)) = base + start + remaining := by omega
    rw [Nat.min_eq_left (by omega), hend, hadj, slice_append_slice _ (by omega) (by omega)]

theorem patch_chunk {start base consumed : Nat} (hj : (j + 1) * blockSize ≤ bytes.length)
    (hbase : base + data.length ≤ bytes.length) (hs : start < blockSize)
    (hat : j * blockSize + start = base + consumed)
    (hfirst : consumed = 0 ∨ start = 0) (hc : consumed ≤ data.length) :
    (chunk bytes j).patch start (slice data consumed
      (consumed + min (blockSize - start) (data.length - consumed))) =
      chunk (splice bytes base data) j := by
  have hnext : (j + 1) * blockSize = j * blockSize + blockSize := Nat.succ_mul _ _
  rw [Block.patch_eq, bytes_chunk hj, ← slice_splice hbase hj hat hfirst (by omega) (by omega) (by omega), chunk]

section
variable {sb : Superblock} {d : Disk} {inodeId : UInt64} {xs : List Block} {firstBlock startOffset : Nat}
  (hread : ∀ i x, (readFileBlock sb inodeId i).eval d = .ok x ↔ xs[i]? = some x) (h64 : xs.length < 2 ^ 64)
include hread h64

theorem readFileRangeLoop_eq_ok : ∀ (m r remaining : Nat) (bytes : List UInt8), startIn startOffset r < blockSize →
    m = (startIn startOffset r + remaining + blockSize - 1) / blockSize →
      0 < remaining ∨ startIn startOffset r = 0 →
    ((readFileRangeLoop sb inodeId firstBlock startOffset (List.range' r m) remaining).eval d = .ok bytes ↔
      (m = 0 ∨ firstBlock + r + m ≤ xs.length) ∧
        bytes = slice (xs.flatMap Block.bytes) ((firstBlock + r) * blockSize + startIn startOffset r)
          ((firstBlock + r) * blockSize + startIn startOffset r + remaining))
  | 0, r, remaining, bytes, hs, hm, _ => by
    have hz : remaining = 0 := by unfold blockSize at *; omega
    rw [slice_eq_nil (by omega)]
    simp [readFileRangeLoop, eq_comm]
  | m + 1, r, remaining, bytes, hs, hm, hpos => by
    have hnext : startIn startOffset (r + 1) = 0 := if_neg (Nat.succ_ne_zero r)
    have hb := length_flatMap_bytes xs
    generalize hst : startIn startOffset r = start at *
    have hst' : (if r = 0 then startOffset else 0) = start := hst
    have ih := fun out => readFileRangeLoop_eq_ok m (r + 1) (remaining - min (blockSize - start) remaining) out
      (by rw [hnext]; decide) (by rw [hnext]; unfold blockSize at *; omega) (.inr hnext)
    simp only [List.range'_succ, readFileRangeLoop, eval_bind, eval_liftM, eval_pure, steps_ok,
      exists_const, hread, ih, hst', hnext, Nat.add_zero]
    have hjoin : firstBlock + r < xs.length → _ :=
      fun hj => @slice_chunk_append (xs.flatMap Block.bytes) (firstBlock + r) start
      remaining (by rw [hb]; exact Nat.mul_le_mul_right _ hj) hs
    constructor
    · rintro ⟨-, x, hx, out, ⟨hin, rfl⟩, rfl⟩
      have hj := (List.getElem?_eq_some_iff.mp hx).1
      rw [getElem?_eq_chunk hj] at hx
      obtain rfl := Option.some.inj hx
      exact ⟨by omega, hjoin hj⟩
    · rintro ⟨hin, rfl⟩
      have hj : firstBlock + r < xs.length := by omega
      exact ⟨by omega, _, getElem?_eq_chunk hj, _, ⟨by omega, rfl⟩, hjoin hj⟩

theorem patchBlocks_eq_ok (m : Nat) : ∀ (r consumed : Nat) (writes : List (Nat × Block)),
    startIn startOffset r < blockSize → consumed ≤ data.length →
    m = (startIn startOffset r + (data.length - consumed) + blockSize - 1) / blockSize →
    consumed < data.length ∨ startIn startOffset r = 0 →
    (consumed < data.length → (firstBlock + r) * blockSize + startIn startOffset r =
      firstBlock * blockSize + startOffset + consumed ∧ (consumed = 0 ∨ startIn startOffset r = 0)) →
    ((patchBlocks sb inodeId firstBlock startOffset data (List.range' r m) consumed).eval d = .ok writes ↔
      (m = 0 ∨ firstBlock + r + m ≤ xs.length) ∧ writes = (List.range' (firstBlock + r) m).map fun j =>
        (j, chunk (splice (xs.flatMap Block.bytes) (firstBlock * blockSize + startOffset) data) j)) := by
  induction m with
  | zero =>
    intro r consumed writes _ _ _ _ _
    simp [patchBlocks, eq_comm]
  | succ m ih =>
    intro r consumed writes hs hle hm hpos hat
    have hlt : consumed < data.length := by
      rcases hpos with hlt | hzero
      · exact hlt
      · unfold blockSize at *
        omega
    obtain ⟨hat, hfirst⟩ := hat hlt
    have hnext : startIn startOffset (r + 1) = 0 := if_neg (Nat.succ_ne_zero r)
    have hb := length_flatMap_bytes xs
    generalize hst : startIn startOffset r = start at *
    have hst' : (if r = 0 then startOffset else 0) = start := hst
    have hbs : blockSize = 4096 := rfl
    have hleft : m =
        (0 + (data.length - (consumed + min (blockSize - start) (data.length - consumed))) + blockSize - 1) /
          blockSize := by
      rw [hbs] at hm hs ⊢
      omega
    have hmove : consumed + min (blockSize - start) (data.length - consumed) < data.length →
        (firstBlock + (r + 1)) * blockSize + 0 = firstBlock * blockSize + startOffset +
          (consumed + min (blockSize - start) (data.length - consumed)) := by
      intro h
      have hstep : (firstBlock + (r + 1)) * blockSize = (firstBlock + r) * blockSize + blockSize := by
        rw [← Nat.add_assoc, Nat.succ_mul]
      rw [hstep]
      generalize (firstBlock + r) * blockSize = base at hat ⊢
      generalize firstBlock * blockSize = base' at hat ⊢
      omega
    have ih := fun writes => ih (r + 1) (consumed + min (blockSize - start) (data.length - consumed)) writes
      (by rw [hnext]; decide) (by omega) (by rw [hnext]; exact hleft) (.inr hnext)
      (fun h => ⟨by rw [hnext]; exact hmove h, .inr hnext⟩)
    simp only [List.range'_succ, patchBlocks, eval_bind, eval_liftM, eval_pure, steps_ok, exists_const, hread, ih,
      hst', List.map_cons]
    have hpatch : firstBlock + r + (m + 1) ≤ xs.length → _ := fun hin =>
      @patch_chunk data (xs.flatMap Block.bytes) (firstBlock + r) start
        (firstBlock * blockSize + startOffset) consumed
        (by rw [hb]; exact Nat.mul_le_mul_right _ (by omega))
          (by rw [hb]; rw [hbs] at hm hat ⊢; omega) hs hat hfirst hle
    constructor
    · rintro ⟨-, x, hx, out, ⟨hin, rfl⟩, rfl⟩
      have hj := (List.getElem?_eq_some_iff.mp hx).1
      rw [getElem?_eq_chunk hj] at hx
      obtain rfl := Option.some.inj hx
      exact ⟨by omega, by rw [hpatch (by omega), Nat.add_assoc]⟩
    · rintro ⟨hin, rfl⟩
      have hin : firstBlock + r + (m + 1) ≤ xs.length := by omega
      exact ⟨by omega, _, getElem?_eq_chunk (by omega), _, ⟨by omega, rfl⟩, by rw [hpatch hin, Nat.add_assoc]⟩

theorem readFileRangeLoop_whole (hoff : startOffset < blockSize) (hlen : 0 < len) :
    (readFileRangeLoop sb inodeId firstBlock startOffset
      (List.range ((startOffset + len + blockSize - 1) / blockSize)) len).eval d =
        .ok bytes ↔
      firstBlock * blockSize + startOffset + len ≤ xs.length * blockSize ∧
        bytes = slice (xs.flatMap Block.bytes) (firstBlock * blockSize + startOffset)
          (firstBlock * blockSize + startOffset + len) := by
  have hloop := @readFileRangeLoop_eq_ok _ _ _ _ firstBlock startOffset hread h64 _ 0 len bytes hoff rfl (.inl hlen)
  rw [List.range_eq_range', ← range_in_blocks hlen]
  refine hloop.trans (and_congr_left fun _ => or_iff_right (range_blocks_pos hlen))

theorem patchBlocks_whole (hoff : startOffset < blockSize) (hlen : 0 < data.length) {writes : List (Nat × Block)} :
    (patchBlocks sb inodeId firstBlock startOffset data
        (List.range ((startOffset + data.length + blockSize - 1) / blockSize)) 0).eval d = .ok writes ↔
      firstBlock * blockSize + startOffset + data.length ≤ xs.length * blockSize ∧
        writes = (List.range' firstBlock ((startOffset + data.length + blockSize - 1) / blockSize)).map fun j =>
          (j, chunk (splice (xs.flatMap Block.bytes) (firstBlock * blockSize + startOffset) data) j) := by
  have hloop := @patchBlocks_eq_ok data _ _ _ _ firstBlock startOffset hread h64 _ 0 0 writes hoff
    (Nat.zero_le _) rfl
    (.inl hlen) (fun _ => ⟨by simp [startIn], .inl rfl⟩)
  rw [List.range_eq_range', ← range_in_blocks hlen]
  refine hloop.trans (and_congr_left fun _ => or_iff_right (range_blocks_pos hlen))

end

/-! ## The file behind an inode number -/

structure TargetFile (s : Snapshot) (inodeId : UInt64) (inode : PersistedInode) : Prop where
  mem : inode ∈ s.inodes
  id : inode.id = inodeId
  kind : inode.kind = .file

section
variable {sb : Superblock} {d : Disk} {s : Snapshot} {inodeId : UInt64} {inode : PersistedInode}

theorem TargetFile.unique (h : TargetFile s inodeId inode)
    (hn : (s.inodes.map PersistedInode.id).Nodup) (ho : TargetFile s inodeId other) : other = inode :=
  List.inj_on_of_nodup_map hn ho.mem h.mem (ho.id.trans h.id.symm)

theorem fileInode_iff (hn : (s.inodes.map PersistedInode.id).Nodup) :
    fileInode s.inodes inodeId = .ok inode ↔ TargetFile s inodeId inode := by
  simp only [fileInode, steps_ok, exists_const]
  constructor
  · rintro ⟨found, hf, hk, rfl⟩
    obtain ⟨hm, hid⟩ := findInode_eq_some hf
    exact ⟨hm, hid, hk⟩
  · intro h
    cases hf : findInode s.inodes inodeId with
    | none => exact absurd h.id (by simpa using List.find?_eq_none.mp hf inode h.mem)
    | some found =>
      obtain ⟨hm, hid⟩ := findInode_eq_some hf
      obtain rfl := List.inj_on_of_nodup_map hn hm h.mem (hid.trans h.id.symm)
      exact ⟨found, rfl, h.kind, rfl⟩

variable (hs : Sound sb d s)
include hs

theorem Sound.length_eq : sb.totalBlocks.toNat = d.length := (readSuperblock_eq_ok.mp hs.superblock).2.2

theorem Sound.block_lt (hm : inode ∈ s.inodes) (hb : b ∈ inode.blocks) : b.toNat < d.length := by
  have hlt := (hs.valid.owned.allocated inode hm b hb).2.lt
  rw [hs.loads.geometry.1, hs.length_eq] at hlt
  exact hlt

theorem Sound.requireOwned (hm : inode ∈ s.inodes) (hb : b ∈ inode.blocks) :
    requireOwned s.allocator b = .ok () := by
  have hhas := (hs.valid.owned.allocated inode hm b hb).2
  have howned : s.allocator.isOwned b = .ok true := BlockAllocator.isOwned_eq_ok.mpr ⟨hhas.lt, by simp [hhas]⟩
  rw [Fs.requireOwned, howned]
  rfl

theorem Sound.encodable (hm : inode ∈ s.inodes) : inode.Encodable := by
  obtain ⟨payload, hp, -⟩ := inodeTable.encodeImage_eq_ok.mp (inodeTable.load_eq_ok.mp hs.loads.inodes).2
  obtain ⟨r, hr⟩ := (inodeTable.encodeAll_eq_ok.mp ⟨payload, hp⟩).2.2 inode hm
  exact (encodeInode_eq_ok.mp hr).1

theorem Sound.getElem?_fileBlocks (hm : inode ∈ s.inodes) (i : Nat) :
    (fileBlocks d inode)[i]? = inode.blocks[i]?.bind fun b => d[b.toNat]? := by
  rw [fileBlocks, List.getElem?_map]
  cases hb : inode.blocks[i]? with
  | none => rfl
  | some b =>
    rw [Option.map_some, Option.bind_some, List.getElem?_eq_getElem (hs.block_lt hm (List.mem_of_getElem? hb))]
    rfl

theorem Sound.fileBlock (hm : inode ∈ s.inodes) (hb : inode.blocks[i]? = some b) :
    ∃ x, d[b.toNat]? = some x ∧ (fileBlocks d inode)[i]? = some x := by
  have hx := List.getElem?_eq_getElem (hs.block_lt hm (List.mem_of_getElem? hb))
  exact ⟨_, hx, by rw [hs.getElem?_fileBlocks hm, hb, Option.bind_some, hx]⟩

theorem resolveOwnedFileBlock_eq_ok : (resolveOwnedFileBlock sb inodeId i).eval d = .ok b ↔
    ∃ inode, TargetFile s inodeId inode ∧ inode.blocks[i]? = some b := by
  simp only [resolveOwnedFileBlock, eval_bind, eval_liftM, eval_pure, hs.loads.inodes, hs.loads.allocator,
    except_bind_ok, steps_ok, fileInode_iff hs.loads.ids_nodup]
  constructor
  · rintro ⟨inode, ht, b, hb, -, -, rfl⟩
    exact ⟨inode, ht, hb⟩
  · rintro ⟨inode, ht, hb⟩
    exact ⟨inode, ht, b, hb, (), hs.requireOwned ht.mem (List.mem_of_getElem? hb), rfl⟩

theorem readFileBlock_eq_ok {x : Block} : (readFileBlock sb inodeId i).eval d = .ok x ↔
    ∃ inode, TargetFile s inodeId inode ∧ (fileBlocks d inode)[i]? = some x := by
  rw [readFileBlock, eval_bind, except_bind_eq_ok]
  simp only [resolveOwnedFileBlock_eq_ok hs, eval_getBlock, okOr_eq_ok]
  constructor
  · rintro ⟨b, ⟨inode, ht, hb⟩, hx⟩
    exact ⟨inode, ht, by rw [hs.getElem?_fileBlocks ht.mem, hb, Option.bind_some, hx]⟩
  · rintro ⟨inode, ht, hx⟩
    rw [hs.getElem?_fileBlocks ht.mem] at hx
    obtain ⟨b, hb, hx⟩ := Option.bind_eq_some_iff.mp hx
    exact ⟨b, ⟨inode, ht, hb⟩, hx⟩

theorem Sound.readFileBlock_of_target (ht : TargetFile s inodeId inode) (i : Nat) (x : Block) :
    (readFileBlock sb inodeId i).eval d = .ok x ↔ (fileBlocks d inode)[i]? = some x := by
  rw [readFileBlock_eq_ok hs]
  constructor
  · rintro ⟨other, ho, hx⟩
    obtain rfl := ht.unique hs.loads.ids_nodup ho
    exact hx
  · intro hx
    exact ⟨inode, ht, hx⟩

theorem Sound.readFileBlock_of_none (hnone : ∀ inode, ¬ TargetFile s inodeId inode) (i : Nat) (x : Block) :
    (readFileBlock sb inodeId i).eval d = .ok x ↔ ([] : List Block)[i]? = some x := by
  rw [readFileBlock_eq_ok hs]
  exact ⟨fun ⟨inode, ht, _⟩ => absurd ht (hnone inode), fun h => by simp at h⟩

end

/-! ## Reading a range -/

structure FileRange (s : Snapshot) (range : FileRangeEndpoint) (len : Nat) (inode : PersistedInode) : Prop where
  target : TargetFile s range.inode inode
  nonempty : len ≠ 0
  offset_lt : range.offset < blockSize
  stop_le : range.firstBlock * blockSize + range.offset + len ≤ inode.blocks.length * blockSize

def FileRangeEndpoint.start (range : FileRangeEndpoint) : Nat := range.firstBlock * blockSize + range.offset

section
variable {sb : Superblock} {d : Disk} {s : Snapshot} (hs : Sound sb d s)
include hs

theorem Sound.blocks_lt (hm : inode ∈ s.inodes) : inode.blocks.length * blockSize < 2 ^ 64 := by
  have hlen := (hs.encodable hm).len_lt
  rw [show blockSize = 4096 from rfl]
  rw [inodeRecordHeaderLen] at hlen
  omega

theorem Sound.fileBlocks_lt (hm : inode ∈ s.inodes) : (fileBlocks d inode).length < 2 ^ 64 := by
  have hlen := hs.blocks_lt hm
  rw [length_fileBlocks]
  rw [show blockSize = 4096 from rfl] at hlen
  omega

theorem Sound.readFileRange_ok :
    (readFileRange sb range.inode range.firstBlock range.offset len).eval d = .ok bytes ↔
      ∃ inode, FileRange s range len inode ∧ bytes = slice (fileBytes d inode) range.start (range.start + len) := by
  simp only [readFileRange, eval_bind, eval_liftM, steps_ok, exists_const]
  constructor
  · rintro ⟨⟨hlen, hoff⟩, -, hloop⟩
    have hpos := Nat.pos_of_ne_zero hlen
    by_cases ht : ∃ inode, TargetFile s range.inode inode
    · obtain ⟨inode, ht⟩ := ht
      rw [readFileRangeLoop_whole (hs.readFileBlock_of_target ht) (hs.fileBlocks_lt ht.mem) hoff hpos,
        length_fileBlocks] at hloop
      exact ⟨inode, ⟨ht, hlen, hoff, hloop.1⟩, hloop.2⟩
    · rw [readFileRangeLoop_whole (hs.readFileBlock_of_none fun inode h => ht ⟨inode, h⟩)
        (by simp) hoff hpos] at hloop
      rw [List.length_nil] at hloop
      omega
  · rintro ⟨inode, hr, hbytes⟩
    have hb := hs.blocks_lt hr.target.mem
    have hin := hr.stop_le
    refine ⟨⟨hr.nonempty, hr.offset_lt⟩, by omega, ?_⟩
    rw [readFileRangeLoop_whole (hs.readFileBlock_of_target hr.target) (hs.fileBlocks_lt hr.target.mem) hr.offset_lt
      (Nat.pos_of_ne_zero hr.nonempty), length_fileBlocks]
    exact ⟨hin, hbytes⟩

end

/-! ## The transaction of a write -/

def overwrites (d : Disk) (inode : PersistedInode) (image : Nat → Block) (js : List Nat) : List (UInt64 × Block) :=
  js.filterMap fun j =>
    if (fileBlocks d inode)[j]? = some (image j) then none
    else inode.blocks[j]?.map (·, image j)

theorem mem_overwrites {d : Disk} {w : UInt64 × Block} :
    w ∈ overwrites d inode image js ↔
      ∃ j ∈ js, (fileBlocks d inode)[j]? ≠ some (image j) ∧ inode.blocks[j]? = some w.1 ∧ w.2 = image j := by
  simp only [overwrites, List.mem_filterMap]
  refine exists_congr fun j => and_congr_right fun _ => ?_
  by_cases he : (fileBlocks d inode)[j]? = some (image j)
  · simp [he]
  · rw [if_neg he, Option.map_eq_some_iff]
    constructor
    · rintro ⟨b, hb, rfl⟩
      exact ⟨he, hb, rfl⟩
    · rintro ⟨-, hb, hw⟩
      exact ⟨w.1, hb, Prod.ext rfl hw.symm⟩

def JournalRoom (sb : Superblock) (n : Nat) : Prop :=
  regionHeaderSize + (2 * recordHeaderSize + n * (recordHeaderSize + blockSize)) ≤
    sb.journalBlocks.toNat * blockSize

theorem JournalRoom.mono {sb : Superblock} {n m : Nat} (hnm : n ≤ m) (h : JournalRoom sb m) : JournalRoom sb n := by
  have := Nat.mul_le_mul_right (recordHeaderSize + blockSize) hnm
  rw [JournalRoom] at h ⊢
  omega

theorem length_transactionRecords_bytes (changed : List (UInt64 × Block)) :
    ((transactionRecords changed).flatMap recordBytes).length =
      2 * recordHeaderSize + changed.length * (recordHeaderSize + blockSize) := by
  have hwrites : ∀ ws : List (UInt64 × Block),
      ((ws.map fun w => LogEntry.write 0 w.1 w.2).flatMap recordBytes).length =
      ws.length * (recordHeaderSize + blockSize) := by
    intro ws
    induction ws with
    | nil => simp
    | cons w ws ih =>
      have hlen : (recordBytes (.write 0 w.1 w.2)).length = recordHeaderSize + blockSize := by
        rw [length_recordBytes]
        exact congrArg _ w.2.length_bytes
      rw [List.map_cons, List.flatMap_cons, List.length_append, ih, hlen, List.length_cons, Nat.succ_mul,
        Nat.add_comm]
  have hbegin : (recordBytes (.begin 0)).length = recordHeaderSize := length_recordBytes _
  have hcommit : (recordBytes (.commit 0)).length = recordHeaderSize := length_recordBytes _
  simp only [transactionRecords, openRecords, List.cons_append, List.flatMap_cons, List.flatMap_append,
    List.flatMap_nil, List.length_append, List.length_nil, hwrites, hbegin, hcommit]
  omega

section
variable {sb : Superblock} {d : Disk} {s : Snapshot} (hs : Sound sb d s)
include hs

theorem Sound.data_block (hm : inode ∈ s.inodes) (hb : b ∈ inode.blocks) :
    sb.dataRange.Contains b.toNat := (hs.valid.owned.allocated inode hm b hb).1

theorem Sound.journal_room {changed : List (UInt64 × Block)}
    (hdata : ∀ w ∈ changed, sb.dataRange.Contains w.1.toNat) :
    (∃ image, (checkJournalImage sb (transactionRecords changed)).eval d = .ok image) ↔
      JournalRoom sb changed.length := by
  obtain ⟨es, hes⟩ := hs.journal
  obtain ⟨hv, hc, -⟩ := loadJournalImage_eq_ok.mp hes
  obtain ⟨hcap, h64⟩ := regionCapacity_eq_ok.mp hc
  have hentries : validateEntries sb (transactionRecords changed) = .ok () := by
    refine validateEntries_eq_ok.mpr ⟨⟨_, scan_transactionRecords changed⟩, ?_⟩
    rw [logWrites_transactionRecords]
    exact fun w hw => ⟨(readSuperblock_eq_ok.mp hs.superblock).2.1.endsFit, .inr (.inr (.inr (hdata w hw)))⟩
  have hbytes := length_transactionRecords_bytes changed
  rw [JournalRoom, ← hbytes]
  constructor
  · rintro ⟨image, hi⟩
    obtain ⟨-, -, hr⟩ := checkJournalImage_eq_ok.mp hi
    obtain ⟨payload, hp, hcapacity, hle, -⟩ := encodeRegion_eq_ok.mp hr
    rw [encodeEntries_eq] at hp
    obtain rfl := Except.ok.inj hp
    rwa [(regionCapacity_eq_ok.mp hcapacity).1] at hle
  · intro hle
    refine ⟨regionImage (sb.journalBlocks.toNat * blockSize) ((transactionRecords changed).flatMap recordBytes),
      checkJournalImage_eq_ok.mpr ⟨hv, hentries, encodeRegion_eq_ok.mpr ⟨_, encodeEntries_eq _, ?_⟩⟩⟩
    rw [length_regionImage hle]
    exact ⟨regionCapacity_eq_ok.mpr ⟨rfl, hcap ▸ h64⟩, hle, rfl⟩

theorem Sound.collectOverwrites (hm : inode ∈ s.inodes) (image : Nat → Block) :
    ∀ js seen : List Nat, js.Nodup → (∀ j ∈ js, j < inode.blocks.length ∧ j ∉ seen) →
      (collectOverwrites s.allocator inode (js.map fun j => (j, image j)) seen).eval d =
        .ok (overwrites d inode image js)
  | [], _, _, _ => rfl
  | j :: js, seen, hn, hjs => by
    obtain ⟨hj, hn⟩ := List.nodup_cons.mp hn
    obtain ⟨⟨hlt, hseen⟩, hrest⟩ := List.forall_mem_cons.mp hjs
    have hb : inode.blocks[j]? = some inode.blocks[j] := List.getElem?_eq_getElem hlt
    have hmem := List.mem_of_getElem? hb
    obtain ⟨x, hx, hfile⟩ := hs.fileBlock hm hb
    have ih := Sound.collectOverwrites hm image js (j :: seen) hn fun i hi =>
      ⟨(hrest i hi).1, by
        rw [List.mem_cons]
        rintro (rfl | h)
        · exact hj hi
        · exact (hrest i hi).2 h⟩
    simp only [List.map_cons, Fs.collectOverwrites, eval_bind, eval_liftM, eval_pure, require_pos hseen, hb,
      okOr_some, except_bind_ok, hs.requireOwned hm hmem, eval_getBlock, hx, ih, overwrites,
      List.filterMap_cons, hfile, Option.some.injEq, Except.ok.injEq]
    by_cases he : x = image j
    · simp [he]
    · simp [he]

end

def changedChunks (old new : List UInt8) : Nat :=
  (List.range (old.length / blockSize)).countP fun j => chunk old j ≠ chunk new j

theorem changedChunks_le (d : Disk) (inode : PersistedInode) (new : List UInt8) :
    changedChunks (fileBytes d inode) new ≤ inode.blocks.length := by
  refine Nat.le_trans List.countP_le_length ?_
  rw [List.length_range, length_fileBytes, Nat.mul_div_cancel _ (by decide)]

theorem chunk_splice_of_apart {firstBlock : Nat}
    (hin : firstBlock * blockSize + offset + data.length ≤ bytes.length)
    (hj : j < firstBlock ∨ firstBlock + (offset + data.length + blockSize - 1) / blockSize ≤ j) :
    chunk (splice bytes (firstBlock * blockSize + offset) data) j = chunk bytes j := by
  rw [chunk, chunk, slice_splice_of_apart hin]
  rw [show blockSize = 4096 from rfl] at hj ⊢
  omega

section
variable {sb : Superblock} {d : Disk} {s : Snapshot} (hs : Sound sb d s) {inode : PersistedInode}
  (hm : inode ∈ s.inodes)
  {new : List UInt8} {js : List Nat}
  (hjs : ∀ j < inode.blocks.length, j ∉ js → chunk new j = chunk (fileBytes d inode) j)

theorem getElem?_fileBlocks_chunk (hj : j < inode.blocks.length) :
    (fileBlocks d inode)[j]? = some (chunk (fileBytes d inode) j) :=
  getElem?_eq_chunk (by rwa [length_fileBlocks])

theorem length_overwrites {a m : Nat} (hk : a + m ≤ inode.blocks.length)
    (hout : ∀ j < inode.blocks.length, j < a ∨ a + m ≤ j → chunk new j = chunk (fileBytes d inode) j) :
    (overwrites d inode (chunk new) (List.range' a m)).length = changedChunks (fileBytes d inode) new := by
  have hsplit : List.range inode.blocks.length =
      List.range' 0 a ++ (List.range' a m ++ List.range' (a + m) (inode.blocks.length - (a + m))) := by
    have hfirst := @List.range'_append_1 0 a (m + (inode.blocks.length - (a + m)))
    rw [Nat.zero_add] at hfirst
    rw [List.range_eq_range', List.range'_append_1, hfirst]
    congr 1
    omega
  have hsame : ∀ b n, (∀ j, b ≤ j → j < b + n → chunk new j = chunk (fileBytes d inode) j) →
      (List.range' b n).countP (fun j => decide (chunk (fileBytes d inode) j ≠ chunk new j)) = 0 := by
    intro b n h
    refine List.countP_eq_zero.mpr fun j hj => ?_
    obtain ⟨h1, h2⟩ := List.mem_range'_1.mp hj
    simp [h j h1 h2]
  have hdiv : (fileBytes d inode).length / blockSize = inode.blocks.length := by
    rw [length_fileBytes]
    exact Nat.mul_div_cancel _ (by decide)
  have hbefore := hsame 0 a fun j _ hj => hout j (by omega) (.inl (by omega))
  have hafter := hsame (a + m) (inode.blocks.length - (a + m)) fun j h1 h2 => hout j (by omega) (.inr h1)
  rw [overwrites, List.length_filterMap_eq_countP, changedChunks, hdiv, hsplit, List.countP_append,
    List.countP_append, hbefore, hafter, Nat.zero_add, Nat.add_zero]
  refine List.countP_congr fun j hj => ?_
  have hlt : j < inode.blocks.length := by
    have := (List.mem_range'_1.mp hj).2
    omega
  rw [getElem?_fileBlocks_chunk hlt, List.getElem?_eq_getElem hlt]
  by_cases he : chunk (fileBytes d inode) j = chunk new j <;> simp [he]

include hs hm

theorem Sound.block_owner (ho : other ∈ s.inodes) (hb : b ∈ inode.blocks) (hb' : b ∈ other.blocks) :
    other = inode := by
  by_contra hne
  have : Std.Symm (Function.onFun List.Disjoint PersistedInode.blocks) := ⟨fun _ _ h => h.symm⟩
  exact (List.nodup_flatMap.mp hs.valid.owned.nodup).2.forall ho hm hne hb' hb

theorem Sound.block_index (hi : inode.blocks[i]? = some b) (hj : inode.blocks[j]? = some b) : i = j := by
  have hn := (List.nodup_flatMap.mp hs.valid.owned.nodup).1 inode hm
  exact (List.getElem?_inj (List.getElem?_eq_some_iff.mp hi).1 hn).mp (hi.trans hj.symm)

include hjs in
theorem Sound.getElem?_overwritten (hb : inode.blocks[j]? = some b) :
    (overlay d (homeWrites (overwrites d inode (chunk new) js)))[b.toNat]? = some (chunk new j) := by
  have hj := (List.getElem?_eq_some_iff.mp hb).1
  obtain ⟨x, hx, hfile⟩ := hs.fileBlock hm hb
  rw [getElem?_overlay, hx, Option.map_some]
  congr 1
  cases hw : lastWrite (homeWrites (overwrites d inode (chunk new) js)) b.toNat with
  | some y =>
    obtain ⟨w, hmem, hwb⟩ := List.mem_map.mp (lastWrite_mem hw)
    obtain ⟨i, -, -, hi, himage⟩ := mem_overwrites.mp hmem
    obtain ⟨hkey, rfl⟩ := Prod.mk.inj hwb
    rw [UInt64.toNat_inj.mp hkey] at hi
    rw [Option.getD_some, ← hs.block_index hm hi hb]
    exact himage
  | none =>
    -- the block was left out because it already held the image, or because the range does not reach it
    rw [Option.getD_none]
    by_contra hne
    refine lastWrite_eq_none.mp hw
      (List.mem_map.mpr ⟨(b.toNat, chunk new j), List.mem_map.mpr ⟨(b, chunk new j), ?_, rfl⟩, rfl⟩)
    refine mem_overwrites.mpr ⟨j, ?_, ?_, hb, rfl⟩
    · by_contra hout
      rw [getElem?_fileBlocks_chunk hj, ← hjs j hj hout] at hfile
      exact hne (Option.some.inj hfile).symm
    · rw [hfile]
      exact fun h => hne (Option.some.inj h)

theorem Sound.getElem?_not_overwritten (ho : other ∈ s.inodes) (hne : other ≠ inode)
    (hb : b ∈ other.blocks) (image : Nat → Block) :
    (overlay d (homeWrites (overwrites d inode image js)))[b.toNat]? = d[b.toNat]? := by
  apply getElem?_overlay_of_notMem
  intro hmem
  simp only [homeWrites, List.map_map, List.mem_map, Function.comp_apply] at hmem
  obtain ⟨w, hw, hwb⟩ := hmem
  obtain ⟨j, -, -, hj, -⟩ := mem_overwrites.mp hw
  rw [UInt64.toNat_inj.mp hwb] at hj
  exact hne (hs.block_owner hm ho (List.mem_of_getElem? hj) hb)

variable {d' : Disk}
  (hd : ∀ b, sb.dataRange.Contains b → d'[b]? = (overlay d (homeWrites (overwrites d inode (chunk new) js)))[b]?)
include hd

include hjs in
theorem Sound.fileBytes_overwritten (hlen : new.length = inode.blocks.length * blockSize) :
    fileBytes d' inode = new := by
  have hblocks : fileBlocks d' inode = (List.range inode.blocks.length).map (chunk new) := by
    refine List.ext_getElem? fun j => ?_
    rw [fileBlocks, List.getElem?_map, List.getElem?_map]
    cases hb : inode.blocks[j]? with
    | none =>
      have hge := List.getElem?_eq_none_iff.mp hb
      simp [hge]
    | some b =>
      have hj := (List.getElem?_eq_some_iff.mp hb).1
      rw [List.getElem?_range hj, Option.map_some, Option.map_some,
        hd _ (hs.data_block hm (List.mem_of_getElem? hb)), hs.getElem?_overwritten hm hjs hb, Option.getD_some]
  rw [fileBytes, hblocks, flatMap_chunk new hlen.ge, ← hlen, List.take_length]

theorem Sound.fileBytes_kept (ho : other ∈ s.inodes) (hne : other ≠ inode) :
    fileBytes d' other = fileBytes d other := by
  rw [fileBytes, fileBytes, fileBlocks, fileBlocks]
  refine congrArg (List.flatMap Block.bytes) (List.map_congr_left fun b hb => ?_)
  rw [hd _ (hs.data_block ho hb), hs.getElem?_not_overwritten hm ho hne hb]

end

/-! ## Writing a range -/

section
variable {s : Snapshot} {range : FileRangeEndpoint} {len : Nat} {inode : PersistedInode}
  (hr : FileRange s range len inode)
include hr

theorem FileRange.blocks_le :
    range.firstBlock + (range.offset + len + blockSize - 1) / blockSize ≤ inode.blocks.length :=
  (range_in_blocks (Nat.pos_of_ne_zero hr.nonempty)).mpr hr.stop_le

theorem FileRange.start_le {d : Disk} : range.start + len ≤ (fileBytes d inode).length := by
  rw [length_fileBytes]
  exact hr.stop_le

end

structure Rewritten (sb : Superblock) (s : Snapshot) (d d' : Disk) (inode : PersistedInode)
    (new : List UInt8) : Prop where
  loads : Loads sb d' s
  bytes : fileBytes d' inode = new
  others : ∀ other ∈ s.inodes, other ≠ inode → fileBytes d' other = fileBytes d other

section
variable {sb : Superblock} {d d' : Disk} {s : Snapshot} (hs : Sound sb d s) {inode : PersistedInode}
  {r : RecoveryReport}
include hs

theorem Sound.overwrites_data (hm : inode ∈ s.inodes) (image : Nat → Block) (js : List Nat) :
    ∀ w ∈ overwrites d inode image js, sb.dataRange.Contains w.1.toNat := by
  intro w hw
  obtain ⟨j, -, -, hj, -⟩ := mem_overwrites.mp hw
  exact hs.data_block hm (List.mem_of_getElem? hj)

theorem Sound.writeFileBlocks_ok {inodeId : UInt64} (ht : TargetFile s inodeId inode)
    (hne : js ≠ []) (hn : js.Nodup) (hjs : ∀ j ∈ js, j < inode.blocks.length) :
    (writeFileBlocksJournaled sb inodeId (js.map fun j => (j, image j))).runOn d = (.ok r, d') ↔
      (overwrites d inode image js = [] ∧ r = ⟨0, 0⟩ ∧ d' = d) ∨
      overwrites d inode image js ≠ [] ∧
        ∃ t : Publication sb d, t.changed = overwrites d inode image js ∧ r = ⟨1, t.changed.length⟩ ∧
          d' = t.cleared := by
  have hw := (readSuperblock_eq_ok.mp hs.superblock).2.1
  have hfile := (fileInode_iff hs.loads.ids_nodup).mpr ht
  have hcollect := hs.collectOverwrites ht.mem image js [] hn fun j hj => ⟨hjs j hj, List.not_mem_nil⟩
  rw [writeFileBlocksJournaled, runOn_check (require_pos (by simpa using hne)), (read_ok hs.loads.inodes _).1,
    runOn_check hfile, (read_ok hs.loads.allocator _).1, (read_ok hcollect _).1]
  by_cases he : overwrites d inode image js = []
  · simp [he, eq_comm]
  · rw [if_neg he, Publication.publish_clears_ok hw.homesApart]
    simp only [he, false_and, false_or, ne_eq, not_false_eq_true, true_and]
    refine exists_congr fun t => and_congr_right fun ht => ?_
    rw [ht]

theorem Sound.rewritten {new : List UInt8} (hm : inode ∈ s.inodes)
    (hlen : new.length = inode.blocks.length * blockSize)
    (hjs : ∀ j < inode.blocks.length, j ∉ js → chunk new j = chunk (fileBytes d inode) j)
    (hd : (overwrites d inode (chunk new) js = [] ∧ d' = d) ∨
      ∃ t : Publication sb d, t.changed = overwrites d inode (chunk new) js ∧ d' = t.cleared) :
    Rewritten sb s d d' inode new := by
  obtain ⟨-, hw, hl⟩ := readSuperblock_eq_ok.mp hs.superblock
  have hload := hs.loads.keep hw hl (hs.overwrites_data hm (chunk new) js)
  have hdata : ∀ b, sb.dataRange.Contains b →
      d'[b]? = (overlay d (homeWrites (overwrites d inode (chunk new) js)))[b]? := by
    intro b hb
    rcases hd with ⟨he, rfl⟩ | ⟨t, ht, rfl⟩
    · rw [he]
      rfl
    · rw [← ht]
      exact t.cleared_outside (hw.homesApart _ ⟨hw.endsFit, .inr (.inr (.inr hb))⟩).2
  refine ⟨?_, hs.fileBytes_overwritten hm hjs hdata hlen, fun other ho hne => hs.fileBytes_kept hm hdata ho hne⟩
  rcases hd with ⟨-, rfl⟩ | ⟨t, ht, rfl⟩
  · exact hs.loads
  · rw [← ht] at hload
    exact t.sameHome_cleared.loads hw hload

theorem Sound.writeFileRange_batch :
    (writeFileRangeJournaled sb range.inode range.firstBlock range.offset data).runOn d = (.ok r, d') ↔
      ∃ inode, FileRange s range data.length inode ∧ (writeFileBlocksJournaled sb range.inode
        ((List.range' range.firstBlock ((range.offset + data.length + blockSize - 1) / blockSize)).map fun j =>
          (j, chunk (splice (fileBytes d inode) range.start data) j))).runOn d = (.ok r, d') := by
  simp only [writeFileRangeJournaled, liftM_eq, runOn_read_eq_ok, eval_lift, require_eq_ok, exists_const]
  constructor
  · rintro ⟨⟨hdata, hoff⟩, -, writes, hloop, hrun⟩
    have hpos := List.length_pos_iff.mpr hdata
    by_cases ht : ∃ inode, TargetFile s range.inode inode
    · obtain ⟨inode, ht⟩ := ht
      rw [patchBlocks_whole (hs.readFileBlock_of_target ht) (hs.fileBlocks_lt ht.mem) hoff hpos,
        length_fileBlocks] at hloop
      obtain ⟨hin, rfl⟩ := hloop
      exact ⟨inode, ⟨ht, hpos.ne', hoff, hin⟩, hrun⟩
    · rw [patchBlocks_whole (hs.readFileBlock_of_none fun inode h => ht ⟨inode, h⟩) (by simp) hoff hpos] at hloop
      rw [List.length_nil] at hloop
      omega
  · rintro ⟨inode, hr, hrun⟩
    have hb := hs.blocks_lt hr.target.mem
    have hin := hr.stop_le
    refine ⟨⟨List.ne_nil_of_length_pos (Nat.pos_of_ne_zero hr.nonempty), hr.offset_lt⟩, by omega, _, ?_, hrun⟩
    rw [patchBlocks_whole (hs.readFileBlock_of_target hr.target) (hs.fileBlocks_lt hr.target.mem) hr.offset_lt
      (Nat.pos_of_ne_zero hr.nonempty), length_fileBlocks]
    exact ⟨hin, rfl⟩

theorem Sound.writeFileRange_plan (hr : FileRange s range data.length inode) :
    ∃ js changed, changed = overwrites d inode (chunk (splice (fileBytes d inode) range.start data)) js ∧
      changed.length = changedChunks (fileBytes d inode) (splice (fileBytes d inode) range.start data) ∧
      (∀ j < inode.blocks.length, j ∉ js →
        chunk (splice (fileBytes d inode) range.start data) j = chunk (fileBytes d inode) j) ∧
      ∀ r d', (writeFileRangeJournaled sb range.inode range.firstBlock range.offset data).runOn d = (.ok r, d') ↔
        (changed = [] ∧ r = ⟨0, 0⟩ ∧ d' = d) ∨ changed ≠ [] ∧
          ∃ t : Publication sb d, t.changed = changed ∧ r = ⟨1, t.changed.length⟩ ∧ d' = t.cleared := by
  have hpos := Nat.pos_of_ne_zero hr.nonempty
  have hk := hr.blocks_le
  have hout : ∀ j, j < range.firstBlock ∨ range.firstBlock +
      (range.offset + data.length + blockSize - 1) / blockSize ≤ j →
      chunk (splice (fileBytes d inode) range.start data) j = chunk (fileBytes d inode) j :=
    fun j hj => chunk_splice_of_apart hr.start_le hj
  refine ⟨List.range' range.firstBlock ((range.offset + data.length + blockSize - 1) / blockSize), _, rfl,
    length_overwrites hk fun j _ => hout j, fun j _ hj => hout j ?_, fun r d' => ?_⟩
  · rw [List.mem_range'_1] at hj
    omega
  · rw [hs.writeFileRange_batch, ← hs.writeFileBlocks_ok hr.target
      (by simpa using range_blocks_pos hpos) List.nodup_range'
      fun j hj => by
        rw [List.mem_range'_1] at hj
        omega]
    constructor
    · rintro ⟨other, ho, hrun⟩
      obtain rfl := hr.target.unique hs.loads.ids_nodup ho.target
      exact hrun
    · intro hrun
      exact ⟨inode, hr, hrun⟩

theorem Sound.journalRoom_zero : JournalRoom sb 0 := by
  obtain ⟨es, hes⟩ := hs.journal
  have hne := (validateRegion_eq_ok.mp (loadJournalImage_eq_ok.mp hes).1).2.2.1
  have hpos : 0 < sb.journalBlocks.toNat := Nat.pos_of_ne_zero fun h => hne (UInt64.toNat_inj.mp h)
  rw [JournalRoom, show blockSize = 4096 from rfl, regionHeaderSize, recordHeaderSize]
  omega

theorem Sound.writeFileRange_succeeds_iff :
    (∃ r d', (writeFileRangeJournaled sb range.inode range.firstBlock range.offset data).runOn d = (.ok r, d')) ↔
      ∃ inode, FileRange s range data.length inode ∧
        JournalRoom sb (changedChunks (fileBytes d inode) (splice (fileBytes d inode) range.start data)) := by
  constructor
  · rintro ⟨r, d', hrun⟩
    obtain ⟨inode, hr, -⟩ := hs.writeFileRange_batch.mp hrun
    obtain ⟨js, changed, hc, hlen, -, hok⟩ := hs.writeFileRange_plan hr
    refine ⟨inode, hr, ?_⟩
    rw [← hlen]
    rcases (hok r d').mp hrun with ⟨rfl, -⟩ | ⟨-, t, ht, -⟩
    · exact hs.journalRoom_zero
    · rw [← hs.journal_room (hc ▸ hs.overwrites_data hr.target.mem _ _), ← ht]
      exact ⟨_, t.accepted⟩
  · rintro ⟨inode, hr, hroom⟩
    obtain ⟨js, changed, hc, hlen, -, hok⟩ := hs.writeFileRange_plan hr
    by_cases he : changed = []
    · exact ⟨_, _, (hok _ _).mpr (.inl ⟨he, rfl, rfl⟩)⟩
    · rw [← hlen, ← hs.journal_room (hc ▸ hs.overwrites_data hr.target.mem _ _)] at hroom
      obtain ⟨image, hi⟩ := hroom
      exact ⟨_, _, (hok _ _).mpr (.inr ⟨he, ⟨changed, image, hi⟩, rfl, rfl, rfl⟩)⟩

theorem Sound.writeFileRange_rewrites
    (hrun : (writeFileRangeJournaled sb range.inode range.firstBlock range.offset data).runOn d = (.ok r, d')) :
    ∃ inode, FileRange s range data.length inode ∧
      Rewritten sb s d d' inode (splice (fileBytes d inode) range.start data) := by
  obtain ⟨inode, hr, -⟩ := hs.writeFileRange_batch.mp hrun
  obtain ⟨js, changed, hc, -, hjs, hok⟩ := hs.writeFileRange_plan hr
  refine ⟨inode, hr, hs.rewritten hr.target.mem ?_ hjs ?_⟩
  · rw [length_splice hr.start_le, length_fileBytes]
  · rcases (hok r d').mp hrun with ⟨he, -, hd⟩ | ⟨-, t, ht, -, hd⟩
    · exact .inl ⟨hc ▸ he, hd⟩
    · exact .inr ⟨t, ht.trans hc, hd⟩

end

/-! ## The operations on a valid device -/

section
variable {sb : Superblock} {d d' : Disk} {s : Snapshot} (hs : Sound sb d s) {source destination : FileRangeEndpoint}
include hs

theorem Sound.copyFileRange_run {r : RecoveryReport} :
    (copyFileRangeJournaled sb source destination len).runOn d = (.ok r, d') ↔
      ∃ src, FileRange s source len src ∧ (writeFileRangeJournaled sb destination.inode destination.firstBlock
        destination.offset (slice (fileBytes d src) source.start (source.start + len))).runOn d = (.ok r, d') := by
  rw [copyFileRangeJournaled, runOn_read_eq_ok]
  simp only [hs.readFileRange_ok]
  constructor
  · rintro ⟨bytes, ⟨src, hr, rfl⟩, hrun⟩
    exact ⟨src, hr, hrun⟩
  · rintro ⟨src, hr, hrun⟩
    exact ⟨_, ⟨src, hr, rfl⟩, hrun⟩

theorem Sound.writeFileRange_rejected_iff :
    (∃ e, (writeFileRangeJournaled sb range.inode range.firstBlock range.offset data).eval d = .error e) ↔
      data = [] ∨ blockSize ≤ range.offset ∨ (∀ inode, ¬ TargetFile s range.inode inode) ∨
        ∃ inode, TargetFile s range.inode inode ∧ (inode.blocks.length * blockSize < range.start + data.length ∨
          ¬ JournalRoom sb (changedChunks (fileBytes d inode) (splice (fileBytes d inode) range.start data))) := by
  have hdual :
    (∃ e, (writeFileRangeJournaled sb range.inode range.firstBlock range.offset data).eval d = .error e) ↔
      ¬ ∃ r d', (writeFileRangeJournaled sb range.inode range.firstBlock range.offset data).runOn d =
        (.ok r, d') := by
    rw [eval]
    rcases (writeFileRangeJournaled sb range.inode range.firstBlock range.offset data).runOn d with
      ⟨_ | _, _⟩ <;> simp
  rw [hdual, hs.writeFileRange_succeeds_iff]
  constructor
  · intro h
    by_contra hnone
    push Not at hnone
    obtain ⟨hdata, hoff, ⟨inode, ht⟩, hfit⟩ := hnone
    obtain ⟨hin, hroom⟩ := hfit inode ht
    exact h ⟨inode, ⟨ht, fun h => hdata (List.eq_nil_of_length_eq_zero h), hoff, hin⟩, hroom⟩
  · rintro h ⟨inode, hr, hroom⟩
    rcases h with rfl | hoff | hnone | ⟨other, ho, hfail⟩
    · exact hr.nonempty rfl
    · exact absurd hr.offset_lt (Nat.not_lt.mpr hoff)
    · exact hnone inode hr.target
    · obtain rfl := hr.target.unique hs.loads.ids_nodup ho
      rcases hfail with hlong | hroom'
      · exact absurd hr.stop_le (Nat.not_le.mpr hlong)
      · exact hroom' hroom

end

/-- On a valid device files are byte arrays: a write is a splice, a read is a slice, and a copy splices in the slice
as it was before the call. -/
theorem byteRange_io {sb : Superblock} {d : Disk} (hsb : readSuperblock.eval d = .ok sb)
    (hcheck : ∃ report, checkDevice.eval d = .ok report) {s : Snapshot} (hload : Loads sb d s) :
    (∀ (range : FileRangeEndpoint) (data : List UInt8),
      ((∃ e, (writeFileRangeJournaled sb range.inode range.firstBlock range.offset data).eval d = .error e) ↔
        data = [] ∨ blockSize ≤ range.offset ∨ (∀ inode, ¬ TargetFile s range.inode inode) ∨
          ∃ inode, TargetFile s range.inode inode ∧ (inode.blocks.length * blockSize < range.start + data.length ∨
            ¬ JournalRoom sb (changedChunks (fileBytes d inode) (splice (fileBytes d inode) range.start data)))) ∧
      ∀ r d', (writeFileRangeJournaled sb range.inode range.firstBlock range.offset data).runOn d = (.ok r, d') →
        ∃ inode, FileRange s range data.length inode ∧
          Rewritten sb s d d' inode (splice (fileBytes d inode) range.start data)) ∧
    (∀ (range : FileRangeEndpoint) (len : Nat) (bytes : List UInt8),
      (readFileRange sb range.inode range.firstBlock range.offset len).eval d = .ok bytes ↔
        ∃ inode, FileRange s range len inode ∧ bytes = slice (fileBytes d inode) range.start (range.start + len)) ∧
    ∀ (source destination : FileRangeEndpoint) (len : Nat),
      ((∃ r d', (copyFileRangeJournaled sb source destination len).runOn d = (.ok r, d')) ↔
        ∃ src dst, FileRange s source len src ∧ FileRange s destination len dst ∧
          JournalRoom sb (changedChunks (fileBytes d dst) (splice (fileBytes d dst) destination.start
            (slice (fileBytes d src) source.start (source.start + len))))) ∧
      ∀ r d', (copyFileRangeJournaled sb source destination len).runOn d = (.ok r, d') →
        ∃ src dst, FileRange s source len src ∧ FileRange s destination len dst ∧
          Rewritten sb s d d' dst (splice (fileBytes d dst) destination.start
            (slice (fileBytes d src) source.start (source.start + len))) := by
  obtain ⟨s', hs⟩ := (sound_iff hsb).mpr hcheck
  cases hs.loads.unique hload
  have hread : ∀ {range : FileRangeEndpoint} {len : Nat} {src : PersistedInode}, FileRange s range len src →
      (slice (fileBytes d src) range.start (range.start + len)).length = len := by
    intro range len src hr
    rw [length_slice_of_le hr.start_le]
    omega
  refine ⟨fun range data => ⟨hs.writeFileRange_rejected_iff, fun r d' hrun => hs.writeFileRange_rewrites hrun⟩,
    fun range len bytes => hs.readFileRange_ok, fun source destination len => ⟨?_, fun r d' hrun => ?_⟩⟩
  · simp only [hs.copyFileRange_run]
    constructor
    · rintro ⟨r, d', src, hsrc, hrun⟩
      obtain ⟨dst, hdst, hroom⟩ := hs.writeFileRange_succeeds_iff.mp ⟨r, d', hrun⟩
      exact ⟨src, dst, hsrc, hread hsrc ▸ hdst, hroom⟩
    · rintro ⟨src, dst, hsrc, hdst, hroom⟩
      obtain ⟨r, d', hrun⟩ := hs.writeFileRange_succeeds_iff.mpr ⟨dst, (hread hsrc).symm ▸ hdst, hroom⟩
      exact ⟨r, d', src, hsrc, hrun⟩
  · obtain ⟨src, hsrc, hrun⟩ := hs.copyFileRange_run.mp hrun
    obtain ⟨dst, hdst, hnew⟩ := hs.writeFileRange_rewrites hrun
    exact ⟨src, dst, hsrc, hread hsrc ▸ hdst, hnew⟩

theorem byteRange_io_straddles : ∃ d, Loads wideGeometry d wideSnapshot ∧
    ∃ r d', (writeFileRangeJournaled wideGeometry 2 0 4095 [7, 8]).runOn d = (.ok r, d') ∧
      ∃ inode, Rewritten wideGeometry wideSnapshot d d' inode (splice (fileBytes d inode) 4095 [7, 8]) := by
  obtain ⟨d, hs⟩ := sound_wideSnapshot
  obtain ⟨hwrite, -, -⟩ := byteRange_io hs.superblock ((sound_iff hs.superblock).mp ⟨_, hs⟩) hs.loads
  obtain ⟨hiff, hok⟩ := hwrite ⟨2, 0, 4095⟩ [7, 8]
  have htarget : TargetFile wideSnapshot 2 ⟨2, .file, [14, 15]⟩ := ⟨by decide, rfl, rfl⟩
  have haccepted : ¬ ∃ e, (writeFileRangeJournaled wideGeometry 2 0 4095 [7, 8]).eval d = .error e := by
    rw [hiff]
    rintro (h | h | h | ⟨inode, ht, h⟩)
    · cases h
    · exact absurd h (by decide)
    · exact h _ htarget
    · obtain rfl := htarget.unique hs.loads.ids_nodup ht
      rcases h with h | h
      · exact absurd h (by decide)
      · refine h (JournalRoom.mono (changedChunks_le d _ _) ?_)
        rw [JournalRoom]
        decide
  cases hrun : (writeFileRangeJournaled wideGeometry 2 0 4095 [7, 8]).runOn d with
  | mk r d' =>
    cases r with
    | error e => exact absurd ⟨e, congrArg Prod.fst hrun⟩ haccepted
    | ok r =>
      obtain ⟨inode, -, hnew⟩ := hok r d' hrun
      exact ⟨d, hs.loads, r, d', hrun, inode, hnew⟩

end SystemsLab.Fs
