import SystemsLab.Fs.AllocationDisk
import SystemsLab.Fs.Recovery
import SystemsLab.Fs.Table

/-!
# Rendering a transaction

The wanted tables are stored on a device in memory and compared with the real one: the blocks that differ are what
the transaction writes.
-/

namespace SystemsLab.Fs

open Prog

structure CaptureDevice where
  blockCount : Nat
  blocks : Std.ExtTreeMap Nat Block

variable {c : CaptureDevice}

namespace CaptureDevice

def new (blockCount : Nat) : CaptureDevice := ⟨blockCount, ∅⟩

instance : BlockDevice CaptureDevice Block IoError where
  blockCount := CaptureDevice.blockCount
  readBlock c b :=
    if b < c.blockCount then .ok (c.blocks[b]?.getD Block.zero)
    else .error (unexpectedEof "capture-device read is out of range")
  writeBlock c b x :=
    if b < c.blockCount then (.ok (), { c with blocks := c.blocks.insert b x })
    else (.error (unexpectedEof "capture-device write is out of range"), c)
  flush c := (.ok (), c)

variable (capture : CaptureDevice)

def render (store : FsProg Unit) : Except IoError CaptureDevice :=
  match store.runOn capture with
  | (.ok _, capture) => .ok capture
  | (.error e, _) => .error e

def takeRenderedBlock (b : Nat) (missing : String) : Except IoError (Block × CaptureDevice) := do
  let x ← okOr (invalidData missing) capture.blocks[b]?
  pure (x, { capture with blocks := capture.blocks.erase b })

def collectChanged (missing : String) : List Nat → CaptureDevice → List (UInt64 × Block) →
    FsProg (CaptureDevice × List (UInt64 × Block))
  | [], capture, changed => pure (capture, changed)
  | b :: bs, capture, changed => do
    let (desired, capture) ← capture.takeRenderedBlock b missing
    let current ← getBlock b
    collectChanged missing bs capture
      (if current = desired then changed else changed ++ [(UInt64.ofNat b, desired)])

def collectChangedRange (range : BlockRange) (missing : String)
    (changed : List (UInt64 × Block)) : FsProg (CaptureDevice × List (UInt64 × Block)) :=
  collectChanged missing (List.range' range.start range.size) capture changed

def ensureEmpty (unexpected : String) : Except IoError Unit :=
  require (capture.blocks.isEmpty = true) (invalidData unexpected)

def collectRegions : List (BlockRange × String) → CaptureDevice → List (UInt64 × Block) →
    FsProg (CaptureDevice × List (UInt64 × Block))
  | [], capture, changed => pure (capture, changed)
  | (range, missing) :: regions, capture, changed => do
    let (capture, changed) ← capture.collectChangedRange range missing changed
    collectRegions regions capture changed

def collectTables (regions : List (BlockRange × String)) (unexpected : String) :
    FsProg (List (UInt64 × Block)) := do
  let (capture, changed) ← collectRegions regions capture []
  capture.ensureEmpty unexpected
  pure changed

/-! ## Stores on the capture device -/

theorem runOn_putBlocks {ws : List (Nat × Block)} (h : ∀ w ∈ ws, w.1 < c.blockCount) :
    (putBlocks ws : FsProg Unit).runOn c = (.ok (), { c with blocks := insertAll c.blocks ws }) := by
  induction ws generalizing c with
  | nil => rfl
  | cons w ws ih =>
    have hw : (putBlock w.1 w.2 : FsProg Unit).runOn c =
        (.ok (), { c with blocks := c.blocks.insert w.1 w.2 }) := by
      simp only [putBlock, runOn, BlockDevice.writeBlock, if_pos (h w List.mem_cons_self), runOn_lift]
    rw [putBlocks, runOn_bind_ok hw]
    exact ih fun v hv => h v (List.mem_cons_of_mem _ hv)

def withRegion (range : BlockRange) (image : List UInt8) : CaptureDevice :=
  { capture with blocks := insertAll capture.blocks (regionWrites range.start range.size image) }

theorem render_storeRegion {check : FsProg (List UInt8)} [check.Reads] (range : BlockRange) {n : Nat}
    (hn : range.stop = range.start + n) (hle : range.stop ≤ c.blockCount) :
    c.render (storeRegion check range.start n) =
      (check.eval c >>= fun image => pure (c.withRegion range image)) := by
  have hsize : range.size = n := by rw [BlockRange.size, hn, Nat.add_sub_cancel_left]
  rw [render, storeRegion, runOn_read]
  cases hce : check.eval c with
  | error e => rfl
  | ok image =>
    have hw : (writeRegion range.start n image).runOn c = (.ok (), c.withRegion range image) := by
      rw [withRegion, hsize]
      refine runOn_putBlocks fun w hw => ?_
      obtain ⟨i, hi, rfl⟩ := mem_regionWrites.mp hw
      simp only; omega
    simp only [runOn_bind_ok hw]
    rfl

/-! ## Collecting -/

def changes (d : Disk) (want : Nat → Block) (bs : List Nat) : List (UInt64 × Block) :=
  bs.filterMap fun b => if d[b]? = some (want b) then none else some (UInt64.ofNat b, want b)

instance (missing : String) (bs : List Nat) (c : CaptureDevice) (changed : List (UInt64 × Block)) :
    (collectChanged missing bs c changed).Reads := by
  induction bs generalizing c changed with
  | nil | cons b bs ih => unfold collectChanged; infer_instance

theorem eval_collectChanged {missing : String} {d : Disk} {want : Nat → Block} :
    ∀ {bs : List Nat} {c : CaptureDevice}
    (changed : List (UInt64 × Block)), bs.Nodup → (∀ b ∈ bs, b < d.length ∧ c.blocks[b]? = some (want b)) →
    ∃ c', (collectChanged missing bs c changed).eval d = .ok (c', changed ++ changes d want bs) ∧
      c'.blockCount = c.blockCount ∧ ∀ b, c'.blocks[b]? = if b ∈ bs then none else c.blocks[b]?
  | [], c, changed, _, _ => ⟨c, by simp [collectChanged, changes], rfl, by simp⟩
  | b :: bs, c, changed, hn, h => by
    obtain ⟨hnb, hn⟩ := List.nodup_cons.mp hn
    obtain ⟨⟨hl, hb⟩, h⟩ := List.forall_mem_cons.mp h
    have hd : d[b]? = some d[b] := List.getElem?_eq_getElem hl
    have herase : ∀ k, (c.blocks.erase b)[k]? = if b = k then none else c.blocks[k]? := fun k => by
      simp [Std.ExtTreeMap.getElem?_erase]
    have hrest : ∀ k ∈ bs, k < d.length ∧ (c.blocks.erase b)[k]? = some (want k) := fun k hk => by
      have hbk : b ≠ k := fun he => hnb (he ▸ hk)
      rw [herase, if_neg hbk]
      exact h k hk
    obtain ⟨c', he, hcount, hc'⟩ := @eval_collectChanged missing d want bs { c with blocks := c.blocks.erase b }
      (if d[b] = want b then changed else changed ++ [(UInt64.ofNat b, want b)]) hn hrest
    refine ⟨c', ?_, hcount, fun k => ?_⟩
    · rw [collectChanged, liftM_eq, takeRenderedBlock, hb, okOr_some]
      simp only [except_bind_ok, eval_bind, eval_lift, except_pure_eq, eval_getBlock, hd, okOr_some, he,
        Except.ok.injEq, Prod.mk.injEq, true_and]
      by_cases hw : d[b] = want b
      · simp [changes, hl, hw]
      · simp [changes, hl, hw]
    · rw [hc', herase]
      by_cases hk : k ∈ bs
      · simp [hk]
      · by_cases hbk : b = k
        · simp [hbk]
        · simp [hk, hbk, Ne.symm hbk]

theorem ensureEmpty_eq_ok (h : ∀ b : Nat, c.blocks[b]? = none) (unexpected : String) :
    c.ensureEmpty unexpected = .ok () := by
  refine require_pos ?_
  have he : c.blocks = ∅ := Std.ExtTreeMap.ext_getElem? fun b => by simpa using h b
  simp [he]

end CaptureDevice

/-! ## Regions -/

open CaptureDevice

def regionChanges (d : Disk) (range : BlockRange) (image : List UInt8) : List (UInt64 × Block) :=
  changes d (fun b => chunk image (b - range.start)) (List.range' range.start range.size)

variable {range : BlockRange} {image : List UInt8}

theorem eval_collectChangedRange {missing : String} {d : Disk}
    (changed : List (UInt64 × Block)) (hd : range.stop ≤ d.length)
    (h : ∀ b, range.Contains b → c.blocks[b]? = some (chunk image (b - range.start))) :
    ∃ c', (c.collectChangedRange range missing changed).eval d = .ok (c', changed ++ regionChanges d range image) ∧
      c'.blockCount = c.blockCount ∧ ∀ b, c'.blocks[b]? = if range.Contains b then none else c.blocks[b]? := by
  have hmem : ∀ b, b ∈ List.range' range.start range.size ↔ range.Contains b := fun b => by
    simp only [List.mem_range'_1, BlockRange.size, BlockRange.Contains]; omega
  obtain ⟨c', he, hcount, hc'⟩ := @eval_collectChanged missing d (fun b => chunk image (b - range.start))
    (List.range' range.start range.size) c changed List.nodup_range' fun b hb =>
      ⟨Nat.lt_of_lt_of_le ((hmem b).mp hb).2 hd, h b ((hmem b).mp hb)⟩
  exact ⟨c', he, hcount, fun b => by rw [hc']; simp only [hmem]⟩

instance (regions : List (BlockRange × String)) (c : CaptureDevice) (changed : List (UInt64 × Block)) :
    (collectRegions regions c changed).Reads := by
  induction regions generalizing c changed with
  | nil => unfold collectRegions; infer_instance
  | cons r regions ih => unfold collectRegions collectChangedRange; infer_instance

instance (c : CaptureDevice) (regions : List (BlockRange × String)) (unexpected : String) :
    (c.collectTables regions unexpected).Reads := by
  unfold collectTables; infer_instance

theorem eval_collectRegions {d : Disk} : ∀ {regions : List (BlockRange × String × List UInt8)} {c : CaptureDevice}
    (changed : List (UInt64 × Block)), (∀ r ∈ regions, r.1.stop ≤ d.length) →
    (regions.Pairwise fun r r' => ∀ b, r.1.Contains b → ¬ r'.1.Contains b) →
    (∀ r ∈ regions, ∀ b, r.1.Contains b → c.blocks[b]? = some (chunk r.2.2 (b - r.1.start))) →
    ∃ c', (collectRegions (regions.map fun r => (r.1, r.2.1)) c changed).eval d =
        .ok (c', changed ++ regions.flatMap fun r => regionChanges d r.1 r.2.2) ∧
      ∀ b, c'.blocks[b]? = if ∃ r ∈ regions, r.1.Contains b then none else c.blocks[b]?
  | [], c, changed, _, _, _ => ⟨c, by simp [collectRegions], by simp⟩
  | (range, missing, image) :: regions, c, changed, hd, hp, h => by
    obtain ⟨hd1, hd⟩ := List.forall_mem_cons.mp hd
    obtain ⟨hp1, hp⟩ := List.pairwise_cons.mp hp
    obtain ⟨h1, h⟩ := List.forall_mem_cons.mp h
    obtain ⟨c₁, he₁, -, hc₁⟩ := @eval_collectChangedRange c range image missing d changed hd1 h1
    -- The other regions are still rendered: they lie apart from this one.
    have hrest : ∀ r ∈ regions, ∀ b, r.1.Contains b → c₁.blocks[b]? = some (chunk r.2.2 (b - r.1.start)) := by
      intro r hr b hb
      rw [hc₁, if_neg fun hb' => hp1 r hr b hb' hb]
      exact h r hr b hb
    obtain ⟨c', he, hc'⟩ := eval_collectRegions (changed ++ regionChanges d range image) hd hp hrest
    refine ⟨c', ?_, fun b => ?_⟩
    · rw [List.map_cons, collectRegions, CaptureDevice.collectChangedRange, eval_bind,
        ← CaptureDevice.collectChangedRange, he₁, except_bind_ok, he, List.flatMap_cons, List.append_assoc]
    · rw [hc', hc₁]
      by_cases hb : range.Contains b
      · simp [hb]
      · by_cases hx : ∃ r ∈ regions, r.1.Contains b
        · rw [if_pos hx, if_pos (List.exists_mem_cons_of_exists hx)]
        · rw [if_neg hx, if_neg hb, if_neg]
          rintro ⟨r, hr, hrb⟩
          rcases List.mem_cons.mp hr with rfl | hr
          · exact hb hrb
          · exact hx ⟨r, hr, hrb⟩

theorem lastWrite_regionWrites_eq (range : BlockRange) (image : List UInt8) (b : Nat) :
    lastWrite (regionWrites range.start range.size image) b =
      if range.Contains b then some (chunk image (b - range.start)) else none := by
  by_cases hb : range.Contains b
  · rw [if_pos hb]
    simp only [BlockRange.Contains] at hb
    exact lastWrite_regionWrites image (by simp only [BlockRange.size]; omega)
  · rw [if_neg hb, lastWrite_eq_none, keys_regionWrites]
    simp only [BlockRange.Contains, BlockRange.size] at hb ⊢
    omega

def rendered (blocks : Std.ExtTreeMap Nat Block) (regions : List (BlockRange × String × List UInt8)) :
    Std.ExtTreeMap Nat Block :=
  regions.foldl (fun bs r => insertAll bs (regionWrites r.1.start r.1.size r.2.2)) blocks

theorem getElem?_rendered {regions : List (BlockRange × String × List UInt8)} (blocks : Std.ExtTreeMap Nat Block)
    (hp : regions.Pairwise fun r r' => ∀ b, r.1.Contains b → ¬ r'.1.Contains b) :
    (∀ r ∈ regions, ∀ b, r.1.Contains b → (rendered blocks regions)[b]? = some (chunk r.2.2 (b - r.1.start))) ∧
      ∀ b, (∀ r ∈ regions, ¬ r.1.Contains b) → (rendered blocks regions)[b]? = blocks[b]? := by
  induction regions generalizing blocks with
  | nil => simp [rendered]
  | cons r regions ih =>
    obtain ⟨hr, hp⟩ := List.pairwise_cons.mp hp
    obtain ⟨hin, hout⟩ := ih (insertAll blocks (regionWrites r.1.start r.1.size r.2.2)) hp
    simp only [List.forall_mem_cons]
    refine ⟨⟨fun b hb => (hout b fun r' hr' => hr r' hr' b hb).trans ?_, hin⟩, fun b hb => (hout b hb.2).trans ?_⟩
    · simp [getElem?_insertAll, lastWrite_regionWrites_eq, hb]
    · simp [getElem?_insertAll, lastWrite_regionWrites_eq, hb.1]

theorem eval_collectTables {d : Disk} (regions : List (BlockRange × String × List UInt8))
    (hd : ∀ r ∈ regions, r.1.stop ≤ d.length)
    (hp : regions.Pairwise fun r r' => ∀ b, r.1.Contains b → ¬ r'.1.Contains b) (n : Nat) (unexpected : String) :
    (CaptureDevice.collectTables ⟨n, rendered ∅ regions⟩ (regions.map fun r => (r.1, r.2.1)) unexpected).eval d =
      .ok (regions.flatMap fun r => regionChanges d r.1 r.2.2) := by
  obtain ⟨h, hout⟩ := getElem?_rendered ∅ hp
  obtain ⟨c', he, hc'⟩ := @eval_collectRegions d regions ⟨n, rendered ∅ regions⟩ [] hd hp h
  have hempty : c'.ensureEmpty unexpected = .ok () := by
    refine ensureEmpty_eq_ok (fun b => ?_) unexpected
    rw [hc']
    split
    · rfl
    · rename_i hb
      exact (hout b fun r hr hrb => hb ⟨r, hr, hrb⟩).trans (by simp)
  rw [collectTables, eval_bind, he, except_bind_ok]
  simp only [eval_bind, eval_liftM, hempty, except_bind_ok, List.nil_append]
  rfl

theorem eval_checkAllocator {sb : Superblock} (hc : c.blockCount = sb.totalBlocks.toNat)
    (a : BlockAllocator) : (checkAllocator sb a).eval c = encodeAllocator sb a := by
  have hv : validateAllocationGeometry c.blockCount sb = .ok () := require_pos hc
  simp only [checkAllocator, eval_bind, eval_liftM]
  rw [show (count : FsProg Nat).eval c = .ok c.blockCount from rfl, except_bind_ok, hv, except_bind_ok]

theorem TableFormat.eval_checkStore {α κ : Type} [DecidableEq κ] (f : TableFormat α κ) {sb : Superblock}
    (hc : f.validateGeometry c.blockCount sb = .ok ()) (as : List α) :
    (f.checkStore sb as).eval c = f.encodeImage sb as := by
  simp only [checkStore, eval_bind, eval_liftM]
  rw [show (count : FsProg Nat).eval c = .ok c.blockCount from rfl, except_bind_ok, hc, except_bind_ok]

section
variable {sb : Superblock} (hw : sb.WellFormed)
include hw

theorem Superblock.WellFormed.ranges : sb.journalRange.start = 1 ∧ sb.journalRange.stop = sb.allocationRange.start ∧
    sb.allocationRange.start ≤ sb.allocationRange.stop ∧ sb.allocationRange.stop = sb.inodeRange.start ∧
    sb.inodeRange.start ≤ sb.inodeRange.stop ∧ sb.inodeRange.stop = sb.directoryRange.start ∧
    sb.directoryRange.start ≤ sb.directoryRange.stop ∧ sb.directoryRange.stop = sb.reservedBlocks ∧
    sb.reservedBlocks ≤ sb.totalBlocks.toNat := by
  have h1 : sb.journalStart.toNat = 1 := by rw [hw.journalStart_eq]; rfl
  have h2 := hw.allocationStart_eq
  have h3 := hw.inodeStart_eq
  have h4 := hw.directoryStart_eq
  have h5 := hw.reserved_le
  simp only [journalRange, allocationRange, inodeRange, directoryRange, reservedBlocks] at h5 ⊢
  exact ⟨h1, by omega, by omega, by omega, by omega, by omega, by omega, trivial, h5⟩

theorem inodeTable_geometry {n : Nat} (hn : n = sb.totalBlocks.toNat) :
    inodeTable.validateGeometry n sb = .ok () := by
  have hr := hw.ranges
  refine inodeTable.validateGeometry_eq_ok.mpr ⟨hn, hw.inodeBlocks_ne, ?_⟩
  change sb.inodeRange.stop ≤ _
  omega

theorem directoryTable_geometry {n : Nat} (hn : n = sb.totalBlocks.toNat) :
    directoryTable.validateGeometry n sb = .ok () :=
  directoryTable.validateGeometry_eq_ok.mpr ⟨hn, hw.directoryBlocks_ne, hw.reserved_le⟩

section
variable (hc : c.blockCount = sb.totalBlocks.toNat)
include hc

theorem render_allocator (a : BlockAllocator) :
    c.render (storeAllocator sb a) =
      (encodeAllocator sb a >>= fun image => pure (c.withRegion sb.allocationRange image)) := by
  have hr := hw.ranges
  rw [storeAllocator_eq, ← eval_checkAllocator hc]
  exact render_storeRegion sb.allocationRange rfl (by omega)

theorem render_inodeTable (inodes : List PersistedInode) : c.render (storeInodeTable sb inodes) =
    (inodeTable.encodeImage sb inodes >>= fun image => pure (c.withRegion sb.inodeRange image)) := by
  have hg := inodeTable_geometry hw hc
  rw [storeInodeTable, TableFormat.store_eq, ← inodeTable.eval_checkStore hg]
  exact render_storeRegion sb.inodeRange rfl
    ((inodeTable.validateGeometry_eq_ok.mp hg).2.2.trans hc.ge)

theorem render_directoryTable (entries : List PersistedDirectoryEntry) : c.render (storeDirectoryTable sb entries) =
    (directoryTable.encodeImage sb entries >>= fun image => pure (c.withRegion sb.directoryRange image)) := by
  have hg := directoryTable_geometry hw hc
  rw [storeDirectoryTable, TableFormat.store_eq, ← directoryTable.eval_checkStore hg]
  exact render_storeRegion sb.directoryRange rfl
    ((directoryTable.validateGeometry_eq_ok.mp hg).2.2.trans hc.ge)

end

end

/-! ## What a transaction changes -/

def changedMetadata (sb : Superblock) (allocator : BlockAllocator) (inodes : List PersistedInode)
    (entries : List PersistedDirectoryEntry) : FsProg (List (UInt64 × Block)) := do
  let capture := CaptureDevice.new sb.totalBlocks.toNat
  let capture ← capture.render (storeAllocator sb allocator)
  let capture ← capture.render (storeInodeTable sb inodes)
  let capture ← capture.render (storeDirectoryTable sb entries)
  capture.collectTables
    [(sb.allocationRange, "atomic-create image did not render every allocation metadata block"),
      (sb.inodeRange, "atomic-create image did not render every inode metadata block"),
      (sb.directoryRange, "atomic-create image did not render every directory metadata block")]
    "atomic-create image rendered outside allocation, inode, and directory regions"

def changedFileTables (label : String) (sb : Superblock) (allocator : BlockAllocator)
    (inodes : List PersistedInode) :
    FsProg (List (UInt64 × Block)) := do
  let capture := CaptureDevice.new sb.totalBlocks.toNat
  let capture ← capture.render (storeAllocator sb allocator)
  let capture ← capture.render (storeInodeTable sb inodes)
  capture.collectTables
    [(sb.allocationRange, label ++ " image did not render every allocation metadata block"),
      (sb.inodeRange, label ++ " image did not render every inode metadata block")]
    (label ++ " image rendered outside allocation and inode regions")

def changedDirectory (sb : Superblock) (entries : List PersistedDirectoryEntry) :
    FsProg (List (UInt64 × Block)) := do
  let capture := CaptureDevice.new sb.totalBlocks.toNat
  let capture ← capture.render (storeDirectoryTable sb entries)
  capture.collectTables [(sb.directoryRange, "directory-table image did not render every directory metadata block")]
    "directory-table image rendered outside directory metadata region"

instance (sb : Superblock) (allocator : BlockAllocator) (inodes : List PersistedInode)
    (entries : List PersistedDirectoryEntry) : (changedMetadata sb allocator inodes entries).Reads := by
  unfold changedMetadata; infer_instance

instance (label : String) (sb : Superblock) (allocator : BlockAllocator) (inodes : List PersistedInode) :
    (changedFileTables label sb allocator inodes).Reads := by
  unfold changedFileTables; infer_instance

instance (sb : Superblock) (entries : List PersistedDirectoryEntry) : (changedDirectory sb entries).Reads := by
  unfold changedDirectory; infer_instance

section
variable {sb : Superblock} (hw : sb.WellFormed) {d : Disk} (hl : sb.totalBlocks.toNat = d.length)
include hw

theorem Superblock.WellFormed.disjoint (b : Nat) : (sb.allocationRange.Contains b → ¬ sb.inodeRange.Contains b) ∧
    (sb.allocationRange.Contains b → ¬ sb.directoryRange.Contains b) ∧
    (sb.inodeRange.Contains b → ¬ sb.directoryRange.Contains b) := by
  have hr := hw.ranges
  simp only [BlockRange.Contains]
  omega

include hl

theorem eval_changedMetadata (allocator : BlockAllocator) (inodes : List PersistedInode)
    (entries : List PersistedDirectoryEntry) : (changedMetadata sb allocator inodes entries).eval d = (do
      let ia ← encodeAllocator sb allocator
      let ii ← inodeTable.encodeImage sb inodes
      let ie ← directoryTable.encodeImage sb entries
      pure (regionChanges d sb.allocationRange ia ++ (regionChanges d sb.inodeRange ii ++
        regionChanges d sb.directoryRange ie))) := by
  have hr := hw.ranges
  have hd := hw.disjoint
  simp only [changedMetadata, eval_bind, eval_liftM]
  rw [render_allocator hw rfl, bind_assoc]
  refine bind_congr fun ia => ?_
  rw [pure_bind, render_inodeTable hw rfl, bind_assoc]
  refine bind_congr fun ii => ?_
  rw [pure_bind, render_directoryTable hw rfl, bind_assoc]
  refine bind_congr fun ie => ?_
  refine (eval_collectTables [(sb.allocationRange, _, ia), (sb.inodeRange, _, ii), (sb.directoryRange, _, ie)] ?_
    ?_ _ _).trans
    (by simp)
  · simp only [List.forall_mem_cons]
    exact ⟨by omega, by omega, by omega, by simp⟩
  · simp only [List.pairwise_cons, List.forall_mem_cons]
    exact ⟨⟨fun b => (hd b).1, fun b => (hd b).2.1, by simp⟩, ⟨fun b => (hd b).2.2, by simp⟩, by simp⟩

theorem eval_changedFileTables (label : String) (allocator : BlockAllocator) (inodes : List PersistedInode) :
    (changedFileTables label sb allocator inodes).eval d = (do
      let ia ← encodeAllocator sb allocator
      let ii ← inodeTable.encodeImage sb inodes
      pure (regionChanges d sb.allocationRange ia ++ regionChanges d sb.inodeRange ii)) := by
  have hr := hw.ranges
  simp only [changedFileTables, eval_bind, eval_liftM]
  rw [render_allocator hw rfl, bind_assoc]
  refine bind_congr fun ia => ?_
  rw [pure_bind, render_inodeTable hw rfl, bind_assoc]
  refine bind_congr fun ii => ?_
  refine (eval_collectTables [(sb.allocationRange, _, ia), (sb.inodeRange, _, ii)] ?_ ?_ _ _).trans (by simp)
  · simp only [List.forall_mem_cons]
    exact ⟨by omega, by omega, by simp⟩
  · simp only [List.pairwise_cons, List.forall_mem_cons]
    exact ⟨⟨fun b => (hw.disjoint b).1, by simp⟩, by simp, by simp⟩

theorem eval_changedDirectory (entries : List PersistedDirectoryEntry) : (changedDirectory sb entries).eval d =
    (directoryTable.encodeImage sb entries >>= fun ie => pure (regionChanges d sb.directoryRange ie)) := by
  have hr := hw.ranges
  simp only [changedDirectory, eval_bind, eval_liftM]
  rw [render_directoryTable hw rfl, bind_assoc]
  refine bind_congr fun ie => ?_
  refine (eval_collectTables [(sb.directoryRange, _, ie)] ?_ (by simp) _ _).trans (by simp)
  simp only [List.forall_mem_cons]
  exact ⟨by omega, by simp⟩

end

/-! ## The changed blocks on the device -/

theorem lastWrite_changes {d : Disk} {want : Nat → Block} {bs : List Nat} (h : ∀ b ∈ bs, b < 2 ^ 64) (b : Nat) :
    lastWrite (homeWrites (changes d want bs)) b =
      if b ∈ bs ∧ d[b]? ≠ some (want b) then some (want b) else none := by
  induction bs with
  | nil => simp [changes, homeWrites, lastWrite]
  | cons c bs ih =>
    obtain ⟨hc, h⟩ := List.forall_mem_cons.mp h
    have hcons : homeWrites (changes d want (c :: bs)) =
        (if d[c]? = some (want c) then [] else [(c, want c)]) ++ homeWrites (changes d want bs) := by
      simp only [changes, List.filterMap_cons]
      split
      · rename_i hs
        split at hs
        · simp [*]
        · cases hs
      · rename_i w hs
        split at hs
        · cases hs
        · cases hs
          simp [homeWrites, UInt64.toNat_ofNat_of_lt' hc, *]
    rw [hcons, lastWrite_append, ih h]
    by_cases hbc : c = b
    · subst hbc
      by_cases hd : d[c]? = some (want c) <;> by_cases hm : c ∈ bs <;> simp [hd, hm, lastWrite]
    · have : lastWrite (if d[c]? = some (want c) then [] else [(c, want c)]) b = none := by
        split <;> simp [lastWrite, hbc]
      rw [this, Option.or_none]
      simp [Ne.symm hbc]

theorem regionChanges_congr {d d' : Disk}
    (h : ∀ b, range.Contains b → d[b]? = d'[b]?) : regionChanges d range image = regionChanges d' range image := by
  refine List.filterMap_congr fun b hb => ?_
  rw [h b (by simp only [List.mem_range'_1, BlockRange.size, BlockRange.Contains] at hb ⊢; omega)]

theorem mem_regionChanges {d : Disk} (h64 : range.stop ≤ 2 ^ 64)
    {w : UInt64 × Block} (hw : w ∈ regionChanges d range image) : range.Contains w.1.toNat := by
  simp only [regionChanges, changes, List.mem_filterMap, List.mem_range'_1, BlockRange.size] at hw
  obtain ⟨b, hb, hs⟩ := hw
  split at hs
  · cases hs
  · cases hs
    rw [BlockRange.Contains, UInt64.toNat_ofNat_of_lt' (by simp only [UInt64.size]; omega)]
    omega

theorem overlay_regionChanges {d : Disk} (hr : range.stop ≤ d.length) (h64 : d.length < 2 ^ 64)
    (image : List UInt8) : overlay d (homeWrites (regionChanges d range image)) =
      overlay d (regionWrites range.start range.size image) := by
  refine List.ext_getElem? fun b => ?_
  rw [getElem?_overlay, getElem?_overlay, lastWrite_regionWrites_eq, regionChanges, lastWrite_changes]
  · cases hd : d[b]? with
    | none => rfl
    | some y =>
      have hm : b ∈ List.range' range.start range.size ↔ range.Contains b := by
        simp only [List.mem_range'_1, BlockRange.size, BlockRange.Contains]; omega
      simp only [hm]
      by_cases hb : range.Contains b
      · by_cases hy : y = chunk image (b - range.start) <;> simp [hb, hy]
      · simp [hb]
  · intro b hb
    simp only [List.mem_range'_1, BlockRange.size] at hb
    omega

end SystemsLab.Fs
