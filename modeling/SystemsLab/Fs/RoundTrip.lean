import SystemsLab.Fs.AllocationDisk
import SystemsLab.Fs.JournalRegion
import SystemsLab.Fs.Table

/-!
# The persisted formats

What is accepted on disk is exactly what the store would write, so a value has
one image. The journal alone has a second spelling of the empty log, the region
of zeros.
-/

namespace SystemsLab.Fs

open Prog

/-- Loading and storing are inverse to each other, devices with a `blank` region apart. -/
structure RegionBijection {α : Type} (load : FsProg α) (store : α → FsProg Unit) (bytes : Disk → List UInt8)
    (blank : Disk → Prop) : Prop where
  load_store : ∀ (a : α) (d d' : Disk), (store a).runOn d = (.ok (), d') → load.eval d' = .ok a
  store_load : ∀ (a : α) (d : Disk), load.eval d = .ok a → ¬ blank d → (store a).runOn d = (.ok (), d)
  unique_image : ∀ (a : α) (d d' : Disk), load.eval d = .ok a → load.eval d' = .ok a → ¬ blank d → ¬ blank d' →
    bytes d = bytes d'

theorem TableFormat.regionBijection {α κ : Type} [DecidableEq κ] (f : TableFormat α κ) (sb : Superblock) :
    RegionBijection (f.load sb) (f.store sb) (f.tableBytes sb) fun _ => False := by
  refine ⟨?_, fun as d h _ => f.store_load h, ?_⟩
  · intro as d d' h
    cases hc : (f.checkStore sb as).eval d with
    | error e =>
      rw [(f.store_error hc).1] at h
      cases h
    | ok image =>
      rw [(f.runOn_store hc).1] at h
      cases h
      exact f.load_store hc
  · intro as d d' h h' _ _
    exact Except.ok.inj ((f.load_eq_ok.mp h).2.symm.trans (f.load_eq_ok.mp h').2)

theorem journal_regionBijection (sb : Superblock) : RegionBijection (loadJournalImage sb) (storeJournalImage sb)
    (journalBytes sb) fun d => ∀ b ∈ journalBytes sb d, b = 0 := by
  refine ⟨?_, ?_, ?_⟩
  · intro es d d' h
    cases hc : (checkJournalImage sb es).eval d with
    | error e =>
      rw [(storeJournalImage_error hc).1] at h
      cases h
    | ok region =>
      rw [(runOn_storeJournalImage hc).1] at h
      cases h
      exact loadJournalImage_store hc
  · intro es d h hz
    have hc := storeJournalImage_load h hz
    rw [(runOn_storeJournalImage hc).1, overlay_journalBytes (checkJournalImage_eq_ok.mp hc).1]
  · intro es d d' h h' hz hz'
    have hc := (checkJournalImage_eq_ok.mp (storeJournalImage_load h hz)).2.2
    exact Except.ok.inj (hc.symm.trans (checkJournalImage_eq_ok.mp (storeJournalImage_load h' hz')).2.2)

theorem allocation_regionBijection (sb : Superblock) : RegionBijection (loadAllocator sb) (storeAllocator sb)
    (allocationBytes sb) fun _ => False := by
  refine ⟨?_, ?_, ?_⟩
  · intro a d d' h
    rw [storeAllocator_eq] at h
    obtain ⟨image, hc, hin, rfl⟩ := storeRegion_inv h
    obtain ⟨hl, he⟩ := checkAllocator_eq_ok.mp hc
    obtain ⟨bitmap, -, hb⟩ := except_bind_eq_ok.mp he
    obtain ⟨m, -, -, -, hn, hlen⟩ := encodeAllocationImage_inv hb
    have hsize := (allocationRegionLen_eq_ok.mp hn).1
    have hne : sb.allocationBlocks.toNat ≠ 0 := by
      intro h0
      rw [h0, Nat.zero_mul] at hsize
      rw [hsize, allocationHeaderLen] at hlen
      omega
    refine loadAllocator_eq_ok.mpr ⟨by rwa [length_overlay], by rw [length_overlay]; exact hin hne, ?_⟩
    rw [he, allocationBytes, regionBytes_writeRegion (hin hne) hsize]
  · intro a d h _
    obtain ⟨hl, hin, he⟩ := loadAllocator_eq_ok.mp h
    rw [storeAllocator_eq,
      (storeRegion_ok (checkAllocator_eq_ok.mpr ⟨hl, he⟩) hin).1]
    exact congrArg (Prod.mk _) (overlay_regionBytes hin)
  · intro a d d' h h' _ _
    exact Except.ok.inj ((loadAllocator_eq_ok.mp h).2.2.symm.trans (loadAllocator_eq_ok.mp h').2.2)

theorem Superblock.wellFormed_iff {sb : Superblock} : sb.WellFormed ↔
    withAllMetadataBlocks sb.totalBlocks sb.journalBlocks sb.inodeBlocks sb.directoryBlocks = .ok sb := by
  rw [withAllMetadataBlocks_eq_ok]
  simp

theorem persisted_bijections :
    (∀ es bytes, encodeEntries es = .ok bytes ↔ decodeEntries bytes = .ok es) ∧
    (∀ sb, RegionBijection (loadJournalImage sb) (storeJournalImage sb) (journalBytes sb)
      fun d => ∀ b ∈ journalBytes sb d, b = 0) ∧
    (∀ sb, RegionBijection (loadInodeTable sb) (storeInodeTable sb) (inodeTable.tableBytes sb) fun _ => False) ∧
    (∀ sb, RegionBijection (loadDirectoryTable sb) (storeDirectoryTable sb) (directoryTable.tableBytes sb)
      fun _ => False) ∧
    (∀ sb, RegionBijection (loadAllocator sb) (storeAllocator sb) (allocationBytes sb) fun _ => False) ∧
    (∀ sb, Superblock.decode sb.encode = .ok sb ↔ Superblock.withAllMetadataBlocks sb.totalBlocks sb.journalBlocks
      sb.inodeBlocks sb.directoryBlocks = .ok sb) ∧
    ∀ block sb, Superblock.decode block = .ok sb → sb.encode = block := by
  refine ⟨fun es bytes => decodeEntries_eq_ok.symm, journal_regionBijection, inodeTable.regionBijection,
    directoryTable.regionBijection, allocation_regionBijection, ?_, ?_⟩
  · intro sb
    rw [← Superblock.wellFormed_iff, Superblock.decode_eq_ok]
    exact and_iff_left rfl
  · intro block sb h
    exact (Superblock.decode_eq_ok.mp h).2.symm

/-- A geometry without a journal is written and not read back. -/
theorem superblock_not_read_back :
    ∃ e, Superblock.decode (Superblock.encode ⟨16, 1, 0, 1, 1, 2, 2, 4, 2⟩) = .error e := by
  cases h : Superblock.decode (Superblock.encode ⟨16, 1, 0, 1, 1, 2, 2, 4, 2⟩) with
  | error e => exact ⟨e, rfl⟩
  | ok sb =>
    obtain ⟨hw, he⟩ := Superblock.decode_eq_ok.mp h
    have hsb := congrArg (fun block : Block => Superblock.fields block.bytes) he
    simp only [Superblock.fields_encode] at hsb
    exact absurd (congrArg Superblock.journalBlocks hsb).symm hw.journalBlocks_ne

/-! ## Corrupted bytes -/

theorem loadAllocator_set {sb : Superblock} {a : BlockAllocator} {d d' : Disk}
    (h : (loadAllocator sb).eval d = .ok a) {i : Nat}
    {x : UInt8} (hi : i < (allocationBytes sb d).length) (hx : (allocationBytes sb d)[i] ≠ x)
    (hd : allocationBytes sb d' = (allocationBytes sb d).set i x) : ∃ e, (loadAllocator sb).eval d' = .error e := by
  refine error_of_not_ok fun a' h' => ?_
  obtain ⟨bitmap, -, he⟩ := except_bind_eq_ok.mp (loadAllocator_eq_ok.mp h).2.2
  obtain ⟨bitmap', -, he'⟩ := except_bind_eq_ok.mp (loadAllocator_eq_ok.mp h').2.2
  rw [hd] at he'
  exact encodeAllocationImage_set he hi hx he'

/-- Whatever byte of a record or of the allocation region changes, the decoder notices. -/
theorem single_byte_detected :
    (∀ (entry : PersistedDirectoryEntry) (bytes : List UInt8), encodeDirectoryEntry entry = .ok bytes →
      ∀ (i : Fin bytes.length) (x : UInt8), x ≠ bytes[i] → ∃ e, decodeDirectoryEntry (bytes.set i x) = .error e) ∧
    (∀ (inode : PersistedInode) (bytes : List UInt8), encodeInode inode = .ok bytes →
      ∀ (i : Fin bytes.length) (x : UInt8), x ≠ bytes[i] → ∃ e, decodeInode (bytes.set i x) = .error e) ∧
    ∀ (sb : Superblock) (a : BlockAllocator) (d d' d'' : Disk), (storeAllocator sb a).runOn d = (.ok (), d') →
      ∀ (i : Fin (allocationBytes sb d').length) (x : UInt8), x ≠ (allocationBytes sb d')[i] →
        allocationBytes sb d'' = (allocationBytes sb d').set i x → ∃ e, (loadAllocator sb).eval d'' = .error e := by
  refine ⟨?_, ?_, ?_⟩
  · intro entry bytes h i x hx
    exact decodeDirectoryEntry_set h i.isLt hx.symm
  · intro inode bytes h i x hx
    exact decodeInode_set h i.isLt hx.symm
  · intro sb a d d' d'' h i x hx hd
    exact loadAllocator_set ((allocation_regionBijection sb).load_store a d d' h) i.isLt hx.symm hd

end SystemsLab.Fs
