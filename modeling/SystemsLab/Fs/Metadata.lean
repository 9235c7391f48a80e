import SystemsLab.Fs.Publication
import SystemsLab.Fs.Transition

/-!
# Publishing metadata

A transaction that carries the changed blocks of a region leaves the region holding its new image whatever else it
carries (`carries_changes`).
-/

namespace SystemsLab.Fs

open Prog

variable {entries : List PersistedDirectoryEntry} {inodes : List PersistedInode} {a : BlockAllocator} {s : Snapshot}
  {h : Disk} {image : List UInt8}

/-! ## Regions under a transaction -/

section
variable {d : Disk} {range : BlockRange}

theorem regionBytes_keep {ws : List (UInt64 × Block)} (h : ∀ w ∈ ws, ¬ range.Contains w.1.toNat) :
    regionBytes (overlay d (homeWrites ws)) range.start range.size = regionBytes d range.start range.size := by
  apply regionBytes_overlay
  intro b hb
  simp only [homeWrites, List.map_map, List.mem_map, Function.comp_apply] at hb
  obtain ⟨w, hw, rfl⟩ := hb
  have hn := h w hw
  simp only [BlockRange.Contains, BlockRange.size] at hn ⊢
  omega

structure Carries (d : Disk) (range : BlockRange) (part : List (UInt64 × Block)) (image : List UInt8) : Prop where
  inside : ∀ w ∈ part, range.Contains w.1.toNat
  bytes : ∀ before after, (∀ w ∈ before ++ after, ¬ range.Contains w.1.toNat) →
    regionBytes (overlay d (homeWrites (before ++ (part ++ after)))) range.start range.size = image

theorem carries_nil : Carries d range [] (regionBytes d range.start range.size) :=
  ⟨by simp, fun _ _ h => regionBytes_keep h⟩

theorem carries_changes (hr : range.stop ≤ d.length) (h64 : d.length < 2 ^ 64) (hs : range.start ≤ range.stop)
    (hi : image.length = range.size * blockSize) :
    Carries d range (regionChanges d range image) image := by
  refine ⟨fun w hm => mem_regionChanges (by omega) hm, fun before after h => ?_⟩
  obtain ⟨hb, ha⟩ := List.forall_mem_append.mp h
  rw [homeWrites_append, homeWrites_append, overlay_append, overlay_append, regionBytes_keep ha]
  have hcongr : regionChanges d range image = regionChanges (overlay d (homeWrites before)) range image := by
    apply regionChanges_congr
    intro b hc
    refine (getElem?_overlay_of_notMem fun hm => ?_).symm
    simp only [homeWrites, List.map_map, List.mem_map, Function.comp_apply] at hm
    obtain ⟨w, hw, rfl⟩ := hm
    exact hb w hw hc
  rw [hcongr, overlay_regionChanges (by rwa [length_overlay]) (by rwa [length_overlay])]
  refine regionBytes_writeRegion ?_ hi
  rw [length_overlay, BlockRange.size]
  omega

end

/-! ## The operations -/

def storeCreateMetadataJournaled (sb : Superblock) (allocator : BlockAllocator) (inodes : List PersistedInode)
    (entries : List PersistedDirectoryEntry) : FsProg RecoveryReport := do
  let n ← count
  require (n = sb.totalBlocks.toNat) (invalidInput "atomic-create device geometry does not match superblock")
  let changed ← changedMetadata sb allocator inodes entries
  if changed = [] then pure ⟨0, 0⟩ else
    publish recoverJournalAndCheckpoint
      "atomic-create recovery report does not match one complete transaction" sb changed

def storeDirectoryTableJournaled (sb : Superblock) (entries : List PersistedDirectoryEntry) :
    FsProg RecoveryReport := do
  let n ← count
  require (n = sb.totalBlocks.toNat)
    (invalidInput "journaled directory-table device geometry does not match superblock")
  let changed ← changedDirectory sb entries
  if changed = [] then pure ⟨0, 0⟩ else
    publish recoverJournal "journaled directory-table recovery report does not match one complete transaction" sb
      changed

/-! ## What a published device holds -/

section
variable {sb : Superblock} {d : Disk} (hw : sb.WellFormed) (hl : sb.totalBlocks.toNat = d.length)
include hw hl

theorem loadAllocator_of_bytes (hlen : h.length = d.length)
    (he : encodeAllocator sb a = .ok (allocationBytes sb h)) : (loadAllocator sb).eval h = .ok a := by
  have hr := hw.ranges
  exact loadAllocator_eq_ok.mpr ⟨by omega, by omega, he⟩

theorem loadInodeTable_of_bytes (hlen : h.length = d.length)
    (he : inodeTable.encodeImage sb inodes = .ok (inodeTable.tableBytes sb h)) :
    (loadInodeTable sb).eval h = .ok inodes :=
  inodeTable.load_eq_ok.mpr ⟨inodeTable_geometry hw (by omega), he⟩

theorem loadDirectoryTable_of_bytes (hlen : h.length = d.length)
    (he : directoryTable.encodeImage sb entries = .ok (directoryTable.tableBytes sb h)) :
    (loadDirectoryTable sb).eval h = .ok entries :=
  directoryTable.load_eq_ok.mpr ⟨directoryTable_geometry hw (by omega), he⟩

end

theorem length_encodeAllocator {sb : Superblock}
    (h : encodeAllocator sb a = .ok image) : image.length = sb.allocationRange.size * blockSize := by
  obtain ⟨bitmap, -, he⟩ := except_bind_eq_ok.mp h
  obtain ⟨m, -, -, -, hn, -⟩ := encodeAllocationImage_inv he
  rw [(allocationRegionLen_eq_ok.mp hn).1, BlockRange.size, Superblock.allocationRange, Nat.add_sub_cancel_left]

section
variable {sb : Superblock} {d : Disk} (hw : sb.WellFormed) (hl : sb.totalBlocks.toNat = d.length)
variable {changed : List (UInt64 × Block)} {Q : Disk → Prop}
include hw hl

omit hw hl in
theorem tableBytes_eq (sb : Superblock) (h : Disk) :
    allocationBytes sb h = regionBytes h sb.allocationRange.start sb.allocationRange.size ∧
      inodeTable.tableBytes sb h = regionBytes h sb.inodeRange.start sb.inodeRange.size ∧
      directoryTable.tableBytes sb h = regionBytes h sb.directoryRange.start sb.directoryRange.size := by
  simp [allocationBytes, TableFormat.tableBytes, BlockRange.size, Superblock.allocationRange, Superblock.inodeRange,
    Superblock.directoryRange, inodeTable, directoryTable]

theorem carries_tables :
    (∀ {a}, encodeAllocator sb a = .ok image → Carries d sb.allocationRange
      (regionChanges d sb.allocationRange image) image) ∧
      (∀ {inodes}, inodeTable.encodeImage sb inodes = .ok image →
        Carries d sb.inodeRange (regionChanges d sb.inodeRange image) image) ∧
      ∀ {entries}, directoryTable.encodeImage sb entries = .ok image →
        Carries d sb.directoryRange (regionChanges d sb.directoryRange image) image := by
  obtain ⟨-, -, h3, h4, h5, h6, h7, h8, h9⟩ := hw.ranges
  have h64 : d.length < 2 ^ 64 := by rw [← hl]; exact sb.totalBlocks.toNat_lt
  refine ⟨fun h => carries_changes (by omega) h64 h3 (length_encodeAllocator h),
    fun h => carries_changes (by omega) h64 h5 ?_, fun h => carries_changes (by omega) h64 h7 ?_⟩
  · simpa [BlockRange.size, Superblock.inodeRange, inodeTable] using inodeTable.length_encodeImage h
  · simpa [BlockRange.size, Superblock.directoryRange, directoryTable] using directoryTable.length_encodeImage h

omit hw hl in
theorem Loads.carries (hs : Loads sb d s) :
    (∃ image, encodeAllocator sb s.allocator = .ok image ∧ Carries d sb.allocationRange [] image) ∧
      (∃ image, inodeTable.encodeImage sb s.inodes = .ok image ∧ Carries d sb.inodeRange [] image) ∧
      ∃ image, directoryTable.encodeImage sb s.entries = .ok image ∧ Carries d sb.directoryRange [] image := by
  obtain ⟨ha, hi, he⟩ := tableBytes_eq sb d
  exact ⟨⟨_, ha ▸ (loadAllocator_eq_ok.mp hs.allocator).2.2, carries_nil⟩,
    ⟨_, hi ▸ (inodeTable.load_eq_ok.mp hs.inodes).2, carries_nil⟩,
    ⟨_, he ▸ (directoryTable.load_eq_ok.mp hs.entries).2, carries_nil⟩⟩

theorem loads_of_carries {ca ci ce data : List (UInt64 × Block)}
    (ha : ∃ image, encodeAllocator sb a = .ok image ∧ Carries d sb.allocationRange ca image)
    (hi : ∃ image, inodeTable.encodeImage sb inodes = .ok image ∧ Carries d sb.inodeRange ci image)
    (he : ∃ image, directoryTable.encodeImage sb entries = .ok image ∧ Carries d sb.directoryRange ce image)
    (hd : ∀ w ∈ data, sb.dataRange.Contains w.1.toNat) :
    Loads sb (overlay d (homeWrites (ca ++ (ci ++ (ce ++ data))))) ⟨a, inodes, entries⟩ := by
  obtain ⟨ia, hia, hca⟩ := ha
  obtain ⟨ii, hii, hci⟩ := hi
  obtain ⟨ie, hie, hce⟩ := he
  have hdis := hw.disjoint
  have hout : ∀ w ∈ data, ¬ sb.allocationRange.Contains w.1.toNat ∧ ¬ sb.inodeRange.Contains w.1.toNat ∧
      ¬ sb.directoryRange.Contains w.1.toNat := by
    intro w hm
    have hc := hd w hm
    have hr := hw.ranges
    simp only [BlockRange.Contains, Superblock.dataRange] at *
    omega
  obtain ⟨h₁, h₂, h₃⟩ := tableBytes_eq sb (overlay d (homeWrites (ca ++ (ci ++ (ce ++ data)))))
  refine ⟨loadAllocator_of_bytes hw hl (length_overlay _ _) (hia.trans (congrArg _ (Eq.trans ?_ h₁.symm))),
    loadInodeTable_of_bytes hw hl (length_overlay _ _) (hii.trans (congrArg _ (Eq.trans ?_ h₂.symm))),
    loadDirectoryTable_of_bytes hw hl (length_overlay _ _) (hie.trans (congrArg _ (Eq.trans ?_ h₃.symm)))⟩
  · refine (hca.bytes [] (ci ++ (ce ++ data)) ?_).symm
    simp only [List.nil_append, List.forall_mem_append]
    exact ⟨fun w hm hc => (hdis _).1 hc (hci.inside w hm), fun w hm hc => (hdis _).2.1 hc (hce.inside w hm),
      fun w hm => (hout w hm).1⟩
  · refine (hci.bytes ca (ce ++ data) ?_).symm
    simp only [List.forall_mem_append]
    exact ⟨fun w hm => (hdis _).1 (hca.inside w hm), fun w hm hc => (hdis _).2.2 hc (hce.inside w hm),
      fun w hm => (hout w hm).2.1⟩
  · rw [← List.append_assoc]
    refine (hce.bytes (ca ++ ci) data ?_).symm
    simp only [List.forall_mem_append]
    exact ⟨⟨fun w hm => (hdis _).2.1 (hca.inside w hm), fun w hm => (hdis _).2.2 (hci.inside w hm)⟩,
      fun w hm => (hout w hm).2.2⟩

theorem loads_changedMetadata (h : (changedMetadata sb a inodes entries).eval d = .ok changed) :
    Loads sb (overlay d (homeWrites changed)) ⟨a, inodes, entries⟩ := by
  rw [eval_changedMetadata hw hl] at h
  simp only [steps_ok] at h
  obtain ⟨ia, hia, ii, hii, ie, hie, rfl⟩ := h
  simpa using @loads_of_carries _ _ _ _ _ hw hl _ _ _ [] ⟨ia, hia, (carries_tables hw hl).1 hia⟩
    ⟨ii, hii, (carries_tables hw hl).2.1 hii⟩ ⟨ie, hie, (carries_tables hw hl).2.2 hie⟩ (by simp)

theorem loads_changedFileTables (hs : Loads sb d s) {label : String} {data : List (UInt64 × Block)}
    (h : (changedFileTables label sb a inodes).eval d = .ok changed)
    (hd : ∀ w ∈ data, sb.dataRange.Contains w.1.toNat) :
    Loads sb (overlay d (homeWrites (changed ++ data))) { s with allocator := a, inodes := inodes } := by
  rw [eval_changedFileTables hw hl] at h
  simp only [steps_ok] at h
  obtain ⟨ia, hia, ii, hii, rfl⟩ := h
  rw [List.append_assoc]
  exact loads_of_carries hw hl ⟨ia, hia, (carries_tables hw hl).1 hia⟩ ⟨ii, hii, (carries_tables hw hl).2.1 hii⟩
    hs.carries.2.2 hd

omit hw hl in
theorem Outcome.load_tables {γ : Type}
    {f : BlockAllocator → List PersistedInode → List PersistedDirectoryEntry → FsProg γ}
    (h : ∀ s, Loads sb d s → Outcome sb d Q (f s.allocator s.inodes s.entries)) :
    Outcome sb d Q (loadAllocator sb >>= fun a => loadInodeTable sb >>= fun i => loadDirectoryTable sb >>= f a i) :=
  .bind fun a ha => .bind fun i hi => .bind fun e he => h ⟨a, i, e⟩ ⟨ha, hi, he⟩

theorem storeCreateMetadataJournaled_outcome : Outcome sb d (fun h => Loads sb h ⟨a, inodes, entries⟩)
      (storeCreateMetadataJournaled sb a inodes entries) := by
  apply Outcome.bind
  intro n _
  apply Outcome.bind
  intro _ _
  apply Outcome.bind
  intro changed hc
  apply Outcome.otherwise
  intro he
  exact .publish_clears hw.homesApart _ (loads_changedMetadata hw hl hc)

theorem Loads.keep (hs : Loads sb d s) {ws : List (UInt64 × Block)}
    (hd : ∀ w ∈ ws, sb.dataRange.Contains w.1.toNat) : Loads sb (overlay d (homeWrites ws)) s :=
  loads_of_carries hw hl hs.carries.1 hs.carries.2.1 hs.carries.2.2 hd

theorem loadDirectoryTable_changed (h : (changedDirectory sb entries).eval d = .ok changed) :
    (loadDirectoryTable sb).eval (overlay d (homeWrites changed)) = .ok entries := by
  rw [eval_changedDirectory hw hl] at h
  simp only [steps_ok] at h
  obtain ⟨ie, hie, rfl⟩ := h
  refine loadDirectoryTable_of_bytes hw hl (length_overlay _ _) (hie.trans (congrArg Except.ok ?_))
  have hb := ((carries_tables hw hl).2.2 hie).bytes [] [] (by simp)
  rw [(tableBytes_eq sb _).2.2]
  simpa using hb.symm

theorem loads_changedDirectory (hs : Loads sb d s) (h : (changedDirectory sb entries).eval d = .ok changed) :
    Loads sb (overlay d (homeWrites changed)) { s with entries := entries } := by
  rw [eval_changedDirectory hw hl] at h
  simp only [steps_ok] at h
  obtain ⟨ie, hie, rfl⟩ := h
  simpa using @loads_of_carries _ _ _ _ _ hw hl _ _ _ [] hs.carries.1 hs.carries.2.1
    ⟨ie, hie, (carries_tables hw hl).2.2 hie⟩ (by simp)

omit hl in
theorem storeDirectoryTableJournaled_outcome
    (hq : ∀ changed, (changedDirectory sb entries).eval d = .ok changed → Q (overlay d (homeWrites changed))) :
    Outcome sb d Q (storeDirectoryTableJournaled sb entries) := by
  apply Outcome.bind
  intro n _
  apply Outcome.bind
  intro _ _
  apply Outcome.bind
  intro changed hc
  apply Outcome.otherwise
  intro he
  exact .publish_installs hw.homesApart _ (hq changed hc)

theorem changedDirectory_ne_nil {old entries : List PersistedDirectoryEntry}
    (hold : (loadDirectoryTable sb).eval d = .ok old) (hne : entries ≠ old)
    (h : (changedDirectory sb entries).eval d = .ok changed) : changed ≠ [] := by
  intro he
  have hload := loadDirectoryTable_changed hw hl h
  rw [he] at hload
  exact hne (Except.ok.inj (hload.symm.trans hold))

theorem storeDirectoryTableJournaled_twice {old entries : List PersistedDirectoryEntry}
    (hold : (loadDirectoryTable sb).eval d = .ok old) (hne : entries ≠ old)
    (hq : ∀ changed, (changedDirectory sb entries).eval d = .ok changed → Q (overlay d (homeWrites changed))) :
    Outcome sb d Q (do
      let report ← storeDirectoryTableJournaled sb entries
      let _ ← recoverJournalAndCheckpoint sb
      pure report) := by
  simp only [storeDirectoryTableJournaled, bind_assoc]
  apply Outcome.bind
  intro n _
  apply Outcome.bind
  intro _ _
  apply Outcome.bind
  intro changed hc
  rw [if_neg (changedDirectory_ne_nil hw hl hold hne hc)]
  exact .publish_twice hw.homesApart _ (hq changed hc)

end

/-! ## What a loaded table satisfies -/

theorem Loads.ids_nodup {sb : Superblock} {d : Disk} (h : Loads sb d s) :
    (s.inodes.map PersistedInode.id).Nodup := by
  obtain ⟨payload, hp, -⟩ := inodeTable.encodeImage_eq_ok.mp (inodeTable.load_eq_ok.mp h.inodes).2
  exact (inodeTable.encodeAll_eq_ok.mp ⟨payload, hp⟩).1

def Steps (sb : Superblock) (d h : Disk) : Prop :=
  ∀ s, Loads sb d s → s.Valid sb → ∃ s', Loads sb h s' ∧ Step sb s s'

end SystemsLab.Fs
