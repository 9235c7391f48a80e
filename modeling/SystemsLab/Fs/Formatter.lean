import SystemsLab.Fs.Metadata

/-!
# Formatting

`formatDevice` never touches the journal region, so exactly a region that already reads as an empty log gives an
empty filesystem.
-/

namespace SystemsLab.Fs

open Prog LogState

variable {sb : Superblock} {d : Disk} {image : List UInt8}
variable {α κ : Type} {n : Nat}

def formatWith (sb : Superblock) : FsProg Superblock := do
  initializeAllocationRegion sb
  initializeInodeTableRegion sb
  initializeDirectoryTableRegion sb
  putBlock superblockBlock sb.encode
  sync
  pure sb

def formatDevice : FsProg Superblock := do
  let n ← count
  let sb ← Superblock.new (UInt64.ofNat n)
  formatWith sb

def formatDeviceWithJournalBlocks (journalBlocks : UInt64) : FsProg Superblock := do
  let n ← count
  let sb ← Superblock.withJournalBlocks (UInt64.ofNat n) journalBlocks
  formatWith sb

/-! ## The empty tables -/

section
variable {sb : Superblock} (hw : sb.WellFormed)
include hw

theorem encodeAllocator_ok {a : BlockAllocator} (ht : a.totalBlocks = sb.totalBlocks.toNat)
    (hr : a.reservedBlocks = sb.reservedBlocks) : ∃ m bitmap image, allocationBitmapBytes sb.totalBlocks = .ok m ∧
      bitmap.length = m.toNat ∧ (∀ c, bitAt bitmap c = decide (a.Has c)) ∧
      encodeAllocationImage sb bitmap = .ok image ∧ encodeAllocator sb a = .ok image := by
  obtain ⟨m, hm, hfit, hlt⟩ := Superblock.requiredAllocationBlocks_fits hw.allocationBlocks_eq
  obtain ⟨h7, hm8⟩ := allocationBitmapBytes_eq_ok.mp hm
  obtain ⟨bitmap, hown, hlen, hbit⟩ := ownedBitmap_ok hm ht hr
  have hle := a.reserved_le
  have hbits : validateBitmapBits bitmap sb = .ok () := by
    refine validateBitmapBits_eq_ok.mpr ⟨by omega, fun b hb => ⟨by omega, ?_⟩, fun b hb _ => ?_⟩
    · rw [hbit, decide_eq_false_iff_not]
      exact fun h => Nat.not_le.mpr hb (hr ▸ h.reserved_le)
    · rw [hbit, decide_eq_false_iff_not]
      exact fun h => Nat.not_lt.mpr hb (ht ▸ h.lt)
  have hregion : allocationRegionLen sb = .ok (sb.allocationBlocks.toNat * blockSize) :=
    allocationRegionLen_eq_ok.mpr ⟨rfl, hlt⟩
  obtain ⟨image, himage⟩ : ∃ image, encodeAllocationImage sb bitmap = .ok image := by
    simp only [encodeAllocationImage, steps_ok, exists_const]
    exact ⟨_, m, hm, hlen, (), hbits, _, hregion, by rw [hlen]; exact hfit, rfl⟩
  refine ⟨m, bitmap, image, hm, hlen, hbit, himage, ?_⟩
  rw [encodeAllocator, hown, except_bind_ok, himage]

theorem encodeAllocator_fresh : ∃ m a image, allocationBitmapBytes sb.totalBlocks = .ok m ∧
    encodeAllocationImage sb (List.replicate m.toNat 0) = .ok image ∧ encodeAllocator sb a = .ok image ∧
    ∀ b, ¬ a.Has b := by
  obtain ⟨a, ha⟩ : ∃ a, BlockAllocator.new sb.totalBlocks sb.reservedBlocks = .ok a := by
    rw [BlockAllocator.new, dif_pos hw.reserved_le]
    exact ⟨_, rfl⟩
  obtain ⟨-, hat, har, hah⟩ := BlockAllocator.new_eq_ok.mp ha
  obtain ⟨m, bitmap, image, hm, hlen, hbit, himage, hea⟩ := encodeAllocator_ok hw hat har
  have hzero : bitmap = List.replicate m.toNat 0 :=
    ext_bitAt (by rw [hlen, List.length_replicate]) fun b _ => by simp [hbit, hah b, bitAt_replicate]
  exact ⟨m, a, image, hm, hzero ▸ himage, hea, hah⟩

end

theorem TableFormat.encodeImage_fits [DecidableEq κ] (f : TableFormat α κ) {as : List α}
    {payload : List UInt8} (hp : f.records.encodeAll [] as = .ok payload) (hn : as.length < 2 ^ 32)
    (hfit : TableFormat.tableHeaderLen + payload.length ≤ (f.blocks sb).toNat * blockSize)
    (h : (f.blocks sb).toNat * blockSize < 2 ^ 64) : ∃ image, f.encodeImage sb as = .ok image := by
  refine ⟨f.image ((f.blocks sb).toNat * blockSize) payload as.length, f.encodeImage_eq_ok.mpr ⟨payload, hp, ?_⟩⟩
  rw [f.length_image hfit]
  exact ⟨f.regionLen_eq_ok.mpr ⟨rfl, h⟩, hfit, hn, rfl⟩

theorem TableFormat.encodeImage_nil [DecidableEq κ] (f : TableFormat α κ)
    (h0 : f.blocks sb ≠ 0) (h : (f.blocks sb).toNat * blockSize < 2 ^ 64) :
    ∃ image, f.encodeImage sb [] = .ok image := by
  have hpos : (f.blocks sb).toNat ≠ 0 := fun hz => h0 (UInt64.toNat_inj.mp hz)
  refine f.encodeImage_fits rfl (by simp) ?_ h
  rw [TableFormat.tableHeaderLen, blockSize, List.length_nil]
  omega

theorem TableFormat.runOn_initializeRegion [DecidableEq κ] (f : TableFormat α κ)
    (hv : f.validateGeometry d.length sb = .ok ()) (he : f.encodeImage sb [] = .ok image) :
    (f.initializeRegion sb).runOn d = (.ok (), overlay d (f.tableWrites sb image)) := by
  obtain ⟨hn, -, hle⟩ := f.validateGeometry_eq_ok.mp hv
  rw [initializeRegion, runOn_read, eval_count]
  simp only [liftM_eq, hv, he, lift]
  exact runOn_writeRegion (by omega) image

/-! ## What formatting does -/

theorem regionBytes_elsewhere {start start' n' : Nat} (h : start + n ≤ start' ∨ start' + n' ≤ start) :
    regionBytes (overlay d (regionWrites start' n' image)) start n = regionBytes d start n := by
  apply regionBytes_overlay
  intro b hb
  have := keys_regionWrites.mp hb
  omega

theorem getElem?_elsewhere {start b : Nat} (h : b < start ∨ start + n ≤ b) :
    (overlay d (regionWrites start n image))[b]? = d[b]? := by
  apply getElem?_overlay_of_notMem
  intro hb
  have := keys_regionWrites.mp hb
  omega

theorem runOn_initializeAllocationRegion (hw : sb.WellFormed) (hl : sb.totalBlocks.toNat = d.length) {m : UInt64}
    (hm : allocationBitmapBytes sb.totalBlocks = .ok m)
    (he : encodeAllocationImage sb (List.replicate m.toNat 0) = .ok image) :
    (initializeAllocationRegion sb).runOn d =
      (.ok (), overlay d (regionWrites sb.allocationStart.toNat sb.allocationBlocks.toNat image)) := by
  have hr := hw.ranges
  rw [initializeAllocationRegion, runOn_read, eval_count]
  simp only [liftM_eq, runOn_read, eval_lift, validateAllocationGeometry, require_pos hl.symm, hm, he]
  apply runOn_writeRegion
  change sb.allocationRange.stop ≤ d.length
  omega

structure Formatted (sb : Superblock) (d d' : Disk) : Prop where
  superblock : readSuperblock.eval d' = .ok sb
  tables : ∃ a, Loads sb d' ⟨a, [], []⟩ ∧ ∀ b, ¬ a.Has b
  untouched : ∀ b, sb.journalRange.Contains b ∨ sb.reservedBlocks ≤ b → d'[b]? = d[b]?
  length_eq : d'.length = d.length

def formattedDisk (sb : Superblock) (ia ii ie : List UInt8) (d : Disk) : Disk :=
  overlay (overlay (overlay (overlay d (regionWrites sb.allocationStart.toNat sb.allocationBlocks.toNat ia))
    (regionWrites sb.inodeStart.toNat sb.inodeBlocks.toNat ii))
    (regionWrites sb.directoryStart.toNat sb.directoryBlocks.toNat ie)) [(superblockBlock, sb.encode)]

theorem regionBytes_formattedDisk {ia ii ie : List UInt8} {start : Nat} (h : 0 < start) :
    regionBytes (formattedDisk sb ia ii ie d) start n =
      regionBytes (overlay (overlay (overlay d (regionWrites sb.allocationStart.toNat sb.allocationBlocks.toNat ia))
        (regionWrites sb.inodeStart.toNat sb.inodeBlocks.toNat ii))
        (regionWrites sb.directoryStart.toNat sb.directoryBlocks.toNat ie)) start n := by
  apply regionBytes_overlay
  intro b hb
  simp only [List.map_cons, List.map_nil, List.mem_singleton, superblockBlock] at hb
  omega

section
variable {sb : Superblock} {d : Disk} (hw : sb.WellFormed) (hl : sb.totalBlocks.toNat = d.length)
  (hi : sb.inodeBlocks.toNat * blockSize < 2 ^ 64) (hd : sb.directoryBlocks.toNat * blockSize < 2 ^ 64)
include hw hl hi hd

theorem formatWith_run : ∃ d', (formatWith sb).runOn d = (.ok sb, d') ∧ Formatted sb d d' := by
  have h1 : sb.journalStart.toNat = 1 := by rw [hw.journalStart_eq]; rfl
  have h2 := hw.allocationStart_eq
  have h3 := hw.inodeStart_eq
  have h4 := hw.directoryStart_eq
  have h5 : sb.directoryStart.toNat + sb.directoryBlocks.toNat ≤ sb.totalBlocks.toNat := hw.reserved_le
  obtain ⟨m, a, ia, hm, hia, hea, hah⟩ := encodeAllocator_fresh hw
  obtain ⟨ii, hii⟩ := inodeTable.encodeImage_nil hw.inodeBlocks_ne hi
  obtain ⟨ie, hie⟩ := directoryTable.encodeImage_nil hw.directoryBlocks_ne hd
  have hinitA := runOn_initializeAllocationRegion hw hl hm hia
  have hinitI := fun (e : Disk) (he : e.length = d.length) =>
    inodeTable.runOn_initializeRegion (inodeTable_geometry hw (he.trans hl.symm)) hii
  have hinitE := fun (e : Disk) (he : e.length = d.length) =>
    directoryTable.runOn_initializeRegion (directoryTable_geometry hw (he.trans hl.symm)) hie
  have hlen : (formattedDisk sb ia ii ie d).length = d.length := by simp [formattedDisk]
  refine ⟨formattedDisk sb ia ii ie d, ?_, ?_, ⟨a, ⟨?_, ?_, ?_⟩, hah⟩, ?_, hlen⟩
  · rw [formatWith, runOn_bind_ok hinitA, initializeInodeTableRegion, runOn_bind_ok (hinitI _ (by simp)),
      initializeDirectoryTableRegion, runOn_bind_ok (hinitE _ (by simp)),
      runOn_bind_ok (runOn_putBlock (by simp only [length_overlay, superblockBlock]; omega) _)]
    rfl
  · refine readSuperblock_eq_ok.mpr ⟨?_, hw, by omega⟩
    rw [formattedDisk, overlay_cons, overlay_nil]
    exact List.getElem?_set_self (by simp only [length_overlay, superblockBlock]; omega)
  · refine loadAllocator_of_bytes hw hl hlen (hea.trans (congrArg Except.ok ?_))
    have hsize : ia.length = sb.allocationBlocks.toNat * blockSize := by
      rw [length_encodeAllocator hea, BlockRange.size, Superblock.allocationRange, Nat.add_sub_cancel_left]
    rw [allocationBytes, regionBytes_formattedDisk (by omega), regionBytes_elsewhere (by omega),
      regionBytes_elsewhere (by omega), regionBytes_writeRegion (by omega) hsize]
  · refine loadInodeTable_of_bytes hw hl hlen (hii.trans (congrArg Except.ok ?_))
    have hsize : ii.length = sb.inodeBlocks.toNat * blockSize := inodeTable.length_encodeImage hii
    change ii = regionBytes _ sb.inodeStart.toNat sb.inodeBlocks.toNat
    rw [regionBytes_formattedDisk (by omega), regionBytes_elsewhere (by omega),
      regionBytes_writeRegion (by rw [length_overlay]; omega) hsize]
  · refine loadDirectoryTable_of_bytes hw hl hlen (hie.trans (congrArg Except.ok ?_))
    change ie = regionBytes _ sb.directoryStart.toNat sb.directoryBlocks.toNat
    have hsize : ie.length = sb.directoryBlocks.toNat * blockSize := directoryTable.length_encodeImage hie
    rw [regionBytes_formattedDisk (by omega), regionBytes_writeRegion (by simp only [length_overlay]; omega) hsize]
  · intro b hb
    simp only [Superblock.journalRange, BlockRange.Contains, Superblock.reservedBlocks] at hb
    rw [formattedDisk, getElem?_overlay_of_notMem (by simp [superblockBlock]; omega), getElem?_elsewhere (by omega),
      getElem?_elsewhere (by omega), getElem?_elsewhere (by omega)]

end

theorem formatDevice_inv {p : FsProg Superblock} (hp : p = formatDevice ∨ ∃ j, p = formatDeviceWithJournalBlocks j)
    {d' : Disk} (hd : d.length < 2 ^ 64) (h : p.runOn d = (.ok sb, d')) :
    sb.WellFormed ∧ sb.totalBlocks.toNat = d.length ∧ Formatted sb d d' := by
  have hof : (UInt64.ofNat d.length).toNat = d.length := by
    rw [UInt64.toNat_ofNat']
    exact Nat.mod_eq_of_lt hd
  obtain ⟨j, hj⟩ : ∃ j, p.runOn d =
      (lift (Superblock.withAllMetadataBlocks (UInt64.ofNat d.length) j defaultInodeBlocks
      defaultDirectoryBlocks) >>= formatWith).runOn d := by
    rcases hp with rfl | ⟨j, rfl⟩
    · exact ⟨defaultJournalBlocks, runOn_read _ _⟩
    · exact ⟨j, runOn_read _ _⟩
  rw [hj] at h
  cases hg : Superblock.withAllMetadataBlocks
    (UInt64.ofNat d.length) j defaultInodeBlocks defaultDirectoryBlocks with
  | error e =>
    rw [hg, runOn_read, eval_lift] at h
    cases h
  | ok sb' =>
    obtain ⟨hw, ht, -, hi, he⟩ := Superblock.withAllMetadataBlocks_eq_ok.mp hg
    have hl : sb'.totalBlocks.toNat = d.length := by rw [ht, hof]
    obtain ⟨d₁, hrun, hf⟩ := formatWith_run hw hl (by rw [hi]; decide) (by rw [he]; decide)
    rw [hg, runOn_read, eval_lift] at h
    obtain ⟨h1, h2⟩ := Prod.mk.inj (hrun.symm.trans h)
    cases h1
    cases h2
    exact ⟨hw, hl, hf⟩

/-! ## The empty filesystem -/

def FsckReport.Empty (report : FsckReport) : Prop :=
  report.inodeRecords = 0 ∧ report.directoryEntries = 0 ∧ report.allocatedBlocks = 0 ∧
    report.committedTransactions = 0

/-- Nothing to replay and nothing stored, before a recovery pass and after it. -/
structure EmptyFilesystem (sb : Superblock) (d : Disk) : Prop where
  journal : (loadJournalImage sb).eval d = .ok []
  recovers : ((recoverJournal sb).runOn d).1 = .ok ⟨0, 0⟩
  noHomeWrite : ∀ b x, Mutation.write b x ∉ (recoverJournal sb).trace d
  before : ∃ report, checkDevice.eval d = .ok report ∧ report.Empty
  after : ∃ report, checkDevice.eval ((recoverJournal sb).runOn d).2 = .ok report ∧ report.Empty

def JournalBlank (sb : Superblock) (d : Disk) : Prop :=
  sb.journalBlocks.toNat * blockSize < 2 ^ 64 ∧
    ((∀ b ∈ journalBytes sb d, b = 0) ∨ journalBytes sb d = regionImage (sb.journalBlocks.toNat * blockSize) [])

theorem Snapshot.valid_empty (sb : Superblock) (a : BlockAllocator) : Snapshot.Valid sb ⟨a, [], []⟩ :=
  ⟨⟨by simp, by simp⟩, auditNamespace_eq_ok.mp rfl⟩

theorem loadJournalImage_nil (hv : validateRegion d.length sb = .ok ()) :
    (loadJournalImage sb).eval d = .ok [] ↔ JournalBlank sb d := by
  obtain ⟨hn, -, hne, hle⟩ := validateRegion_eq_ok.mp hv
  have hlen : (journalBytes sb d).length = sb.journalBlocks.toNat * blockSize := length_regionBytes (by omega)
  have hfit : regionHeaderSize ≤ sb.journalBlocks.toNat * blockSize := by
    have : sb.journalBlocks.toNat ≠ 0 := fun hz => hne (UInt64.toNat_inj.mp hz)
    rw [regionHeaderSize, blockSize]
    omega
  rw [loadJournalImage_eq_ok, regionCapacity_eq_ok, JournalBlank, hlen]
  by_cases hz : ∀ b ∈ journalBytes sb d, b = 0
  · rw [decodeRegion, if_pos hz]
    exact ⟨fun h => ⟨h.2.1.2, .inl hz⟩, fun h => ⟨hv, ⟨rfl, h.1⟩, rfl⟩⟩
  · by_cases h64 : sb.journalBlocks.toNat * blockSize < 2 ^ 64
    · have hc : regionCapacity sb = .ok (journalBytes sb d).length := regionCapacity_eq_ok.mpr ⟨hlen, hlen ▸ h64⟩
      have hdec := @decodeRegion_iff [] sb (journalBytes sb d) hc
      rw [encodeRegion_eq_ok, hlen] at hdec
      constructor
      · intro h
        obtain ⟨⟨payload, hp, -, -, he⟩, -⟩ := hdec.mp ⟨h.2.2, hz⟩
        cases hp
        exact ⟨h64, .inr he⟩
      · intro h
        have he := h.2.resolve_left hz
        exact ⟨hv, ⟨rfl, h64⟩, (hdec.mpr ⟨⟨[], rfl, regionCapacity_eq_ok.mpr ⟨rfl, h64⟩, hfit, he⟩, rfl⟩).1⟩
    · exact iff_of_false (fun h => h64 h.2.1.2) fun h => h64 h.1

theorem Formatted.empty_iff {d' : Disk} (h : Formatted sb d d') :
    EmptyFilesystem sb d' ↔ (loadJournalImage sb).eval d' = .ok [] := by
  constructor
  · exact fun he => he.journal
  · intro hj
    obtain ⟨-, hw, -⟩ := readSuperblock_eq_ok.mp h.superblock
    obtain ⟨a, hload, hnone⟩ := h.tables
    obtain ⟨hrun, htrace⟩ := recoverJournal_run hw.homesApart hj (s := LogState.init) rfl
    have hcount : a.allocatedBlocks = 0 := by
      rw [← a.count_allocated, List.count_eq_zero]
      intro hm
      obtain ⟨b, hb⟩ := List.getElem?_of_mem hm
      exact hnone b hb
    have hcheck : ∃ report, checkDevice.eval d' = .ok report ∧ report.Empty :=
      ⟨_, checkDevice_eq_ok.mpr ⟨sb, _, _, _, h.superblock, hload, Snapshot.valid_empty sb a, hj, rfl, rfl⟩, rfl,
        rfl, hcount, rfl⟩
    refine ⟨hj, by rw [hrun]; rfl, ?_, hcheck, by rw [hrun]; exact hcheck⟩
    intro b x hm
    rw [htrace] at hm
    simp [homeWrites, LogState.init] at hm

theorem format_empty_iff {p : FsProg Superblock} (hp : p = formatDevice ∨ ∃ j, p = formatDeviceWithJournalBlocks j)
    {d d' : Disk} (hd : d.length < 2 ^ 64) {sb : Superblock} (h : p.runOn d = (.ok sb, d')) :
    EmptyFilesystem sb d' ↔ JournalBlank sb d := by
  obtain ⟨hw, hl, hf⟩ := formatDevice_inv hp hd h
  have hr := hw.ranges
  have hv : validateRegion d.length sb = .ok () :=
    validateRegion_eq_ok.mpr ⟨hl, hw.journalStart_eq, hw.journalBlocks_ne, by
      change sb.journalRange.stop ≤ _
      omega⟩
  rw [hf.empty_iff, ← loadJournalImage_nil hv]
  have hsame : ∀ b, sb.journalRange.Contains b → d'[b]? = d[b]? := fun b hb => hf.untouched b (.inl hb)
  exact ⟨loadJournalImage_congr hf.length_eq hsame,
    loadJournalImage_congr hf.length_eq.symm fun b hb => (hsame b hb).symm⟩

/-! ## A device of sixteen blocks -/

def smallGeometry : Superblock := ⟨16, 1, 4, 5, 1, 6, 2, 8, 2⟩

def zeroDisk : Disk := List.replicate 16 Block.zero

theorem new_smallGeometry : Superblock.new 16 = .ok smallGeometry := by rfl

theorem smallGeometry_wellFormed : smallGeometry.WellFormed :=
  (Superblock.withAllMetadataBlocks_eq_ok.mp new_smallGeometry).1

theorem formatDevice_small (hd : d.length = 16) :
    ∃ d', formatDevice.runOn d = (.ok smallGeometry, d') ∧ Formatted smallGeometry d d' := by
  obtain ⟨d', hrun, hf⟩ := @formatWith_run smallGeometry d smallGeometry_wellFormed hd.symm (by decide) (by decide)
  refine ⟨d', ?_, hf⟩
  rw [formatDevice, runOn_read, eval_count, hd]
  change (lift (Superblock.new 16) >>= formatWith).runOn d = _
  rw [new_smallGeometry]
  exact hrun

theorem journalBlank_zero (h : sb.journalBlocks.toNat * blockSize < 2 ^ 64) (n : Nat) :
    JournalBlank sb (List.replicate n Block.zero) := by
  refine ⟨h, .inl ?_⟩
  apply regionBytes_zero
  intro b x _ _ hx
  exact List.eq_of_mem_replicate (List.mem_of_getElem? hx)

theorem formatWith_zero (hw : sb.WellFormed) (hj : sb.journalBlocks.toNat * blockSize < 2 ^ 64)
    (hi : sb.inodeBlocks.toNat * blockSize < 2 ^ 64) (hd : sb.directoryBlocks.toNat * blockSize < 2 ^ 64) :
    ∃ d, Formatted sb (List.replicate sb.totalBlocks.toNat Block.zero) d ∧
      (loadJournalImage sb).eval d = .ok [] := by
  obtain ⟨d, -, hf⟩ := formatWith_run hw (List.length_replicate ..).symm hi hd
  obtain ⟨-, hw', hl⟩ := readSuperblock_eq_ok.mp hf.superblock
  have hv : validateRegion d.length sb = .ok () := by
    have hr := hw.ranges
    refine validateRegion_eq_ok.mpr ⟨hl, hw.journalStart_eq, hw.journalBlocks_ne, ?_⟩
    change sb.journalRange.stop ≤ _
    omega
  have hload := (loadJournalImage_nil (hf.length_eq ▸ hv)).mpr (journalBlank_zero hj _)
  exact ⟨d, hf, loadJournalImage_congr hf.length_eq.symm (fun b hb => (hf.untouched b (.inl hb)).symm) hload⟩

theorem format_empty_zeroDisk : ∃ d', formatDevice.runOn zeroDisk = (.ok smallGeometry, d') ∧
    JournalBlank smallGeometry zeroDisk ∧ EmptyFilesystem smallGeometry d' := by
  obtain ⟨d', hrun, -⟩ := formatDevice_small (d := zeroDisk) (List.length_replicate ..)
  have hblank : JournalBlank smallGeometry zeroDisk := journalBlank_zero (by decide) 16
  exact ⟨d', hrun, hblank, (format_empty_iff (.inl rfl) (by decide) hrun).mpr hblank⟩

/-- A transaction left committed in the journal of an earlier filesystem. -/
def staleRecords : List JournalEntry := transactionRecords [(6, Block.zero)]

def staleDisk : Disk := ((storeJournalImage smallGeometry staleRecords).runOn zeroDisk).2

theorem loadJournalImage_staleDisk : (loadJournalImage smallGeometry).eval staleDisk = .ok staleRecords ∧
    staleDisk.length = 16 := by
  have hv : validateRegion zeroDisk.length smallGeometry = .ok () := by rfl
  have he : validateEntries smallGeometry staleRecords = .ok () := by
    refine validateEntries_eq_ok.mpr ⟨⟨_, scan_transactionRecords _⟩, ?_⟩
    rw [staleRecords, logWrites_transactionRecords]
    decide
  obtain ⟨region, hr⟩ := checkJournalImage_fits (d := zeroDisk) hv he (by decide) (by decide)
  rw [staleDisk, (runOn_storeJournalImage hr).1]
  exact ⟨loadJournalImage_store hr, (length_overlay _ _).trans (List.length_replicate ..)⟩

theorem TableFormat.load_zero [DecidableEq κ] (f : TableFormat α κ)
    {as : List α} (hm : f.magic ≠ List.replicate 8 0) (hz : d[(f.start sb).toNat]? = some Block.zero) :
    (f.load sb).eval d ≠ .ok as := by
  intro h
  obtain ⟨hv, he⟩ := f.load_eq_ok.mp h
  obtain ⟨-, hne, -⟩ := f.validateGeometry_eq_ok.mp hv
  obtain ⟨-, -, hc, -⟩ := f.encodeImage_eq_ok.mp he
  obtain ⟨payload, ha, -⟩ := f.decodeImage_accepted.mp ((f.decodeImage_iff hc).mpr he)
  obtain ⟨n, hn⟩ := Nat.exists_eq_succ_of_ne_zero fun h0 => hne (UInt64.toNat_inj.mp h0)
  apply hm
  rw [← ha.magic, TableFormat.tableBytes, hn, Nat.succ_eq_add_one, regionBytes_succ hz, slice_append_of_le]
  · exact List.take_replicate ..
  · rw [Block.zero.length_bytes]
    decide

/-- Formatting succeeds, and the recovery pass that follows destroys the fresh inode table. -/
theorem format_staleDisk : ∃ d', formatDevice.runOn staleDisk = (.ok smallGeometry, d') ∧
    (loadJournalImage smallGeometry).eval d' = .ok staleRecords ∧
    Mutation.write 6 Block.zero ∈ (recoverJournal smallGeometry).trace d' ∧
    (∃ report, checkDevice.eval d' = .ok report ∧ report.committedTransactions = 1) ∧
    ∀ report, checkDevice.eval ((recoverJournal smallGeometry).runOn d').2 ≠ .ok report := by
  obtain ⟨hload, hlen⟩ := loadJournalImage_staleDisk
  obtain ⟨d', hrun, hf⟩ := formatDevice_small hlen
  have hj : (loadJournalImage smallGeometry).eval d' = .ok staleRecords :=
    loadJournalImage_congr hf.length_eq.symm (fun b hb => (hf.untouched b (.inl hb)).symm) hload
  have hscan := scan_transactionRecords [(6, Block.zero)]
  obtain ⟨hrec, htrace⟩ := recoverJournal_run smallGeometry_wellFormed.homesApart hj hscan
  obtain ⟨a, htables, -⟩ := hf.tables
  refine ⟨d', hrun, hj, ?_,
    ⟨_, checkDevice_eq_ok.mpr ⟨_, _, _, _, hf.superblock, htables, Snapshot.valid_empty _ a, hj,
    hscan, rfl⟩, rfl⟩, ?_⟩
  · rw [htrace]
    simp [homeWrites]
  · intro report hcheck
    rw [hrec] at hcheck
    obtain ⟨sb, s, es, log, hsb, hl, -⟩ := checkDevice_eq_ok.mp hcheck
    obtain ⟨h0, hw, htotal⟩ := readSuperblock_eq_ok.mp hf.superblock
    have hsame : readSuperblock.eval (overlay d' (homeWrites [(6, Block.zero)])) = .ok smallGeometry := by
      refine readSuperblock_eq_ok.mpr ⟨?_, hw, by rwa [length_overlay]⟩
      rwa [getElem?_overlay_of_notMem (by decide)]
    cases hsb.symm.trans hsame
    refine inodeTable.load_zero (by decide) ?_ hl.inodes
    exact List.getElem?_set_self (by rw [hf.length_eq, hlen]; decide)

end SystemsLab.Fs
