import SystemsLab.Fs.Namespace

/-!
# Unlinking

`storeUnlinkMetadataJournaled` compares the desired snapshot, in any order, with the current one before it
publishes. `Unlinked` says what the comparison establishes.
-/

namespace SystemsLab.Fs

open Prog Relation

def freedBlocks (current desired : BlockAllocator) : List Nat → Except IoError (List UInt64)
  | [] => .ok []
  | b :: bs => do
    let currentOwned ← (current.isOwned (UInt64.ofNat b)).mapError fun e => invalidInput e.message
    let desiredOwned ← (desired.isOwned (UInt64.ofNat b)).mapError fun e => invalidInput e.message
    require (¬ (currentOwned = false ∧ desiredOwned = true)) (invalidInput "unlink may not allocate a data block")
    let freed ← freedBlocks current desired bs
    pure (if currentOwned = true ∧ desiredOwned = false then UInt64.ofNat b :: freed else freed)

def checkUnlinkTransition (current desired : Snapshot) : Except IoError Unit := do
  require (current.allocator.totalBlocks = desired.allocator.totalBlocks ∧
    current.allocator.reservedBlocks = desired.allocator.reservedBlocks)
      (invalidInput "unlink allocator geometry changed")
  let currentIds := current.inodes.map PersistedInode.id
  let desiredIds := desired.inodes.map PersistedInode.id
  require (currentIds.Nodup ∧ desiredIds.Nodup)
    (invalidInput "unlink inode snapshot contains duplicate identifiers")
  match current.inodes.filter fun inode => inode.id ∉ desiredIds with
  | [removed] => do
    require (∀ id ∈ desiredIds, id ∈ currentIds) (invalidInput "unlink may not add an inode")
    require (∀ inode ∈ current.inodes, ∀ other ∈ desired.inodes, inode.id = other.id → inode = other)
      (invalidInput "unlink may not modify surviving inodes")
    require (removed.id ≠ rootInodeId) (invalidInput "unlink may not remove the root inode")
    require (current.entries.Nodup ∧ desired.entries.Nodup)
      (invalidInput "unlink namespace snapshot contains duplicate entries")
    require (∀ entry ∈ desired.entries, entry ∈ current.entries)
      (invalidInput "unlink may not add or retarget a namespace entry")
    match current.entries.filter fun entry => entry ∉ desired.entries with
    | [removedEntry] => do
      require (removedEntry.target = removed.id)
        (invalidInput "removed namespace entry must target the removed inode")
      require (linkCount current.entries removed.id = 1)
        (invalidInput "unlink cannot remove an inode with another namespace reference")
      require (∀ entry ∈ desired.entries, entry.target ≠ removed.id ∧ entry.parent ≠ removed.id)
        (invalidInput "unlink leaves a namespace reference to the removed inode")
      require (¬ (removed.kind = .directory ∧ ∃ entry ∈ current.entries, entry.parent = removed.id))
        (invalidInput "unlink cannot remove a non-empty directory")
      let freed ← freedBlocks current.allocator desired.allocator
        (List.range' current.allocator.reservedBlocks
          (current.allocator.totalBlocks - current.allocator.reservedBlocks))
      require ((∀ b ∈ freed, b ∈ removed.blocks) ∧ ∀ b ∈ removed.blocks, b ∈ freed)
        (invalidInput "unlink must free exactly the removed inode's data blocks")
    | _ => throw (invalidInput "unlink must remove exactly one namespace entry")
  | _ => throw (invalidInput "unlink must remove exactly one inode")

def validateUnlinkTransition (sb : Superblock) (desired : Snapshot) : FsProg Unit := do
  let allocator ← loadAllocator sb
  let inodes ← loadInodeTable sb
  let entries ← loadDirectoryTable sb
  checkUnlinkTransition ⟨allocator, inodes, entries⟩ desired

def storeUnlinkMetadataJournaled (sb : Superblock) (allocator : BlockAllocator) (inodes : List PersistedInode)
    (entries : List PersistedDirectoryEntry) : FsProg RecoveryReport := do
  validateUnlinkTransition sb ⟨allocator, inodes, entries⟩
  storeCreateMetadataJournaled sb allocator inodes entries

/-! ## What the comparison establishes -/

structure Unlinked (current desired : Snapshot) (removed : PersistedInode) : Prop where
  ids : (current.inodes.map PersistedInode.id).Nodup
  inodes : current.inodes.Perm (removed :: desired.inodes)
  root : removed.id ≠ rootInodeId
  kept : ∀ entry ∈ desired.entries, entry ∈ current.entries ∧ entry.target ≠ removed.id ∧ entry.parent ≠ removed.id
  gone : ∀ entry ∈ current.entries, entry ∉ desired.entries → entry.target = removed.id
  has : ∀ b : UInt64, desired.allocator.Has b.toNat ↔ current.allocator.Has b.toNat ∧ b ∉ removed.blocks

theorem filter_notMem_eq_singleton {α : Type} [DecidableEq α] {x : α} {l m : List α} (hl : l.Nodup) (hm : m.Nodup)
    (hsub : ∀ y ∈ m, y ∈ l) : l.filter (fun y => y ∉ m) = [x] ↔ l.Perm (x :: m) := by
  constructor
  · intro h
    have hx : ∀ y, y ∈ l ∧ y ∉ m ↔ y = x := by
      intro y
      have := congrArg (fun l => y ∈ l) h
      simpa using this
    refine (List.perm_ext_iff_of_nodup hl (List.nodup_cons.mpr ⟨((hx x).mpr rfl).2, hm⟩)).mpr fun y => ?_
    rw [List.mem_cons, ← hx y]
    by_cases hy : y ∈ m
    · simp [hy, hsub y hy]
    · simp [hy]
  · intro h
    have hnot := (List.nodup_cons.mp (h.nodup_iff.mp hl)).1
    refine List.perm_singleton.mp ((h.filter _).trans ?_)
    rw [List.filter_cons_of_pos (by simpa using hnot), List.filter_eq_nil_iff.mpr (by simp)]

theorem filter_ids {current desired : List PersistedInode}
    (hsame : ∀ inode ∈ current, ∀ other ∈ desired, inode.id = other.id → inode = other) :
    current.filter (fun inode => inode.id ∉ desired.map PersistedInode.id) =
      current.filter fun inode => inode ∉ desired := by
  refine List.filter_congr fun inode hi => decide_eq_decide.mpr
    (not_congr ⟨fun h => ?_, fun h => List.mem_map.mpr ⟨inode, h, rfl⟩⟩)
  obtain ⟨other, ho, hid⟩ := List.mem_map.mp h
  exact hsame inode hi other ho hid.symm ▸ ho

section
variable {current desired : BlockAllocator} (hr : current.reservedBlocks = desired.reservedBlocks)
  (ht : current.totalBlocks = desired.totalBlocks) {freed : List UInt64}

theorem isOwned_ofNat {a : BlockAllocator} {b : Nat} (hr : a.reservedBlocks ≤ b) (hlt : b < a.totalBlocks) :
    a.isOwned (UInt64.ofNat b) = .ok (decide (a.Has b)) := by
  have h64 := a.total_lt
  have heq : (UInt64.ofNat b).toNat = b := UInt64.toNat_ofNat_of_lt' (by simp only [UInt64.size]; omega)
  refine BlockAllocator.isOwned_eq_ok.mpr ⟨by rwa [heq], ?_⟩
  rw [heq, decide_eq_true_iff, or_iff_right (Nat.not_lt.mpr hr)]

include hr ht

theorem freedBlocks_eq_ok : ∀ {bs : List Nat} {freed : List UInt64},
    (∀ b ∈ bs, current.reservedBlocks ≤ b ∧ b < current.totalBlocks) → (freedBlocks current desired bs = .ok freed ↔
      (∀ b ∈ bs, desired.Has b → current.Has b) ∧
        freed = (bs.filter fun b => current.Has b ∧ ¬ desired.Has b).map UInt64.ofNat)
  | [], freed, _ => by simp [freedBlocks, eq_comm]
  | b :: bs, freed, h => by
    obtain ⟨⟨hle, hlt⟩, h⟩ := List.forall_mem_cons.mp h
    simp only [freedBlocks, isOwned_ofNat hle hlt, isOwned_ofNat (hr ▸ hle) (ht ▸ hlt), Except.mapError,
      except_bind_ok, steps_ok, exists_const, freedBlocks_eq_ok h, List.forall_mem_cons, List.filter_cons]
    by_cases hc : current.Has b <;> by_cases hd : desired.Has b <;> simp [hc, hd, eq_comm]

theorem mem_freedBlocks (h : freedBlocks current desired
      (List.range' current.reservedBlocks (current.totalBlocks - current.reservedBlocks)) = .ok freed) :
    (∀ b, desired.Has b → current.Has b) ∧ ∀ b :
    UInt64, b ∈ freed ↔ current.Has b.toNat ∧ ¬ desired.Has b.toNat := by
  have hrange : ∀ b, b ∈ List.range' current.reservedBlocks (current.totalBlocks - current.reservedBlocks) ↔
      current.reservedBlocks ≤ b ∧ b < current.totalBlocks := by
    intro b
    have := current.reserved_le
    rw [List.mem_range'_1]
    omega
  obtain ⟨hsub, rfl⟩ := (freedBlocks_eq_ok hr ht fun b => (hrange b).mp).mp h
  refine ⟨fun b hb => hsub b ((hrange b).mpr ⟨hr ▸ hb.reserved_le, ht ▸ hb.lt⟩) hb, fun b => ?_⟩
  rw [List.mem_map]
  constructor
  · rintro ⟨c, hc, rfl⟩
    obtain ⟨hin, hown⟩ := List.mem_filter.mp hc
    have hlt := ((hrange c).mp hin).2
    have h64 := current.total_lt
    rw [UInt64.toNat_ofNat_of_lt' (by simp only [UInt64.size]; omega)]
    exact of_decide_eq_true hown
  · intro h
    exact ⟨b.toNat, List.mem_filter.mpr ⟨(hrange _).mpr ⟨h.1.reserved_le, h.1.lt⟩, decide_eq_true h⟩,
      UInt64.ofNat_toNat⟩

end

structure Compared (current desired : Snapshot) (removed : PersistedInode) (removedEntry : PersistedDirectoryEntry)
    (freed : List UInt64) : Prop where
  geometry : current.allocator.totalBlocks = desired.allocator.totalBlocks ∧
    current.allocator.reservedBlocks = desired.allocator.reservedBlocks
  ids : (current.inodes.map PersistedInode.id).Nodup ∧ (desired.inodes.map PersistedInode.id).Nodup
  removes : current.inodes.filter (fun inode => inode.id ∉ desired.inodes.map PersistedInode.id) = [removed]
  added : ∀ id ∈ desired.inodes.map PersistedInode.id, id ∈ current.inodes.map PersistedInode.id
  same : ∀ inode ∈ current.inodes, ∀ other ∈ desired.inodes, inode.id = other.id → inode = other
  root : removed.id ≠ rootInodeId
  nodup : current.entries.Nodup ∧ desired.entries.Nodup
  kept : ∀ entry ∈ desired.entries, entry ∈ current.entries
  removesEntry : current.entries.filter (fun entry => entry ∉ desired.entries) = [removedEntry]
  target : removedEntry.target = removed.id
  links : linkCount current.entries removed.id = 1
  references : ∀ entry ∈ desired.entries, entry.target ≠ removed.id ∧ entry.parent ≠ removed.id
  empty : ¬ (removed.kind = .directory ∧ ∃ entry ∈ current.entries, entry.parent = removed.id)
  frees : freedBlocks current.allocator desired.allocator
    (List.range' current.allocator.reservedBlocks
      (current.allocator.totalBlocks - current.allocator.reservedBlocks)) = .ok freed
  blocks : (∀ b ∈ freed, b ∈ removed.blocks) ∧ ∀ b ∈ removed.blocks, b ∈ freed

theorem checkUnlinkTransition_iff {current desired : Snapshot} {u : Unit} :
    checkUnlinkTransition current desired = .ok u ↔
      ∃ removed removedEntry freed, Compared current desired removed removedEntry freed := by
  simp only [checkUnlinkTransition, steps_ok, exists_const]
  constructor
  · rintro ⟨hg, hids, h⟩
    split at h
    · rename_i removed hremoved
      simp only [steps_ok, exists_const] at h
      obtain ⟨hadd, hsame, hroot, hnodup, hkept, h⟩ := h
      split at h
      · rename_i entry hentry
        simp only [steps_ok, exists_const] at h
        obtain ⟨htarget, hlinks, hrefs, hempty, freed, hfreed, hblocks⟩ := h
        exact ⟨removed, entry, freed, hg, hids, hremoved, hadd, hsame, hroot, hnodup, hkept, hentry, htarget,
          hlinks, hrefs, hempty, hfreed, hblocks⟩
      · cases h
    · cases h
  · rintro ⟨removed, entry, freed, h⟩
    refine ⟨h.geometry, h.ids, ?_⟩
    simp only [h.removes, h.removesEntry, steps_ok, exists_const]
    exact ⟨h.added, h.same, h.root, h.nodup, h.kept, h.target, h.links, h.references, h.empty, freed,
      h.frees, h.blocks⟩

section
variable {current desired : Snapshot} {removed : PersistedInode} {removedEntry : PersistedDirectoryEntry}
  {freed : List UInt64}

section
variable (h : Compared current desired removed removedEntry freed)
include h

theorem Compared.inodes : current.inodes.Perm (removed :: desired.inodes) := by
  refine (filter_notMem_eq_singleton (.of_map _ h.ids.1) (.of_map _ h.ids.2) fun inode hd => ?_).mp
    ((filter_ids h.same).symm.trans h.removes)
  obtain ⟨other, ho, hid⟩ := List.mem_map.mp (h.added _ (List.mem_map.mpr ⟨inode, hd, rfl⟩))
  exact h.same other ho inode hd hid ▸ ho

theorem Compared.has (b : UInt64) :
    desired.allocator.Has b.toNat ↔ current.allocator.Has b.toNat ∧ b ∉ removed.blocks := by
  obtain ⟨hsub, hmem⟩ := mem_freedBlocks h.geometry.2 h.geometry.1 h.frees
  constructor
  · intro hd
    exact ⟨hsub _ hd, fun hb => ((hmem b).mp (h.blocks.2 b hb)).2 hd⟩
  · rintro ⟨hc, hnot⟩
    by_contra hd
    exact hnot (h.blocks.1 b ((hmem b).mpr ⟨hc, hd⟩))

theorem Compared.unlinked : Unlinked current desired removed := by
  refine ⟨h.ids.1, h.inodes, h.root, fun e he => ⟨h.kept e he, h.references e he⟩, fun e he hne => ?_, h.has⟩
  have : e ∈ current.entries.filter fun entry => entry ∉ desired.entries := by simp [he, hne]
  rw [h.removesEntry, List.mem_singleton] at this
  rw [this, h.target]

end

end

/-! ## The step -/

variable {sb : Superblock}

theorem Unlinked.step {current desired : Snapshot} {removed : PersistedInode}
    (h : Unlinked current desired removed) : Step sb current desired := by
  have hnd : (removed.id :: desired.inodes.map PersistedInode.id).Nodup :=
    (h.inodes.map PersistedInode.id).nodup_iff.mp h.ids
  obtain ⟨hnot, hdn⟩ := List.nodup_cons.mp hnd
  have hkeep : ∀ id kind, id ≠ removed.id → inodeKinds current.inodes id = some kind →
      inodeKinds desired.inodes id = some kind := by
    intro id kind hne hk
    obtain ⟨inode, hm, rfl⟩ := exists_of_kind hk
    rcases List.mem_cons.mp (h.inodes.subset hm) with rfl | hd
    · exact absurd rfl hne
    · rw [inodeKinds_of_mem hdn hd, ← inodeKinds_of_mem h.ids hm, hk]
  refine ⟨⟨⟨references desired.inodes, removed.blocks, [], ?_, .refl _, by simp, .nil, fun b => ?_⟩⟩, fun hv => ?_⟩
  · exact h.inodes.flatMap_right PersistedInode.blocks
  · rw [h.has]
    simp
  · refine hv.edit_files ?_ ?_ ?_ ?_ ?_
    · intro e he
      obtain ⟨hc, -, hp⟩ := h.kept e he
      exact hkeep _ _ hp (hv.parent e hc)
    · intro e he
      obtain ⟨hc, ht, -⟩ := h.kept e he
      obtain ⟨kind, hk⟩ := Option.isSome_iff_exists.mp (inodeKinds_isSome.mpr (hv.target e hc))
      exact exists_of_kind (hkeep _ _ ht hk)
    · intro hne
      obtain ⟨inode, hm⟩ := List.exists_mem_of_ne_nil _ hne
      exact hkeep _ _ h.root.symm (hv.root (List.ne_nil_of_mem (h.inodes.symm.subset (List.mem_cons_of_mem _ hm))))
    · intro e he
      exact .inl (edge_adjacency.mpr ⟨e, (h.kept e he).1, rfl, rfl⟩)
    · intro inode hm hroot
      obtain ⟨e, he, ht⟩ := hv.incoming (h.inodes.symm.subset (List.mem_cons_of_mem _ hm)) hroot
      refine ⟨e, Classical.byContradiction fun hne => hnot ?_, ht⟩
      rw [← h.gone e he hne, ht]
      exact List.mem_map.mpr ⟨inode, hm, rfl⟩

instance (sb : Superblock) (desired : Snapshot) : (validateUnlinkTransition sb desired).Reads := by
  unfold validateUnlinkTransition; infer_instance

theorem eval_validateUnlinkTransition {d : Disk} {s : Snapshot} (h : Loads sb d s) (desired : Snapshot) :
    (validateUnlinkTransition sb desired).eval d = checkUnlinkTransition s desired := by
  simp only [validateUnlinkTransition, eval_bind, eval_liftM, h.allocator, h.inodes, h.entries, except_bind_ok]

theorem storeUnlinkMetadataJournaled_outcome {d : Disk} (hw : sb.WellFormed)
    (hl : sb.totalBlocks.toNat = d.length) (allocator : BlockAllocator) (inodes : List PersistedInode)
    (entries : List PersistedDirectoryEntry) :
    Outcome sb d (Steps sb d) (storeUnlinkMetadataJournaled sb allocator inodes entries) := by
  apply Outcome.bind
  intro _ hcheck
  refine (storeCreateMetadataJournaled_outcome hw hl).mono fun h hload s hs _ => ⟨_, hload, ?_⟩
  rw [eval_validateUnlinkTransition hs] at hcheck
  obtain ⟨removed, entry, freed, hu⟩ := checkUnlinkTransition_iff.mp hcheck
  exact hu.unlinked.step

end SystemsLab.Fs
