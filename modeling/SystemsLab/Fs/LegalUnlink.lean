import SystemsLab.Fs.Create

/-!
# What an unlink may ask for

On a valid device the set-by-set comparison accepts exactly the snapshots that one legal unlink produces.
-/

namespace SystemsLab.Fs

open Prog
variable {sb : Superblock}

/-- The current snapshot after the unlink of one inode through its only entry. -/
structure LegalUnlink (current desired : Snapshot) (inode : PersistedInode)
    (entry : PersistedDirectoryEntry) : Prop where
  mem : inode ∈ current.inodes
  root : inode.id ≠ rootInodeId
  kind : inode.kind = .file ∨ inode.kind = .directory ∧ ∀ e ∈ current.entries, e.parent ≠ inode.id
  only : current.entries.filter (fun e => e.target = inode.id) = [entry]
  inodes : desired.inodes.Perm (current.inodes.erase inode)
  entries : desired.entries.Perm (current.entries.erase entry)
  bitmap : ∀ b : Nat, desired.allocator.Has b ↔ current.allocator.Has b ∧ b ∉ inode.blocks.map UInt64.toNat

/-! ## From the comparison to the unlink -/

section
variable {current desired : Snapshot}
variable {blocks : List UInt64}

theorem erase_perm_of_perm_cons {α : Type} [DecidableEq α] {x : α} {l m : List α} (h : l.Perm (x :: m)) :
    m.Perm (l.erase x) := by
  have := (h.erase x).symm
  rwa [List.erase_cons_head] at this

theorem mem_toNat_iff {b : UInt64} : b.toNat ∈ blocks.map UInt64.toNat ↔ b ∈ blocks := by
  constructor
  · intro h
    obtain ⟨c, hc, heq⟩ := List.mem_map.mp h
    exact UInt64.toNat_inj.mp heq ▸ hc
  · intro h
    exact List.mem_map.mpr ⟨b, h, rfl⟩

theorem bitmap_of_has {a a' : BlockAllocator} (ht : a.totalBlocks = a'.totalBlocks)
    (h : ∀ b : UInt64, a'.Has b.toNat ↔ a.Has b.toNat ∧ b ∉ blocks) (b : Nat) :
    a'.Has b ↔ a.Has b ∧ b ∉ blocks.map UInt64.toNat := by
  by_cases hb : b < a.totalBlocks
  · have h64 := a.total_lt
    have heq : (UInt64.ofNat b).toNat = b := UInt64.toNat_ofNat_of_lt' (by simp only [UInt64.size]; omega)
    have hiff := h (UInt64.ofNat b)
    rw [← mem_toNat_iff, heq] at hiff
    exact hiff
  · exact iff_of_false (fun hc => hb (ht ▸ hc.lt)) fun hc => hb hc.1.lt

theorem Compared.legal {removed : PersistedInode} {removedEntry : PersistedDirectoryEntry} {freed : List UInt64}
    (h : Compared current desired removed removedEntry freed) :
    LegalUnlink current desired removed removedEntry := by
  have hperm := (filter_notMem_eq_singleton h.nodup.1 h.nodup.2 h.kept).mp h.removesEntry
  have hm : removedEntry ∈ current.entries := hperm.mem_iff.mpr List.mem_cons_self
  have honly : current.entries.filter (fun e => e.target = removed.id) = [removedEntry] := by
    have hlen : (current.entries.filter fun e => e.target = removed.id).length = 1 := by
      rw [← List.countP_eq_length_filter]
      exact h.links
    obtain ⟨e, he⟩ := List.length_eq_one_iff.mp hlen
    have hin : removedEntry ∈ current.entries.filter fun e => e.target = removed.id := by simp [hm, h.target]
    rw [he] at hin ⊢
    rw [List.mem_singleton.mp hin]
  refine ⟨?_, h.root, ?_, honly, erase_perm_of_perm_cons h.inodes, erase_perm_of_perm_cons hperm,
    bitmap_of_has h.geometry.1 h.has⟩
  · exact h.inodes.mem_iff.mpr List.mem_cons_self
  · cases hk : removed.kind with
    | file => exact .inl rfl
    | directory =>
      refine .inr ⟨rfl, fun e he hp => h.empty ⟨hk, e, he, hp⟩⟩

/-! ## From the unlink to the comparison -/

theorem LegalUnlink.compared {inode : PersistedInode} {entry : PersistedDirectoryEntry}
    (h : LegalUnlink current desired inode entry) (hids : (current.inodes.map PersistedInode.id).Nodup)
    (hentries : current.entries.Nodup) (hv : current.Valid sb)
    (hg : current.allocator.totalBlocks = desired.allocator.totalBlocks ∧
      current.allocator.reservedBlocks = desired.allocator.reservedBlocks) :
    ∃ freed, Compared current desired inode entry freed := by
  obtain ⟨he, htarget⟩ : entry ∈ current.entries ∧ entry.target = inode.id := by
    have : entry ∈ current.entries.filter fun e => e.target = inode.id := by rw [h.only]; exact List.mem_cons_self
    simpa using this
  have hinodes : current.inodes.Perm (inode :: desired.inodes) :=
    (List.perm_cons_erase h.mem).trans (h.inodes.symm.cons _)
  have hperm : current.entries.Perm (entry :: desired.entries) :=
    (List.perm_cons_erase he).trans (h.entries.symm.cons _)
  have hdids : (inode.id :: desired.inodes.map PersistedInode.id).Nodup :=
    (hinodes.map PersistedInode.id).nodup_iff.mp hids
  have hdentries : (entry :: desired.entries).Nodup := hperm.nodup_iff.mp hentries
  obtain ⟨hnot, hdids⟩ := List.nodup_cons.mp hdids
  obtain ⟨henot, hdentries⟩ := List.nodup_cons.mp hdentries
  have hkept : ∀ e ∈ desired.entries, e ∈ current.entries :=
    fun e hm => hperm.mem_iff.mpr (List.mem_cons_of_mem _ hm)
  -- The unlinked inode has no entries below it: a file never has, and the directory is empty.
  have hchild : ∀ e ∈ current.entries, e.parent ≠ inode.id := by
    rcases h.kind with hfile | ⟨-, hempty⟩
    · intro e hm hp
      have hk := hv.tree.parent e hm
      rw [hp, inodeKinds_of_mem hids h.mem, hfile] at hk
      cases hk
    · exact hempty
  have hhas : ∀ b : UInt64, desired.allocator.Has b.toNat ↔ current.allocator.Has b.toNat ∧ b ∉ inode.blocks := by
    intro b
    rw [h.bitmap, mem_toNat_iff]
  obtain ⟨freed, hfreed⟩ : ∃ freed, freedBlocks current.allocator desired.allocator
      (List.range' current.allocator.reservedBlocks
      (current.allocator.totalBlocks - current.allocator.reservedBlocks)) = .ok freed := by
    refine ⟨_, (freedBlocks_eq_ok hg.2 hg.1 fun b hb => ?_).mpr ⟨fun b _ hb => ((h.bitmap b).mp hb).1, rfl⟩⟩
    have := current.allocator.reserved_le
    rw [List.mem_range'_1] at hb
    omega
  have hmem := (mem_freedBlocks hg.2 hg.1 hfreed).2
  have hsame : ∀ a ∈ current.inodes, ∀ b ∈ desired.inodes, a.id = b.id → a = b := fun a ha b hb =>
    List.inj_on_of_nodup_map hids ha (hinodes.mem_iff.mpr (List.mem_cons_of_mem _ hb))
  refine ⟨freed, hg, ⟨hids, hdids⟩, ?_, ?_, hsame, h.root, ⟨hentries, hdentries⟩, hkept, ?_, htarget, ?_, ?_, ?_,
    hfreed, ?_, ?_⟩
  · refine (filter_ids hsame).trans
      ((filter_notMem_eq_singleton (.of_map _ hids) (.of_map _ hdids) fun y hy => ?_).mpr hinodes)
    exact hinodes.mem_iff.mpr (List.mem_cons_of_mem _ hy)
  · intro id hid
    obtain ⟨other, ho, rfl⟩ := List.mem_map.mp hid
    exact List.mem_map.mpr ⟨other, hinodes.mem_iff.mpr (List.mem_cons_of_mem _ ho), rfl⟩
  · exact (filter_notMem_eq_singleton hentries hdentries hkept).mpr hperm
  · rw [linkCount, List.countP_eq_length_filter, h.only]
    rfl
  · intro e hm
    refine ⟨fun ht => ?_, hchild e (hkept e hm)⟩
    have : e ∈ current.entries.filter fun e => e.target = inode.id := by simp [hkept e hm, ht]
    rw [h.only, List.mem_singleton] at this
    exact henot (this ▸ hm)
  · rintro ⟨-, e, hm, hp⟩
    exact hchild e hm hp
  · intro b hb
    obtain ⟨hcur, hgone⟩ := (hmem b).mp hb
    by_contra hnb
    exact hgone ((hhas b).mpr ⟨hcur, hnb⟩)
  · intro b hb
    exact (hmem b).mpr ⟨(hv.owned.allocated inode h.mem b hb).2, fun hd => ((hhas b).mp hd).2 hb⟩

end

/-! ## On the device -/

theorem Loads.entries_nodup {d : Disk} {s : Snapshot} (h : Loads sb d s) : s.entries.Nodup := by
  obtain ⟨payload, hp, -⟩ := directoryTable.encodeImage_eq_ok.mp (directoryTable.load_eq_ok.mp h.entries).2
  exact .of_map _ (directoryTable.encodeAll_eq_ok.mp ⟨payload, hp⟩).1

theorem validateUnlinkTransition_iff {sb : Superblock} {d : Disk} (hsb : readSuperblock.eval d = .ok sb)
    (hcheck : ∃ report, checkDevice.eval d = .ok report) {current : Snapshot} (hload : Loads sb d current)
    (desired : Snapshot)
    (hg : current.allocator.totalBlocks = desired.allocator.totalBlocks ∧
      current.allocator.reservedBlocks = desired.allocator.reservedBlocks) :
    (validateUnlinkTransition sb desired).eval d = .ok
    () ↔ ∃ inode entry, LegalUnlink current desired inode entry := by
  obtain ⟨s, hs⟩ := (sound_iff hsb).mpr hcheck
  cases hs.loads.unique hload
  rw [eval_validateUnlinkTransition hload, checkUnlinkTransition_iff]
  constructor
  · rintro ⟨removed, entry, freed, h⟩
    exact ⟨removed, entry, h.legal⟩
  · rintro ⟨inode, entry, h⟩
    obtain ⟨freed, hc⟩ := h.compared hload.ids_nodup hload.entries_nodup hs.valid hg
    exact ⟨inode, entry, freed, hc⟩

theorem validateUnlinkTransition_wide : ∃ (d : Disk) (a : BlockAllocator), Loads wideGeometry d wideSnapshot ∧
    (validateUnlinkTransition wideGeometry ⟨a, [⟨1, .directory, []⟩], []⟩).eval d = .ok () := by
  obtain ⟨d, hs⟩ := sound_wideSnapshot
  obtain ⟨a, ha⟩ : ∃ a, BlockAllocator.new 24 14 = .ok a := ⟨_, rfl⟩
  obtain ⟨-, hat, har, hah⟩ := BlockAllocator.new_eq_ok.mp ha
  refine ⟨d, a, hs.loads,
    (validateUnlinkTransition_iff hs.superblock ((sound_iff hs.superblock).mp ⟨_, hs⟩) hs.loads
    ⟨a, [⟨1, .directory, []⟩], []⟩ ⟨hat.symm, har.symm⟩).mpr ⟨⟨2, .file, [14, 15]⟩, ⟨1, 2, "a"⟩, ?_⟩⟩
  refine ⟨by decide, by decide, .inl rfl, by decide, .of_eq rfl, .of_eq rfl, fun b => ?_⟩
  refine iff_of_false (hah b) fun ⟨hb, hnot⟩ => hnot ?_
  rcases has_wideAllocator.mp hb with rfl | rfl <;> decide

end SystemsLab.Fs
