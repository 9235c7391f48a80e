import Mathlib.Data.Fintype.EquivFin
import SystemsLab.Fs.Fsck

/-!
# Steps between snapshots

`OwnershipStep` splits the references of the old snapshot into those kept and those released, and adds the gained
ones. The relation itself preserves validity and the absence of leaks.
-/

namespace SystemsLab.Fs

open Relation

variable {b : UInt64}
variable {wrap : AllocationError → IoError}

/-! ## Blocks -/

def references (inodes : List PersistedInode) : List UInt64 := inodes.flatMap PersistedInode.blocks

theorem mem_references {inodes : List PersistedInode} : b ∈ references inodes ↔
    ∃ inode ∈ inodes, b ∈ inode.blocks := List.mem_flatMap

structure OwnershipStep (sb : Superblock) (a a' : BlockAllocator) (refs refs' : List UInt64) where
  kept : List UInt64
  released : List UInt64
  gained : List UInt64
  before : refs.Perm (released ++ kept)
  after : refs'.Perm (gained ++ kept)
  fresh : ∀ b ∈ gained, sb.dataRange.Contains b.toNat ∧ ¬ a.Has b.toNat
  nodup : gained.Nodup
  has : ∀ b : UInt64, a'.Has b.toNat ↔ (a.Has b.toNat ∧ b ∉ released) ∨ b ∈ gained

def LeakFree (a : BlockAllocator) (refs : List UInt64) : Prop := ∀ b : UInt64, a.Has b.toNat ↔ b ∈ refs

theorem ownershipValid_iff {sb : Superblock} {a : BlockAllocator} {inodes : List PersistedInode} :
    OwnershipValid sb a inodes ↔ (∀ b ∈ references inodes, sb.dataRange.Contains b.toNat ∧ a.Has b.toNat) ∧
      (references inodes).Nodup := by
  refine ⟨fun h => ⟨fun b hb => ?_, h.nodup⟩, fun h => ⟨fun inode hi b hb => ?_, h.2⟩⟩
  · obtain ⟨inode, hi, hb⟩ := mem_references.mp hb
    exact h.allocated inode hi b hb
  · exact h.1 b (mem_references.mpr ⟨inode, hi, hb⟩)

namespace OwnershipStep
variable {sb : Superblock} {a a' : BlockAllocator} {inodes inodes' : List PersistedInode}
  (t : OwnershipStep sb a a' (references inodes) (references inodes'))

def refl (a : BlockAllocator) {refs refs' : List UInt64} (h : refs'.Perm refs) : OwnershipStep sb a a refs refs' :=
  ⟨refs, [], [], .refl _, h, by simp, .nil, by simp⟩

section
variable (hv : OwnershipValid sb a inodes)
include hv t

theorem kept_allocated (hb : b ∈ t.kept) : sb.dataRange.Contains b.toNat ∧ a.Has b.toNat ∧ b ∉ t.released := by
  obtain ⟨hall, hnd⟩ := ownershipValid_iff.mp hv
  have hm := t.before.symm.subset (List.mem_append_right _ hb)
  refine ⟨(hall b hm).1, (hall b hm).2, fun hr => ?_⟩
  exact (List.nodup_append.mp (t.before.nodup_iff.mp hnd)).2.2 b hr b hb rfl

theorem valid : OwnershipValid sb a' inodes' := by
  rw [ownershipValid_iff]
  have hnd := (List.nodup_append.mp (t.before.nodup_iff.mp (ownershipValid_iff.mp hv).2)).2.1
  constructor
  · intro b hb
    rcases List.mem_append.mp (t.after.subset hb) with hg | hk
    · exact ⟨(t.fresh b hg).1, (t.has b).mpr (.inr hg)⟩
    · obtain ⟨hd, ha, hr⟩ := t.kept_allocated hv hk
      exact ⟨hd, (t.has b).mpr (.inl ⟨ha, hr⟩)⟩
  · rw [t.after.nodup_iff, List.nodup_append]
    refine ⟨t.nodup, hnd, fun b hg c hk h => ?_⟩
    subst h
    exact (t.fresh b hg).2 (t.kept_allocated hv hk).2.1

theorem leakFree (hl : LeakFree a (references inodes)) : LeakFree a' (references inodes') := by
  intro b
  rw [t.has, t.after.mem_iff, List.mem_append, hl b, t.before.mem_iff, List.mem_append]
  have hk := fun hk : b ∈ t.kept => (t.kept_allocated hv hk).2.2
  tauto

theorem changed_iff (b : UInt64) :
    (a.Has b.toNat ∧ ¬ a'.Has b.toNat ↔ b ∈ references inodes ∧ b ∉ references inodes') ∧
    (¬ a.Has b.toNat ∧ a'.Has b.toNat ↔ b ∉ references inodes ∧ b ∈ references inodes') := by
  obtain ⟨hall, -⟩ := ownershipValid_iff.mp hv
  have hk := fun hk : b ∈ t.kept => (t.kept_allocated hv hk).2.2
  have hb := fun hm => (hall b hm).2
  have hg := fun hg => (t.fresh b hg).2
  rw [t.before.mem_iff, List.mem_append] at hb
  rw [t.has, t.before.mem_iff, t.after.mem_iff, List.mem_append, List.mem_append]
  tauto

end

end OwnershipStep

/-! ## Loops over the allocator -/

def freeAll (wrap : AllocationError → IoError) : List UInt64 → BlockAllocator → Except IoError BlockAllocator
  | [], a => .ok a
  | block :: blocks, a => do
    let a ← (a.free block).mapError wrap
    freeAll wrap blocks a

theorem freeAll_eq_ok : ∀ {blocks : List UInt64} {a a' : BlockAllocator},
    freeAll wrap blocks a = .ok a' → ∀ b : UInt64, a'.Has b.toNat ↔ a.Has b.toNat ∧ b ∉ blocks
  | [], a, a', h, b => by
    cases h
    simp
  | block :: blocks, a, a', h, b => by
    simp only [freeAll, steps_ok] at h
    obtain ⟨m, hm, h⟩ := h
    obtain ⟨-, -, -, hhas⟩ := BlockAllocator.free_eq_ok.mp hm
    rw [freeAll_eq_ok h b, hhas, UInt64.toNat_inj.ne, List.mem_cons, not_or]
    tauto

def allocateAll (wrap : AllocationError → IoError) :
    Nat → BlockAllocator → Except IoError (List UInt64 × BlockAllocator)
  | 0, a => .ok ([], a)
  | n + 1, a => do
    let (block, a) ← a.allocate.mapError wrap
    let (blocks, a) ← allocateAll wrap n a
    pure (block :: blocks, a)

structure Allocated (a a' : BlockAllocator) (blocks : List UInt64) : Prop where
  fresh : ∀ b ∈ blocks, a.reservedBlocks ≤ b.toNat ∧ b.toNat < a.totalBlocks ∧ ¬ a.Has b.toNat
  nodup : blocks.Nodup
  has : ∀ b : UInt64, a'.Has b.toNat ↔ a.Has b.toNat ∨ b ∈ blocks

theorem allocateAll_eq_ok : ∀ {n : Nat} {a a' : BlockAllocator} {blocks : List UInt64},
    allocateAll wrap n a = .ok (blocks, a') → blocks.length = n ∧ Allocated a a' blocks
  | 0, a, a', blocks, h => by
    cases h
    exact ⟨rfl, by simp, .nil, by simp⟩
  | n + 1, a, a', blocks, h => by
    simp only [allocateAll, steps_ok, Prod.mk.injEq, Prod.exists] at h
    obtain ⟨b, m, hm, bs, m', hrest, rfl, rfl⟩ := h
    obtain ⟨h1, h2, hnot, ht, hr, hhas, -⟩ := BlockAllocator.allocate_eq_ok hm
    obtain ⟨hlen, hf⟩ := allocateAll_eq_ok hrest
    have hold : ∀ c ∈ bs, c ≠ b ∧ ¬ a.Has c.toNat := by
      intro c hc
      have hc := (hf.fresh c hc).2.2
      rw [hhas, UInt64.toNat_inj, not_or] at hc
      exact hc
    refine ⟨by rw [List.length_cons, hlen], List.forall_mem_cons.mpr ⟨⟨h1, h2, hnot⟩, fun c hc => ?_⟩,
      List.nodup_cons.mpr ⟨fun hb => (hold b hb).1 rfl, hf.nodup⟩, fun c => ?_⟩
    · have hc' := hf.fresh c hc
      rw [ht, hr] at hc'
      exact ⟨hc'.1, hc'.2.1, (hold c hc).2⟩
    · rw [hf.has, hhas, UInt64.toNat_inj, List.mem_cons]
      tauto

theorem Allocated.single {a a' : BlockAllocator} (h : a.allocate = .ok (b, a')) : Allocated a a' [b] := by
  obtain ⟨h1, h2, hnot, -, -, hhas, -⟩ := BlockAllocator.allocate_eq_ok h
  refine ⟨by simpa using ⟨h1, h2, hnot⟩, List.nodup_singleton b, fun c => ?_⟩
  rw [hhas, UInt64.toNat_inj, List.mem_singleton, or_comm]

theorem Allocated.data {sb : Superblock} {a a' : BlockAllocator} {blocks : List UInt64} (h : Allocated a a' blocks)
    (ht : a.totalBlocks = sb.totalBlocks.toNat) (hr : a.reservedBlocks = sb.reservedBlocks) (hb : b ∈ blocks) :
    sb.dataRange.Contains b.toNat := by
  obtain ⟨h1, h2, -⟩ := h.fresh b hb
  rw [hr] at h1
  rw [ht] at h2
  exact ⟨h1, h2⟩

namespace OwnershipStep
variable {sb : Superblock} {a a' : BlockAllocator} {refs refs' : List UInt64}

def release {wrap : AllocationError → IoError} {blocks : List UInt64} (h : freeAll wrap blocks a = .ok a')
    (hp : refs.Perm (blocks ++ refs')) : OwnershipStep sb a a' refs refs' :=
  ⟨refs', blocks, [], hp, .refl _, by simp, .nil, fun b => by rw [freeAll_eq_ok h b]; simp⟩

def gain {blocks : List UInt64} (h : Allocated a a' blocks) (ht : a.totalBlocks = sb.totalBlocks.toNat)
    (hr : a.reservedBlocks = sb.reservedBlocks) (hp : refs'.Perm (blocks ++ refs)) :
    OwnershipStep sb a a' refs refs' where
  kept := refs
  released := []
  gained := blocks
  before := .refl _
  after := hp
  fresh b hb := ⟨h.data ht hr hb, (h.fresh b hb).2.2⟩
  nodup := h.nodup
  has b := by simpa using h.has b

end OwnershipStep

/-! ## Names -/

section
variable {inodes inodes' : List PersistedInode} {entries entries' : List PersistedDirectoryEntry}
variable {id : UInt64} {inode : PersistedInode}

theorem exists_of_kind {kind : InodeKind} (h : inodeKinds inodes id = some kind) :
    ∃ inode ∈ inodes, inode.id = id := inodeKinds_isSome.mp (by rw [h]; rfl)

theorem inodeKinds_of_mem (hn : (inodes.map PersistedInode.id).Nodup) (hi : inode ∈ inodes) :
    inodeKinds inodes inode.id = some inode.kind := by
  obtain ⟨kind, hk⟩ := Option.isSome_iff_exists.mp (inodeKinds_isSome.mpr ⟨inode, hi, rfl⟩)
  obtain ⟨other, ho, he⟩ := List.mem_map.mp (lastWrite_mem hk)
  obtain ⟨hid, rfl⟩ := Prod.mk.inj he
  rw [hk, List.inj_on_of_nodup_map hn ho hi hid]

theorem NamespaceValid.of_incoming (hp : ∀ entry ∈ entries, inodeKinds inodes entry.parent = some .directory)
    (ht : ∀ entry ∈ entries, ∃ inode ∈ inodes, inode.id = entry.target)
    (hr : inodes ≠ [] → inodeKinds inodes rootInodeId = some .directory) (hc : Acyclic (Edge (adjacency entries)))
    (hin : ∀ inode ∈ inodes, inode.id ≠ rootInodeId → ∃ entry ∈ entries, entry.target = inode.id) :
    NamespaceValid inodes entries := by
  have : Finite UInt64 := Finite.of_injective UInt64.toFin fun _ _ h => UInt64.toFin_inj.mp h
  refine ⟨hp, ht, hr, hc, fun inode hi => ?_⟩
  apply hc.reaches (S := fun x => ∃ inode ∈ inodes, inode.id = x) _ inode.id ⟨inode, hi, rfl⟩
  intro x hx hne
  obtain ⟨inode, hi, rfl⟩ := hx
  obtain ⟨entry, he, htarget⟩ := hin inode hi hne
  exact ⟨entry.parent, exists_of_kind (hp entry he), edge_adjacency.mpr ⟨entry, he, rfl, htarget⟩⟩

section
variable (h : NamespaceValid inodes entries)
include h

theorem NamespaceValid.incoming (hi : inode ∈ inodes)
    (hne : inode.id ≠ rootInodeId) : ∃ entry ∈ entries, entry.target = inode.id := by
  rcases ReflTransGen.cases_tail (h.reachable inode hi) with heq | hpath
  · exact absurd heq hne
  · obtain ⟨x, -, hx⟩ := hpath
    obtain ⟨entry, he, -, ht⟩ := edge_adjacency.mp hx
    exact ⟨entry, he, ht⟩

theorem NamespaceValid.file_leaf
    (hf : inodeKinds inodes id = some .file) (z : UInt64) : ¬ Edge (adjacency entries) id z := by
  intro hz
  obtain ⟨entry, he, rfl, -⟩ := edge_adjacency.mp hz
  rw [h.parent entry he] at hf
  cases hf

theorem NamespaceValid.edit_files
    (hp : ∀ entry ∈ entries', inodeKinds inodes' entry.parent = some .directory)
    (ht : ∀ entry ∈ entries', ∃ inode ∈ inodes', inode.id = entry.target)
    (hr : inodes' ≠ [] → inodeKinds inodes' rootInodeId = some .directory)
    (hedge : ∀ entry ∈ entries', Edge (adjacency entries) entry.parent entry.target ∨
      inodeKinds inodes' entry.target = some .file)
    (hin : ∀ inode ∈ inodes', inode.id ≠ rootInodeId → ∃ entry ∈ entries', entry.target = inode.id) :
    NamespaceValid inodes' entries' := by
  refine .of_incoming hp ht hr (h.acyclic.of_leaves fun x y hxy => ?_) hin
  obtain ⟨entry, he, rfl, rfl⟩ := edge_adjacency.mp hxy
  rcases hedge entry he with hold | hf
  · exact .inl hold
  · refine .inr fun z hz => ?_
    obtain ⟨other, ho, heq, -⟩ := edge_adjacency.mp hz
    rw [← heq, hp other ho] at hf
    cases hf

end

theorem perm_eraseIdx {α : Type} {l : List α} {x : α} (h : l[i]? = some x) : l.Perm (x :: l.eraseIdx i) := by
  obtain ⟨hi, rfl⟩ := List.getElem?_eq_some_iff.mp h
  exact (List.getElem_cons_eraseIdx_perm hi).symm

theorem NamespaceValid.perm (h : NamespaceValid inodes entries) (hp : entries.Perm entries') :
    NamespaceValid inodes entries' := by
  refine h.edit_files (fun e he => h.parent e (hp.mem_iff.mpr he))
    (fun e he => h.target e (hp.mem_iff.mpr he)) h.root
    (fun e he => .inl (edge_adjacency.mpr ⟨e, hp.mem_iff.mpr he, rfl, rfl⟩)) fun inode hm hne => ?_
  obtain ⟨e, he, ht⟩ := h.incoming hm hne
  exact ⟨e, hp.mem_iff.mp he, ht⟩

theorem NamespaceValid.move (h : NamespaceValid inodes entries) {i : Nat} {entry : PersistedDirectoryEntry}
    (hi : entries[i]? = some entry) {parent : UInt64} {name : String}
    (hp : inodeKinds inodes parent = some .directory)
    (hback : ¬ ReflTransGen (Edge (adjacency (entries.eraseIdx i))) entry.target parent) :
    NamespaceValid inodes (entries.set i ⟨parent, entry.target, name⟩) := by
  replace h := h.perm (perm_eraseIdx hi)
  refine .perm ?_ (List.set_perm_cons_eraseIdx (List.getElem?_eq_some_iff.mp hi).1 _).symm
  generalize entries.eraseIdx i = rest at h hback ⊢
  refine .of_incoming ?_ (by simpa using h.target) h.root ?_ fun inode hm hne => by simpa using h.incoming hm hne
  · exact List.forall_mem_cons.mpr ⟨hp, (List.forall_mem_cons.mp h.parent).2⟩
  · have hrest : Acyclic (Edge (adjacency rest)) := by
      refine h.acyclic.mono fun x y hxy => ?_
      obtain ⟨e, he, hx, hy⟩ := edge_adjacency.mp hxy
      exact edge_adjacency.mpr ⟨e, List.mem_cons_of_mem _ he, hx, hy⟩
    refine hrest.insert (fun x y hxy => ?_) hback
    obtain ⟨e, he, rfl, rfl⟩ := edge_adjacency.mp hxy
    rcases List.mem_cons.mp he with rfl | he
    · exact .inr ⟨rfl, rfl⟩
    · exact .inl (edge_adjacency.mpr ⟨e, he, rfl, rfl⟩)

end

/-! ## Steps -/

structure Step (sb : Superblock) (s s' : Snapshot) : Prop where
  owned : Nonempty (OwnershipStep sb s.allocator s'.allocator (references s.inodes) (references s'.inodes))
  tree : NamespaceValid s.inodes s.entries → NamespaceValid s'.inodes s'.entries

namespace Step
variable {sb : Superblock} {s s' : Snapshot}

theorem valid (h : Step sb s s') (hv : s.Valid sb) : s'.Valid sb := by
  obtain ⟨t⟩ := h.owned
  exact ⟨t.valid hv.owned, h.tree hv.tree⟩

theorem leakFree (h : Step sb s s') (hv : s.Valid sb) (hl : LeakFree s.allocator (references s.inodes)) :
    LeakFree s'.allocator (references s'.inodes) := by
  obtain ⟨t⟩ := h.owned
  exact t.leakFree hv.owned hl

theorem of_entries {entries : List PersistedDirectoryEntry}
    (h : NamespaceValid s.inodes s.entries → NamespaceValid s.inodes entries) :
    Step sb s { s with entries := entries } :=
  ⟨⟨.refl _ (.refl _)⟩, h⟩

end Step

end SystemsLab.Fs
