import SystemsLab.Fs.Namespace

/-!
# The graph of the directories

What the namespace audit and the guard of a rename decide. The guard searches the graph without the moved entry.
-/

namespace SystemsLab.Fs

open Prog Relation

variable {source : PersistedDirectoryEntry} {i : Nat}

def IsDirectory (inodes : List PersistedInode) (id : UInt64) : Prop :=
  ∃ inode ∈ inodes, inode.id = id ∧ inode.kind = .directory

def DirectoryEdge (inodes : List PersistedInode) (entries : List PersistedDirectoryEntry) (x y : UInt64) : Prop :=
  Edge (adjacency entries) x y ∧ IsDirectory inodes x ∧ IsDirectory inodes y

section
variable {inodes : List PersistedInode} {entries : List PersistedDirectoryEntry}
variable {id parent : UInt64}

theorem isDirectory_iff (hn : (inodes.map PersistedInode.id).Nodup) :
    IsDirectory inodes id ↔ inodeKinds inodes id = some .directory := by
  constructor
  · rintro ⟨inode, hi, rfl, hk⟩
    rw [inodeKinds_of_mem hn hi, hk]
  · intro h
    obtain ⟨inode, hi, rfl⟩ := exists_of_kind h
    have hk := (inodeKinds_of_mem hn hi).symm.trans h
    exact ⟨inode, hi, rfl, Option.some.inj hk⟩

theorem acyclic_directoryEdge (hn : (inodes.map PersistedInode.id).Nodup)
    (hp : ∀ entry ∈ entries, inodeKinds inodes entry.parent = some .directory) :
    Acyclic (DirectoryEdge inodes entries) ↔ Acyclic (Edge (adjacency entries)) := by
  refine ⟨fun h => h.of_leaves fun x y hxy => ?_, fun h => h.mono fun x y hxy => hxy.1⟩
  have hdir : ∀ {z w}, Edge (adjacency entries) z w → IsDirectory inodes z := by
    intro z w hz
    obtain ⟨entry, he, rfl, -⟩ := edge_adjacency.mp hz
    exact (isDirectory_iff hn).mpr (hp entry he)
  by_cases hy : IsDirectory inodes y
  · exact .inl ⟨hxy, hdir hxy, hy⟩
  · exact .inr fun z hz => hy (hdir hz)

/-! ## The audit -/

/-- The audit accepts exactly the tables whose entries form a graph without cycles among the directories in which
the root, a directory, reaches everything. -/
theorem auditNamespace_decides (inodes : List PersistedInode) (entries : List PersistedDirectoryEntry)
    (hn : (inodes.map PersistedInode.id).Nodup) :
    Searches (subdirectories inodes entries) (directoryIds inodes) (fun _ => none)
        (visitAll (subdirectories inodes entries) (inodes.length + 1) (directoryIds inodes) fun _ => none) ∧
      (auditNamespace inodes entries = .ok () ↔
        (∀ entry ∈ entries, IsDirectory inodes entry.parent ∧ ∃ inode ∈ inodes, inode.id = entry.target) ∧
          (inodes ≠ [] → IsDirectory inodes rootInodeId ∧ Acyclic (DirectoryEdge inodes entries) ∧
            ∀ inode ∈ inodes, ReflTransGen (Edge (adjacency entries)) rootInodeId inode.id)) := by
  constructor
  · refine @searches_visitAll _ _ _ (directoryIds inodes).toFinset ?_ _ _ _ (by simp)
      ⟨fun _ h => (nomatch h), fun _ h => (nomatch h)⟩ ?_
    · intro x _ y hy
      exact List.mem_toFinset.mpr (mem_directoryIds (mem_subdirectories.mp hy).2)
    · have hlen : (directoryIds inodes).length ≤ inodes.length := by
        rw [directoryIds, List.length_map]
        exact List.length_filter_le _ _
      exact Nat.lt_succ_of_le ((Finset.card_filter_le _ _).trans ((List.toFinset_card_le _).trans hlen))
  · rw [auditNamespace_eq_ok]
    constructor
    · intro h
      refine ⟨fun entry he => ⟨(isDirectory_iff hn).mpr (h.parent entry he), h.target entry he⟩, fun hne => ?_⟩
      exact ⟨(isDirectory_iff hn).mpr (h.root hne), (acyclic_directoryEdge hn h.parent).mpr h.acyclic, h.reachable⟩
    · rintro ⟨hentries, hrest⟩
      have hp : ∀ entry ∈ entries, inodeKinds inodes entry.parent = some .directory := fun entry he =>
        (isDirectory_iff hn).mp (hentries entry he).1
      refine ⟨hp, fun entry he => (hentries entry he).2, fun hne => (isDirectory_iff hn).mp (hrest hne).1, ?_, ?_⟩
      · by_cases hnil : inodes = []
        · intro x hx
          obtain ⟨y, hy, -⟩ := TransGen.head'_iff.mp hx
          obtain ⟨entry, he, -, -⟩ := edge_adjacency.mp hy
          obtain ⟨inode, hi, -⟩ := (hentries entry he).2
          simp [hnil] at hi
        · exact (acyclic_directoryEdge hn hp).mp (hrest hnil).2.1
      · intro inode hi
        exact (hrest (List.ne_nil_of_mem hi)).2.2 inode hi

theorem auditNamespace_one_file :
    ([⟨1, .directory, []⟩, ⟨2, .file, []⟩] : List PersistedInode).map PersistedInode.id = [1, 2] ∧
      (auditNamespace [⟨1, .directory, []⟩, ⟨2, .file, []⟩] [⟨1, 2, "a"⟩] = .ok () ↔
        (∀ entry ∈ [(⟨1, 2, "a"⟩ : PersistedDirectoryEntry)],
          IsDirectory [⟨1, .directory, []⟩, ⟨2, .file, []⟩] entry.parent ∧
            ∃ inode ∈ [(⟨1, .directory, []⟩ : PersistedInode), ⟨2, .file, []⟩], inode.id = entry.target) ∧
          ([(⟨1, .directory, []⟩ : PersistedInode), ⟨2, .file, []⟩] ≠ [] →
            IsDirectory [⟨1, .directory, []⟩, ⟨2, .file, []⟩] rootInodeId ∧
              Acyclic (DirectoryEdge [⟨1, .directory, []⟩, ⟨2, .file, []⟩] [⟨1, 2, "a"⟩]) ∧
              ∀ inode ∈ [(⟨1, .directory, []⟩ : PersistedInode), ⟨2, .file, []⟩],
                ReflTransGen (Edge (adjacency [⟨1, 2, "a"⟩])) rootInodeId inode.id)) :=
  ⟨rfl, (auditNamespace_decides _ _ (by decide)).2⟩

/-! ## The guard of a rename -/

theorem perm_set (hi : entries[i]? = some source) (moved : PersistedDirectoryEntry) :
    (entries.set i moved).Perm (moved :: entries.eraseIdx i) := by
  have hlt := (List.getElem?_eq_some_iff.mp hi).1
  have h := perm_eraseIdx (l := entries.set i moved) (List.getElem?_set_self hlt)
  rwa [List.eraseIdx_set_eq] at h

theorem NamespaceValid.target_ne_root (h : NamespaceValid inodes entries) {entry : PersistedDirectoryEntry}
    (he : entry ∈ entries) : entry.target ≠ rootInodeId := by
  intro hroot
  obtain ⟨parent, hm, hid⟩ := exists_of_kind (h.parent entry he)
  have hdown := h.reachable parent hm
  rw [hid] at hdown
  exact h.acyclic _ (TransGen.tail' hdown (edge_adjacency.mpr ⟨entry, he, rfl, hroot⟩))

theorem wouldCreateDirectoryCycle_iff {target : UInt64} :
    wouldCreateDirectoryCycle entries i target parent = true ↔
      ReflTransGen (Edge (adjacency (entries.eraseIdx i))) target parent := by
  constructor
  · intro h
    rcases of_decide_eq_true h with rfl | hw
    · exact .refl
    · exact walk_stops.mp hw
  · intro hr
    exact decide_eq_true (.inr (walk_stops.mpr hr))

theorem not_acyclic_of_guard (hi : entries[i]? = some source) (moved : PersistedDirectoryEntry)
    (hback : ReflTransGen (Edge (adjacency (entries.eraseIdx i))) moved.target moved.parent) :
    ¬ Acyclic (Edge (adjacency (entries.set i moved))) := by
  intro hacyclic
  have hperm := perm_set hi moved
  have hdown : ReflTransGen (Edge (adjacency (entries.set i moved))) moved.target moved.parent := by
    refine ReflTransGen.mono (fun x y hxy => ?_) _ _ hback
    obtain ⟨e, he, hx, hy⟩ := edge_adjacency.mp hxy
    exact edge_adjacency.mpr ⟨e, hperm.mem_iff.mpr (List.mem_cons_of_mem _ he), hx, hy⟩
  have hup := edge_adjacency.mpr ⟨moved, hperm.mem_iff.mpr List.mem_cons_self, rfl, rfl⟩
  exact hacyclic _ (TransGen.tail' hdown hup)

theorem NamespaceValid.moved_iff (h : NamespaceValid inodes entries)
    (hi : entries[i]? = some source) {newParent : UInt64} (hp : inodeKinds inodes newParent = some .directory)
    (newName : String) : NamespaceValid inodes (entries.set i ⟨newParent, source.target, newName⟩) ↔
      wouldCreateDirectoryCycle entries i source.target newParent = false := by
  constructor
  · intro hmoved
    rw [← Bool.not_eq_true, wouldCreateDirectoryCycle_iff]
    exact fun hback => not_acyclic_of_guard hi ⟨newParent, source.target, newName⟩ hback hmoved.acyclic
  · intro hguard
    exact h.move hi hp (wouldCreateDirectoryCycle_eq_false hguard)

theorem findInode_of_kind (hn : (inodes.map PersistedInode.id).Nodup) {kind : InodeKind}
    (h : inodeKinds inodes id = some kind) : ∃ inode, findInode inodes id = some inode ∧ inode.kind = kind := by
  cases hf : findInode inodes id with
  | some inode => exact ⟨inode, rfl, Option.some.inj ((kind_of_findInode hn hf rfl).symm.trans h)⟩
  | none =>
    obtain ⟨inode, hm, hid⟩ := exists_of_kind h
    exact absurd hid (by simpa using List.find?_eq_none.mp hf inode hm)

theorem validateDirectoryParent_ok (hn : (inodes.map PersistedInode.id).Nodup) {label : String}
    (h : inodeKinds inodes parent = some .directory) : validateDirectoryParent inodes parent label = .ok () := by
  obtain ⟨inode, hf, hk⟩ := findInode_of_kind hn h
  simp [validateDirectoryParent, hf, hk]

theorem rename_guard_exact (hn : (inodes.map PersistedInode.id).Nodup) (hv : auditNamespace inodes entries = .ok ())
    {i : Nat} {source : PersistedDirectoryEntry} (hi : entries[i]? = some source)
    (ht : IsDirectory inodes source.target)
    {newParent : UInt64} (hp : IsDirectory inodes newParent) (newName : String) :
    (wouldCreateDirectoryCycle entries i source.target newParent = true ↔
      ¬ Acyclic (DirectoryEdge inodes (entries.set i ⟨newParent, source.target, newName⟩)) ∨
        ∃ inode ∈ inodes,
          ¬ ReflTransGen (Edge (adjacency (entries.set i ⟨newParent, source.target, newName⟩)))
            rootInodeId inode.id) ∧
      ∀ (sb : Superblock) (d : Disk), (loadInodeTable sb).eval d = .ok inodes →
        (loadDirectoryTable sb).eval d = .ok entries →
        lookupEntry entries source.parent source.name = some (i, source) →
        ¬ (source.parent = newParent ∧ source.name = newName) →
        (∀ entry ∈ entries.eraseIdx i, ¬ (entry.parent = newParent ∧ entry.name = newName)) →
        PersistedDirectoryEntry.Encodable ⟨newParent, source.target, newName⟩ →
        (renameEntryJournaled sb source.parent source.name newParent newName).runOn d =
          match auditNamespace inodes (entries.set i ⟨newParent, source.target, newName⟩) with
          | .ok () => (storeDirectoryTableJournaled sb (entries.set i ⟨newParent, source.target, newName⟩)).runOn d
          | .error _ => (.error (invalidInput "rename would create a directory cycle"), d) := by
  have hvalid := auditNamespace_eq_ok.mp hv
  have hp := (isDirectory_iff hn).mp hp
  have hmoved := hvalid.moved_iff hi hp newName
  have hparents : ∀ e ∈ entries.set i ⟨newParent, source.target, newName⟩, inodeKinds inodes e.parent =
      some .directory := by
    intro e he
    rcases List.mem_or_eq_of_mem_set he with he | rfl
    · exact hvalid.parent e he
    · exact hp
  constructor
  · rw [acyclic_directoryEdge hn hparents]
    constructor
    · intro hguard
      exact .inl (not_acyclic_of_guard hi ⟨newParent, source.target, newName⟩
        (wouldCreateDirectoryCycle_iff.mp hguard))
    · intro hbad
      by_contra hguard
      have hgood := hmoved.mpr (Bool.eq_false_of_not_eq_true hguard)
      rcases hbad with hcycle | ⟨inode, hm, hcut⟩
      · exact hcycle hgood.acyclic
      · exact hcut (hgood.reachable inode hm)
  · intro sb d hload hentries hlookup hsame hfree hencodable
    have hnew : validateDirectoryParent inodes newParent "rename destination parent" = .ok () :=
      validateDirectoryParent_ok hn hp
    have hold : validateDirectoryParent inodes source.parent "rename source parent" = .ok () :=
      validateDirectoryParent_ok hn (hvalid.parent source (List.mem_of_getElem? hi))
    obtain ⟨inode, hfind, hkind⟩ := findInode_of_kind hn ((isDirectory_iff hn).mp ht)
    have hroot := hvalid.target_ne_root (List.mem_of_getElem? hi)
    rw [renameEntryJournaled, (read_ok hload _).1, runOn_check hold, runOn_check hnew,
      (read_ok hentries _).1, hlookup, runOn_check (okOr_some _ _),
      runOn_check (require_pos hroot), if_neg hsame, runOn_check (require_pos hfree),
      runOn_check (encodeDirectoryEntry_eq_ok.mpr ⟨hencodable, rfl⟩), hfind, runOn_check (okOr_some _ _)]
    cases haudit : auditNamespace inodes (entries.set i ⟨newParent, source.target, newName⟩) with
    | ok u =>
      have hguard := hmoved.mp (auditNamespace_eq_ok.mp haudit)
      rw [runOn_check (require_pos (by simp [hguard]))]
    | error e =>
      have hguard : wouldCreateDirectoryCycle entries i source.target newParent = true := by
        by_contra hguard
        have hok : _ = Except.ok () := auditNamespace_eq_ok.mpr (hmoved.mpr (Bool.eq_false_of_not_eq_true hguard))
        rw [haudit] at hok
        cases hok
      rw [require_neg (by simp [hkind, hguard])]
      rfl

theorem rename_guard_siblings :
    (wouldCreateDirectoryCycle [⟨1, 2, "a"⟩, ⟨1, 3, "b"⟩] 0 2 3 = true ↔
      ¬ Acyclic
        (DirectoryEdge [⟨1, .directory, []⟩, ⟨2, .directory, []⟩, ⟨3, .directory, []⟩] [⟨3, 2, "c"⟩, ⟨1, 3, "b"⟩]) ∨
        ∃ inode ∈ [(⟨1, .directory, []⟩ : PersistedInode), ⟨2, .directory, []⟩, ⟨3, .directory, []⟩],
          ¬ ReflTransGen (Edge (adjacency [⟨3, 2, "c"⟩, ⟨1, 3, "b"⟩])) rootInodeId inode.id) :=
  (@rename_guard_exact [⟨1, .directory, []⟩, ⟨2, .directory, []⟩, ⟨3, .directory, []⟩] [⟨1, 2, "a"⟩, ⟨1, 3, "b"⟩]
    (by decide)
    (by decide +kernel) 0 ⟨1, 2, "a"⟩ rfl ⟨⟨2, .directory, []⟩, by decide, rfl, rfl⟩ 3
    ⟨⟨3, .directory, []⟩, by decide, rfl, rfl⟩ "c").1

end

end SystemsLab.Fs
