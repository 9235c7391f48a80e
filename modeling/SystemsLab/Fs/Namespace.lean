import SystemsLab.Fs.Metadata

/-!
# Operations on names

One edge of the graph moves, under a check that it closes no cycle, or edges into files come, go or change places.
-/

namespace SystemsLab.Fs

open Prog Relation

variable {entry : PersistedDirectoryEntry} {inode : PersistedInode} {i : Nat}
variable {id target : UInt64} {kind : InodeKind} {name : String}

def findInode (inodes : List PersistedInode) (id : UInt64) : Option PersistedInode :=
  inodes.find? fun inode => inode.id = id

def findEntry (entries : List PersistedDirectoryEntry) (parent : UInt64) (name : String) : Option Nat :=
  entries.findIdx? fun entry => entry.parent = parent ∧ entry.name = name

def lookupEntry (entries : List PersistedDirectoryEntry) (parent : UInt64) (name : String) :
    Option (Nat × PersistedDirectoryEntry) := do
  let index ← findEntry entries parent name
  let entry ← entries[index]?
  pure (index, entry)

def validateDirectoryParent (inodes : List PersistedInode) (parent : UInt64) (label : String) :
    Except IoError Unit := do
  let inode ← okOr (invalidInput s!"{label} inode does not exist") (findInode inodes parent)
  require (inode.kind = .directory) (invalidInput s!"{label} inode is not a directory")

def validateRegularFileTarget (inodes : List PersistedInode) (target : UInt64) (label : String) :
    Except IoError Unit := do
  let inode ← okOr (invalidInput s!"{label} inode does not exist") (findInode inodes target)
  require (inode.kind = .file) (invalidInput s!"{label} inode is not a regular file")

def wouldCreateDirectoryCycle (entries : List PersistedDirectoryEntry) (sourceIndex : Nat)
    (target newParent : UInt64) : Bool :=
  target = newParent ∨ (walk (adjacency (entries.eraseIdx sourceIndex)) (fun x => x = newParent) [] [target]).1

/-! ## The operations -/

def renameEntryJournaled (sb : Superblock) (oldParent : UInt64) (oldName : String) (newParent : UInt64)
    (newName : String) :
    FsProg RecoveryReport := do
  let inodes ← loadInodeTable sb
  validateDirectoryParent inodes oldParent "rename source parent"
  validateDirectoryParent inodes newParent "rename destination parent"
  let entries ← loadDirectoryTable sb
  let source ← okOr (invalidInput "rename source entry does not exist") (lookupEntry entries oldParent oldName)
  require (source.2.target ≠ rootInodeId) (invalidInput "root inode cannot be renamed")
  if oldParent = newParent ∧ oldName = newName then pure ⟨0, 0⟩ else
    require (∀ entry ∈ entries.eraseIdx source.1, ¬ (entry.parent = newParent ∧ entry.name = newName))
      (invalidInput "rename destination already exists")
    let candidate : PersistedDirectoryEntry := ⟨newParent, source.2.target, newName⟩
    let _ ← encodeDirectoryEntry candidate
    let inode ← okOr (invalidInput "rename source targets a missing inode") (findInode inodes source.2.target)
    require (¬ (inode.kind = .directory ∧ wouldCreateDirectoryCycle entries source.1 source.2.target newParent))
      (invalidInput "rename would create a directory cycle")
    storeDirectoryTableJournaled sb (entries.set source.1 candidate)

def storeDirectoryCheckpointed (sb : Superblock) (entries : List PersistedDirectoryEntry) :
    FsProg RecoveryReport := do
  let report ← storeDirectoryTableJournaled sb entries
  let _ ← recoverJournalAndCheckpoint sb
  pure report

def linkCount (entries : List PersistedDirectoryEntry) (target : UInt64) : Nat :=
  entries.countP fun entry => entry.target = target

def replaceDestination (entries : List PersistedDirectoryEntry) (source destination : Nat)
    (replacement : PersistedDirectoryEntry) : List PersistedDirectoryEntry :=
  (entries.set source replacement).eraseIdx destination

def renameOverwriteFileImpl (sb : Superblock) (oldParent : UInt64) (oldName : String) (newParent : UInt64)
    (newName : String) (requireMultipleLinks : Bool) : FsProg RecoveryReport := do
  let _ ← checkDevice
  let allocator ← loadAllocator sb
  let inodes ← loadInodeTable sb
  let entries ← loadDirectoryTable sb
  validateDirectoryParent inodes oldParent "rename-overwrite source parent"
  validateDirectoryParent inodes newParent "rename-overwrite destination parent"
  let source ← okOr (invalidInput "rename-overwrite source entry does not exist")
    (lookupEntry entries oldParent oldName)
  let destination ← okOr (invalidInput "rename-overwrite destination entry does not exist")
    (lookupEntry entries newParent newName)
  if source.1 = destination.1 then pure ⟨0, 0⟩ else
    require (source.2.target ≠ destination.2.target)
      (invalidInput "rename-overwrite source and destination may not alias the same inode")
    let sourceInode ← okOr (invalidInput "rename-overwrite source targets a missing inode")
      (findInode inodes source.2.target)
    require (sourceInode.kind = .file) (invalidInput "rename-overwrite source must be a regular file")
    let destinationInode ← okOr (invalidInput "rename-overwrite destination targets a missing inode")
      (findInode inodes destination.2.target)
    require (destinationInode.kind = .file) (invalidInput "rename-overwrite destination must be a regular file")
    if requireMultipleLinks then
      require (2 ≤ linkCount entries destination.2.target)
        (invalidInput "linked rename-overwrite destination must have multiple namespace references")
    else
      require (linkCount entries destination.2.target = 1)
        (invalidInput "rename-overwrite destination must have exactly one namespace reference")
    let replacement : PersistedDirectoryEntry := ⟨newParent, source.2.target, newName⟩
    let _ ← encodeDirectoryEntry replacement
    let desired := replaceDestination entries source.1 destination.1 replacement
    if requireMultipleLinks then storeDirectoryCheckpointed sb desired else
      let allocator ← freeAll (fun e => invalidInput s!"rename-overwrite block release failed: {e.message}")
        destinationInode.blocks allocator
      storeCreateMetadataJournaled sb allocator (inodes.filter fun inode => inode.id ≠ destination.2.target) desired

def renameOverwriteFileJournaled (sb : Superblock) (oldParent : UInt64) (oldName : String) (newParent : UInt64)
    (newName : String) : FsProg RecoveryReport :=
  renameOverwriteFileImpl sb oldParent oldName newParent newName false

def renameOverwriteLinkedFileJournaled (sb : Superblock) (oldParent : UInt64) (oldName : String)
    (newParent : UInt64)
    (newName : String) : FsProg RecoveryReport :=
  renameOverwriteFileImpl sb oldParent oldName newParent newName true

def renameExchangeFilesJournaled (sb : Superblock) (firstParent : UInt64) (firstName : String)
    (secondParent : UInt64)
    (secondName : String) : FsProg RecoveryReport := do
  let _ ← checkDevice
  let inodes ← loadInodeTable sb
  validateDirectoryParent inodes firstParent "first exchange parent"
  validateDirectoryParent inodes secondParent "second exchange parent"
  if firstParent = secondParent ∧ firstName = secondName then pure ⟨0, 0⟩ else
    let entries ← loadDirectoryTable sb
    let first ← okOr (invalidInput "first exchange entry does not exist")
      (lookupEntry entries firstParent firstName)
    let second ← okOr (invalidInput "second exchange entry does not exist")
      (lookupEntry entries secondParent secondName)
    validateRegularFileTarget inodes first.2.target "first exchange target"
    validateRegularFileTarget inodes second.2.target "second exchange target"
    if first.2.target = second.2.target then pure ⟨0, 0⟩ else
      let firstReplacement : PersistedDirectoryEntry := ⟨firstParent, second.2.target, firstName⟩
      let secondReplacement : PersistedDirectoryEntry := ⟨secondParent, first.2.target, secondName⟩
      let _ ← encodeDirectoryEntry firstReplacement
      let _ ← encodeDirectoryEntry secondReplacement
      storeDirectoryCheckpointed sb ((entries.set first.1 firstReplacement).set second.1 secondReplacement)

def hardLinkFileJournaled (sb : Superblock) (parent : UInt64) (name : String) (target : UInt64) :
    FsProg RecoveryReport := do
  let inodes ← loadInodeTable sb
  let parentInode ← okOr (invalidInput "hard-link parent inode is missing") (findInode inodes parent)
  require (parentInode.kind = .directory) (invalidInput "hard-link parent must be a directory")
  let targetInode ← okOr (invalidInput "hard-link target inode is missing") (findInode inodes target)
  require (targetInode.kind = .file) (invalidInput "hard-link target must be a regular file")
  let entries ← loadDirectoryTable sb
  require (∀ entry ∈ entries, ¬ (entry.parent = parent ∧ entry.name = name))
    (invalidInput "hard-link destination already exists")
  storeDirectoryCheckpointed sb (entries ++ [⟨parent, target, name⟩])

def unlinkNonfinalFileLinkJournaled (sb : Superblock) (parent : UInt64) (name : String) :
    FsProg RecoveryReport := do
  let inodes ← loadInodeTable sb
  let entries ← loadDirectoryTable sb
  let found ← okOr (invalidInput "hard-link entry is missing") (lookupEntry entries parent name)
  let inode ← okOr (invalidInput "hard-link target inode is missing") (findInode inodes found.2.target)
  require (inode.kind = .file) (invalidInput "non-final hard-link unlink requires a regular file")
  require (2 ≤ linkCount entries found.2.target)
    (invalidInput "non-final hard-link unlink cannot remove the final reference")
  storeDirectoryCheckpointed sb (entries.eraseIdx found.1)

/-! ## Lookups -/

section
variable {inodes : List PersistedInode} {entries : List PersistedDirectoryEntry}
variable {parent : UInt64} {label : String} {u : Unit}

theorem findInode_eq_some (h : findInode inodes id = some inode) : inode ∈ inodes ∧ inode.id = id :=
  ⟨List.mem_of_find?_eq_some h, by simpa using List.find?_some h⟩

theorem kind_of_findInode (hn : (inodes.map PersistedInode.id).Nodup)
    (h : findInode inodes id = some inode) (hk : inode.kind = kind) : inodeKinds inodes id = some kind := by
  obtain ⟨hm, rfl⟩ := findInode_eq_some h
  rw [inodeKinds_of_mem hn hm, hk]

theorem lookupEntry_eq_some (h : lookupEntry entries parent name = some (i, entry)) :
    entries[i]? = some entry ∧ entry.parent = parent ∧ entry.name = name := by
  simp only [lookupEntry, Option.bind_eq_bind, Option.bind_eq_some_iff, Option.pure_def, Option.some.injEq,
    Prod.mk.injEq] at h
  obtain ⟨j, hj, e, he, rfl, rfl⟩ := h
  obtain ⟨hlt, hp, -⟩ := List.findIdx?_eq_some_iff_getElem.mp hj
  rw [← Option.some.inj ((List.getElem?_eq_getElem hlt).symm.trans he)]
  exact ⟨List.getElem?_eq_getElem hlt, by simpa using hp⟩

theorem validateDirectoryParent_eq_ok (hn : (inodes.map PersistedInode.id).Nodup)
    (h : validateDirectoryParent inodes parent label = .ok u) : inodeKinds inodes parent = some .directory := by
  simp only [validateDirectoryParent, steps_ok] at h
  obtain ⟨inode, hf, hk⟩ := h
  exact kind_of_findInode hn hf hk

theorem validateRegularFileTarget_eq_ok (hn : (inodes.map PersistedInode.id).Nodup)
    (h : validateRegularFileTarget inodes target label = .ok u) : inodeKinds inodes target = some .file := by
  simp only [validateRegularFileTarget, steps_ok] at h
  obtain ⟨inode, hf, hk⟩ := h
  exact kind_of_findInode hn hf hk

theorem wouldCreateDirectoryCycle_eq_false (h : wouldCreateDirectoryCycle entries i target parent = false) :
    ¬ ReflTransGen (Edge (adjacency (entries.eraseIdx i))) target parent := by
  intro hr
  have := walk_stops.mpr hr
  simp [wouldCreateDirectoryCycle, this] at h

end

/-! ## Edited tables -/

section
variable {inodes : List PersistedInode} {entries : List PersistedDirectoryEntry}

theorem linkCount_eraseIdx (hi : entries[i]? = some entry) :
    linkCount entries entry.target = linkCount (entries.eraseIdx i) entry.target + 1 := by
  unfold linkCount
  rw [(perm_eraseIdx hi).countP_eq, List.countP_cons_of_pos (by simp)]

theorem linkCount_pos : 0 < linkCount entries target ↔ ∃ e ∈ entries, e.target = target := by
  simp [linkCount, List.countP_pos_iff]

theorem exists_other_link (hi : entries[i]? = some entry)
    (hc : 2 ≤ linkCount entries entry.target) : ∃ e ∈ entries.eraseIdx i, e.target = entry.target := by
  rw [linkCount_eraseIdx hi] at hc
  exact linkCount_pos.mp (by omega)

theorem no_other_link (hi : entries[i]? = some entry)
    (hc : linkCount entries entry.target = 1) : ∀ e ∈ entries.eraseIdx i, e.target ≠ entry.target := by
  rw [linkCount_eraseIdx hi] at hc
  intro e he ht
  have := linkCount_pos.mpr ⟨e, he, ht⟩
  omega

theorem inodeKinds_filter (hn : (inodes.map PersistedInode.id).Nodup) {removed : UInt64} (hne : id ≠ removed)
    (h : inodeKinds inodes id = some kind) :
    inodeKinds (inodes.filter fun inode => inode.id ≠ removed) id = some kind := by
  obtain ⟨inode, hm, rfl⟩ := exists_of_kind h
  have hk := (inodeKinds_of_mem hn hm).symm.trans h
  rw [inodeKinds_of_mem (hn.sublist (List.filter_sublist.map _)) (List.mem_filter.mpr ⟨hm, by simpa using hne⟩), hk]

theorem references_filter (hn : (inodes.map PersistedInode.id).Nodup) (hm : inode ∈ inodes) :
    (references inodes).Perm (inode.blocks ++ references (inodes.filter fun other => other.id ≠ inode.id)) := by
  induction inodes with
  | nil => cases hm
  | cons other inodes ih =>
    obtain ⟨hnot, hn⟩ := List.nodup_cons.mp hn
    rcases List.mem_cons.mp hm with rfl | hm
    · have hkeep : (inode :: inodes).filter (fun other => other.id ≠ inode.id) = inodes := by
        rw [List.filter_cons_of_neg (by simp), List.filter_eq_self]
        intro x hx
        have : x.id ≠ inode.id := fun h => hnot (List.mem_map.mpr ⟨x, hx, h⟩)
        simpa using this
      rw [hkeep]
      exact .refl _
    · have hne : other.id ≠ inode.id := fun h => hnot (List.mem_map.mpr ⟨inode, hm, h.symm⟩)
      rw [List.filter_cons_of_pos (by simpa using hne)]
      refine ((ih hn hm).append_left other.blocks).trans ?_
      exact List.perm_append_comm_assoc _ _ _

theorem perm_two {α : Type} {l : List α} {j : Nat} (hi : i < l.length) (hj : j < l.length) (hij : i ≠ j) :
    ∃ rest, ∀ a, ((l.set i a).eraseIdx j).Perm (a :: rest) := by
  rcases Nat.lt_or_gt_of_ne hij with hlt | hgt
  · refine ⟨(l.eraseIdx j).eraseIdx i, fun a => ?_⟩
    rw [List.eraseIdx_set_gt hlt]
    exact List.set_perm_cons_eraseIdx (by rw [List.length_eraseIdx_of_lt hj]; omega) a
  · refine ⟨(l.eraseIdx j).eraseIdx (i - 1), fun a => ?_⟩
    rw [List.eraseIdx_set_lt hgt]
    exact List.set_perm_cons_eraseIdx (by rw [List.length_eraseIdx_of_lt hj]; omega) a

theorem NamespaceValid.exchange (h : NamespaceValid inodes entries) {j : Nat}
    {first second : PersistedDirectoryEntry}
    (hi : entries[i]? = some first) (hj : entries[j]? = some second) (hij : i ≠ j)
    (hf : inodeKinds inodes first.target = some .file) (hs : inodeKinds inodes second.target = some .file)
    {firstName secondName : String} :
    NamespaceValid inodes ((entries.set i ⟨first.parent, second.target, firstName⟩).set j
      ⟨second.parent, first.target, secondName⟩) := by
  obtain ⟨hli, rfl⟩ := List.getElem?_eq_some_iff.mp hi
  obtain ⟨hlj, -⟩ := List.getElem?_eq_some_iff.mp hj
  obtain ⟨rest, hrest⟩ := perm_two hli hlj hij
  have hold := hrest entries[i]
  rw [List.set_getElem_self] at hold
  replace h := h.perm ((perm_eraseIdx hj).trans (hold.cons second))
  refine .perm ?_ ((List.set_perm_cons_eraseIdx (by rwa [List.length_set]) _).trans ((hrest _).cons _)).symm
  obtain ⟨ht₂, ht₁, ht⟩ : _ ∧ _ ∧ _ := by simpa only [List.forall_mem_cons] using h.target
  refine h.edit_files (by simpa using h.parent) ?_ h.root ?_ fun inode hm hne => ?_
  · simp only [List.forall_mem_cons]
    exact ⟨ht₁, ht₂, ht⟩
  · simp only [List.forall_mem_cons]
    exact ⟨.inr hf, .inr hs, fun e he => .inl (edge_adjacency.mpr ⟨e, by simp [he], rfl, rfl⟩)⟩
  · -- What the first entry named is now named by the second, and the other way round.
    have hin := h.incoming hm hne
    simp only [List.exists_mem_cons_iff] at hin ⊢
    exact or_left_comm.mp hin

theorem NamespaceValid.replace {inodes' : List PersistedInode} (h : NamespaceValid inodes entries) {j : Nat}
    {source destination : PersistedDirectoryEntry} (hi : entries[i]? = some source)
    (hj : entries[j]? = some destination)
    (hne : source.target ≠ destination.target) (hf : inodeKinds inodes source.target = some .file)
    (hd : inodeKinds inodes destination.target = some .file) (hsub : ∀ inode ∈ inodes', inode ∈ inodes)
    (hkeep : ∀ id kind, id ≠ destination.target → inodeKinds inodes id = some kind →
      inodeKinds inodes' id = some kind)
    (hlinks : (∃ inode ∈ inodes', inode.id = destination.target) ↔
      ∃ e ∈ entries.eraseIdx j, e.target = destination.target) :
    NamespaceValid inodes' (replaceDestination entries i j ⟨destination.parent, source.target, name⟩) := by
  have hij : i ≠ j := by
    rintro rfl
    exact hne (congrArg _ (Option.some.inj (hi.symm.trans hj)))
  obtain ⟨hli, rfl⟩ := List.getElem?_eq_some_iff.mp hi
  obtain ⟨rest, hrest⟩ := perm_two hli (List.getElem?_eq_some_iff.mp hj).1 hij
  have hold := hrest entries[i]
  rw [List.set_getElem_self] at hold
  have hlinks : (∃ inode ∈ inodes', inode.id = destination.target) ↔ ∃ e ∈ rest, e.target = destination.target := by
    simp only [hlinks, hold.mem_iff, List.exists_mem_cons_iff, hne, false_or]
  replace h := h.perm ((perm_eraseIdx hj).trans (hold.cons destination))
  have hdir : ∀ id, inodeKinds inodes id = some .directory → inodeKinds inodes' id = some .directory := by
    intro id hk
    refine hkeep id _ (fun heq => ?_) hk
    rw [heq, hd] at hk
    cases hk
  obtain ⟨hpd, -, hp⟩ : _ ∧ _ ∧ _ := by simpa only [List.forall_mem_cons] using h.parent
  obtain ⟨-, -, ht⟩ : _ ∧ _ ∧ _ := by simpa only [List.forall_mem_cons] using h.target
  refine .perm ?_ (hrest _).symm
  refine h.edit_files ?_ ?_ (fun hnil => ?_) ?_ fun inode hm hroot => ?_
  · exact List.forall_mem_cons.mpr ⟨hdir _ hpd, fun e he => hdir _ (hp e he)⟩
  · refine List.forall_mem_cons.mpr ⟨exists_of_kind (hkeep _ _ hne hf), fun e he => ?_⟩
    by_cases het : e.target = destination.target
    · rw [het]
      exact hlinks.mpr ⟨e, he, het⟩
    · obtain ⟨kind, hkind⟩ := Option.isSome_iff_exists.mp (inodeKinds_isSome.mpr (ht e he))
      exact exists_of_kind (hkeep _ _ het hkind)
  · obtain ⟨inode, hm⟩ := List.exists_mem_of_ne_nil _ hnil
    exact hdir _ (h.root (List.ne_nil_of_mem (hsub inode hm)))
  · exact List.forall_mem_cons.mpr ⟨.inr (hkeep _ _ hne hf),
      fun e he => .inl (edge_adjacency.mpr ⟨e, by simp [he], rfl, rfl⟩)⟩
  · have hin := h.incoming (hsub inode hm) hroot
    simp only [List.exists_mem_cons_iff] at hin ⊢
    rcases hin with hid | hin
    · -- The destination keeps an inode, so another entry names it.
      exact .inr (hid ▸ hlinks.mp ⟨inode, hm, hid.symm⟩)
    · exact hin

end

/-! ## What the operations do -/

section
variable {sb : Superblock} {d : Disk} (hw : sb.WellFormed) (hl : sb.totalBlocks.toNat = d.length)
include hw hl

theorem renameEntryJournaled_outcome (oldParent : UInt64) (oldName : String) (newParent : UInt64)
    (newName : String) :
    Outcome sb d (Steps sb d) (renameEntryJournaled sb oldParent oldName newParent newName) := by
  apply Outcome.bind
  intro inodes hi
  apply Outcome.check
  intro _ _
  apply Outcome.check
  intro _ hparent
  apply Outcome.bind
  intro entries he
  apply Outcome.find
  intro source hsource
  apply Outcome.guard
  intro _
  apply Outcome.otherwise
  intro hsame
  apply Outcome.guard
  intro _
  apply Outcome.check
  intro _ _
  apply Outcome.find
  intro inode hinode
  apply Outcome.guard
  intro hcycle
  refine storeDirectoryTableJournaled_outcome hw fun changed hc s hs _ =>
    ⟨_, loads_changedDirectory hw hl hs hc, ?_⟩
  obtain rfl := Except.ok.inj (hs.inodes.symm.trans hi)
  obtain rfl := Except.ok.inj (hs.entries.symm.trans he)
  refine .of_entries fun hv => ?_
  refine hv.move (lookupEntry_eq_some hsource).1 (validateDirectoryParent_eq_ok hs.ids_nodup hparent) ?_
  -- A file has no entries below it, so only a directory needs the check.
  cases hk : inode.kind with
  | directory =>
    apply wouldCreateDirectoryCycle_eq_false
    rw [← Bool.not_eq_true]
    exact fun h => hcycle ⟨hk, h⟩
  | file =>
    have hfile := kind_of_findInode hs.ids_nodup hinode hk
    intro hr
    rcases ReflTransGen.cases_head hr with heq | ⟨z, hz, -⟩
    · have hdir := validateDirectoryParent_eq_ok hs.ids_nodup hparent
      rw [← heq, hfile] at hdir
      cases hdir
    · obtain ⟨e, hm, hx, hy⟩ := edge_adjacency.mp hz
      exact hv.file_leaf hfile z (edge_adjacency.mpr ⟨e, (List.eraseIdx_sublist _ _).subset hm, hx, hy⟩)

theorem storeDirectoryCheckpointed_outcome {inodes : List PersistedInode}
    {old entries : List PersistedDirectoryEntry}
    (hi : (loadInodeTable sb).eval d = .ok inodes) (he : (loadDirectoryTable sb).eval d = .ok old)
    (hne : entries ≠ old)
    (hv : (inodes.map PersistedInode.id).Nodup → NamespaceValid inodes old → NamespaceValid inodes entries) :
    Outcome sb d (Steps sb d) (storeDirectoryCheckpointed sb entries) := by
  refine storeDirectoryTableJournaled_twice hw hl he hne fun changed hc s hs _ =>
    ⟨_, loads_changedDirectory hw hl hs hc, .of_entries fun h => ?_⟩
  obtain rfl := Except.ok.inj (hs.inodes.symm.trans hi)
  obtain rfl := Except.ok.inj (hs.entries.symm.trans he)
  exact hv hs.ids_nodup h

theorem hardLinkFileJournaled_outcome (parent : UInt64) (name : String) (target : UInt64) :
    Outcome sb d (Steps sb d) (hardLinkFileJournaled sb parent name target) := by
  apply Outcome.bind
  intro inodes hi
  apply Outcome.find
  intro parentInode hpi
  apply Outcome.guard
  intro hpk
  apply Outcome.find
  intro targetInode hti
  apply Outcome.guard
  intro htk
  apply Outcome.bind
  intro entries he
  apply Outcome.guard
  intro _
  refine storeDirectoryCheckpointed_outcome hw hl hi he (by simp) fun hn hv => ?_
  have ht := kind_of_findInode hn hti htk
  refine .perm ?_ (List.perm_append_singleton _ _).symm
  refine hv.edit_files (List.forall_mem_cons.mpr ⟨kind_of_findInode hn hpi hpk, hv.parent⟩)
    (List.forall_mem_cons.mpr ⟨exists_of_kind ht, hv.target⟩) hv.root
    (List.forall_mem_cons.mpr ⟨.inr ht, fun e hm => .inl (edge_adjacency.mpr ⟨e, hm, rfl, rfl⟩)⟩)
      fun inode hm hne => ?_
  obtain ⟨e, he, hte⟩ := hv.incoming hm hne
  exact ⟨e, List.mem_cons_of_mem _ he, hte⟩

theorem unlinkNonfinalFileLinkJournaled_outcome (parent : UInt64) (name : String) :
    Outcome sb d (Steps sb d) (unlinkNonfinalFileLinkJournaled sb parent name) := by
  apply Outcome.bind
  intro inodes hi
  apply Outcome.bind
  intro entries he
  apply Outcome.find
  intro found hfound
  apply Outcome.find
  intro inode _
  apply Outcome.guard
  intro _
  apply Outcome.guard
  intro hcount
  obtain ⟨hget, -⟩ := lookupEntry_eq_some hfound
  have hlt := (List.getElem?_eq_some_iff.mp hget).1
  have hne : entries.eraseIdx found.1 ≠ entries := by
    intro h
    have := congrArg List.length h
    rw [List.length_eraseIdx_of_lt hlt] at this
    omega
  refine storeDirectoryCheckpointed_outcome hw hl hi he hne fun _ hv => ?_
  have hsub : ∀ e ∈ entries.eraseIdx found.1, e ∈ entries := fun e hm => (List.eraseIdx_sublist _ _).subset hm
  refine hv.edit_files (fun e hm => hv.parent e (hsub e hm)) (fun e hm => hv.target e (hsub e hm)) hv.root
    (fun e hm => .inl (edge_adjacency.mpr ⟨e, hsub e hm, rfl, rfl⟩)) fun inode hm hroot => ?_
  obtain ⟨e, hme, hte⟩ := hv.incoming hm hroot
  rcases List.mem_cons.mp ((perm_eraseIdx hget).subset hme) with rfl | hme
  · obtain ⟨other, ho, hot⟩ := exists_other_link hget hcount
    exact ⟨other, ho, hot.trans hte⟩
  · exact ⟨e, hme, hte⟩

theorem renameExchangeFilesJournaled_outcome (firstParent : UInt64) (firstName : String) (secondParent : UInt64)
    (secondName : String) :
    Outcome sb d (Steps sb d) (renameExchangeFilesJournaled sb firstParent firstName secondParent secondName) := by
  apply Outcome.bind
  intro _ _
  apply Outcome.bind
  intro inodes hi
  apply Outcome.check
  intro _ _
  apply Outcome.check
  intro _ _
  apply Outcome.otherwise
  intro hsame
  apply Outcome.bind
  intro entries he
  apply Outcome.find
  intro first hfirst
  apply Outcome.find
  intro second hsecond
  apply Outcome.check
  intro _ hff
  apply Outcome.check
  intro _ hsf
  apply Outcome.otherwise
  intro htarget
  apply Outcome.check
  intro _ _
  apply Outcome.check
  intro _ _
  obtain ⟨hgi, rfl, rfl⟩ := lookupEntry_eq_some hfirst
  obtain ⟨hgj, rfl, rfl⟩ := lookupEntry_eq_some hsecond
  have hij : first.1 ≠ second.1 := by
    intro h
    rw [h] at hgi
    exact htarget (congrArg _ (Option.some.inj (hgi.symm.trans hgj)))
  -- The first entry has changed its target, so the table is a different one.
  have hne : (entries.set first.1 ⟨first.2.parent, second.2.target, first.2.name⟩).set second.1
      ⟨second.2.parent, first.2.target, second.2.name⟩ ≠ entries := by
    intro h
    have hat := congrArg (fun l => l[first.1]?) h
    simp only [List.getElem?_set_ne (Ne.symm hij), List.getElem?_set_self (List.getElem?_eq_some_iff.mp hgi).1, hgi,
      Option.some.injEq] at hat
    exact htarget (congrArg PersistedDirectoryEntry.target hat).symm
  exact storeDirectoryCheckpointed_outcome hw hl hi he hne fun hn hv =>
    hv.exchange hgi hgj hij (validateRegularFileTarget_eq_ok hn hff) (validateRegularFileTarget_eq_ok hn hsf)

theorem renameOverwriteFileImpl_outcome (oldParent : UInt64) (oldName : String) (newParent : UInt64)
    (newName : String)
    (requireMultipleLinks : Bool) :
    Outcome sb d (Steps sb d)
      (renameOverwriteFileImpl sb oldParent oldName newParent newName requireMultipleLinks) := by
  apply Outcome.bind
  intro _ _
  refine .load_tables fun s hs => ?_
  apply Outcome.check
  intro _ _
  apply Outcome.check
  intro _ _
  apply Outcome.find
  intro source hsource
  apply Outcome.find
  intro destination hdestination
  apply Outcome.otherwise
  intro hsame
  apply Outcome.guard
  intro htarget
  apply Outcome.find
  intro sourceInode hsi
  apply Outcome.guard
  intro hsk
  apply Outcome.find
  intro destinationInode hdi
  apply Outcome.guard
  intro hdk
  obtain ⟨hgi, -, -⟩ := lookupEntry_eq_some hsource
  obtain ⟨hgj, rfl, rfl⟩ := lookupEntry_eq_some hdestination
  have hlj := (List.getElem?_eq_some_iff.mp hgj).1
  have hsf := kind_of_findInode hs.ids_nodup hsi hsk
  have hdf := kind_of_findInode hs.ids_nodup hdi hdk
  cases requireMultipleLinks with
  | true =>
    apply Outcome.guard
    intro hcount
    apply Outcome.check
    intro _ _
    have hne : replaceDestination s.entries source.1 destination.1
        ⟨destination.2.parent, source.2.target, destination.2.name⟩ ≠
        s.entries := by
      intro h
      have := congrArg List.length h
      rw [replaceDestination, List.length_eraseIdx_of_lt (by rwa [List.length_set]), List.length_set] at this
      omega
    exact storeDirectoryCheckpointed_outcome hw hl hs.inodes hs.entries hne fun _ hv =>
      hv.replace hgi hgj htarget hsf hdf (fun _ hm => hm) (fun _ _ _ hk => hk)
        (iff_of_true (exists_of_kind hdf) (exists_other_link hgj hcount))
  | false =>
    apply Outcome.guard
    intro hcount
    apply Outcome.check
    intro _ _
    apply Outcome.check
    intro released hfree
    refine (storeCreateMetadataJournaled_outcome hw hl).mono fun h hload s' hs' _ => ⟨_, hload, ?_, fun hv => ?_⟩
    all_goals
      obtain rfl := hs.unique hs'
      obtain ⟨hdm, hid⟩ := findInode_eq_some hdi
    · refine ⟨.release hfree ?_⟩
      rw [← hid]
      exact references_filter hs.ids_nodup hdm
    · refine hv.replace hgi hgj htarget hsf hdf (fun _ hm => (List.mem_filter.mp hm).1)
        (fun _ _ hne hk => inodeKinds_filter hs.ids_nodup hne hk) (iff_of_false ?_ ?_)
      · rintro ⟨inode, hm, heq⟩
        simpa [heq] using (List.mem_filter.mp hm).2
      · rintro ⟨e, hm, heq⟩
        exact no_other_link hgj hcount e hm heq

end

end SystemsLab.Fs
