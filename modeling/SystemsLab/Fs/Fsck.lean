import SystemsLab.Lib.Graph
import SystemsLab.Fs.Table
import SystemsLab.Fs.AllocationDisk
import SystemsLab.Fs.JournalRegion

/-!
# The consistency check

What it means for the audits to accept is said without them: `OwnershipValid` for the blocks the inodes refer to,
`NamespaceValid` for the graph the directory entries draw.
-/

namespace SystemsLab.Fs

open Prog LogState Relation

variable {sb : Superblock} {d : Disk} {id : UInt64} {u : Unit}

def rootInodeId : UInt64 := 1

structure FsckReport where
  totalBlocks : Nat
  reservedBlocks : Nat
  dataBlocks : Nat
  allocatedBlocks : Nat
  freeBlocks : Nat
  inodeRecords : Nat
  referencedBlocks : Nat
  directoryEntries : Nat
  journalEntries : Nat
  journalWrites : Nat
  committedTransactions : Nat
  pendingTransaction : Option TransactionId
  deriving DecidableEq, Repr

/-! ## The audits -/

-- The owner map is kept as the list of its insertions, the last one for a block being the one that counts.

def auditBlocks (sb : Superblock) (a : BlockAllocator) (id : UInt64) :
    List UInt64 → List (UInt64 × UInt64) × Nat → Except IoError (List (UInt64 × UInt64) × Nat)
  | [], state => .ok state
  | block :: blocks, (owners, referenced) => do
    require (sb.dataRange.Contains block.toNat)
      (invalidData s!"inode {id} references reserved or out-of-range block {block}")
    let allocated ← (a.isOwned block).mapError fun e => invalidData e.message
    require (allocated = true) (invalidData s!"inode {id} references unallocated block {block}")
    match lastWrite owners block with
    | some previous => throw (invalidData s!"block {block} is owned by both inode {previous} and inode {id}")
    | none => auditBlocks sb a id blocks (owners ++ [(block, id)], referenced + 1)

def auditInodes (sb : Superblock) (a : BlockAllocator) :
    List PersistedInode → List (UInt64 × UInt64) × Nat → Except IoError (List (UInt64 × UInt64) × Nat)
  | [], state => .ok state
  | inode :: inodes, state => do
    let state ← auditBlocks sb a inode.id inode.blocks state
    auditInodes sb a inodes state

def auditInodeOwnership (sb : Superblock) (a : BlockAllocator) (inodes : List PersistedInode) :
    Except IoError Nat := do
  let (_, referenced) ← auditInodes sb a inodes ([], 0)
  pure referenced

def inodeKinds (inodes : List PersistedInode) (id : UInt64) : Option InodeKind :=
  lastWrite (inodes.map fun inode => (inode.id, inode.kind)) id

def adjacency (entries : List PersistedDirectoryEntry) : List (UInt64 × UInt64) :=
  entries.map fun entry => (entry.parent, entry.target)

def auditEntry (inodes : List PersistedInode) (entry : PersistedDirectoryEntry) : Except IoError Unit := do
  let parentKind ← okOr
    (invalidData s!"directory entry '{entry.name}' references missing parent inode {entry.parent}")
    (inodeKinds inodes entry.parent)
  require (parentKind = .directory)
    (invalidData s!"directory entry '{entry.name}' parent inode {entry.parent} is not a directory")
  require ((inodeKinds inodes entry.target).isSome)
    (invalidData s!"directory entry '{entry.name}' references missing target inode {entry.target}")

/-- The calls of `audit_directory_cycle` on itself. -/
def subdirectories (inodes : List PersistedInode) (entries : List PersistedDirectoryEntry) (id : UInt64) :
    List UInt64 :=
  (children (adjacency entries) id).filter fun target => inodeKinds inodes target = some .directory

def directoryIds (inodes : List PersistedInode) : List UInt64 :=
  (inodes.filter fun inode => inode.kind = .directory).map PersistedInode.id

/-- The recursion is never deeper than there are directories. -/
def auditDirectoryCycles (inodes : List PersistedInode) (entries : List PersistedDirectoryEntry) :
    Except IoError Unit :=
  match visitAll (subdirectories inodes entries) (inodes.length + 1) (directoryIds inodes) (fun _ => none) with
  | .ok _ => .ok ()
  | .error id => .error (invalidData s!"directory cycle includes inode {id}")

def auditNamespace (inodes : List PersistedInode) (entries : List PersistedDirectoryEntry) :
    Except IoError Unit := do
  forM entries (auditEntry inodes)
  if inodes = [] then pure () else
    let rootKind ← okOr (invalidData "non-empty inode table is missing root inode 1")
      (inodeKinds inodes rootInodeId)
    require (rootKind = .directory) (invalidData "root inode 1 is not a directory")
    auditDirectoryCycles inodes entries
    let reachable := (walk (adjacency entries) (fun _ => false) [] [rootInodeId]).2
    match inodes.find? fun inode => inode.id ∉ reachable with
    | some inode => throw (invalidData s!"inode {inode.id} is unreachable from root inode {rootInodeId}")
    | none => pure ()

def auditEntries (sb : Superblock) : Option TransactionId → Nat → Nat → List JournalEntry →
    Except IoError (Option TransactionId × Nat × Nat)
  | active, writes, commits, [] => .ok (active, writes, commits)
  | active, writes, commits, .begin txid :: es => do
    require (active = none) (invalidData "nested journal transaction")
    auditEntries sb (some txid) writes commits es
  | active, writes, commits, .write txid block _ :: es => do
    require (active = some txid) (invalidData "journal write does not match active transaction")
    requireHome sb block
    auditEntries sb active (writes + 1) commits es
  | active, writes, commits, .commit txid :: es => do
    require (active = some txid) (invalidData "journal commit does not match active transaction")
    auditEntries sb none writes (commits + 1) es

def auditJournal (sb : Superblock) (entries : List JournalEntry)
    (allocatedBlocks freeBlocks inodeRecords referencedBlocks
    directoryEntries : Nat) : Except IoError FsckReport := do
  require (sb.reservedBlocks < 2 ^ 64) (panicked "attempt to add with overflow")
  require (sb.reservedBlocks ≤ sb.totalBlocks.toNat) (invalidData "reserved metadata exceeds filesystem size")
  let dataBlocks := sb.totalBlocks.toNat - sb.reservedBlocks
  require (allocatedBlocks + freeBlocks < 2 ^ 64) (invalidData "allocation accounting overflow")
  require (allocatedBlocks + freeBlocks = dataBlocks) (invalidData "allocation accounting mismatch")
  let (active, writes, commits) ← auditEntries sb none 0 0 entries
  pure ⟨sb.totalBlocks.toNat, sb.reservedBlocks, dataBlocks, allocatedBlocks, freeBlocks, inodeRecords,
    referencedBlocks, directoryEntries, entries.length, writes, commits, active⟩

def withContext (layer : String) (error : IoError) : IoError := ⟨error.kind, s!"fsck {layer}: {error.message}"⟩

def checkDevice : FsProg FsckReport := do
  let sb ← readSuperblock.mapErr (withContext "superblock")
  let a ← (loadAllocator sb).mapErr (withContext "allocation")
  let inodes ← (loadInodeTable sb).mapErr (withContext "inode table")
  let referenced ← auditInodeOwnership sb a inodes
  let entries ← (loadDirectoryTable sb).mapErr (withContext "directory table")
  auditNamespace inodes entries
  let log ← (loadJournalImage sb).mapErr (withContext "journal")
  auditJournal sb log a.allocatedBlocks a.freeBlocks inodes.length referenced entries.length

/-! ## Ownership -/

structure OwnershipValid (sb : Superblock) (a : BlockAllocator) (inodes : List PersistedInode) : Prop where
  allocated : ∀ inode ∈ inodes, ∀ b ∈ inode.blocks, sb.dataRange.Contains b.toNat ∧ a.Has b.toNat
  nodup : (inodes.flatMap PersistedInode.blocks).Nodup

section
variable {sb : Superblock} {a : BlockAllocator} (hr : a.reservedBlocks = sb.reservedBlocks)
include hr

theorem isOwned_data {b : UInt64} : sb.dataRange.Contains b.toNat ∧ a.isOwned b = .ok true ↔
    sb.dataRange.Contains b.toNat ∧ a.Has b.toNat := by
  refine and_congr_right fun hd => ?_
  rw [BlockAllocator.isOwned_eq_ok]
  have hge : ¬ b.toNat < a.reservedBlocks := by rw [hr]; exact Nat.not_lt.mpr hd.1
  exact ⟨fun h => (h.2.mp rfl).resolve_left hge, fun h => ⟨h.lt, by simp [h]⟩⟩

theorem auditBlocks_eq_ok : ∀ {blocks : List UInt64} {owners owners' : List (UInt64 × UInt64)} {n n' : Nat},
    auditBlocks sb a id blocks (owners, n) = .ok (owners', n') ↔
      (∀ b ∈ blocks, sb.dataRange.Contains b.toNat ∧ a.Has b.toNat) ∧ blocks.Nodup ∧
        (∀ b ∈ blocks, b ∉ owners.map Prod.fst) ∧ owners' = owners ++ blocks.map (fun b => (b, id)) ∧
        n' = n + blocks.length
  | [], owners, owners', n, n' => by simp [auditBlocks, eq_comm]
  | b :: blocks, owners, owners', n, n' => by
    simp only [auditBlocks, steps_ok, exists_const]
    constructor
    · rintro ⟨hd, o, ho, rfl, h⟩
      have hb := (isOwned_data hr).mp ⟨hd, ho⟩
      cases hl : lastWrite owners b with
      | some previous => simp [hl] at h
      | none =>
        rw [hl] at h
        obtain ⟨hall, hnd, hfresh, rfl, rfl⟩ := auditBlocks_eq_ok.mp h
        simp only [List.map_append, List.map_cons, List.map_nil, List.mem_append, List.mem_singleton,
          not_or] at hfresh
        refine ⟨by simpa using ⟨hb, hall⟩, List.nodup_cons.mpr ⟨fun hm => (hfresh b hm).2 rfl, hnd⟩, ?_, by simp,
          by simp only [List.length_cons]; omega⟩
        exact List.forall_mem_cons.mpr ⟨lastWrite_eq_none.mp hl, fun c hc => (hfresh c hc).1⟩
    · rintro ⟨hall, hnd, hfresh, rfl, rfl⟩
      rw [List.forall_mem_cons] at hall hfresh
      obtain ⟨hnb, hnd⟩ := List.nodup_cons.mp hnd
      obtain ⟨hd, ho⟩ := (isOwned_data hr).mpr hall.1
      refine ⟨hd, true, ho, rfl, ?_⟩
      rw [lastWrite_eq_none.mpr hfresh.1]
      refine auditBlocks_eq_ok.mpr ⟨hall.2, hnd, fun c hc => ?_, by simp, by simp only [List.length_cons]; omega⟩
      simp only [List.map_append, List.map_cons, List.map_nil, List.mem_append, List.mem_singleton, not_or]
      exact ⟨hfresh.2 c hc, fun h => hnb (h ▸ hc)⟩

theorem auditInodes_eq_ok : ∀ {inodes : List PersistedInode} {owners : List (UInt64 × UInt64)} {n m : Nat},
    (∃ owners', auditInodes sb a inodes (owners, n) = .ok (owners', m)) ↔
      OwnershipValid sb a inodes ∧ (∀ b ∈ inodes.flatMap PersistedInode.blocks, b ∉ owners.map Prod.fst) ∧
        m = n + (inodes.flatMap PersistedInode.blocks).length
  | [], owners, n, m => by
    simp only [auditInodes, Except.ok.injEq, Prod.mk.injEq, exists_and_right, exists_eq', true_and,
      List.flatMap_nil]
    exact ⟨fun h => ⟨⟨by simp, by simp⟩, by simp, by simp [h]⟩, fun h => by simpa using h.2.2.symm⟩
  | inode :: inodes, owners, n, m => by
    constructor
    · rintro ⟨owners', h⟩
      simp only [auditInodes, except_bind_eq_ok] at h
      obtain ⟨⟨o, k⟩, hb, h⟩ := h
      obtain ⟨hall, hnd, hfresh, rfl, rfl⟩ := (auditBlocks_eq_ok hr).mp hb
      obtain ⟨hv, hrest, rfl⟩ := auditInodes_eq_ok.mp ⟨_, h⟩
      simp only [List.map_append, List.map_map, List.mem_append, not_or] at hrest
      have hdis : ∀ b ∈ inodes.flatMap PersistedInode.blocks, b ∉ inode.blocks := fun b hm hi =>
        (hrest b hm).2 (by simpa [Function.comp_def] using hi)
      refine ⟨⟨List.forall_mem_cons.mpr ⟨hall, hv.allocated⟩, ?_⟩,
        ?_, by simp only [List.flatMap_cons, List.length_append]; omega⟩
      · rw [List.flatMap_cons, List.nodup_append]
        exact ⟨hnd, hv.nodup, fun b hb c hc h => hdis c hc (h ▸ hb)⟩
      · rw [List.flatMap_cons]
        exact List.forall_mem_append.mpr ⟨hfresh, fun b hm => (hrest b hm).1⟩
    · rintro ⟨hv, hfresh, rfl⟩
      rw [List.flatMap_cons] at hfresh
      obtain ⟨hf1, hf2⟩ := List.forall_mem_append.mp hfresh
      have hnd := hv.nodup
      rw [List.flatMap_cons, List.nodup_append] at hnd
      obtain ⟨ha1, ha2⟩ := List.forall_mem_cons.mp hv.allocated
      have hb := (@auditBlocks_eq_ok inode.id sb a hr inode.blocks owners _ n _).mpr ⟨ha1, hnd.1, hf1, rfl, rfl⟩
      simp only [auditInodes, hb, except_bind_ok]
      refine auditInodes_eq_ok.mpr ⟨⟨ha2, hnd.2.1⟩, fun b hm =>
        ?_, by simp only [List.flatMap_cons, List.length_append]; omega⟩
      simp only [List.map_append, List.map_map, List.mem_append, not_or]
      refine ⟨hf2 b hm, fun hi => hnd.2.2 b ?_ b hm rfl⟩
      simpa [Function.comp_def] using hi

theorem auditInodeOwnership_eq_ok {inodes : List PersistedInode} {n : Nat} :
    auditInodeOwnership sb a inodes = .ok n ↔
      OwnershipValid sb a inodes ∧ n = (inodes.flatMap PersistedInode.blocks).length := by
  have h := @auditInodes_eq_ok sb a hr inodes [] 0 n
  simp only [List.map_nil, List.not_mem_nil, not_false_eq_true, implies_true, true_and, Nat.zero_add] at h
  rw [← h, auditInodeOwnership]
  simp only [steps_ok, Prod.exists]
  refine ⟨fun h => ?_, fun h => ?_⟩
  · obtain ⟨o, k, hk, e⟩ := h
    exact ⟨o, e ▸ hk⟩
  · obtain ⟨o, hk⟩ := h
    exact ⟨o, n, hk, rfl⟩

end

/-! ## The namespace -/

section
variable {inodes : List PersistedInode} {entries : List PersistedDirectoryEntry}

theorem inodeKinds_isSome : (inodeKinds inodes id).isSome ↔ ∃ inode ∈ inodes, inode.id = id := by
  rw [← Option.not_isNone, Bool.not_eq_true', ← Bool.not_eq_true, Option.isNone_iff_eq_none, inodeKinds,
    lastWrite_eq_none]
  simp

theorem mem_directoryIds (h : inodeKinds inodes id = some .directory) : id ∈ directoryIds inodes := by
  obtain ⟨inode, hi, he⟩ := List.mem_map.mp (lastWrite_mem h)
  obtain ⟨rfl, hk⟩ := Prod.mk.inj he
  exact List.mem_map.mpr ⟨inode, by simp [hi, hk], rfl⟩

/-- The entries form a tree of directories with the files as leaves, up to hard links. -/
structure NamespaceValid (inodes : List PersistedInode) (entries : List PersistedDirectoryEntry) : Prop where
  parent : ∀ entry ∈ entries, inodeKinds inodes entry.parent = some .directory
  target : ∀ entry ∈ entries, ∃ inode ∈ inodes, inode.id = entry.target
  root : inodes ≠ [] → inodeKinds inodes rootInodeId = some .directory
  acyclic : Acyclic (Edge (adjacency entries))
  reachable : ∀ inode ∈ inodes, ReflTransGen (Edge (adjacency entries)) rootInodeId inode.id

theorem edge_adjacency {x y : UInt64} :
    Edge (adjacency entries) x y ↔ ∃ entry ∈ entries, entry.parent = x ∧ entry.target = y := by
  simp [Edge, adjacency]

theorem auditEntry_eq_ok {entry : PersistedDirectoryEntry} : auditEntry inodes entry = .ok u ↔
    inodeKinds inodes entry.parent = some .directory ∧ ∃ inode ∈ inodes, inode.id = entry.target := by
  simp only [auditEntry, steps_ok, exists_const, inodeKinds_isSome]
  refine ⟨fun h => ?_, fun h => ⟨_, h.1, rfl, h.2⟩⟩
  obtain ⟨k, hk, e, ht⟩ := h
  exact ⟨e ▸ hk, ht⟩

theorem mem_subdirectories {x y : UInt64} : y ∈ subdirectories inodes entries x ↔
    Edge (adjacency entries) x y ∧ inodeKinds inodes y = some .directory := by
  simp [subdirectories, mem_children]

theorem auditDirectoryCycles_eq_ok (hp : ∀ entry ∈ entries, inodeKinds inodes entry.parent = some .directory) :
    auditDirectoryCycles inodes entries = .ok u ↔ Acyclic (Edge (adjacency entries)) := by
  have hclosed : ∀ x ∈ directoryIds inodes, ∀ y ∈ subdirectories inodes entries x, y ∈ directoryIds inodes :=
    fun x _ y hy => mem_directoryIds (mem_subdirectories.mp hy).2
  have hlen : (directoryIds inodes).length < inodes.length + 1 := by
    rw [directoryIds, List.length_map]
    exact Nat.lt_succ_of_le (List.length_filter_le _ _)
  have hok : auditDirectoryCycles inodes entries = .ok u ↔ ∃ marks, visitAll (subdirectories inodes entries)
      (inodes.length + 1) (directoryIds inodes) (fun _ => none) = .ok marks := by
    unfold auditDirectoryCycles
    split <;> simp [*]
  rw [hok, visitAll_iff hclosed hlen]
  constructor
  · intro h
    have hsub : Acyclic fun x y => y ∈ subdirectories inodes entries x := by
      intro x hx
      obtain ⟨y, -, hy⟩ := TransGen.tail'_iff.mp hx
      exact h x (mem_directoryIds (mem_subdirectories.mp hy).2) hx
    refine hsub.of_leaves fun x y hxy => ?_
    by_cases hy : inodeKinds inodes y = some .directory
    · exact .inl (mem_subdirectories.mpr ⟨hxy, hy⟩)
    · refine .inr fun z hz => hy ?_
      obtain ⟨entry, he, rfl, -⟩ := edge_adjacency.mp hz
      exact hp entry he
  · exact fun h x _ => h.mono (fun _ _ hy => (mem_subdirectories.mp hy).1) x

theorem auditNamespace_eq_ok : auditNamespace inodes entries = .ok u ↔ NamespaceValid inodes entries := by
  simp only [auditNamespace, except_bind_eq_ok, forM_eq_ok, auditEntry_eq_ok, exists_const]
  by_cases hi : inodes = []
  · -- Without inodes no entry is accepted, and the graph is empty.
    subst hi
    simp only [if_true, except_pure_eq, and_true]
    constructor
    · intro h
      have hnone : entries = [] := List.eq_nil_iff_forall_not_mem.mpr fun e he => by simpa using (h e he).2
      subst hnone
      refine ⟨by simp, by simp, fun h => absurd rfl h, fun x hx => ?_, by simp⟩
      obtain ⟨y, hy, -⟩ := TransGen.head'_iff.mp hx
      simp [Edge, adjacency] at hy
    · exact fun h e he => ⟨h.parent e he, h.target e he⟩
  · simp only [if_neg hi, except_bind_eq_ok, okOr_eq_ok, require_eq_ok, exists_const]
    have hreach : (match inodes.find? fun inode =>
          inode.id ∉ (walk (adjacency entries) (fun _ => false) [] [rootInodeId]).2 with
        | some inode => throw (invalidData s!"inode {inode.id} is unreachable from root inode {rootInodeId}")
        | none => pure ()) = (.ok u : Except IoError Unit) ↔
        ∀ inode ∈ inodes, ReflTransGen (Edge (adjacency entries)) rootInodeId inode.id := by
      split
      · rename_i inode hf
        have hm := List.mem_of_find?_eq_some hf
        have hn := List.find?_some hf
        simp only [decide_eq_true_eq, mem_walk] at hn
        simpa using ⟨inode, hm, hn⟩
      · rename_i hf
        simp only [List.find?_eq_none, decide_eq_true_eq, not_not, mem_walk] at hf
        simpa using hf
    rw [hreach]
    constructor
    · rintro ⟨he, k, hk, rfl, _, hc, hr⟩
      exact ⟨fun e h => (he e h).1, fun e h => (he e h).2, fun _ => hk,
        (auditDirectoryCycles_eq_ok fun e h => (he e h).1).mp hc, hr⟩
    · intro h
      exact ⟨fun e he => ⟨h.parent e he, h.target e he⟩, _, h.root hi, rfl, (),
        (auditDirectoryCycles_eq_ok h.parent).mpr h.acyclic, h.reachable⟩

end

/-! ## The journal -/

theorem auditEntries_eq_ok (sb : Superblock) : ∀ (es : List JournalEntry) (s : LogState TransactionId UInt64 Block)
    (writes : Nat) {r : Option TransactionId × Nat × Nat}, auditEntries sb s.active writes s.commits es = .ok r ↔
      ∃ s', s.scan es = some s' ∧ (∀ w ∈ logWrites es, sb.HomeBlock w.1.toNat) ∧
        r = (s'.active, writes + (logWrites es).length, s'.commits)
  | [], s, writes, r => by simp [auditEntries, logWrites, eq_comm]
  | .begin txid :: es, s, writes, r => by
    by_cases ha : s.active = none
    · simpa [auditEntries, scan_cons, step, ha, logWrites, require_pos] using
        auditEntries_eq_ok sb es ⟨some txid, [], s.applied, s.commits⟩ writes
    · simp [auditEntries, scan_cons, step, ha]
  | .write txid block data :: es, s, writes, r => by
    by_cases ha : s.active = some txid
    · have ih := @auditEntries_eq_ok sb es ⟨some txid, s.pending ++ [(block, data)], s.applied, s.commits⟩
        (writes + 1) r
      simp only [auditEntries, scan_cons, step, ha, logWrites, require_pos, except_bind_ok, if_true,
        Option.bind_some, steps_ok, requireHome_eq_ok, exists_const, List.filterMap_cons, List.forall_mem_cons,
        List.length_cons]
      rw [ih, logWrites]
      constructor
      · rintro ⟨hb, s', hs, hw, rfl⟩
        exact ⟨s', hs, ⟨hb, hw⟩, by rw [Nat.add_right_comm, Nat.add_assoc]⟩
      · rintro ⟨s', hs, ⟨hb, hw⟩, rfl⟩
        exact ⟨hb, s', hs, hw, by rw [Nat.add_right_comm, Nat.add_assoc]⟩
    · simp [auditEntries, scan_cons, step, ha]
  | .commit txid :: es, s, writes, r => by
    by_cases ha : s.active = some txid
    · simpa [auditEntries, scan_cons, step, ha, logWrites, require_pos] using
        auditEntries_eq_ok sb es ⟨none, [], s.applied ++ s.pending, s.commits + 1⟩ writes
    · simp [auditEntries, scan_cons, step, ha]

theorem auditJournal_eq_ok {es : List JournalEntry} {allocated free inodes referenced entries : Nat}
    {report : FsckReport} : auditJournal sb es allocated free inodes referenced entries = .ok report ↔
      sb.reservedBlocks + allocated + free = sb.totalBlocks.toNat ∧ ∃ s, init.scan es = some s ∧
        (∀ w ∈ logWrites es, sb.HomeBlock w.1.toNat) ∧
        report = ⟨sb.totalBlocks.toNat, sb.reservedBlocks, sb.totalBlocks.toNat - sb.reservedBlocks, allocated,
          free, inodes, referenced, entries, es.length, (logWrites es).length, s.commits, s.active⟩ := by
  have ha := fun r => @auditEntries_eq_ok sb es init 0 r
  have ht := sb.totalBlocks.toNat_lt
  simp only [auditJournal, steps_ok, exists_const, Prod.exists]
  constructor
  · rintro ⟨-, hres, -, hbal, active, writes, commits, hrun, rfl⟩
    obtain ⟨s, hs, hw, he⟩ := (ha _).mp hrun
    obtain ⟨rfl, rfl, rfl⟩ := by simpa using he
    exact ⟨by omega, s, hs, hw, rfl⟩
  · rintro ⟨hbal, s, hs, hw, rfl⟩
    exact ⟨by omega, by omega, by omega, by omega, _, _, _, (ha _).mpr ⟨s, hs, hw, rfl⟩, by simp⟩

/-! ## The device -/

structure Snapshot where
  allocator : BlockAllocator
  inodes : List PersistedInode
  entries : List PersistedDirectoryEntry

structure Loads (sb : Superblock) (d : Disk) (s : Snapshot) : Prop where
  allocator : (loadAllocator sb).eval d = .ok s.allocator
  inodes : (loadInodeTable sb).eval d = .ok s.inodes
  entries : (loadDirectoryTable sb).eval d = .ok s.entries

structure Snapshot.Valid (sb : Superblock) (s : Snapshot) : Prop where
  owned : OwnershipValid sb s.allocator s.inodes
  tree : NamespaceValid s.inodes s.entries

theorem Loads.unique {s s' : Snapshot} (h : Loads sb d s) (h' : Loads sb d s') : s = s' := by
  have ha := Except.ok.inj (h.allocator.symm.trans h'.allocator)
  have hi := Except.ok.inj (h.inodes.symm.trans h'.inodes)
  have he := Except.ok.inj (h.entries.symm.trans h'.entries)
  cases s; cases s'
  simp_all

theorem encodeAllocator_geometry {a : BlockAllocator} {image : List UInt8}
    (h : encodeAllocator sb a = .ok image) :
    a.totalBlocks = sb.totalBlocks.toNat ∧ a.reservedBlocks = sb.reservedBlocks := by
  obtain ⟨bitmap, hb, -⟩ := except_bind_eq_ok.mp h
  exact ownedBitmap_inv hb

theorem Loads.geometry {s : Snapshot} (h : Loads sb d s) :
    s.allocator.totalBlocks = sb.totalBlocks.toNat ∧ s.allocator.reservedBlocks = sb.reservedBlocks :=
  encodeAllocator_geometry (loadAllocator_eq_ok.mp h.allocator).2.2

instance : checkDevice.Reads := by unfold checkDevice; infer_instance

theorem checkDevice_eq_ok {report : FsckReport} : checkDevice.eval d = .ok report ↔
    ∃ sb s es log, readSuperblock.eval d = .ok sb ∧ Loads sb d s ∧ s.Valid sb ∧
      (loadJournalImage sb).eval d = .ok es ∧ init.scan es = some log ∧
      report = ⟨sb.totalBlocks.toNat, sb.reservedBlocks, sb.totalBlocks.toNat - sb.reservedBlocks,
        s.allocator.allocatedBlocks, s.allocator.freeBlocks, s.inodes.length,
        (s.inodes.flatMap PersistedInode.blocks).length, s.entries.length, es.length, (logWrites es).length,
          log.commits,
        log.active⟩ := by
  simp only [checkDevice, eval_bind, eval_liftM, eval_mapErr, steps_ok]
  constructor
  · rintro ⟨sb, hsb, a, ha, inodes, hi, n, hn, entries, he, _, hns, es, hes, hj⟩
    have hl : Loads sb d ⟨a, inodes, entries⟩ := ⟨ha, hi, he⟩
    obtain ⟨hown, rfl⟩ := (auditInodeOwnership_eq_ok hl.geometry.2).mp hn
    obtain ⟨-, log, hlog, -, rfl⟩ := auditJournal_eq_ok.mp hj
    exact ⟨sb, ⟨a, inodes, entries⟩, es, log, hsb, hl, ⟨hown, auditNamespace_eq_ok.mp hns⟩, hes, hlog, rfl⟩
  · rintro ⟨sb, s, es, log, hsb, hl, hv, hes, hlog, rfl⟩
    obtain ⟨-, hw⟩ := validateEntries_eq_ok.mp (validateEntries_of_load hes)
    have hbal := s.allocator.accounting
    rw [hl.geometry.1, hl.geometry.2] at hbal
    exact ⟨sb, hsb, _, hl.allocator, _, hl.inodes, _,
      (auditInodeOwnership_eq_ok hl.geometry.2).mpr ⟨hv.owned, rfl⟩, _, hl.entries, (),
      auditNamespace_eq_ok.mpr hv.tree, es, hes, auditJournal_eq_ok.mpr ⟨hbal, log, hlog, hw, rfl⟩⟩

theorem checkDevice_ok_iff : (∃ report, checkDevice.eval d = .ok report) ↔
    ∃ sb s es, readSuperblock.eval d = .ok sb ∧ Loads sb d s ∧ s.Valid sb ∧
      (loadJournalImage sb).eval d = .ok es := by
  constructor
  · rintro ⟨report, h⟩
    obtain ⟨sb, s, es, log, hsb, hl, hv, hes, -⟩ := checkDevice_eq_ok.mp h
    exact ⟨sb, s, es, hsb, hl, hv, hes⟩
  · rintro ⟨sb, s, es, hsb, hl, hv, hes⟩
    obtain ⟨⟨log, hlog⟩, -⟩ := validateEntries_eq_ok.mp (validateEntries_of_load hes)
    exact ⟨_, checkDevice_eq_ok.mpr ⟨sb, s, es, log, hsb, hl, hv, hes, hlog, rfl⟩⟩

end SystemsLab.Fs
