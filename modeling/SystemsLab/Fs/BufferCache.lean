import SystemsLab.Fs.Block
import SystemsLab.Lib.SortedMap

/-!
# The buffer cache

A write-back cache over any block device, which may refuse any write and any flush.
-/

namespace SystemsLab.Fs

inductive BufferState
  | clean
  | dirty
  | writeback
  deriving DecidableEq, Repr

structure CacheEntry where
  data : Block
  state : BufferState

structure BufferCache (δ : Type) where
  device : δ
  entries : SortedMap Nat CacheEntry

namespace BufferCache
variable {δ : Type} [BlockDevice δ Block IoError]

def new (device : δ) : BufferCache δ := ⟨device, .empty⟩

def validateBlock (c : BufferCache δ) (block : Nat) : Except IoError Unit :=
  require (block < BlockDevice.blockCount IoError c.device) (unexpectedEof "block index is outside the device")

def readBlock (c : BufferCache δ) (block : Nat) : Except IoError Block × BufferCache δ :=
  match c.validateBlock block with
  | .error e => (.error e, c)
  | .ok () =>
    match c.entries.get? block with
    | some entry => (.ok entry.data, c)
    | none =>
      match BlockDevice.readBlock c.device block with
      | .error e => (.error e, c)
      | .ok data => (.ok data, { c with entries := c.entries.insert block ⟨data, .clean⟩ })

def writeBlock (c : BufferCache δ) (block : Nat) (data : Block) : Except IoError Unit × BufferCache δ :=
  match c.validateBlock block with
  | .error e => (.error e, c)
  | .ok () => (.ok (), { c with entries := c.entries.insert block ⟨data, .dirty⟩ })

def writeBack (c : BufferCache δ) (block : Nat) : Except IoError Unit × BufferCache δ :=
  match c.entries.get? block with
  | none => (.error ⟨.notFound, "cannot write back an uncached block"⟩, c)
  | some entry =>
    if entry.state ≠ .dirty then (.ok (), c) else
      match BlockDevice.writeBlock c.device block entry.data with
      | (.error e, device) => (.error e, { c with device })
      | (.ok (), device) => (.ok (), ⟨device, c.entries.insert block { entry with state := .writeback }⟩)

def writeBackAll : List Nat → BufferCache δ → Except IoError Unit × BufferCache δ
  | [], c => (.ok (), c)
  | block :: blocks, c =>
    match c.writeBack block with
    | (.error e, c) => (.error e, c)
    | (.ok (), c) => writeBackAll blocks c

def dirtyBlocks (c : BufferCache δ) : List Nat :=
  c.entries.entries.filterMap fun (block, entry) => if entry.state = .dirty then some block else none

def CacheEntry.settle (entry : CacheEntry) : CacheEntry :=
  if entry.state = .writeback then { entry with state := .clean } else entry

def flush (c : BufferCache δ) : Except IoError Unit × BufferCache δ :=
  match writeBackAll c.dirtyBlocks c with
  | (.error e, c) => (.error e, c)
  | (.ok (), c) =>
    if c.entries.entries.any fun (_, entry) => entry.state = .writeback then
      match BlockDevice.flush c.device with
      | (.error e, device) => (.error e, { c with device })
      | (.ok (), device) => (.ok (), ⟨device, c.entries.filterMap fun _ entry => some (CacheEntry.settle entry)⟩)
    else (.ok (), c)

def evict (c : BufferCache δ) (block : Nat) : Except IoError Unit × BufferCache δ :=
  match c.entries.get? block with
  | none => (.error ⟨.notFound, "cannot evict an uncached block"⟩, c)
  | some entry =>
    if entry.state ≠ .clean then (.error ⟨.wouldBlock, "cannot evict a block that is not durable"⟩, c)
    else (.ok (), { c with entries := c.entries.erase block })

end BufferCache

/-! ## A device that fails -/

/-- Writes reach the volatile contents, a flush makes them durable, and any of these may fail. -/
structure FaultyDevice where
  volatile : Disk
  durable : Disk
  faults : Nat → Option IoError
  mutations : Nat

namespace FaultyDevice

def fresh (contents : Disk) (faults : Nat → Option IoError) : FaultyDevice := ⟨contents, contents, faults, 0⟩

instance : BlockDevice FaultyDevice Block IoError where
  blockCount d := d.volatile.length
  readBlock d b := okOr DeviceErrors.outOfRange d.volatile[b]?
  writeBlock d b x :=
    match d.faults d.mutations with
    | some e => (.error e, { d with mutations := d.mutations + 1 })
    | none =>
      if b < d.volatile.length then (.ok (),
        { d with volatile := d.volatile.set b x, mutations := d.mutations + 1 })
      else (.error DeviceErrors.outOfRange, { d with mutations := d.mutations + 1 })
  flush d :=
    match d.faults d.mutations with
    | some e => (.error e, { d with mutations := d.mutations + 1 })
    | none => (.ok (), { d with durable := d.volatile, mutations := d.mutations + 1 })

theorem writeBlock_cases (d : FaultyDevice) {b : Nat} (hb : b < d.volatile.length) (x : Block) :
    (∃ e d', (BlockDevice.writeBlock d b x : Except IoError Unit × FaultyDevice) = (.error e, d') ∧
      d'.volatile = d.volatile ∧ d'.durable = d.durable) ∨
    ∃ d', (BlockDevice.writeBlock d b x : Except IoError Unit × FaultyDevice) = (.ok (), d') ∧
      d'.volatile = d.volatile.set b x ∧ d'.durable = d.durable := by
  simp only [BlockDevice.writeBlock]
  cases d.faults d.mutations with
  | some e => exact .inl ⟨e, _, rfl, rfl, rfl⟩
  | none =>
    rw [if_pos hb]
    exact .inr ⟨_, rfl, rfl, rfl⟩

theorem flush_cases (d : FaultyDevice) :
    (∃ e d', (BlockDevice.flush d : Except IoError Unit × FaultyDevice) = (.error e, d') ∧
      d'.volatile = d.volatile ∧ d'.durable = d.durable) ∨
    ∃ d', (BlockDevice.flush d : Except IoError Unit × FaultyDevice) = (.ok (), d') ∧
      d'.volatile = d.volatile ∧ d'.durable = d.volatile := by
  simp only [BlockDevice.flush]
  cases d.faults d.mutations with
  | some e => exact .inl ⟨e, _, rfl, rfl, rfl⟩
  | none => exact .inr ⟨_, rfl, rfl, rfl⟩

end FaultyDevice

/-! ## Runs -/

inductive CacheCall
  | readBlock (block : Nat)
  | writeBlock (block : Nat) (data : Block)
  | writeBack (block : Nat)
  | flush
  | evict (block : Nat)

namespace CacheCall

def perform (c : BufferCache FaultyDevice) : CacheCall → Except IoError (Option Block) × BufferCache FaultyDevice
  | .readBlock block => ((c.readBlock block).1.map some, (c.readBlock block).2)
  | .writeBlock block data => ((c.writeBlock block data).1.map fun _ => none, (c.writeBlock block data).2)
  | .writeBack block => ((c.writeBack block).1.map fun _ => none, (c.writeBack block).2)
  | .flush => (c.flush.1.map fun _ => none, c.flush.2)
  | .evict block => ((c.evict block).1.map fun _ => none, (c.evict block).2)

def record (contents : Disk) : CacheCall → Except IoError (Option Block) → Disk
  | .writeBlock block data, .ok _ => contents.set block data
  | _, _ => contents

end CacheCall

def runCalls (calls : List CacheCall) (start : BufferCache FaultyDevice × Disk) : BufferCache FaultyDevice × Disk :=
  calls.foldl (fun s call => ((call.perform s.1).2, call.record s.2 (call.perform s.1).1)) start

/-! ## The invariant -/

structure CacheEntry.Faithful (d : FaultyDevice) (expected : Disk) (block : Nat) (entry : CacheEntry) : Prop where
  data : expected[block]? = some entry.data
  volatile : entry.state ≠ .dirty → d.volatile[block]? = some entry.data
  durable : entry.state = .clean → d.durable[block]? = some entry.data

namespace BufferCache

structure Coherent (c : BufferCache FaultyDevice) (expected : Disk) : Prop where
  length : c.device.volatile.length = expected.length
  entry : ∀ block entry, c.entries.get? block = some entry → entry.Faithful c.device expected block
  absent : ∀ block, c.entries.get? block = none →
    c.device.volatile[block]? = expected[block]? ∧ c.device.durable[block]? = expected[block]?

section
variable {c : BufferCache FaultyDevice} {expected : Disk}

theorem coherent_new (contents : Disk) (faults : Nat → Option IoError) :
    (new (.fresh contents faults)).Coherent contents :=
  ⟨rfl, fun _ _ h => (nomatch h), fun _ _ => ⟨rfl, rfl⟩⟩

section
variable (h : c.Coherent expected)
include h

theorem validateBlock_eq (block : Nat) : c.validateBlock block =
    require (block < expected.length) (unexpectedEof "block index is outside the device") := by
  rw [validateBlock, ← h.length]
  rfl

theorem Coherent.insert {d : FaultyDevice} {expected' : Disk} {block : Nat} {entry : CacheEntry}
    (hlen : d.volatile.length = expected'.length) (hentry : entry.Faithful d expected' block)
    (hother : ∀ b ≠ block, expected'[b]? = expected[b]? ∧ d.volatile[b]? = c.device.volatile[b]? ∧
      d.durable[b]? = c.device.durable[b]?) : Coherent ⟨d, c.entries.insert block entry⟩ expected' := by
  refine ⟨hlen, fun b e he => ?_, fun b he => ?_⟩
  · rw [SortedMap.get?_insert] at he
    split at he
    · rename_i heq
      cases he
      exact heq ▸ hentry
    · rename_i hne
      have hf := h.entry b e he
      obtain ⟨hx, hv, hd⟩ := hother b hne
      exact ⟨hx.trans hf.data, fun hs => hv.trans (hf.volatile hs), fun hs => hd.trans (hf.durable hs)⟩
  · rw [SortedMap.get?_insert] at he
    split at he
    · cases he
    · rename_i hne
      obtain ⟨hx, hv, hd⟩ := hother b hne
      rw [hx, hv, hd]
      exact h.absent b he

theorem Coherent.readBlock (block : Nat) :
    (c.readBlock block).1 = okOr (unexpectedEof "block index is outside the device") expected[block]? ∧
      (c.readBlock block).2.Coherent expected := by
  unfold BufferCache.readBlock
  rw [validateBlock_eq h]
  by_cases hb : block < expected.length
  · rw [require_pos hb]
    cases hg : c.entries.get? block with
    | some entry =>
      rw [(h.entry block entry hg).data]
      exact ⟨rfl, h⟩
    | none =>
      obtain ⟨hv, hd⟩ := h.absent block hg
      have hread : BlockDevice.readBlock c.device block = (.ok expected[block] : Except IoError Block) := by
        simp only [BlockDevice.readBlock, hv, List.getElem?_eq_getElem hb, okOr_some]
      rw [List.getElem?_eq_getElem hb] at hv hd ⊢
      rw [hread]
      exact ⟨rfl, h.insert h.length ⟨List.getElem?_eq_getElem hb, fun _ => hv, fun _ => hd⟩ fun _ _ =>
        ⟨rfl, rfl, rfl⟩⟩
  · rw [require_neg hb, List.getElem?_eq_none (Nat.le_of_not_lt hb)]
    exact ⟨rfl, h⟩

theorem Coherent.writeBlock (block : Nat) (data : Block) :
    (c.writeBlock block data).2.Coherent
      (CacheCall.record expected (.writeBlock block data) ((c.writeBlock block data).1.map fun _ => none)) := by
  unfold BufferCache.writeBlock
  rw [validateBlock_eq h]
  by_cases hb : block < expected.length
  · rw [require_pos hb]
    exact h.insert (h.length.trans List.length_set.symm)
      ⟨List.getElem?_set_self hb, fun hs => absurd rfl hs, fun hs => (nomatch hs)⟩
      fun b hne => ⟨List.getElem?_set_ne hne.symm, rfl, rfl⟩
  · rw [require_neg hb]
    exact h

theorem Coherent.same_contents {d : FaultyDevice} (hv : d.volatile = c.device.volatile)
    (hd : d.durable = c.device.durable) : Coherent { c with device := d } expected := by
  refine ⟨hv ▸ h.length, fun b e he => ?_, fun b he => ?_⟩
  · have hf := h.entry b e he
    exact ⟨hf.data, hv ▸ hf.volatile, hd ▸ hf.durable⟩
  · have ha := h.absent b he
    exact ⟨hv ▸ ha.1, hd ▸ ha.2⟩

theorem Coherent.written {block : Nat} {entry : CacheEntry}
    (hg : c.entries.get? block = some entry) {d : FaultyDevice}
    (hv : d.volatile = c.device.volatile.set block entry.data)
    (hd : d.durable = c.device.durable) :
    Coherent ⟨d, c.entries.insert block { entry with state := .writeback }⟩ expected := by
  have hdata := (h.entry block entry hg).data
  have hb : block < c.device.volatile.length := h.length ▸ (List.getElem?_eq_some_iff.mp hdata).1
  refine h.insert (by rw [hv, List.length_set, h.length]) ⟨hdata, fun _ => ?_, fun hs => (nomatch hs)⟩ fun b hne =>
    ⟨rfl, ?_, by rw [hd]⟩
  · rw [hv, List.getElem?_set_self hb]
  · rw [hv, List.getElem?_set_ne hne.symm]

theorem Coherent.writeBack (block : Nat) :
    (c.writeBack block).2.Coherent expected ∧ ((c.writeBack block).1 = .ok () →
      ∀ b e, (c.writeBack block).2.entries.get? b = some e → e.state = .dirty →
        b ≠ block ∧ c.entries.get? b = some e) := by
  unfold BufferCache.writeBack
  cases hg : c.entries.get? block with
  | none => exact ⟨h, fun hok => (nomatch hok)⟩
  | some entry =>
    by_cases hs : entry.state ≠ .dirty
    · simp only [hs, ne_eq, not_false_eq_true, if_true]
      refine ⟨h, fun _ b e he hdirty => ⟨?_, he⟩⟩
      rintro rfl
      cases hg.symm.trans he
      exact hs hdirty
    · have hdata := (h.entry block entry hg).data
      have hb : block < c.device.volatile.length := h.length ▸ (List.getElem?_eq_some_iff.mp hdata).1
      simp only [hs, if_false]
      rcases c.device.writeBlock_cases hb entry.data with ⟨e, d, hw, hv, hd⟩ | ⟨d, hw, hv, hd⟩
      · rw [hw]
        exact ⟨h.same_contents hv hd, fun hok => (nomatch hok)⟩
      · rw [hw]
        refine ⟨h.written hg hv hd, fun _ b e he hdirty => ?_⟩
        simp only [SortedMap.get?_insert] at he
        split at he
        · cases he
          cases hdirty
        · exact ⟨by assumption, he⟩

end

theorem Coherent.writeBackAll : ∀ {blocks : List Nat} {c : BufferCache FaultyDevice}, c.Coherent expected →
    (BufferCache.writeBackAll blocks c).2.Coherent expected ∧ ((BufferCache.writeBackAll blocks c).1 = .ok () →
      ∀ b e, (BufferCache.writeBackAll blocks c).2.entries.get? b = some e → e.state = .dirty →
        b ∉ blocks ∧ c.entries.get? b = some e)
  | [], c, h => ⟨h, fun _ b e he _ => ⟨List.not_mem_nil, he⟩⟩
  | block :: blocks, c, h => by
    obtain ⟨hcoh, hclean⟩ := h.writeBack block
    rw [BufferCache.writeBackAll]
    cases hw : c.writeBack block with
    | mk result c' =>
      rw [hw] at hcoh hclean
      cases result with
      | error e => exact ⟨hcoh, fun hok => (nomatch hok)⟩
      | ok u =>
        obtain ⟨hcoh', hclean'⟩ := @Coherent.writeBackAll blocks _ hcoh
        refine ⟨hcoh', fun hok b e he hdirty => ?_⟩
        obtain ⟨hnot, he'⟩ := hclean' hok b e he hdirty
        obtain ⟨hne, he''⟩ := hclean rfl b e he' hdirty
        exact ⟨by simp [hne, hnot], he''⟩

theorem mem_dirtyBlocks {block : Nat} : block ∈ c.dirtyBlocks ↔
    ∃ entry, c.entries.get? block = some entry ∧ entry.state = .dirty := by
  simp only [dirtyBlocks, List.mem_filterMap, Prod.exists, SortedMap.get?_eq_some]
  constructor
  · rintro ⟨b, entry, hm, hif⟩
    split at hif
    · cases hif
      exact ⟨entry, hm, by assumption⟩
    · cases hif
  · rintro ⟨entry, hm, hs⟩
    exact ⟨block, entry, hm, if_pos hs⟩

theorem Coherent.flush (h : c.Coherent expected) :
    c.flush.2.Coherent expected ∧ (c.flush.1 = .ok () → ∀ block : Nat,
      c.flush.2.device.durable[block]? = expected[block]?) := by
  obtain ⟨hcoh, hclean⟩ := @Coherent.writeBackAll expected c.dirtyBlocks _ h
  unfold BufferCache.flush
  cases hw : BufferCache.writeBackAll c.dirtyBlocks c with
  | mk result c' =>
    rw [hw] at hcoh hclean
    cases result with
    | error e => exact ⟨hcoh, fun hok => (nomatch hok)⟩
    | ok u =>
      have hnodirty : ∀ b e, c'.entries.get? b = some e → e.state ≠ .dirty := by
        intro b e he hdirty
        obtain ⟨hnot, he'⟩ := hclean rfl b e he hdirty
        exact hnot (mem_dirtyBlocks.mpr ⟨e, he', hdirty⟩)
      have hvolatile : ∀ b : Nat, c'.device.volatile[b]? = expected[b]? := by
        intro b
        cases hg : c'.entries.get? b with
        | none => exact (hcoh.absent b hg).1
        | some e => rw [(hcoh.entry b e hg).volatile (hnodirty b e hg), (hcoh.entry b e hg).data]
      simp only
      split
      · rcases c'.device.flush_cases with ⟨e, d, hf, hv, hd⟩ | ⟨d, hf, hv, hd⟩
        · rw [hf]
          exact ⟨hcoh.same_contents hv hd, fun hok => (nomatch hok)⟩
        · rw [hf]
          refine ⟨⟨hv ▸ hcoh.length, fun b e he => ?_, fun b he => ?_⟩, fun _ b => by rw [hd, hvolatile b]⟩
          · rw [SortedMap.get?_filterMap] at he
            obtain ⟨e', he', heq⟩ := Option.bind_eq_some_iff.mp he
            obtain rfl := Option.some.inj heq
            have hdata : (CacheEntry.settle e').data = e'.data := by unfold CacheEntry.settle; split <;> rfl
            have hv' : c'.device.volatile[b]? = some e'.data := (hvolatile b).trans (hcoh.entry b e' he').data
            exact ⟨hdata ▸ (hcoh.entry b e' he').data, fun _ => by rw [hv, hv', hdata],
              fun _ => by rw [hd, hv', hdata]⟩
          · rw [hv, hd]
            exact ⟨hvolatile b, hvolatile b⟩
      · rename_i hany
        refine ⟨hcoh, fun _ b => ?_⟩
        cases hg : c'.entries.get? b with
        | none => exact (hcoh.absent b hg).2
        | some e =>
          have hstate : e.state = .clean := by
            cases hs : e.state with
            | clean => rfl
            | dirty => exact absurd hs (hnodirty b e hg)
            | writeback =>
              refine absurd (List.any_eq_true.mpr ⟨(b, e), SortedMap.get?_eq_some.mp hg, ?_⟩) hany
              simp [hs]
          exact ((hcoh.entry b e hg).durable hstate).trans (hcoh.entry b e hg).data.symm

theorem Coherent.evict (h : c.Coherent expected) (block : Nat) : (c.evict block).2.Coherent expected := by
  unfold BufferCache.evict
  cases hg : c.entries.get? block with
  | none => exact h
  | some entry =>
    by_cases hs : entry.state ≠ .clean
    · simp only [hs, ne_eq, not_false_eq_true, if_true]
      exact h
    · simp only [hs, if_false]
      have hf := h.entry block entry hg
      have hclean := not_not.mp hs
      refine ⟨h.length, fun b e he => ?_, fun b he => ?_⟩
      · rw [SortedMap.get?_erase] at he
        split at he
        · cases he
        · exact h.entry b e he
      · rw [SortedMap.get?_erase] at he
        split at he
        · rename_i heq
          rw [heq, hf.data]
          exact ⟨hf.volatile (by rw [hclean]; decide), hf.durable hclean⟩
        · exact h.absent b he

theorem Coherent.perform (h : c.Coherent expected) (call : CacheCall) :
    (call.perform c).2.Coherent (call.record expected (call.perform c).1) := by
  cases call with
  | readBlock block => exact (h.readBlock block).2
  | writeBlock block data => exact h.writeBlock block data
  | writeBack block => exact (h.writeBack block).1
  | flush => exact h.flush.1
  | evict block => exact h.evict block

theorem Coherent.run (calls : List CacheCall) :
    ∀ {c : BufferCache FaultyDevice} {expected : Disk}, c.Coherent expected →
    (runCalls calls (c, expected)).1.Coherent (runCalls calls (c, expected)).2 := by
  induction calls with
  | nil => exact fun h => h
  | cons call calls ih => exact fun h => ih (h.perform call)

end

/-- Reads answer with what was written last, clean entries are durable and those in writeback are on the device, and
a flush that succeeds makes everything durable. -/
theorem cache_transparent (contents : Disk) (faults : Nat → Option IoError) (calls : List CacheCall) :
    let s := runCalls calls (new (.fresh contents faults), contents)
    (∀ block : Nat, (s.1.readBlock block).1 = okOr
      (unexpectedEof "block index is outside the device") s.2[block]?) ∧
      (∀ block entry, s.1.entries.get? block = some entry →
        (entry.state = .clean → s.1.device.durable[block]? = some entry.data) ∧
          (entry.state = .writeback → s.1.device.volatile[block]? = some entry.data)) ∧
      (s.1.flush.1 = .ok () → ∀ block : Nat, s.1.flush.2.device.durable[block]? = s.2[block]?) := by
  intro s
  have h : s.1.Coherent s.2 := (coherent_new contents faults).run calls
  refine ⟨fun block => (h.readBlock block).1, fun block entry hg => ?_, h.flush.2⟩
  have hf := h.entry block entry hg
  exact ⟨hf.durable, fun hs => hf.volatile (by rw [hs]; decide)⟩

end BufferCache

end SystemsLab.Fs
