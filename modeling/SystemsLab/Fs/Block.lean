import SystemsLab.Lib.Bytes
import SystemsLab.Lib.Overlay

/-!
# Blocks, errors and regions

The 4096-byte block, the errors of the filesystem, and the loops that read a run of blocks into one image and write
one back with its first block last.
-/

namespace SystemsLab.Fs

inductive ErrorKind
  | invalidInput
  | invalidData
  | notFound
  | other
  | unexpectedEof
  | wouldBlock
  | panic
  deriving DecidableEq, Repr

structure IoError where
  kind : ErrorKind
  message : String
  deriving DecidableEq, Repr

def invalidInput (message : String) : IoError := ⟨.invalidInput, message⟩

def invalidData (message : String) : IoError := ⟨.invalidData, message⟩

/-- The call does not return. -/
def panicked (message : String) : IoError := ⟨.panic, message⟩

def unexpectedEof (message : String) : IoError := ⟨.unexpectedEof, message⟩

instance : DeviceErrors IoError where
  outOfRange := unexpectedEof "invalid block"
  crash n := ⟨.other, s!"deterministic crash at mutation operation {n}"⟩

def blockSize : Nat := 4096

@[ext] structure Block where
  bytes : List UInt8
  length_bytes : bytes.length = blockSize
  deriving DecidableEq

namespace Block

/-- The block that starts with `bs`, cut off or filled with zeros. -/
def ofBytes (bs : List UInt8) : Block :=
  ⟨(bs ++ List.replicate blockSize 0).take blockSize, by simp⟩

def zero : Block := ⟨List.replicate blockSize 0, List.length_replicate⟩

theorem bytes_ofBytes {bs : List UInt8} (h : bs.length = blockSize) : (ofBytes bs).bytes = bs := by
  have ht : (bs ++ List.replicate blockSize 0).take blockSize = bs := by
    rw [List.take_append_of_le_length (by omega), List.take_of_length_le (by omega)]
  exact ht

theorem ofBytes_bytes (x : Block) : ofBytes x.bytes = x := Block.ext (bytes_ofBytes x.length_bytes)

end Block

abbrev FsProg (α : Type) : Type := Prog Block IoError α

abbrev Disk : Type := List Block

/-! ## Regions -/

open Prog

def readRegion : (start n : Nat) → FsProg (List UInt8)
  | _, 0 => pure []
  | start, n + 1 => do
    let block ← getBlock start
    let rest ← readRegion (start + 1) n
    pure (block.bytes ++ rest)

def chunk (image : List UInt8) (i : Nat) : Block :=
  Block.ofBytes (slice image (i * blockSize) ((i + 1) * blockSize))

def regionWrites (start n : Nat) (image : List UInt8) : List (Nat × Block) :=
  (List.range n).reverse.map fun i => (start + i, chunk image i)

def writeRegion (start n : Nat) (image : List UInt8) : FsProg Unit := putBlocks (regionWrites start n image)

def regionBytes (d : Disk) (start n : Nat) : List UInt8 := ((d.drop start).take n).flatMap Block.bytes

instance (start n : Nat) : (readRegion start n).Reads := by
  induction n generalizing start with
  | zero | succ n ih => unfold readRegion; infer_instance

variable {start n : Nat} {d : Disk} {image : List UInt8} {check : FsProg (List UInt8)} {b : Nat}

theorem regionBytes_succ {x : Block} (h : d[start]? = some x) (n : Nat) :
    regionBytes d start (n + 1) = x.bytes ++ regionBytes d (start + 1) n := by
  obtain ⟨hl, rfl⟩ := List.getElem?_eq_some_iff.mp h
  rw [regionBytes, List.drop_eq_getElem_cons hl, List.take_succ_cons, List.flatMap_cons, regionBytes]

theorem length_flatMap_bytes (l : List Block) : (l.flatMap Block.bytes).length = l.length * blockSize := by
  induction l with
  | nil => simp
  | cons x l ih =>
    rw [List.flatMap_cons, List.length_append, ih, x.length_bytes, List.length_cons, Nat.succ_mul, Nat.add_comm]

theorem length_regionBytes (h : start + n ≤ d.length) : (regionBytes d start n).length = n * blockSize := by
  rw [regionBytes, length_flatMap_bytes, List.length_take, List.length_drop, Nat.min_eq_left (by omega)]

theorem eval_readRegion :
    ∀ {start n : Nat}, start + n ≤ d.length → (readRegion start n).eval d = .ok (regionBytes d start n)
  | _, 0, _ => by simp [readRegion, regionBytes]
  | start, n + 1, h => by
    have hs : d[start]? = some d[start] := List.getElem?_eq_getElem (by omega)
    rw [readRegion, eval_bind, eval_getBlock, hs, okOr_some, except_bind_ok,
      eval_bind, eval_readRegion (by omega), regionBytes_succ hs]
    rfl

theorem eval_readRegion_ok : ∀ {start n : Nat} {image : List UInt8},
    (readRegion start n).eval d = .ok image → image = regionBytes d start n ∧ (n ≠ 0 → start + n ≤ d.length)
  | _, 0, image, h => by
    simp only [readRegion, eval_pure, Except.ok.injEq] at h
    simp [regionBytes, h.symm]
  | start, n + 1, image, h => by
    simp only [readRegion, eval_bind, eval_getBlock, eval_pure, steps_ok] at h
    obtain ⟨x, hx, rest, hr, rfl⟩ := h
    obtain ⟨rfl, hn⟩ := eval_readRegion_ok hr
    refine ⟨(regionBytes_succ hx n).symm, fun _ => ?_⟩
    have hl := (List.getElem?_eq_some_iff.mp hx).1
    rcases Nat.eq_zero_or_pos n with rfl | hp
    · omega
    · have := hn (by omega); omega

theorem mem_regionWrites {w : Nat × Block} :
    w ∈ regionWrites start n image ↔ ∃ i < n, w = (start + i, chunk image i) := by
  simp only [regionWrites, List.mem_map, List.mem_reverse, List.mem_range]
  exact exists_congr fun i => and_congr_right fun _ => eq_comm

theorem keys_regionWrites : b ∈ (regionWrites start n image).map Prod.fst ↔ start ≤ b ∧ b < start + n := by
  simp only [List.mem_map, mem_regionWrites]
  constructor
  · rintro ⟨w, ⟨i, hi, rfl⟩, rfl⟩
    simp only; omega
  · intro h
    exact ⟨_, ⟨b - start, by omega, rfl⟩, by simp only; omega⟩

theorem runOn_writeRegion (h : start + n ≤ d.length) (image : List UInt8) :
    (writeRegion start n image).runOn d = (.ok (), overlay d (regionWrites start n image)) := by
  refine runOn_putBlocks fun w hw => ?_
  obtain ⟨i, hi, rfl⟩ := mem_regionWrites.mp hw
  simp only; omega

theorem trace_writeRegion (h : start + n ≤ d.length) (image : List UInt8) :
    (writeRegion start n image).trace d = (regionWrites start n image).map fun w => .write w.1 w.2 := by
  refine trace_putBlocks fun w hw => ?_
  obtain ⟨i, hi, rfl⟩ := mem_regionWrites.mp hw
  simp only; omega

def storeRegion (check : FsProg (List UInt8)) (start n : Nat) : FsProg Unit := do
  let image ← check
  writeRegion start n image
  sync

theorem storeRegion_ok [check.Reads] (h : check.eval d = .ok image) (hn : start + n ≤ d.length) :
    (storeRegion check start n).runOn d = (.ok (), overlay d (regionWrites start n image)) ∧
      (storeRegion check start n).trace d = (regionWrites start n image).map (fun w => .write w.1 w.2) ++
        [.flush] := by
  obtain ⟨hrun, htrace⟩ := read_ok h fun image => do
    writeRegion start n image
    sync
  have hw := runOn_writeRegion hn image
  rw [storeRegion, hrun, htrace, runOn_bind_ok hw, trace_bind_ok hw, trace_writeRegion hn]
  exact ⟨rfl, rfl⟩

theorem storeRegion_error [check.Reads] {e : IoError} (h : check.eval d = .error e) :
    (storeRegion check start n).runOn d = (.error e, d) ∧ (storeRegion check start n).trace d = [] :=
  read_error h _

theorem storeRegion_inv [check.Reads] {d' : Disk} {u : Unit}
    (h : (storeRegion check start n).runOn d = (.ok u, d')) :
    ∃ image, check.eval d = .ok image ∧ (n ≠ 0 → start + n ≤ d.length) ∧
      d' = overlay d (regionWrites start n image) := by
  cases hce : check.eval d with
  | error e => rw [(storeRegion_error hce).1] at h; cases h
  | ok image =>
    rw [storeRegion, (read_ok hce _).1, runOn_bind] at h
    cases hw : (writeRegion start n image).runOn d with
    | mk r d₁ =>
      rw [hw] at h
      cases r with
      | error e => cases h
      | ok v =>
        obtain ⟨hin, rfl⟩ := runOn_putBlocks_ok hw
        cases h
        refine ⟨image, rfl, fun hn => ?_, rfl⟩
        have := hin (start + (n - 1), chunk image (n - 1)) (mem_regionWrites.mpr ⟨n - 1, by omega, rfl⟩)
        simp only at this
        omega

theorem lastWrite_regionWrites (image : List UInt8) (h : start ≤ b ∧ b < start + n) :
    lastWrite (regionWrites start n image) b = some (chunk image (b - start)) := by
  cases hw : lastWrite (regionWrites start n image) b with
  | none => exact absurd (keys_regionWrites.mpr h) (lastWrite_eq_none.mp hw)
  | some x =>
    obtain ⟨i, -, he⟩ := mem_regionWrites.mp (lastWrite_mem hw)
    simp only [Prod.mk.injEq] at he
    rw [he.2, he.1, Nat.add_sub_cancel_left]

theorem getElem?_writeRegion (image : List UInt8) (hb : start ≤ b ∧ b < start + n)
    (h : start + n ≤ d.length) : (overlay d (regionWrites start n image))[b]? = some (chunk image (b - start)) := by
  rw [getElem?_overlay, lastWrite_regionWrites image hb, List.getElem?_eq_getElem (by omega)]
  rfl

theorem bytes_chunk {i : Nat} (h : (i + 1) * blockSize ≤ image.length) :
    (chunk image i).bytes = slice image (i * blockSize) ((i + 1) * blockSize) :=
  Block.bytes_ofBytes (by rw [length_slice_of_le h, Nat.succ_mul]; omega)

theorem flatMap_chunk (image : List UInt8) (h : n * blockSize ≤ image.length) :
    ((List.range n).map (chunk image)).flatMap Block.bytes = image.take (n * blockSize) := by
  induction n with
  | zero => simp
  | succ n ih =>
    have hn : n * blockSize ≤ (n + 1) * blockSize := Nat.mul_le_mul_right _ (by omega)
    have ht := slice_append_slice image (Nat.zero_le (n * blockSize)) hn
    rw [slice_zero_drop, slice_zero_drop] at ht
    rw [List.range_succ, List.map_append, List.flatMap_append, ih (by omega), ← ht]
    simp [bytes_chunk h]

theorem regionBytes_writeRegion (h : start + n ≤ d.length) (hi : image.length = n * blockSize) :
    regionBytes (overlay d (regionWrites start n image)) start n = image := by
  have hc : ((overlay d (regionWrites start n image)).drop start).take n = (List.range n).map (chunk image) := by
    refine List.ext_getElem? fun i => ?_
    rw [List.getElem?_take, List.getElem?_drop, List.getElem?_map]
    by_cases hin : i < n
    · rw [if_pos hin, getElem?_writeRegion image (by omega) h, List.getElem?_range hin, Nat.add_sub_cancel_left]
      rfl
    · rw [if_neg hin, List.getElem?_eq_none (by simp; omega)]
      rfl
  rw [regionBytes, hc, flatMap_chunk image (by omega), ← hi, List.take_length]

theorem regionBytes_congr {d' : Disk}
    (h : ∀ b, start ≤ b → b < start + n → d[b]? = d'[b]?) : regionBytes d start n = regionBytes d' start n := by
  have : (d.drop start).take n = (d'.drop start).take n := by
    refine List.ext_getElem? fun i => ?_
    simp only [List.getElem?_take, List.getElem?_drop]
    split
    · exact h _ (by omega) (by omega)
    · rfl
  rw [regionBytes, regionBytes, this]

theorem regionBytes_overlay {ws : List (Nat × Block)} (h : ∀ b ∈ ws.map Prod.fst, b < start ∨ start + n ≤ b) :
    regionBytes (overlay d ws) start n = regionBytes d start n :=
  regionBytes_congr fun b h1 h2 => getElem?_overlay_of_notMem fun hb => by have := h b hb; omega

theorem chunk_regionBytes (h : start + n ≤ d.length)
    (hb : start ≤ b ∧ b < start + n) : d[b]? = some (chunk (regionBytes d start n) (b - start)) := by
  induction n generalizing start with
  | zero => omega
  | succ n ih =>
    have hs : d[start]? = some d[start] := List.getElem?_eq_getElem (by omega)
    rw [regionBytes_succ hs]
    have hx := d[start].length_bytes
    by_cases hbs : b = start
    · subst hbs
      rw [hs, Nat.sub_self, chunk, Nat.zero_mul, slice_append_left (by omega), Block.ofBytes_bytes]
    · have he : b - start = (b - (start + 1)) + 1 := by omega
      have hm : ∀ k, (k + 1) * blockSize - blockSize = k * blockSize := fun k => by rw [Nat.succ_mul]; omega
      rw [@ih (start + 1) (by omega) (by omega), he, chunk, chunk,
        slice_append_right (by rw [hx, Nat.succ_mul]; omega), hx, hm, hm]

theorem getElem?_eq_chunk {xs : List Block} {j : Nat} (h : j < xs.length) :
    xs[j]? = some (chunk (xs.flatMap Block.bytes) j) := by
  have hregion := @chunk_regionBytes 0 xs.length xs j (by omega) (by omega)
  rwa [regionBytes, List.drop_zero, List.take_length, Nat.sub_zero] at hregion

theorem overlay_regionBytes (h : start + n ≤ d.length) :
    overlay d (regionWrites start n (regionBytes d start n)) = d := by
  refine overlay_eq_self fun w hw y hy => ?_
  obtain ⟨i, hi, rfl⟩ := mem_regionWrites.mp hw
  rw [chunk_regionBytes h (by simp only; omega)] at hy
  cases hy
  simp

end SystemsLab.Fs
