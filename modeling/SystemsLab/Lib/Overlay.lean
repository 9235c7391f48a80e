import Mathlib.Data.List.Basic
import Std.Data.ExtTreeMap
import SystemsLab.Lib.BlockProgram

/-!
# Writes laid over a list of blocks

The last write to a block wins, so a sequence may be laid over another one that writes no other blocks
(`overlay_overlay_of_subset`).
-/

namespace SystemsLab

section
variable {κ β : Type} [DecidableEq κ]

def lastWrite : List (κ × β) → κ → Option β
  | [], _ => none
  | (c, x) :: ws, b => (lastWrite ws b).or (if c = b then some x else none)

theorem lastWrite_append (ws vs : List (κ × β)) (b : κ) :
    lastWrite (ws ++ vs) b = (lastWrite vs b).or (lastWrite ws b) := by
  induction ws with
  | nil => simp [lastWrite]
  | cons w ws ih => simp only [List.cons_append, lastWrite, ih, Option.or_assoc]

theorem lastWrite_eq_none {ws : List (κ × β)} {b : κ} : lastWrite ws b = none ↔ b ∉ ws.map Prod.fst := by
  induction ws with
  | nil => simp [lastWrite]
  | cons w ws ih =>
    rw [lastWrite, Option.or_eq_none_iff, ih]
    simp only [List.map_cons, List.mem_cons, not_or]
    constructor
    · rintro ⟨h, hw⟩
      exact ⟨fun hb => by simp [hb] at hw, h⟩
    · rintro ⟨hw, h⟩
      exact ⟨h, if_neg fun hb => hw hb.symm⟩

theorem lastWrite_mem {ws : List (κ × β)} {b : κ} {x : β} (h : lastWrite ws b = some x) : (b, x) ∈ ws := by
  induction ws with
  | nil => simp [lastWrite] at h
  | cons w ws ih =>
    rw [lastWrite, Option.or_eq_some_iff] at h
    rcases h with h | ⟨-, h⟩
    · exact List.mem_cons_of_mem _ (ih h)
    · split at h
      · rename_i hw
        cases h; subst hw
        exact List.mem_cons_self
      · cases h

theorem lastWrite_map {κ' : Type} [DecidableEq κ'] {f : κ → κ'} (hf : Function.Injective f)
    (ws : List (κ × β)) (b : κ) :
    lastWrite (ws.map fun w => (f w.1, w.2)) (f b) = lastWrite ws b := by
  induction ws with
  | nil => rfl
  | cons w ws ih => simp only [List.map_cons, lastWrite, ih, hf.eq_iff]

end

/-! ## Writes into a map -/

section
variable {κ β : Type} [Ord κ] [Std.TransOrd κ] [Std.LawfulEqOrd κ] [DecidableEq κ] (m : Std.ExtTreeMap κ β)

def insertAll (m : Std.ExtTreeMap κ β) (ws : List (κ × β)) : Std.ExtTreeMap κ β :=
  ws.foldl (fun m w => m.insert w.1 w.2) m

omit [Std.LawfulEqOrd κ] [DecidableEq κ] in
theorem insertAll_append (ws vs : List (κ × β)) :
    insertAll m (ws ++ vs) = insertAll (insertAll m ws) vs := List.foldl_append

theorem getElem?_insertAll (ws : List (κ × β)) (b : κ) : (insertAll m ws)[b]? = (lastWrite ws b).or m[b]? := by
  induction ws generalizing m with
  | nil => simp [insertAll, lastWrite]
  | cons w ws ih =>
    have := ih (m.insert w.1 w.2)
    rw [insertAll, List.foldl_cons, ← insertAll, this, lastWrite, Std.ExtTreeMap.getElem?_insert, Option.or_assoc]
    simp only [Std.compare_eq_iff_eq]
    by_cases hb : w.1 = b <;> simp [hb]

theorem insertAll_insertAll (ws : List (κ × β)) : insertAll (insertAll m ws) ws = insertAll m ws := by
  refine Std.ExtTreeMap.ext_getElem? fun b => ?_
  simp only [getElem?_insertAll]
  cases lastWrite ws b <;> rfl

end

/-! ## Writes over a list -/

section
variable {β : Type}
variable {ws : List (Nat × β)} {d : List β}

def overlay (d : List β) (ws : List (Nat × β)) : List β := ws.foldl (fun d w => d.set w.1 w.2) d

@[simp] theorem overlay_nil (d : List β) : overlay d [] = d := rfl

@[simp] theorem overlay_cons (d : List β) (w : Nat × β) (ws : List (Nat × β)) :
    overlay d (w :: ws) = overlay (d.set w.1 w.2) ws := rfl

theorem overlay_append (d : List β) (ws vs : List (Nat × β)) : overlay d (ws ++ vs) = overlay (overlay d ws) vs :=
  List.foldl_append

@[simp] theorem length_overlay (d : List β) (ws : List (Nat × β)) : (overlay d ws).length = d.length := by
  induction ws generalizing d with
  | nil => rfl
  | cons w ws ih => rw [overlay_cons, ih, List.length_set]

theorem getElem?_overlay (d : List β) (ws : List (Nat × β)) (b : Nat) :
    (overlay d ws)[b]? = d[b]?.map fun y => (lastWrite ws b).getD y := by
  induction ws generalizing d with
  | nil => simp [lastWrite]
  | cons w ws ih =>
    obtain ⟨c, x⟩ := w
    rw [overlay_cons, ih, lastWrite, List.getElem?_set]
    by_cases hc : c = b
    · subst hc
      by_cases hl : c < d.length
      · cases lastWrite ws c <;> simp [hl]
      · cases lastWrite ws c <;> simp [hl]
    · cases lastWrite ws b <;> simp [hc]

theorem getElem?_overlay_of_notMem {b : Nat} (h : b ∉ ws.map Prod.fst) : (overlay d ws)[b]? = d[b]? := by
  rw [getElem?_overlay, lastWrite_eq_none.mpr h]
  simp

theorem overlay_overlay_of_subset (d : List β) {vs : List (Nat × β)} (h : vs.map Prod.fst ⊆ ws.map Prod.fst) :
    overlay (overlay d vs) ws = overlay d ws := by
  refine List.ext_getElem? fun b => ?_
  simp only [getElem?_overlay, Option.map_map]
  congr 1
  funext y
  cases hw : lastWrite ws b with
  | some x => rfl
  | none =>
    have hv : lastWrite vs b = none := lastWrite_eq_none.mpr fun hb => lastWrite_eq_none.mp hw (h hb)
    simp [hv]

theorem overlay_eq_self (h : ∀ w ∈ ws, ∀ y, d[w.1]? = some y → y = w.2) : overlay d ws = d := by
  refine List.ext_getElem? fun b => ?_
  rw [getElem?_overlay]
  cases hd : d[b]? with
  | none => rfl
  | some y =>
    cases hw : lastWrite ws b with
    | none => rfl
    | some x => simpa using (h _ (lastWrite_mem hw) y hd).symm

end

/-! ## Block accesses that pass their errors on -/

namespace Prog
variable {β ε : Type}

def count : Prog β ε Nat := .blockCount .done

def getBlock (b : Nat) : Prog β ε β := .readBlock b lift

def putBlock (b : Nat) (x : β) : Prog β ε Unit := .writeBlock b x lift

def sync : Prog β ε Unit := .flush lift

def putBlocks : List (Nat × β) → Prog β ε Unit
  | [] => pure ()
  | w :: ws => do
    putBlock w.1 w.2
    putBlocks ws

instance : (count : Prog β ε Nat).Reads := ⟨fun _ => trivial⟩

instance (b : Nat) : (getBlock b : Prog β ε β).Reads := ⟨fun r => (inferInstance : (lift r).Reads).readOnly⟩

theorem putBlocks_append (ws vs : List (Nat × β)) :
    (putBlocks (ws ++ vs) : Prog β ε Unit) = (putBlocks ws >>= fun _ => putBlocks vs) := by
  induction ws with
  | nil => rfl
  | cons w ws ih => simp only [List.cons_append, putBlocks, ih, bind_assoc]

section
variable [DeviceErrors ε] {ws : List (Nat × β)} (d : List β)

@[simp] theorem eval_count : (count : Prog β ε Nat).eval d = .ok d.length := rfl

@[simp] theorem eval_getBlock (b : Nat) (d : List β) :
    (getBlock b : Prog β ε β).eval d = okOr DeviceErrors.outOfRange d[b]? := by
  simp only [eval, getBlock, runOn, runOn_lift, BlockDevice.readBlock]

theorem runOn_putBlock {b : Nat} {d : List β} (h : b < d.length) (x : β) :
    (putBlock b x : Prog β ε Unit).runOn d = (.ok (), d.set b x) := by
  simp only [putBlock, runOn, BlockDevice.writeBlock, if_pos h, runOn_lift]

theorem runOn_putBlock_error {b : Nat} {d : List β} (h : d.length ≤ b) (x : β) :
    (putBlock b x : Prog β ε Unit).runOn d = (.error DeviceErrors.outOfRange, d) := by
  simp only [putBlock, runOn, BlockDevice.writeBlock, if_neg (Nat.not_lt.mpr h), runOn_lift]

theorem trace_lift {α : Type} (r : Except ε α) (d : List β) : (lift r : Prog β ε α).trace d = [] := by
  cases r <;> rfl

@[simp] theorem trace_putBlock (b : Nat) (x : β) (d : List β) :
    (putBlock b x : Prog β ε Unit).trace d = [.write b x] := by
  simp only [putBlock, trace, trace_lift]

theorem runOn_putBlocks {d : List β} (h : ∀ w ∈ ws, w.1 < d.length) :
    (putBlocks ws : Prog β ε Unit).runOn d = (.ok (), overlay d ws) := by
  induction ws generalizing d with
  | nil => rfl
  | cons w ws ih =>
    rw [putBlocks, runOn_bind_ok (runOn_putBlock (h w List.mem_cons_self) w.2)]
    exact ih fun v hv => by rw [List.length_set]; exact h v (List.mem_cons_of_mem _ hv)

theorem runOn_putBlocks_ok : ∀ {d d' : List β} {u : Unit},
    (putBlocks ws : Prog β ε Unit).runOn d = (.ok u, d') → (∀ w ∈ ws, w.1 < d.length) ∧ d' = overlay d ws := by
  induction ws with
  | nil =>
    intro d d' u h
    cases h
    exact ⟨by simp, rfl⟩
  | cons w ws ih =>
    intro d d' u h
    by_cases hw : w.1 < d.length
    · rw [putBlocks, runOn_bind_ok (runOn_putBlock hw w.2)] at h
      obtain ⟨hin, rfl⟩ := ih h
      rw [List.length_set] at hin
      exact ⟨List.forall_mem_cons.mpr ⟨hw, hin⟩, rfl⟩
    · have he : (putBlock w.1 w.2 : Prog β ε Unit).runOn d = (.error DeviceErrors.outOfRange, d) := by
        simp only [putBlock, runOn, BlockDevice.writeBlock, if_neg hw, runOn_lift]
      rw [putBlocks, runOn_bind_error he] at h
      cases h

theorem trace_putBlocks {d : List β} (h : ∀ w ∈ ws, w.1 < d.length) :
    (putBlocks ws : Prog β ε Unit).trace d = ws.map fun w => .write w.1 w.2 := by
  induction ws generalizing d with
  | nil => rfl
  | cons w ws ih =>
    rw [putBlocks, trace_bind_ok (runOn_putBlock (h w List.mem_cons_self) w.2), trace_putBlock,
      ih fun v hv => by rw [List.length_set]; exact h v (List.mem_cons_of_mem _ hv)]
    rfl

end

end Prog

def writesOf {β : Type} (ms : List (Mutation β)) : List (Nat × β) :=
  ms.filterMap fun
    | .write b x => some (b, x)
    | .flush => none

theorem applyAll_writesOf {β : Type} (ms : List (Mutation β)) (d v : List β) :
    (applyAll ms (d, v)).2 = overlay v (writesOf ms) := by
  induction ms generalizing d v with
  | nil => rfl
  | cons m ms ih =>
    cases m with
    | write b x => exact ih d _
    | flush => exact ih v v

theorem writesOf_take_subset {β : Type} (ms : List (Mutation β)) (k : Nat) : writesOf (ms.take k) ⊆ writesOf ms :=
  ((List.take_sublist k ms).filterMap _).subset

theorem writesOf_writes {β : Type} (ws : List (Nat × β)) (ms : List (Mutation β)) :
    writesOf ((ws.map fun w => .write w.1 w.2) ++ ms) = ws ++ writesOf ms := by
  simp only [writesOf, List.filterMap_append, List.filterMap_map]
  exact congrArg (· ++ _) List.filterMap_some

theorem flushStates_writes {β : Type} (ws : List (Nat × β)) (v : List β) (ms : List (Mutation β)) :
    flushStates ((ws.map fun w => .write w.1 w.2) ++ ms) v = flushStates ms (overlay v ws) := by
  induction ws generalizing v with
  | nil => rfl
  | cons w ws ih => exact ih _

end SystemsLab
