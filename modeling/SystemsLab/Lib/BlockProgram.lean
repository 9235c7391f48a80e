import SystemsLab.Lib.Checked

/-!
# Programs over a block device

A tree of device accesses, with a run on every device. A run that loses power has done a prefix of the mutations of
the run that does not (`crash_state`).
-/

namespace SystemsLab

/-- The device's answer is handed to the continuation, so that a program sees failed accesses. -/
inductive Prog (β ε α : Type) : Type
  | done (a : α)
  | fail (e : ε)
  | blockCount (k : Nat → Prog β ε α)
  | readBlock (b : Nat) (k : Except ε β → Prog β ε α)
  | writeBlock (b : Nat) (x : β) (k : Except ε Unit → Prog β ε α)
  | flush (k : Except ε Unit → Prog β ε α)

/-- What a device answers. No device here changes when it is read. -/
class BlockDevice (δ : Type) (β : outParam Type) (ε : Type) where
  blockCount : δ → Nat
  readBlock : δ → Nat → Except ε β
  writeBlock : δ → Nat → β → Except ε Unit × δ
  flush : δ → Except ε Unit × δ

namespace Prog
variable {β ε α γ : Type}
variable {p : Prog β ε α} {f : α → Prog β ε γ} {a : α} (x : Except ε α)

def bind : Prog β ε α → (α → Prog β ε γ) → Prog β ε γ
  | done a, f => f a
  | fail e, _ => fail e
  | blockCount k, f => blockCount fun n => (k n).bind f
  | readBlock b k, f => readBlock b fun r => (k r).bind f
  | writeBlock b x k, f => writeBlock b x fun r => (k r).bind f
  | flush k, f => flush fun r => (k r).bind f

instance : Monad (Prog β ε) where
  pure := done
  bind := bind

def lift : Except ε α → Prog β ε α
  | .ok a => done a
  | .error e => fail e

instance : MonadLift (Except ε) (Prog β ε) := ⟨lift⟩

def mapErr (g : ε → ε) : Prog β ε α → Prog β ε α
  | done a => done a
  | fail e => fail (g e)
  | blockCount k => blockCount fun n => (k n).mapErr g
  | readBlock b k => readBlock b fun r => (k r).mapErr g
  | writeBlock b x k => writeBlock b x fun r => (k r).mapErr g
  | flush k => flush fun r => (k r).mapErr g

theorem bind_eq (p : Prog β ε α) (f : α → Prog β ε γ) : (p >>= f) = p.bind f := rfl

@[simp] theorem liftM_eq : (liftM x : Prog β ε α) = lift x := rfl

theorem lift_bind (f : α → Except ε γ) :
    (lift (x >>= f) : Prog β ε γ) = (lift x >>= fun a => lift (f a)) := by cases x <;> rfl

theorem bind_assoc' {η : Type} (p : Prog β ε α) (f : α → Prog β ε γ) (g : γ → Prog β ε η) :
    (p.bind f).bind g = p.bind fun a => (f a).bind g := by
  induction p with
  | done a | fail e => rfl
  | blockCount k ih => simp only [bind]; congr 1; funext n; exact ih n
  | readBlock b k ih | writeBlock b x k ih | flush k ih => simp only [bind]; congr 1; funext r; exact ih r

theorem bind_done (p : Prog β ε α) : p.bind done = p := by
  induction p with
  | done a | fail e => rfl
  | blockCount k ih => simp only [bind]; congr 1; funext n; exact ih n
  | readBlock b k ih | writeBlock b x k ih | flush k ih => simp only [bind]; congr 1; funext r; exact ih r

instance : LawfulMonad (Prog β ε) := LawfulMonad.mk' _ bind_done (fun _ _ => rfl) bind_assoc'

/-! ## Runs -/

section
variable {δ : Type} [BlockDevice δ β ε]

def runOn : Prog β ε α → δ → Except ε α × δ
  | done a, s => (.ok a, s)
  | fail e, s => (.error e, s)
  | blockCount k, s => (k (BlockDevice.blockCount (ε := ε) s)).runOn s
  | readBlock b k, s => (k (BlockDevice.readBlock s b)).runOn s
  | writeBlock b x k, s =>
    let r := BlockDevice.writeBlock (ε := ε) s b x
    (k r.1).runOn r.2
  | flush k, s =>
    let r := BlockDevice.flush (ε := ε) s
    (k r.1).runOn r.2

theorem runOn_bind (p : Prog β ε α) (f : α → Prog β ε γ) (s : δ) :
    (p >>= f).runOn s = match p.runOn s with
      | (.ok a, s') => (f a).runOn s'
      | (.error e, s') => (.error e, s') := by
  rw [bind_eq]
  induction p generalizing s with
  | done a | fail e => rfl
  | blockCount k ih | readBlock b k ih => exact ih _ s
  | writeBlock b x k ih | flush k ih => exact ih _ _

theorem runOn_bind_ok {s s' : δ} (h : p.runOn s = (.ok a, s')) :
    (p >>= f).runOn s = (f a).runOn s' := by rw [runOn_bind, h]

theorem runOn_bind_error {s s' : δ} {e : ε} (h : p.runOn s = (.error e, s')) :
    (p >>= f).runOn s = (.error e, s') := by rw [runOn_bind, h]

theorem runOn_check {x : Except ε α} (hx : x = .ok a) {s : δ} :
    ((liftM x : Prog β ε α) >>= f).runOn s = (f a).runOn s := by
  rw [hx]
  rfl

@[simp] theorem runOn_pure (a : α) (s : δ) : (pure a : Prog β ε α).runOn s = (.ok a, s) := rfl

@[simp] theorem runOn_done (a : α) (s : δ) : (done a : Prog β ε α).runOn s = (.ok a, s) := rfl

@[simp] theorem runOn_fail (e : ε) (s : δ) : (fail e : Prog β ε α).runOn s = (.error e, s) := rfl

@[simp] theorem runOn_lift (s : δ) : (lift x : Prog β ε α).runOn s = (x, s) := by
  cases x <;> rfl

theorem runOn_mapErr (g : ε → ε) (p : Prog β ε α) (s : δ) :
    (p.mapErr g).runOn s = ((p.runOn s).1.mapError g, (p.runOn s).2) := by
  induction p generalizing s with
  | done a | fail e => rfl
  | blockCount k ih | readBlock b k ih => exact ih _ s
  | writeBlock b x k ih | flush k ih => exact ih _ _

end

/-! ## Programs that only read -/

def ReadOnly : Prog β ε α → Prop
  | done _ => True
  | fail _ => True
  | blockCount k => ∀ n, (k n).ReadOnly
  | readBlock _ k => ∀ r, (k r).ReadOnly
  | writeBlock _ _ _ => False
  | flush _ => False

theorem ReadOnly.bind (hp : p.ReadOnly) (hf : ∀ a, (f a).ReadOnly) : (p >>= f).ReadOnly := by
  rw [bind_eq]
  induction p with
  | done a => exact hf a
  | fail e => trivial
  | blockCount k ih => intro n; exact ih n (hp n)
  | readBlock b k ih => intro r; exact ih r (hp r)
  | writeBlock b x k _ | flush k _ => exact hp.elim

theorem ReadOnly.mapErr (hp : p.ReadOnly) (g : ε → ε) : (p.mapErr g).ReadOnly := by
  induction p with
  | done a | fail e => trivial
  | blockCount k ih => intro n; exact ih n (hp n)
  | readBlock b k ih => intro r; exact ih r (hp r)
  | writeBlock b x k _ | flush k _ => exact hp.elim

/-- A program found to be read-only by instance search. -/
class Reads (p : Prog β ε α) : Prop where
  readOnly : p.ReadOnly

instance (a : α) : (pure a : Prog β ε α).Reads := ⟨trivial⟩

instance : (lift x : Prog β ε α).Reads := ⟨by cases x <;> trivial⟩

instance : (liftM x : Prog β ε α).Reads := inferInstanceAs (lift x).Reads

instance [hp : p.Reads] [hf : ∀ a, (f a).Reads] : (p >>= f).Reads := ⟨hp.readOnly.bind fun a => (hf a).readOnly⟩

instance [hp : p.Reads] (g : ε → ε) : (p.mapErr g).Reads := ⟨hp.readOnly.mapErr g⟩

section
variable {δ : Type} [BlockDevice δ β ε]

def eval (p : Prog β ε α) (s : δ) : Except ε α := (p.runOn s).1

theorem ReadOnly.runOn_snd (hp : p.ReadOnly) (s : δ) : (p.runOn s).2 = s := by
  induction p with
  | done a | fail e => rfl
  | blockCount k ih | readBlock b k ih => exact ih _ (hp _)
  | writeBlock b x k _ | flush k _ => exact hp.elim

theorem runOn_eq [hp : p.Reads] (s : δ) : p.runOn s = (p.eval s, s) := Prod.ext rfl (hp.readOnly.runOn_snd s)

theorem eval_bind [p.Reads] (f : α → Prog β ε γ) (s : δ) :
    (p >>= f).eval s = (p.eval s >>= fun a => (f a).eval s) := by
  unfold eval
  rw [runOn_bind, runOn_eq s]
  cases h : p.eval s with
  | ok a | error e => rfl

@[simp] theorem eval_pure (a : α) (s : δ) : (pure a : Prog β ε α).eval s = .ok a := rfl

@[simp] theorem eval_lift (s : δ) : (lift x : Prog β ε α).eval s = x := by
  unfold eval; rw [runOn_lift]

theorem eval_liftM (s : δ) : (liftM x : Prog β ε α).eval s = x := eval_lift x s

theorem eval_mapErr (g : ε → ε) (p : Prog β ε α) (s : δ) : (p.mapErr g).eval s = (p.eval s).mapError g := by
  unfold eval; rw [runOn_mapErr]

theorem runOn_read [p.Reads] (f : α → Prog β ε γ) (s : δ) :
    (p >>= f).runOn s = match p.eval s with
      | .ok a => (f a).runOn s
      | .error e => (.error e, s) := by
  rw [runOn_bind, runOn_eq s]
  cases p.eval s <;> rfl

theorem runOn_read_eq_ok [p.Reads] {s s' : δ} {r : γ} :
    (p >>= f).runOn s = (.ok r, s') ↔ ∃ a, p.eval s = .ok a ∧ (f a).runOn s = (.ok r, s') := by
  rw [runOn_read]
  cases p.eval s with
  | ok a | error e => simp

end

/-! ## A list of blocks as a device -/

end Prog

class DeviceErrors (ε : Type) where
  outOfRange : ε
  crash : Nat → ε

section
variable {β ε α γ : Type} [DeviceErrors ε]
variable {p : Prog β ε α} {f : α → Prog β ε γ} {a : α}

instance : BlockDevice (List β) β ε where
  blockCount := List.length
  readBlock d b := okOr DeviceErrors.outOfRange d[b]?
  writeBlock d b x := if b < d.length then (.ok (), d.set b x) else (.error DeviceErrors.outOfRange, d)
  flush d := (.ok (), d)

inductive Mutation (β : Type) : Type
  | write (b : Nat) (x : β)
  | flush

def Mutation.apply (s : List β × List β) : Mutation β → List β × List β
  | .write b x => (s.1, s.2.set b x)
  | .flush => (s.2, s.2)

def applyAll (ms : List (Mutation β)) (s : List β × List β) : List β × List β := ms.foldl Mutation.apply s

@[simp] theorem applyAll_nil (s : List β × List β) : applyAll [] s = s := rfl

@[simp] theorem applyAll_cons (m : Mutation β) (ms : List (Mutation β)) (s : List β × List β) :
    applyAll (m :: ms) s = applyAll ms (m.apply s) := rfl

theorem applyAll_append (ms ns : List (Mutation β)) (s : List β × List β) :
    applyAll (ms ++ ns) s = applyAll ns (applyAll ms s) := List.foldl_append

namespace Prog

def trace : Prog β ε α → List β → List (Mutation β)
  | done _, _ => []
  | fail _, _ => []
  | blockCount k, d => (k (BlockDevice.blockCount (ε := ε) d)).trace d
  | readBlock b k, d => (k (BlockDevice.readBlock d b)).trace d
  | writeBlock b x k, d =>
    let r := BlockDevice.writeBlock (ε := ε) d b x
    .write b x :: (k r.1).trace r.2
  | flush k, d =>
    let r := BlockDevice.flush (ε := ε) d
    .flush :: (k r.1).trace r.2

theorem writeBlock_snd (d : List β) (b : Nat) (x : β) :
    (BlockDevice.writeBlock d b x : Except ε Unit × List β).2 = d.set b x := by
  simp only [BlockDevice.writeBlock]
  split
  · rfl
  · rw [List.set_eq_of_length_le (by omega)]

theorem applyAll_trace (p : Prog β ε α) (c d : List β) : (applyAll (p.trace d) (c, d)).2 = (p.runOn d).2 := by
  induction p generalizing c d with
  | done a | fail e => rfl
  | blockCount k ih | readBlock b k ih => exact ih _ c d
  | writeBlock b x k ih =>
    simp only [trace, applyAll_cons, Mutation.apply, runOn, writeBlock_snd]
    exact ih _ c _
  | flush k ih => exact ih _ d d

theorem trace_bind (p : Prog β ε α) (f : α → Prog β ε γ) (d : List β) :
    (p >>= f).trace d = p.trace d ++ match p.runOn d with
      | (.ok a, d') => (f a).trace d'
      | (.error _, _) => [] := by
  rw [bind_eq]
  induction p generalizing d with
  | done a | fail e => rfl
  | blockCount k ih | readBlock b k ih => exact ih _ d
  | writeBlock b x k ih | flush k ih => simp only [bind, trace, List.cons_append, ih]; rfl

theorem trace_bind_ok {d d' : List β} (h : p.runOn d = (.ok a, d')) :
    (p >>= f).trace d = p.trace d ++ (f a).trace d' := by rw [trace_bind, h]

theorem ReadOnly.trace_eq (hp : p.ReadOnly) (d : List β) : p.trace d = [] := by
  induction p with
  | done a | fail e => rfl
  | blockCount k ih | readBlock b k ih => exact ih _ (hp _)
  | writeBlock b x k _ | flush k _ => exact hp.elim

theorem read_error [hp : p.Reads] {d : List β} {e : ε} (h : p.eval d = .error e)
    (f : α → Prog β ε γ) : (p >>= f).runOn d = (.error e, d) ∧ (p >>= f).trace d = [] := by
  have hrun : p.runOn d = (.error e, d) := by rw [runOn_eq d, h]
  rw [runOn_bind_error hrun, trace_bind, hrun, hp.readOnly.trace_eq]
  exact ⟨rfl, rfl⟩

theorem read_ok [hp : p.Reads] {d : List β} (h : p.eval d = .ok a)
    (f : α → Prog β ε γ) : (p >>= f).runOn d = (f a).runOn d ∧ (p >>= f).trace d = (f a).trace d := by
  have hrun : p.runOn d = (.ok a, d) := by rw [runOn_eq d, h]
  rw [runOn_bind_ok hrun, trace_bind_ok hrun, hp.readOnly.trace_eq]
  exact ⟨rfl, rfl⟩

end Prog

/-! ## Losing power -/

/-- A volatile view over a durable one; armed, it fails every mutation from number `crashAt` on. -/
structure CrashDevice (β : Type) where
  durable : List β
  volatile : List β
  crashAt : Option Nat
  operations : Nat
  armed : Bool

namespace CrashDevice

def armedAt (d : List β) (k : Nat) : CrashDevice β := ⟨d, d, some k, 0, true⟩

def reboot (c : CrashDevice β) : CrashDevice β := ⟨c.durable, c.durable, none, 0, false⟩

def beforeMutation (c : CrashDevice β) : Except ε Unit × CrashDevice β :=
  if c.armed ∧ c.crashAt = some c.operations then (.error (DeviceErrors.crash c.operations), c)
  else if c.armed then (.ok (), { c with operations := c.operations + 1 })
  else (.ok (), c)

instance : BlockDevice (CrashDevice β) β ε where
  blockCount c := c.volatile.length
  readBlock c b := okOr DeviceErrors.outOfRange c.volatile[b]?
  writeBlock c b x :=
    match c.beforeMutation (ε := ε) with
    | (.error e, c') => (.error e, c')
    | (.ok _, c') =>
      if b < c'.volatile.length then (.ok (), { c' with volatile := c'.volatile.set b x })
      else (.error DeviceErrors.outOfRange, c')
  flush c :=
    match c.beforeMutation (ε := ε) with
    | (.error e, c') => (.error e, c')
    | (.ok _, c') => (.ok (), { c' with durable := c'.volatile })

end CrashDevice

open Prog

theorem crashed_state (p : Prog β ε α) (c : CrashDevice β) (ha : c.armed = true)
    (hc : c.crashAt = some c.operations) :
    (p.runOn c).2 = c := by
  have hb : c.beforeMutation = ((.error (DeviceErrors.crash c.operations) : Except ε Unit), c) := by
    simp [CrashDevice.beforeMutation, ha, hc]
  induction p with
  | done a | fail e => rfl
  | blockCount k ih | readBlock b k ih => exact ih _
  | writeBlock b x k ih => simp only [runOn, BlockDevice.writeBlock, hb]; exact ih _
  | flush k ih => simp only [runOn, BlockDevice.flush, hb]; exact ih _

theorem crash_state (p : Prog β ε α) (k : Nat) (c : CrashDevice β) (ha : c.armed = true)
    (hc : c.crashAt = some (c.operations + k)) :
    ((p.runOn c).2.durable, (p.runOn c).2.volatile) =
      applyAll ((p.trace c.volatile).take k) (c.durable, c.volatile) := by
  induction p generalizing k c with
  | done a => simp only [trace, List.take_nil, applyAll_nil, runOn_done]
  | fail e => simp only [trace, List.take_nil, applyAll_nil, runOn_fail]
  | blockCount f ih | readBlock b f ih => exact ih _ k c ha hc
  | writeBlock b x f ih =>
    cases k with
    | zero => rw [crashed_state _ c ha hc]; rfl
    | succ k =>
      have hb : c.beforeMutation = ((.ok () : Except ε Unit), { c with operations := c.operations + 1 }) := by
        simp [CrashDevice.beforeMutation, ha, hc]
      simp only [runOn, trace, List.take_succ_cons, applyAll_cons, Mutation.apply, BlockDevice.writeBlock, hb]
      by_cases hl : b < c.volatile.length
      · simp only [hl, if_true]
        exact ih _ k _ ha (by rw [hc]; congr 1; simp only; omega)
      · simp only [hl, if_false]
        rw [List.set_eq_of_length_le (by omega)]
        exact ih _ k { c with operations := c.operations + 1 } ha (by rw [hc]; congr 1; simp only; omega)
  | flush f ih =>
    cases k with
    | zero => rw [crashed_state _ c ha hc]; rfl
    | succ k =>
      have hb : c.beforeMutation = ((.ok () : Except ε Unit), { c with operations := c.operations + 1 }) := by
        simp [CrashDevice.beforeMutation, ha, hc]
      simp only [runOn, trace, List.take_succ_cons, applyAll_cons, Mutation.apply, BlockDevice.flush, hb]
      exact ih _ k _ ha (by rw [hc]; congr 1; simp only; omega)

theorem runOn_disarmed (p : Prog β ε α) (c : CrashDevice β) (ha : c.armed = false) :
    (p.runOn c).1 = (p.runOn c.volatile).1 ∧ (p.runOn c).2.armed = false ∧
      ((p.runOn c).2.durable, (p.runOn c).2.volatile) = applyAll (p.trace c.volatile) (c.durable, c.volatile) := by
  have hb : ∀ c : CrashDevice β, c.armed = false → c.beforeMutation = ((.ok () : Except ε Unit), c) := by
    intro c h; simp [CrashDevice.beforeMutation, h]
  induction p generalizing c with
  | done a | fail e => exact ⟨rfl, ha, rfl⟩
  | blockCount k ih | readBlock b k ih => exact ih _ c ha
  | writeBlock b x k ih =>
    simp only [runOn, trace, applyAll_cons, Mutation.apply, BlockDevice.writeBlock, hb c ha]
    by_cases hl : b < c.volatile.length
    · simp only [hl, if_true]
      exact ih _ { c with volatile := c.volatile.set b x } ha
    · simp only [hl, if_false]
      rw [List.set_eq_of_length_le (by omega)]
      exact ih _ c ha
  | flush k ih =>
    simp only [runOn, trace, applyAll_cons, Mutation.apply, BlockDevice.flush, hb c ha]
    exact ih _ { c with durable := c.volatile } ha

/-! ## Flush points -/

def flushStates : List (Mutation β) → List β → List (List β)
  | [], _ => []
  | .write b x :: ms, v => flushStates ms (v.set b x)
  | .flush :: ms, v => v :: flushStates ms v

theorem flushStates_append (ms ns : List (Mutation β)) (d v : List β) :
    flushStates (ms ++ ns) v = flushStates ms v ++ flushStates ns (applyAll ms (d, v)).2 := by
  induction ms generalizing d v with
  | nil => rfl
  | cons m ms ih =>
    cases m with
    | write b x => exact ih d _
    | flush => simp only [List.cons_append, flushStates, applyAll_cons, Mutation.apply, ih v v]

theorem applyAll_durable (ms : List (Mutation β)) (k : Nat) (d v : List β) :
    (applyAll (ms.take k) (d, v)).1 ∈ d :: flushStates ms v := by
  induction ms generalizing k d v with
  | nil => simp
  | cons m ms ih =>
    cases k with
    | zero => simp
    | succ k =>
      cases m with
      | write b x => exact ih k d _
      | flush => exact List.mem_cons_of_mem _ (ih k v v)

theorem applyAll_flushed (ms : List (Mutation β)) (s : List β × List β) :
    (applyAll (ms ++ [.flush]) s).1 = (applyAll (ms ++ [.flush]) s).2 := by
  rw [applyAll_append]
  rfl

theorem crash_durable (p : Prog β ε α) (d : List β) (k : Nat) :
    (p.runOn (CrashDevice.armedAt d k)).2.durable ∈ d :: flushStates (p.trace d) d := by
  have h := crash_state p k (CrashDevice.armedAt d k) rfl (by simp [CrashDevice.armedAt])
  have h1 := congrArg Prod.fst h
  simp only at h1
  rw [h1]
  exact applyAll_durable _ k d d

end

end SystemsLab
