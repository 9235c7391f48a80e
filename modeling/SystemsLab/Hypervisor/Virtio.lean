import Mathlib.Data.List.Induction
import SystemsLab.Lib.Bytes
import SystemsLab.Lib.Checked

/-!
# Virtio negotiation

The registers of `VirtioRngDevice` and of `VirtioBlkDevice`, which differ by the capacity that the block device has.
-/

namespace SystemsLab.Hypervisor

def acknowledge : UInt8 := 1
def driver : UInt8 := 2
def driverOk : UInt8 := 4
def featuresOk : UInt8 := 8
def known : UInt8 := acknowledge ||| driver ||| driverOk ||| featuresOk ||| 0x80
def version1 : UInt64 := 0x100000000
def queueMaxSize : UInt16 := 8
def virtioBlkCapacitySectors : Nat := 1

inductive VirtioError
  | unsupportedRegisterAccess (offset length : Nat) (write : Bool)
  | invalidDeviceStatus (current requested : UInt8)
  | unsupportedQueue (queue : UInt16)
  | invalidQueueSize (size maximum : UInt16)
  | queueConfigurationLocked
  | queueNotReady
  | unexpectedQueueNotification (queue : UInt16)

inductive VirtioKind
  | rng
  | blk

/-- A new device; `reset` makes one of any device. -/
structure VirtioDevice (kind : VirtioKind) where
  deviceFeatureSelect : UInt32 := 0
  driverFeatureSelect : UInt32 := 0
  driverFeatures : UInt64 := 0
  status : UInt8 := 0
  queueSelect : UInt16 := 0
  queueSize : UInt16 := queueMaxSize
  queueEnabled : Bool := false
  queueDesc : UInt64 := 0
  queueDriver : UInt64 := 0
  queueDevice : UInt64 := 0
  notifyPending : Bool := false
  lastAvailIdx : UInt16 := 0
  lastUsedIdx : UInt16 := 0
  isrStatus : UInt8 := 0

abbrev VirtioRngDevice : Type := VirtioDevice .rng

abbrev VirtioBlkDevice : Type := VirtioDevice .blk

def Has (status bit : UInt8) : Prop := status &&& bit ≠ 0

instance (status bit : UInt8) : Decidable (Has status bit) := inferInstanceAs (Decidable (_ ≠ _))

theorem not_has_zero (bit : UInt8) : ¬ Has 0 bit := fun h => h UInt8.zero_and

def replaceLow (original : UInt64) (value : UInt32) : UInt64 :=
  (original &&& (0xffffffff00000000 : UInt64)) ||| value.toUInt64

def replaceHigh (original : UInt64) (value : UInt32) : UInt64 :=
  (original &&& (0xffffffff : UInt64)) ||| (value.toUInt64 <<< 32)

namespace VirtioDevice
variable {kind : VirtioKind} (d : VirtioDevice kind)

def deviceFeatureWord : UInt32 := if d.deviceFeatureSelect = 1 then (version1 >>> 32).toUInt32 else 0

def driverFeatureWord : UInt32 :=
  if d.driverFeatureSelect = 0 then d.driverFeatures.toUInt32
  else if d.driverFeatureSelect = 1 then (d.driverFeatures >>> 32).toUInt32
  else 0

def selectedQueueSize : UInt16 := if d.queueSelect = 0 then d.queueSize else 0

/-- The device afterwards and the bytes read. -/
def read (offset length : Nat) : Except VirtioError (VirtioDevice kind × List UInt8) :=
  match offset, length, kind with
  | 0x00, 4, _ => .ok (d, leBytes 4 d.deviceFeatureSelect.toNat)
  | 0x04, 4, _ => .ok (d, leBytes 4 d.deviceFeatureWord.toNat)
  | 0x08, 4, _ => .ok (d, leBytes 4 d.driverFeatureSelect.toNat)
  | 0x0c, 4, _ => .ok (d, leBytes 4 d.driverFeatureWord.toNat)
  | 0x10, 2, _ | 0x1a, 2, _ => .ok (d, leBytes 2 0xffff)
  | 0x12, 2, _ => .ok (d, leBytes 2 1)
  | 0x14, 1, _ => .ok (d, [d.status])
  | 0x15, 1, _ => .ok (d, [0])
  | 0x16, 2, _ => .ok (d, leBytes 2 d.queueSelect.toNat)
  | 0x18, 2, _ => .ok (d, leBytes 2 d.selectedQueueSize.toNat)
  | 0x1c, 2, _ => .ok (d, leBytes 2 d.queueEnabled.toNat)
  | 0x1e, 2, _ => .ok (d, leBytes 2 0)
  | 0x20, 4, _ => .ok (d, leBytes 4 d.queueDesc.toUInt32.toNat)
  | 0x24, 4, _ => .ok (d, leBytes 4 (d.queueDesc >>> 32).toUInt32.toNat)
  | 0x28, 4, _ => .ok (d, leBytes 4 d.queueDriver.toUInt32.toNat)
  | 0x2c, 4, _ => .ok (d, leBytes 4 (d.queueDriver >>> 32).toUInt32.toNat)
  | 0x30, 4, _ => .ok (d, leBytes 4 d.queueDevice.toUInt32.toNat)
  | 0x34, 4, _ => .ok (d, leBytes 4 (d.queueDevice >>> 32).toUInt32.toNat)
  | 0x200, 1, _ => .ok ({ d with isrStatus := 0 }, [d.isrStatus])
  | 0x300, 8, .blk => .ok (d, leBytes 8 virtioBlkCapacitySectors)
  | _, _, _ => .error (.unsupportedRegisterAccess offset length false)

def writeDriverFeatureWord (value : UInt32) : Except VirtioError (VirtioDevice kind) := do
  require (¬ Has d.status featuresOk) (.invalidDeviceStatus d.status d.status)
  if d.driverFeatureSelect = 0 then return { d with driverFeatures := replaceLow d.driverFeatures value }
  else if d.driverFeatureSelect = 1 then return { d with driverFeatures := replaceHigh d.driverFeatures value }
  else
    require (value = 0) (.invalidDeviceStatus d.status d.status)
    return d

def writeStatus (requested : UInt8) : Except VirtioError (VirtioDevice kind) :=
  if requested = 0 then .ok {}
  else do
    let invalid := VirtioError.invalidDeviceStatus d.status requested
    require (requested &&& ~~~known = 0 ∧ requested &&& d.status = d.status) invalid
    require (Has requested driver → Has requested acknowledge) invalid
    require (Has requested featuresOk → requested &&& (acknowledge ||| driver) = acknowledge ||| driver) invalid
    if Has requested featuresOk ∧ d.driverFeatures ≠ version1 then
      return { d with status := requested &&& ~~~featuresOk }
    require (Has requested driverOk → Has requested featuresOk ∧ d.queueEnabled) invalid
    return { d with status := requested }

def ensureSelectedQueue : Except VirtioError Unit := require (d.queueSelect = 0) (.unsupportedQueue d.queueSelect)

def ensureQueueUnlocked : Except VirtioError Unit := do
  d.ensureSelectedQueue
  require (d.queueEnabled = false) .queueConfigurationLocked

def writeQueueSize (size : UInt16) : Except VirtioError (VirtioDevice kind) := do
  d.ensureSelectedQueue
  d.ensureQueueUnlocked
  require (size ≠ 0 ∧ size ≤ queueMaxSize ∧ size &&& (size - 1) = 0) (.invalidQueueSize size queueMaxSize)
  return { d with queueSize := size }

def writeQueueEnable (value : UInt16) : Except VirtioError (VirtioDevice kind) := do
  d.ensureSelectedQueue
  if value = 0 then return { d with queueEnabled := false }
  else
    require (value = 1 ∧ d.queueDesc ≠ 0 ∧ d.queueDriver ≠ 0 ∧ d.queueDevice ≠ 0) .queueNotReady
    return { d with queueEnabled := true }

def ensureQueueReady : Except VirtioError Unit :=
  require (Has d.status driverOk ∧ Has d.status featuresOk ∧ d.driverFeatures = version1 ∧ d.queueEnabled ∧
    d.queueDesc ≠ 0 ∧ d.queueDriver ≠ 0 ∧ d.queueDevice ≠ 0) .queueNotReady

/-- The device afterwards and the queue that was notified. -/
def write (offset : Nat) (payload : List UInt8) : Except VirtioError (VirtioDevice kind × Option UInt16) := do
  let u16 := (readLe 2 payload 0).toUInt16
  let u32 := (readLe 4 payload 0).toUInt32
  match offset, payload.length with
  | 0x00, 4 => return ({ d with deviceFeatureSelect := u32 }, none)
  | 0x08, 4 => return ({ d with driverFeatureSelect := u32 }, none)
  | 0x0c, 4 => return (← d.writeDriverFeatureWord u32, none)
  | 0x14, 1 => return (← d.writeStatus (payload.headD 0), none)
  | 0x16, 2 => return ({ d with queueSelect := u16 }, none)
  | 0x18, 2 => return (← d.writeQueueSize u16, none)
  | 0x1c, 2 => return (← d.writeQueueEnable u16, none)
  | 0x20, 4 => d.ensureQueueUnlocked; return ({ d with queueDesc := replaceLow d.queueDesc u32 }, none)
  | 0x24, 4 => d.ensureQueueUnlocked; return ({ d with queueDesc := replaceHigh d.queueDesc u32 }, none)
  | 0x28, 4 => d.ensureQueueUnlocked; return ({ d with queueDriver := replaceLow d.queueDriver u32 }, none)
  | 0x2c, 4 => d.ensureQueueUnlocked; return ({ d with queueDriver := replaceHigh d.queueDriver u32 }, none)
  | 0x30, 4 => d.ensureQueueUnlocked; return ({ d with queueDevice := replaceLow d.queueDevice u32 }, none)
  | 0x34, 4 => d.ensureQueueUnlocked; return ({ d with queueDevice := replaceHigh d.queueDevice u32 }, none)
  | 0x100, 2 =>
    require (u16 = 0) (.unexpectedQueueNotification u16)
    d.ensureQueueReady
    return ({ d with notifyPending := true }, some u16)
  | _, _ => throw (.unsupportedRegisterAccess offset payload.length true)

end VirtioDevice

inductive Access
  | read (offset length : Nat)
  | write (offset : Nat) (payload : List UInt8)

namespace VirtioDevice
variable {kind : VirtioKind} (d : VirtioDevice kind)

def step : Access → VirtioDevice kind
  | .read offset length =>
    match d.read offset length with
    | .ok r => r.1
    | .error _ => d
  | .write offset payload =>
    match d.write offset payload with
    | .ok r => r.1
    | .error _ => d

def run (kind : VirtioKind) (as : List Access) : VirtioDevice kind := as.foldl step {}

structure QueueOk : Prop where
  size : d.queueSize = 1 ∨ d.queueSize = 2 ∨ d.queueSize = 4 ∨ d.queueSize = 8
  ready : d.queueEnabled = true → d.queueDesc ≠ 0 ∧ d.queueDriver ≠ 0 ∧ d.queueDevice ≠ 0

/-- FEATURES_OK and DRIVER_OK are asked for at once, with features that are refused. -/
def Premature (a : Access) : Prop := ∃ requested, a = .write 0x14 [requested] ∧ requested &&& ~~~known = 0 ∧
  requested &&& d.status = d.status ∧ requested &&& (acknowledge ||| driver) = acknowledge ||| driver ∧
  Has requested featuresOk ∧ Has requested driverOk ∧ d.driverFeatures ≠ version1

structure Quiet (d' : VirtioDevice kind) : Prop where
  status : d'.status = d.status
  features : Has d.status featuresOk → d'.driverFeatures = d.driverFeatures
  queue : d.QueueOk → d'.QueueOk

variable {d}

theorem size_of_power {size : UInt16} (h0 : size ≠ 0) (hle : size ≤ queueMaxSize) (hp : size &&& (size - 1) = 0) :
    size = 1 ∨ size = 2 ∨ size = 4 ∨ size = 8 := by
  have hall : ∀ n : Fin 9, UInt16.ofNat n ≠ 0 → UInt16.ofNat n &&& (UInt16.ofNat n - 1) = 0 →
      UInt16.ofNat n = 1 ∨ UInt16.ofNat n = 2 ∨ UInt16.ofNat n = 4 ∨ UInt16.ofNat n = 8 := by decide
  have := hall ⟨size.toNat, Nat.lt_succ_of_le (UInt16.le_iff_toNat_le.mp hle)⟩
  rw [UInt16.ofNat_toNat] at this
  exact this h0 hp

variable {d' : VirtioDevice kind}

theorem quiet_driverFeatureWord {value : UInt32} (h : d.writeDriverFeatureWord value = .ok d') : d.Quiet d' := by
  simp only [writeDriverFeatureWord, steps_ok, exists_const] at h
  obtain ⟨hno, h⟩ := h
  split at h
  · cases h
    exact ⟨rfl, fun hf => absurd hf hno, fun hq => ⟨hq.size, hq.ready⟩⟩
  split at h
  · cases h
    exact ⟨rfl, fun hf => absurd hf hno, fun hq => ⟨hq.size, hq.ready⟩⟩
  · simp only [steps_ok, exists_const] at h
    rw [← h.2]
    exact ⟨rfl, fun _ => rfl, id⟩

theorem quiet_queueSize {size : UInt16} (h : d.writeQueueSize size = .ok d') : d.Quiet d' := by
  simp only [writeQueueSize, ensureQueueUnlocked, ensureSelectedQueue, steps_ok, exists_const] at h
  obtain ⟨-, -, ⟨h0, hle, hp⟩, rfl⟩ := h
  exact ⟨rfl, fun _ => rfl, fun hq => ⟨size_of_power h0 hle hp, hq.ready⟩⟩

theorem quiet_queueEnable {value : UInt16} (h : d.writeQueueEnable value = .ok d') : d.Quiet d' := by
  simp only [writeQueueEnable, ensureSelectedQueue, steps_ok, exists_const] at h
  obtain ⟨-, h⟩ := h
  split at h
  · cases h
    exact ⟨rfl, fun _ => rfl, fun hq => ⟨hq.size, fun he => Bool.noConfusion he⟩⟩
  · simp only [steps_ok, exists_const] at h
    obtain ⟨⟨-, hready⟩, rfl⟩ := h
    exact ⟨rfl, fun _ => rfl, fun hq => ⟨hq.size, fun _ => hready⟩⟩

theorem write_cases {offset : Nat} {payload : List UInt8} {r : VirtioDevice kind × Option UInt16}
    (h : d.write offset payload = .ok r) :
    d.Quiet r.1 ∨ ∃ requested, offset = 0x14 ∧ payload = [requested] ∧ d.writeStatus requested = .ok r.1 := by
  unfold write at h
  split at h <;> simp only [ensureQueueUnlocked, ensureQueueReady, steps_ok, exists_const] at h
  case h_3 =>
    obtain ⟨d', h, rfl⟩ := h
    exact .inl (quiet_driverFeatureWord h)
  case h_4 hlen =>
    obtain ⟨d', h, rfl⟩ := h
    obtain ⟨requested, rfl⟩ := List.length_eq_one_iff.mp hlen
    exact .inr ⟨requested, rfl, rfl, h⟩
  case h_6 =>
    obtain ⟨d', h, rfl⟩ := h
    exact .inl (quiet_queueSize h)
  case h_7 =>
    obtain ⟨d', h, rfl⟩ := h
    exact .inl (quiet_queueEnable h)
  case h_8 | h_9 | h_10 | h_11 | h_12 | h_13 =>
    -- The ring addresses can be written only while the queue is not enabled.
    obtain ⟨⟨_, -, hno⟩, rfl⟩ := h
    exact .inl ⟨rfl, fun _ => rfl, fun hq => ⟨hq.size, fun he => absurd (hno.symm.trans he) (by simp)⟩⟩
  case h_14 =>
    obtain ⟨-, -, rfl⟩ := h
    exact .inl ⟨rfl, fun _ => rfl, fun hq => ⟨hq.size, hq.ready⟩⟩
  case h_15 => cases h
  all_goals
    subst h
    exact .inl ⟨rfl, fun _ => rfl, fun hq => ⟨hq.size, hq.ready⟩⟩

theorem quiet_read {offset length : Nat} {r : VirtioDevice kind × List UInt8} (h : d.read offset length = .ok r) :
    d.Quiet r.1 := by
  unfold read at h
  split at h <;> cases h <;> exact ⟨rfl, fun _ => rfl, fun hq => ⟨hq.size, hq.ready⟩⟩

theorem step_cases (d : VirtioDevice kind) (a : Access) :
    d.Quiet (d.step a) ∨ ∃ requested, a = .write 0x14 [requested] ∧ d.writeStatus requested = .ok (d.step a) := by
  cases a with
  | read offset length =>
    rw [step]
    split
    · exact .inl (quiet_read ‹_›)
    · exact .inl ⟨rfl, fun _ => rfl, id⟩
  | write offset payload =>
    rw [step]
    split
    · rename_i hr
      obtain h | ⟨requested, rfl, rfl, h⟩ := write_cases hr
      · exact .inl h
      · exact .inr ⟨requested, rfl, h⟩
    · exact .inl ⟨rfl, fun _ => rfl, id⟩

theorem writeStatus_cases {requested : UInt8} (h : d.writeStatus requested = .ok d') : requested = 0 ∧ d' = {} ∨
    (requested &&& ~~~known = 0 ∧ requested &&& d.status = d.status) ∧
    (Has requested featuresOk → requested &&& (acknowledge ||| driver) = acknowledge ||| driver) ∧
    (Has requested featuresOk ∧ d.driverFeatures ≠ version1 ∧
        d' = { d with status := requested &&& ~~~featuresOk } ∨
      (Has requested featuresOk → d.driverFeatures = version1) ∧
      (Has requested driverOk → Has requested featuresOk ∧ d.queueEnabled = true) ∧
        d' = { d with status := requested }) := by
  unfold writeStatus at h
  split at h
  · cases h
    exact .inl ⟨‹_›, rfl⟩
  · simp only [steps_ok, exists_const] at h
    obtain ⟨hk, -, hf, h⟩ := h
    refine .inr ⟨hk, hf, ?_⟩
    split at h
    · rename_i hv
      cases h
      exact .inl ⟨hv.1, hv.2, rfl⟩
    · rename_i hv
      simp only [steps_ok, exists_const] at h
      exact .inr ⟨fun hf => not_not.mp fun hne => hv ⟨hf, hne⟩, h.1, h.2.symm⟩

/-! ## Along a run -/

@[elab_as_elim]
theorem forall_uint8 {P : UInt8 → Prop} (h : ∀ n : Fin 256, P (.ofNat n)) (t : UInt8) : P t := by
  simpa using h ⟨t.toNat, t.toNat_lt⟩

variable {t : UInt8}

theorem not_has_clear : ¬ Has (t &&& ~~~featuresOk) featuresOk := forall_uint8 (by decide +kernel) t

theorem has_driverOk_clear : Has (t &&& ~~~featuresOk) driverOk ↔ Has t driverOk :=
  forall_uint8 (by decide +kernel) t

theorem and_clear : ¬ Has t featuresOk → t &&& ~~~featuresOk = t := forall_uint8 (by decide +kernel) t

theorem has_bits : t &&& (acknowledge ||| driver) = acknowledge ||| driver → Has t acknowledge ∧ Has t driver :=
  forall_uint8 (by decide +kernel) t

structure Inv (d : VirtioDevice kind) : Prop where
  features : Has d.status featuresOk →
    d.status &&& (acknowledge ||| driver) = acknowledge ||| driver ∧ d.driverFeatures = version1
  queue : d.QueueOk

theorem inv_new : Inv ({} : VirtioDevice kind) :=
  ⟨fun h => absurd h (not_has_zero _), .inr (.inr (.inr rfl)), fun h => Bool.noConfusion h⟩

theorem Inv.step (h : d.Inv) (a : Access) : (d.step a).Inv := by
  obtain hq | ⟨requested, rfl, hs⟩ := d.step_cases a
  · refine ⟨fun hf => ?_, hq.queue h.queue⟩
    rw [hq.status] at hf ⊢
    rw [hq.features hf]
    exact h.features hf
  · obtain ⟨-, he⟩ | ⟨-, hf, ⟨-, -, he⟩ | ⟨hv, -, he⟩⟩ := writeStatus_cases hs
    · rw [he]
      exact inv_new
    · rw [he]
      exact ⟨fun hf => absurd hf not_has_clear, h.queue.size, h.queue.ready⟩
    · rw [he]
      exact ⟨fun h => ⟨hf h, hv h⟩, h.queue.size, h.queue.ready⟩

theorem Inv.status_kept (h : d.Inv) {a : Access} (ha : a ≠ .write 0x14 [0]) :
    d.status &&& (d.step a).status = d.status := by
  obtain hq | ⟨requested, rfl, hs⟩ := d.step_cases a
  · rw [hq.status, UInt8.and_self]
  · obtain ⟨rfl, -⟩ | ⟨⟨-, hsup⟩, -, ⟨-, hv, he⟩ | ⟨-, -, he⟩⟩ := writeStatus_cases hs
    · exact absurd rfl ha
    · rw [he, ← UInt8.and_assoc, UInt8.and_comm d.status, hsup]
      exact and_clear fun hf => hv (h.features hf).2
    · rw [he, UInt8.and_comm, hsup]

/-- DRIVER_OK comes with FEATURES_OK, and is set only while the queue is ready. -/
@[mk_iff]
structure Negotiates (d d' : VirtioDevice kind) : Prop where
  order : Has d'.status driverOk → Has d'.status featuresOk
  begun : ¬ Has d.status driverOk → Has d'.status driverOk →
    d.queueEnabled = true ∧ d.queueDesc ≠ 0 ∧ d.queueDriver ≠ 0 ∧ d.queueDevice ≠ 0

theorem not_negotiates {a : Access} (h : d.Premature a) : ¬ d.Negotiates (d.step a) := by
  obtain ⟨requested, rfl, hk, hs, hb, hf, hok, hv⟩ := h
  intro hn
  have h0 : requested ≠ 0 := fun h => not_has_zero _ (h ▸ hf)
  have hw : d.writeStatus requested = .ok { d with status := requested &&& ~~~featuresOk } := by
    simp [writeStatus, h0, hk, hs, hb, hf, hv, require_pos, (has_bits hb).1]
  have he : d.step (.write 0x14 [requested]) = { d with status := requested &&& ~~~featuresOk } := by
    simp [step, write, hw]
  rw [he] at hn
  exact not_has_clear (hn.order (has_driverOk_clear.mpr hok))

theorem Inv.negotiates (h : d.Inv) (ho : Has d.status driverOk → Has d.status featuresOk) {a : Access}
    (ha : ¬ d.Premature a) : d.Negotiates (d.step a) := by
  obtain hq | ⟨requested, rfl, hs⟩ := d.step_cases a
  · rw [negotiates_iff, hq.status]
    exact ⟨ho, fun h₁ h₂ => absurd h₂ h₁⟩
  · obtain ⟨-, he⟩ | ⟨⟨hk, hsup⟩, hb, ⟨hf, hv, he⟩ | ⟨-, hok, he⟩⟩ := writeStatus_cases hs
    · rw [he]
      exact ⟨fun h => absurd h (not_has_zero _), fun _ h => absurd h (not_has_zero _)⟩
    · have hno : ¬ Has requested driverOk := fun hok => ha ⟨requested, rfl, hk, hsup, hb hf, hf, hok, hv⟩
      rw [he]
      exact ⟨fun h => absurd (has_driverOk_clear.mp h) hno, fun _ h => absurd (has_driverOk_clear.mp h) hno⟩
    · rw [he]
      exact ⟨fun h => (hok h).1, fun _ h' => ⟨(hok h').2, h.queue.ready (hok h').2⟩⟩

theorem run_inv (kind : VirtioKind) (as : List Access) : (run kind as).Inv :=
  as.foldlRecOn _ inv_new fun _ h a _ => h.step a

theorem run_concat (as : List Access) (a : Access) : run kind (as ++ [a]) = (run kind as).step a :=
  List.foldl_concat ..

/-- FEATURES_OK, the bits that stay and the queue are as negotiated in every run; DRIVER_OK is exactly as long as no
write is `Premature`. -/
theorem negotiation_iff (kind : VirtioKind) (as : List Access) :
    ((∀ pre a, pre ++ [a] <+: as → (run kind pre).Negotiates (run kind (pre ++ [a]))) ↔
      ∀ pre a, pre ++ [a] <+: as → ¬ (run kind pre).Premature a) ∧
    (Has (run kind as).status featuresOk →
      Has (run kind as).status acknowledge ∧ Has (run kind as).status driver ∧
        (run kind as).driverFeatures = version1) ∧
    (∀ a, a ≠ .write 0x14 [0] → (run kind as).status &&& (run kind (as ++ [a])).status = (run kind as).status) ∧
      (run kind as).QueueOk := by
  have hinv := run_inv kind as
  refine ⟨⟨fun h pre a hp hpre => not_negotiates hpre (run_concat pre a ▸ h pre a hp), fun h => ?_⟩, fun hf => ?_,
    fun a ha => run_concat as a ▸ hinv.status_kept ha, hinv.queue⟩
  · have horder : ∀ pre, pre <+: as →
        Has (run kind pre).status driverOk → Has (run kind pre).status featuresOk := by
      intro pre
      induction pre using List.reverseRecOn with
      | nil => exact fun _ h => absurd h (not_has_zero _)
      | append_singleton pre a ih =>
        intro hp
        rw [run_concat]
        exact ((run_inv kind pre).negotiates (ih ((List.prefix_append _ _).trans hp)) (h pre a hp)).order
    intro pre a hp
    rw [run_concat]
    exact (run_inv kind pre).negotiates (horder pre ((List.prefix_append _ _).trans hp)) (h pre a hp)
  · obtain ⟨hb, hv⟩ := hinv.features hf
    exact ⟨(has_bits hb).1, (has_bits hb).2, hv⟩

/-- All four bits at once, before any feature is written: the queue is not even enabled. -/
theorem driverOk_without_featuresOk :
    (run .rng [.write 0x14 [0x0f]]).status = acknowledge ||| driver ||| driverOk ∧
      (run .rng [.write 0x14 [0x0f]]).queueEnabled = false ∧
    (run .blk [.write 0x14 [0x0f]]).status = acknowledge ||| driver ||| driverOk ∧
      (run .blk [.write 0x14 [0x0f]]).queueEnabled = false := by
  decide +kernel

end VirtioDevice
end SystemsLab.Hypervisor
