import SystemsLab.Runtime.Generations

/-!
# Saving a snapshot

The store takes a copy that carries the revision of the record that stands, and counts from one again when a record
is created, so the revision tells nothing across a removal.
-/

namespace SystemsLab.Runtime

namespace Files

def revisionConflict (id what : String) : StateError :=
  errorf s!"container state revision conflict for {id}: {what}"

/-- `saveContainerCASUnlocked`, after the check of the id. -/
def save (h : Host) (s : Files) (c : Container) : Result Files := do
  validateId c.id
  match s.container with
  | some f => do
    let current ← (f.unmarshalForId c.id).mapError (wrapf "unmarshal current container state")
    require (current.revision = c.revision)
      (revisionConflict c.id s!"caller={c.revision} current={current.revision}")
    s.writeRevision h c (← nextRevision current)
  | none => do
    require (c.revision = 0) (revisionConflict c.id s!"record was deleted after revision {c.revision}")
    s.writeRevision h c 1

end Files

inductive Access
  | call (call : Call)
  | save (c : Container)

namespace Files
variable (h : Host) (id : String) (s : Files)

/-- A save under another id goes to other files. -/
def access : Access → Files
  | .call call => s.step h id call
  | .save c => if c.id = id then (s.save h c).toOption.getD s else s

def accesses (as : List Access) : Files := as.foldl (access h id) s

/-- `c` was edited from what `Get` returns on `s`, and saving it after `as` succeeds. -/
def SavesLater (as : List Access) (c : Container) : Prop :=
  c.id = id ∧ (s.get id).toOption.map (·.revision) = some c.revision ∧ ((s.accesses h id as).save h c).isOk

variable {h id s}
variable {s' : Files} {f : ContainerFile} {c : Container} {as : List Access}

theorem save_eq_ok (hf : s.container = some f) (hs : s.save h c = .ok s') :
    f.container.revision = c.revision ∧ s'.revision = some (f.container.revision.toNat + 1) := by
  simp only [save, hf, ContainerFile.unmarshalForId, steps_ok] at hs
  obtain ⟨_, _, _, ⟨_, _, _, _, rfl⟩, _, hrev, r, hr, hw⟩ := hs
  exact ⟨hrev, nextRevision_eq_ok hr ▸ (writeRevision_eq_ok hw).2⟩

theorem access_advances (s : Files) (a : Access) : s.Advances (s.access h id a) := by
  cases a with
  | call call => exact (s.step_follows call).advances
  | save c =>
    simp only [access]
    split
    · cases hs : s.save h c with
      | error e => exact advances_of_eq rfl
      | ok s' =>
        intro f f' hf hf'
        exact advances_of_revision hf (save_eq_ok hf hs).2 f f' hf hf'
    · exact advances_of_eq rfl

@[simp] theorem accesses_append (as bs : List Access) :
    s.accesses h id (as ++ bs) = (s.accesses h id as).accesses h id bs := List.foldl_append

/-- While the record stands its revision only grows, and grows whenever the record changes. -/
theorem accesses_advance (hf : s.container = some f) (as : List Access)
    (stands : ∀ front, front <+: as → (s.accesses h id front).container ≠ none) :
    ∃ f', (s.accesses h id as).container = some f' ∧
      (f' = f ∨ f.container.revision.toNat < f'.container.revision.toNat) := by
  induction as using List.reverseRecOn with
  | nil => exact ⟨f, hf, .inl rfl⟩
  | append_singleton as a ih =>
    obtain ⟨f₁, hf₁, hle⟩ := ih fun front hfront => stands front (hfront.trans (List.prefix_append as [a]))
    obtain ⟨f', hf'⟩ := Option.ne_none_iff_exists'.mp (stands _ (List.prefix_refl _))
    refine ⟨f', hf', ?_⟩
    rw [accesses_append] at hf'
    obtain rfl | hnext := access_advances _ a f₁ f' hf₁ hf'
    · exact hle
    · rcases hle with rfl | hlt
      · exact .inr (by omega)
      · exact .inr (by omega)

theorem SavesLater.snapshot (hs : s.SavesLater h id as c) :
    ∃ f, s.container = some f ∧ f.container.revision = c.revision := by
  obtain ⟨_, hget, _⟩ := hs
  cases hg : s.get id with
  | error e => simp [hg, Except.toOption] at hget
  | ok c₀ =>
    obtain ⟨f, hf, rfl⟩ := get_eq_ok hg
    exact ⟨f, hf, by simpa [hg, Except.toOption] using hget⟩

theorem SavesLater.unchanged (hs : s.SavesLater h id as c)
    (stands : ∀ front, front <+: as → (s.accesses h id front).container ≠ none) {front : List Access}
    (hfront : front <+: as) :
    (s.accesses h id front).container = s.container := by
  obtain ⟨f, hf, hrev⟩ := hs.snapshot
  obtain ⟨rest, rfl⟩ := hfront
  obtain ⟨f₁, hf₁, hle₁⟩ := accesses_advance hf front fun g hg => stands g (hg.trans (List.prefix_append _ _))
  obtain ⟨f₂, hf₂, hle₂⟩ := accesses_advance hf₁ rest fun g hg => by
    rw [← accesses_append]
    exact stands _ (List.prefix_append_right_inj front |>.mpr hg)
  rw [← accesses_append] at hf₂
  have hok := hs.2.2
  cases hsave : (s.accesses h id (front ++ rest)).save h c with
  | error e => rw [hsave] at hok; cases hok
  | ok s' =>
    -- The record saved over has the snapshot's revision, so none in between has a larger one.
    have hsame := congrArg UInt64.toNat ((save_eq_ok hf₂ hsave).1.trans hrev.symm)
    rw [hf₁, hf]
    rcases hle₁ with rfl | hlt
    · rfl
    · rcases hle₂ with rfl | hlt₂ <;> omega

/-- A save replaces a record other than the one its snapshot was read from exactly when that one was
removed in between. -/
theorem save_overwrites_iff (h : Host) (id : String) (s : Files) (as : List Access) (c : Container) :
    (s.SavesLater h id as c ∧ ∃ front, front <+: as ∧ (s.accesses h id front).container ≠ s.container) ↔
      s.SavesLater h id as c ∧ ∃ front, front <+: as ∧ (s.accesses h id front).container = none := by
  refine and_congr_right fun hs => ⟨fun ⟨front, hfront, hne⟩ => ?_, fun ⟨front, hfront, hnone⟩ => ?_⟩
  · by_contra hall
    exact hne (hs.unchanged (fun g hg hnone => hall ⟨g, hg, hnone⟩) hfront)
  · obtain ⟨f, hf, -⟩ := hs.snapshot
    exact ⟨front, hfront, by rw [hnone, hf]; exact (Option.some_ne_none f).symm⟩

/-- The record is removed and created anew before the snapshot is saved over it. -/
theorem save_overwrites_recreated :
    let h : Host := ⟨fun _ => true, fun _ => true⟩
    let as : List Access := [.call .delete, .save { id := "c", pid := 7 }]
    (fresh "c").SavesLater h "c" as { id := "c", revision := 1, exitCode := 3 } ∧
      ((fresh "c").accesses h "c" [.call .delete]).container = none ∧
      ((fresh "c").accesses h "c" as).container ≠ (fresh "c").container := by
  refine ⟨⟨rfl, ?_, ?_⟩, ?_, ?_⟩ <;> decide +kernel

end Files
end SystemsLab.Runtime
