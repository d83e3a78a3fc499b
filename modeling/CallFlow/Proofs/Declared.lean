import CallFlow.Compiler
import Mathlib.Data.List.Nodup

/-!
# What a Flow Declares

The compiler asks about the step of an id in three ways: it looks the step up, it asks whether
it is a trigger, and it asks whether it is a branch. In a flow that declares no id twice there
is one step to ask about, and all answers come from it.

## Sections

1. Declared steps
2. Distinct ids
3. The id of the start node
4. A flow with crossroads
-/

namespace CallFlow.Flow

/-! ## §1 Declared steps -/

/-- The id is that of a step which stands for the beginning of a call. -/
def HasTrigger (f : Flow) (id : String) : Prop :=
  ∃ s ∈ f.steps, s.id = id ∧ s.category.isTrigger = true

/-- The id is that of a step which only chooses between links. -/
def HasBranch (f : Flow) (id : String) : Prop :=
  ∃ s ∈ f.steps, s.id = id ∧ s.category.isBranch = true

/-- The id is that of a step which has a node of its own. -/
def HasActionable (f : Flow) (id : String) : Prop :=
  ∃ s ∈ f.steps, s.id = id ∧ s.isActionable = true

instance (f : Flow) (id : String) : Decidable (f.HasTrigger id) :=
  inferInstanceAs (Decidable (∃ s ∈ f.steps, s.id = id ∧ s.category.isTrigger = true))

instance (f : Flow) (id : String) : Decidable (f.HasBranch id) :=
  inferInstanceAs (Decidable (∃ s ∈ f.steps, s.id = id ∧ s.category.isBranch = true))

instance (f : Flow) (id : String) : Decidable (f.HasActionable id) :=
  inferInstanceAs (Decidable (∃ s ∈ f.steps, s.id = id ∧ s.isActionable = true))

variable {f : Flow} {id : String}

theorem isBranch_iff : f.isBranch id = true ↔ f.HasBranch id := by
  simp [isBranch, HasBranch]

theorem mem_branchIds : id ∈ f.branchIds ↔ f.HasBranch id := by
  rw [branchIds, List.mem_eraseDups]
  simp only [List.mem_map, List.mem_filter, HasBranch]
  constructor
  · rintro ⟨s, ⟨hs, hbranch⟩, hid⟩
    exact ⟨s, hs, hid, hbranch⟩
  · rintro ⟨s, hs, hid, hbranch⟩
    exact ⟨s, ⟨hs, hbranch⟩, hid⟩

/-- What is declared is found. -/
theorem step?_isSome {s : Step} (h : s ∈ f.steps) : (f.step? s.id).isSome = true := by
  rw [step?, List.find?_isSome]
  exact ⟨s, List.mem_reverse.2 h, decide_eq_true rfl⟩

/-- What is found is declared with the id. -/
theorem mem_of_step?_eq_some {s : Step} (h : f.step? id = some s) : s ∈ f.steps ∧ s.id = id := by
  unfold step? at h
  have hid := List.find?_some h
  exact ⟨List.mem_reverse.1 (List.mem_of_find?_eq_some h), by simpa using hid⟩

/-! ## §2 Distinct ids -/

/-- No two steps have the same id. -/
def DistinctIds (f : Flow) : Prop := (f.steps.map Step.id).Nodup

instance (f : Flow) : Decidable f.DistinctIds :=
  inferInstanceAs (Decidable (f.steps.map Step.id).Nodup)

namespace DistinctIds

/-- The id tells which step it is. -/
theorem step_eq (h : f.DistinctIds) {s t : Step} (hs : s ∈ f.steps) (ht : t ∈ f.steps)
    (hid : s.id = t.id) : s = t :=
  List.inj_on_of_nodup_map h hs ht hid

/-- Looking an id up finds the one step that has it. -/
theorem step?_eq_some (h : f.DistinctIds) {s : Step} :
    f.step? id = some s ↔ s ∈ f.steps ∧ s.id = id := by
  refine ⟨mem_of_step?_eq_some, ?_⟩
  rintro ⟨hs, rfl⟩
  -- Some step is found, and it can be no other.
  obtain ⟨t, ht⟩ := Option.isSome_iff_exists.1 (step?_isSome hs)
  obtain ⟨htmem, htid⟩ := mem_of_step?_eq_some ht
  rw [ht, h.step_eq htmem hs htid]

theorem isTrigger_iff (h : f.DistinctIds) : f.isTrigger id = true ↔ f.HasTrigger id := by
  unfold isTrigger HasTrigger
  cases hstep : f.step? id with
  | none =>
    -- An id that is not found belongs to no step, let alone a trigger.
    refine ⟨nofun, fun ⟨s, hs, hid, _⟩ => ?_⟩
    rw [h.step?_eq_some.2 ⟨hs, hid⟩] at hstep
    cases hstep
  | some t =>
    obtain ⟨ht, htid⟩ := h.step?_eq_some.1 hstep
    constructor
    · intro htrigger
      exact ⟨t, ht, htid, htrigger⟩
    · rintro ⟨s, hs, hid, htrigger⟩
      rwa [h.step_eq ht hs (htid.trans hid.symm)]

/-- What is said of an id twice is said of one step. -/
theorem one_step (h : f.DistinctIds) {P Q : Step → Prop} (hP : ∃ s ∈ f.steps, s.id = id ∧ P s)
    (hQ : ∃ s ∈ f.steps, s.id = id ∧ Q s) : ∃ s, P s ∧ Q s := by
  obtain ⟨s, hs, hsid, hPs⟩ := hP
  obtain ⟨t, ht, htid, hQt⟩ := hQ
  obtain rfl := h.step_eq hs ht (hsid.trans htid.symm)
  exact ⟨s, hPs, hQt⟩

/-- A step with a node is no trigger. -/
theorem not_hasTrigger (h : f.DistinctIds) (hid : f.HasActionable id) : ¬ f.HasTrigger id := by
  intro htrigger
  obtain ⟨s, hactionable, htrigger⟩ := h.one_step hid htrigger
  simp [Step.isActionable, Category.isStructural, htrigger] at hactionable

/-- A step with a node is no branch. -/
theorem not_hasBranch (h : f.DistinctIds) (hid : f.HasActionable id) : ¬ f.HasBranch id := by
  intro hbranch
  obtain ⟨s, hactionable, hbranch⟩ := h.one_step hid hbranch
  simp [Step.isActionable, Category.isStructural, hbranch] at hactionable

/-- A branch is no trigger. -/
theorem not_hasTrigger_of_branch (h : f.DistinctIds) (hid : f.HasBranch id) :
    ¬ f.HasTrigger id := by
  intro htrigger
  obtain ⟨s, hbranch, htrigger⟩ := h.one_step hid htrigger
  cases hs : s.category <;> simp [hs, Category.isBranch, Category.isTrigger] at hbranch htrigger

end DistinctIds

/-! ## §3 The id of the start node -/

/-- Nothing in the flow has the id that the start node is going to have. -/
structure KeepsClear (f : Flow) (startId : String) : Prop where
  steps : ∀ s ∈ f.steps, s.id ≠ startId
  links : ∀ l ∈ f.links, l.source ≠ startId ∧ l.target ≠ startId

theorem KeepsClear.ne_of_hasActionable {startId : String} (h : f.KeepsClear startId)
    (hid : f.HasActionable id) : id ≠ startId := by
  obtain ⟨s, hs, rfl, -⟩ := hid
  exact h.steps s hs

/-! ## §4 A flow with crossroads -/

/-- A flow in which two branches lead to each other, so that the walk from the first message to
the last step may go round between them, and in which one way out leads nowhere. -/
def crossroads : Flow where
  steps := [
    { id := "t", type := some "trigger" },
    { id := "a", type := some "message" },
    { id := "c", type := some "condition" },
    { id := "d", type := some "condition" },
    { id := "m", type := some "question" },
    { id := "b", type := some "end" }]
  links := [
    { id := "e1", source := "t", target := "a" },
    { id := "e2", source := "a", target := "c" },
    { id := "e3", source := "c", target := "d" },
    { id := "e4", source := "d", target := "c" },
    { id := "e5", source := "d", target := "nowhere" },
    { id := "e6", source := "d", target := "b" },
    { id := "e7", source := "a", target := "m" },
    { id := "e8", source := "m", target := "b" }]

end CallFlow.Flow
