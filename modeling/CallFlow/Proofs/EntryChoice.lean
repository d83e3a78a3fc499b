import CallFlow.Proofs.Declared
import CallFlow.Proofs.Outcome

/-!
# The Choice of an Entry

Whichever way the entry of a flow is chosen, it is a step with a node, and there is one as soon
as the flow has such a step.
-/

namespace CallFlow.Flow

open Attempt

variable {f : Flow}

/-- The choice is made in three stages, of which the first that finds a step decides. -/
theorem chooseEntry_fst :
    f.chooseEntry.1 = (f.triggered?.or f.root?).or f.firstActionable? := by
  unfold chooseEntry
  cases f.triggered? <;> cases f.root? <;> cases f.firstActionable? <;> rfl

theorem of_triggered {t : Step} (h : f.triggered? = some t) :
    t ∈ f.steps ∧ t.isActionable = true := by
  simp only [triggered?, Option.bind_eq_bind, Option.bind_eq_some_iff, Option.filter_eq_some_iff]
    at h
  obtain ⟨trigger, -, link, -, ht, hactionable⟩ := h
  exact ⟨(mem_of_step?_eq_some ht).1, hactionable⟩

theorem of_root {t : Step} (h : f.root? = some t) : t ∈ f.steps ∧ t.isActionable = true := by
  have hfound := List.find?_some h
  simp only [Bool.and_eq_true] at hfound
  exact ⟨List.mem_of_find?_eq_some h, hfound.1⟩

/-- **The entry has a node.** -/
theorem of_chooseEntry {t : Step} (h : f.chooseEntry.1 = some t) :
    t ∈ f.steps ∧ t.isActionable = true := by
  rw [chooseEntry_fst, Option.or_eq_some_iff, Option.or_eq_some_iff] at h
  rcases h with (htriggered | ⟨-, hroot⟩) | ⟨-, hfirst⟩
  · exact of_triggered htriggered
  · exact of_root hroot
  · exact ⟨List.mem_of_find?_eq_some hfirst, List.find?_some hfirst⟩

/-- Where some step has a node, an entry is chosen. -/
theorem exists_chooseEntry {id : String} (h : f.HasActionable id) :
    ∃ t, f.chooseEntry.1 = some t := by
  obtain ⟨s, hs, -, hactionable⟩ := h
  have hfirst : f.firstActionable?.isSome = true := by
    rw [firstActionable?, List.find?_isSome]
    exact ⟨s, hs, hactionable⟩
  rw [← Option.isSome_iff_exists, chooseEntry_fst]
  simp [hfirst]

/-- An entry holds the chosen step, with the line that it speaks. -/
theorem of_entry {e : Entry} (h : f.entry.Gives e) :
    e.step = f.chooseEntry.1 ∧ e.firstMessage = f.chooseEntry.1.bind firstMessage? := by
  unfold entry at h
  -- The journal has a line about the message, if there is one.
  split at h
  rename_i chosen choice hchoice
  cases chosen with
  | none =>
    rw [gives_pure] at h
    simp [h, hchoice]
  | some t =>
    dsimp only at h
    split at h
    · rename_i hmessage
      rw [gives_pure] at h
      simp [h, hchoice, hmessage]
    · rename_i text hmessage
      rw [gives_info_bind, gives_pure] at h
      simp [h, hchoice, hmessage]

theorem hasActionable_of_entry {e : Entry} (h : f.entry.Gives e) {id : String}
    (hid : e.stepId = some id) : f.HasActionable id := by
  obtain ⟨t, ht, rfl⟩ := Option.map_eq_some_iff.1 hid
  obtain ⟨hmem, hactionable⟩ := of_chooseEntry ((of_entry h).1 ▸ ht)
  exact ⟨t, hmem, rfl, hactionable⟩

theorem exists_stepId_of_entry {e : Entry} (h : f.entry.Gives e) {id : String}
    (hid : f.HasActionable id) : ∃ entryId, e.stepId = some entryId := by
  obtain ⟨t, ht⟩ := exists_chooseEntry hid
  exact ⟨t.id, by rw [Entry.stepId, (of_entry h).1, ht, Option.map_some]⟩

end CallFlow.Flow
