import CallFlow.Proofs.Registration
import CallFlow.Proofs.StepFacts

/-!
# When Tools Share an Id

A recording is played by a tool that is named after its step, and a form is submitted by a tool that
is named after the form. Only the last eight characters of an id go into the name of its tool. So
the name does not say which id it stands for: two recordings have the same tool just in case their
steps have ids of eight characters or more that end in the same eight, and with forms it is the
same. Shorter ids are never confused, and a recording is never taken for a form.

## Sections

1. Ends of texts
2. Names of tools
3. Registered entries
4. Shared tools
-/

namespace CallFlow

open Attempt

/-! ## §1 Ends of texts -/

/-- What is left when a list is cut to its last `n` members tells two lists apart, unless both have
that many members and agree in the last of them. -/
theorem drop_length_sub_eq_iff {α : Type} {n : Nat} {l m : List α} :
    l.drop (l.length - n) = m.drop (m.length - n) ↔
      l = m ∨ ∃ ending : List α, ending.length = n ∧ ending <:+ l ∧ ending <:+ m := by
  constructor
  · intro h
    have hlength : l.length - (l.length - n) = m.length - (m.length - n) := by
      rw [← List.length_drop, h, List.length_drop]
    by_cases hshort : l.length < n
    · -- Neither list is cut.
      have hl : l.length - n = 0 := by omega
      have hm : m.length - n = 0 := by omega
      rw [hl, hm] at h
      exact Or.inl h
    · have hn : (l.drop (l.length - n)).length = n := by
        rw [List.length_drop]
        omega
      exact Or.inr ⟨_, hn, List.drop_suffix _ l, h ▸ List.drop_suffix _ m⟩
  · rintro (rfl | ⟨ending, rfl, hl, hm⟩)
    · rfl
    · rw [← List.suffix_iff_eq_drop.1 hl, ← List.suffix_iff_eq_drop.1 hm]

namespace Text

/-- Two texts have `n` characters at least and end in the same `n`. -/
def EndAlike (n : Nat) (s t : String) : Prop :=
  ∃ ending : List Char, ending.length = n ∧ ending <:+ s.toList ∧ ending <:+ t.toList

/-- **Cut to their last characters**, two texts are the same if they were before or end alike. -/
theorem takeLast_eq_takeLast_iff {n : Nat} {s t : String} :
    takeLast n s = takeLast n t ↔ s = t ∨ EndAlike n s t := by
  rw [takeLast, takeLast, String.ofList_inj, drop_length_sub_eq_iff, String.toList_inj, EndAlike]

/-- Texts that end alike are no shorter than what they have in common. -/
theorem EndAlike.le_length {n : Nat} {s t : String} (h : EndAlike n s t) :
    n ≤ s.toList.length ∧ n ≤ t.toList.length := by
  obtain ⟨ending, rfl, hs, ht⟩ := h
  exact ⟨hs.length_le, ht.length_le⟩

end Text

/-! ## §2 Names of tools -/

namespace Step

theorem audioToolId_eq_iff {i j : String} (h : i ≠ j) :
    audioToolId i = audioToolId j ↔ Text.EndAlike 8 i j := by
  rw [audioToolId, audioToolId, String.append_right_inj, Text.takeLast_eq_takeLast_iff]
  exact or_iff_right h

theorem formToolId_eq_iff {i j : String} (h : i ≠ j) :
    formToolId i = formToolId j ↔ Text.EndAlike 8 i j := by
  rw [formToolId, formToolId, String.append_right_inj, Text.takeLast_eq_takeLast_iff]
  exact or_iff_right h

/-- A tool that plays is none that submits. -/
theorem audioToolId_ne_formToolId (i j : String) : audioToolId i ≠ formToolId j := by
  intro h
  have hlists := congrArg String.toList h
  simp [audioToolId, formToolId, Prompt.formTool] at hlists

/-! ## §3 Registered entries -/

variable {t : Step} {c : Compiled}

/-- A step that brings anything at all makes a node. -/
theorem exists_makes_of_ne (hc : t.compile.Gives c) (hne : c ≠ {}) :
    ∃ n, t.Makes n ∧ n.kind.toolIds = c.toolIds := by
  rcases (comesTo_of_gives hc).brings_or_nothing with ⟨-, hnothing⟩ | ⟨-, kind, hbrings⟩
  · exact absurd hnothing hne
  · exact ⟨_, hbrings.makes hc, hbrings.toolIds.symm⟩

end Step

namespace Flow

variable {f : Flow}

/-- Recordings are registered in the order of the steps, one for a step at most. -/
theorem CompilesTo.stepIds_sublist {compiled : List Compiled} (h : f.CompilesTo compiled) :
    ((compiled.filterMap Compiled.audio).map AudioRegistration.stepId).Sublist
      (f.steps.map Step.id) := by
  unfold CompilesTo at h
  revert h
  generalize f.steps = steps
  intro h
  induction h with
  | nil => exact List.Sublist.slnil
  | @cons t c _ _ hc _ ih =>
    obtain ⟨-, -, haudio⟩ := (Step.comesTo_of_gives hc).registers
    cases hregistered : c.audio with
    | none =>
      rw [List.filterMap_cons_none hregistered]
      exact ih.cons _
    | some a =>
      rw [List.filterMap_cons_some hregistered, List.map_cons, haudio a hregistered]
      exact ih.cons_cons _

namespace Passes

variable (p : Passes f) (s : Settings)

theorem mem_forms_iff {r : FormRegistration} :
    r ∈ (p.result s).facts.forms ↔ ∃ c ∈ p.compiled, c.form = some r := by
  simp [result, compilation, Facts.foldl_absorb]

/-- A form is registered for a step with a node that refers to its tool. -/
theorem of_mem_forms {r : FormRegistration} (hr : r ∈ (p.result s).facts.forms) :
    ∃ t ∈ f.steps, ∃ n, t.Makes n ∧ n.kind.toolIds = [Step.formToolId r.formId] := by
  obtain ⟨c, hc, hform⟩ := (p.mem_forms_iff s).1 hr
  obtain ⟨t, ht, hgives⟩ := exists_of_mem_right p.compiles hc
  have hne : c ≠ {} := by
    rintro rfl
    cases hform
  obtain ⟨n, hmakes, htools⟩ := Step.exists_makes_of_ne hgives hne
  rw [(Step.comesTo_of_gives hgives).registers.1 r hform] at htools
  exact ⟨t, ht, n, hmakes, htools⟩

/-- If no two steps have the same id, then no two recordings have. -/
theorem pairwise_audios (hids : f.DistinctIds) :
    (p.result s).facts.audios.Pairwise fun a b => a.stepId ≠ b.stepId := by
  have hnodup : ((p.result s).facts.audios.map AudioRegistration.stepId).Nodup := by
    have hsublist := hids.sublist p.compiles.stepIds_sublist
    simpa [result, compilation, Facts.foldl_absorb] using hsublist
  exact List.pairwise_map.1 hnodup

end Passes

/-! ## §4 Shared tools -/

/-- **When tools share an id.** In a flow without repeated ids, two recordings are registered for
steps with different ids, and they have the same tool just in case these ids end in the same eight
characters. Two forms with different ids have the same tool just in case their ids do so. A
recording never shares its tool with a form. And the tool of an entry is the one that a node refers
to, which for a recording is the node of its step. -/
theorem same_tool_iff_endAlike (f : Flow) (s : Settings) (hids : f.DistinctIds) {c : Compilation}
    (h : f.Returns s c) :
    c.facts.audios.Pairwise (fun a b => a.stepId ≠ b.stepId ∧
      (Step.audioToolId a.stepId = Step.audioToolId b.stepId ↔
        Text.EndAlike 8 a.stepId b.stepId)) ∧
    (∀ r ∈ c.facts.forms, ∀ r' ∈ c.facts.forms, r.formId ≠ r'.formId →
      (Step.formToolId r.formId = Step.formToolId r'.formId ↔
        Text.EndAlike 8 r.formId r'.formId)) ∧
    (∀ a ∈ c.facts.audios, ∀ r ∈ c.facts.forms,
      Step.audioToolId a.stepId ≠ Step.formToolId r.formId) ∧
    (∀ a ∈ c.facts.audios, ∃ t ∈ f.steps, t.id = a.stepId ∧
      ∃ n, t.Makes n ∧ n.kind.toolIds = [Step.audioToolId a.stepId]) ∧
    ∀ r ∈ c.facts.forms, ∃ t ∈ f.steps,
      ∃ n, t.Makes n ∧ n.kind.toolIds = [Step.formToolId r.formId] := by
  obtain ⟨p, hp⟩ := h.passes
  have hfacts : c.facts = (p.result s).facts := by rw [hp]
  rw [hfacts]
  refine ⟨?_, fun r _ r' _ hne => Step.formToolId_eq_iff hne,
    fun a _ r _ => Step.audioToolId_ne_formToolId _ _, fun a ha => ?_,
    fun r hr => p.of_mem_forms s hr⟩
  · exact (p.pairwise_audios s hids).imp fun hne => ⟨hne, Step.audioToolId_eq_iff hne⟩
  · obtain ⟨t, ht, hid, n, hmakes, hkind⟩ := p.of_mem_audios s ha
    exact ⟨t, ht, hid, n, hmakes, by rw [hkind]; rfl⟩

/-- A flow with three recordings and two forms. Two of the recordings, and both forms, have ids that
end alike. -/
def jukebox : Flow where
  steps := [
    { id := "first-recording", type := some "play_audio" },
    { id := "recording", type := some "play_audio" },
    { id := "last", type := some "play_audio" },
    { id := "f", type := some "form", data := { config := [("formId", .str "feedback")] } },
    { id := "g", type := some "form", data := { config := [("formId", .str "late-feedback")] } }]

theorem jukebox_entries :
    ∃ c, jukebox.Returns {} c ∧
      c.facts.audios.map (·.stepId) = ["first-recording", "recording", "last"] ∧
      c.facts.forms.map (·.formId) = ["feedback", "late-feedback"] := by
  obtain ⟨c, hgives⟩ := gives_of_succeeds (a := jukebox.compile {}) (by decide +kernel)
  have hresult : (jukebox.compile {}).outcome.map (fun c =>
      (c.facts.audios.map (·.stepId), c.facts.forms.map (·.formId))) =
        .ok (["first-recording", "recording", "last"], ["feedback", "late-feedback"]) := by
    decide +kernel
  rw [hgives] at hresult
  obtain ⟨haudios, hforms⟩ := Prod.mk.inj (Except.ok.inj hresult)
  exact ⟨c, .plain hgives, haudios, hforms⟩

/-- The first two recordings share their tool. The id of the last one is too short for that. -/
theorem same_tool_iff_endAlike_jukebox :
    jukebox.DistinctIds ∧
    ∃ c, jukebox.Returns {} c ∧
      c.facts.audios.map (·.stepId) = ["first-recording", "recording", "last"] ∧
      Step.audioToolId "first-recording" = Step.audioToolId "recording" ∧
      Step.audioToolId "first-recording" ≠ Step.audioToolId "last" := by
  have hids : jukebox.DistinctIds := by decide
  obtain ⟨c, hreturns, haudios, -⟩ := jukebox_entries
  obtain ⟨hpairs, -⟩ := same_tool_iff_endAlike jukebox {} hids hreturns
  have hnamed : ["first-recording", "recording", "last"].Pairwise fun i j =>
      i ≠ j ∧ (Step.audioToolId i = Step.audioToolId j ↔ Text.EndAlike 8 i j) :=
    haudios ▸ List.pairwise_map.2 hpairs
  have hfirst := (List.pairwise_cons.1 hnamed).1
  have hcommon : Text.EndAlike 8 "first-recording" "recording" :=
    ⟨"ecording".toList, by decide, by decide, by decide⟩
  have hshort : ¬ Text.EndAlike 8 "first-recording" "last" :=
    fun h => absurd h.le_length.2 (by decide)
  refine ⟨hids, c, hreturns, haudios, ?_, ?_⟩
  · exact (hfirst "recording" (by decide)).2.2 hcommon
  · exact fun hsame => hshort ((hfirst "last" (by decide)).2.1 hsame)

/-- Two recordings are played by the same tool, and two forms are submitted by the same tool. -/
theorem jukebox_confused :
    jukebox.DistinctIds ∧
    ∃ c, jukebox.Returns {} c ∧
      (∃ a ∈ c.facts.audios, ∃ b ∈ c.facts.audios, a.stepId ≠ b.stepId ∧
        Step.audioToolId a.stepId = Step.audioToolId b.stepId) ∧
      ∃ r ∈ c.facts.forms, ∃ r' ∈ c.facts.forms, r.formId ≠ r'.formId ∧
        Step.formToolId r.formId = Step.formToolId r'.formId := by
  obtain ⟨c, hreturns, haudios, hforms⟩ := jukebox_entries
  have haudio : ∀ id ∈ ["first-recording", "recording", "last"], ∃ a ∈ c.facts.audios,
      a.stepId = id := fun id hid => List.mem_map.1 (haudios ▸ hid)
  have hform : ∀ id ∈ ["feedback", "late-feedback"], ∃ r ∈ c.facts.forms,
      r.formId = id := fun id hid => List.mem_map.1 (hforms ▸ hid)
  obtain ⟨a, ha, haid⟩ := haudio "first-recording" (by decide)
  obtain ⟨b, hb, hbid⟩ := haudio "recording" (by decide)
  obtain ⟨r, hr, hrid⟩ := hform "feedback" (by decide)
  obtain ⟨r', hr', hrid'⟩ := hform "late-feedback" (by decide)
  refine ⟨by decide, c, hreturns, ⟨a, ha, b, hb, ?_, ?_⟩, r, hr, r', hr', ?_, ?_⟩
  · rw [haid, hbid]
    decide
  · rw [haid, hbid]
    decide
  · rw [hrid, hrid']
    decide
  · rw [hrid, hrid']
    decide

end Flow

end CallFlow
