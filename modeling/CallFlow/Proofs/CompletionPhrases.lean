import CallFlow.Proofs.ListedFields
import CallFlow.Proofs.StoredForms
import CallFlow.Proofs.Tolerance

/-!
# Completion Phrases

An edge out of a form or an appointment waits for a phrase of the agent, so the agent has to be told
to say it. The prompt of an appointment always does. The prompt of a form does so in the
instructions for its fields; if no entry of its list of fields is well-formed, there are no such
instructions, and the phrase is in the prompt only if the author has written it there.

## Sections

1. Phrases in texts
2. What prompts say
3. What edges wait for
4. Told and awaited
-/

namespace CallFlow

open Attempt

namespace Prompt

/-! ## §1 Phrases in texts -/

/-- The phrase occurs in the text. -/
def Says (text phrase : String) : Prop := phrase.toList <:+: text.toList

instance (text phrase : String) : Decidable (Says text phrase) :=
  inferInstanceAs (Decidable (phrase.toList <:+: text.toList))

/-- Characters that do not hold the one in the middle lie on one side of it. -/
theorem infix_append_cons_iff {cs left right : List Char} {c : Char} (hc : c ∉ cs) :
    cs <:+: left ++ c :: right ↔ cs <:+: left ∨ cs <:+: right := by
  -- What begins with the middle, or goes up to it from the left, is nothing.
  have hempty : ∀ {part : List Char}, (∀ d ∈ part, d ∈ cs) → part <+: c :: right → part = [] := by
    intro part hpart hbegins
    cases part with
    | nil => rfl
    | cons d rest =>
      obtain ⟨rfl, -⟩ := List.cons_prefix_cons.1 hbegins
      exact absurd (hpart d (List.mem_cons_self ..)) hc
  rw [List.infix_append_iff, List.infix_cons_iff]
  constructor
  · rintro (hleft | (hbegins | hright) | ⟨before, after, rfl, hbefore, hafter⟩)
    · exact Or.inl hleft
    · rw [hempty (fun d hd => hd) hbegins]
      exact Or.inl (List.nil_infix)
    · exact Or.inr hright
    · rw [hempty (fun d hd => List.mem_append_right _ hd) hafter, List.append_nil]
      exact Or.inl hbefore.isInfix
  · rintro (hleft | hright)
    · exact Or.inl hleft
    · exact Or.inr (Or.inl (Or.inr hright))

/-- A phrase without line breaks occurs in some lines just in case it occurs in one of them. -/
theorem says_lines_iff {phrase : String} (hphrase : phrase.toList ≠ [])
    (hbreak : '\n' ∉ phrase.toList) {lines : List String} :
    Says ("\n".intercalate lines) phrase ↔ ∃ line ∈ lines, Says line phrase := by
  unfold Says
  rw [String.toList_intercalate]
  induction lines with
  | nil => simpa using hphrase
  | cons line rest ih =>
    cases rest with
    | nil => simp
    | cons next more =>
      have hbreaks : "\n".toList = ['\n'] := rfl
      rw [List.map_cons, List.map_cons, List.intercalate_cons_cons, hbreaks, List.append_assoc,
        List.singleton_append, infix_append_cons_iff hbreak, ← hbreaks, ← List.map_cons, ih]
      simp only [List.exists_mem_cons_iff]

theorem says_append_append (before phrase after : String) :
    Says (before ++ phrase ++ after) phrase :=
  ⟨before.toList, after.toList, by simp⟩

/-- What is said around quotation marks that the phrase does not hold, and beyond them, has no part
in the phrase. -/
theorem says_quoted {phrase opening text closing : String} (before after : List Char) {c : Char}
    (hc : c ∉ phrase.toList) (hopening : opening.toList = before ++ [c])
    (hclosing : closing.toList = c :: after) (hbefore : ¬ phrase.toList <:+: before)
    (hafter : ¬ phrase.toList <:+: after) :
    Says (opening ++ text ++ closing) phrase ↔ Says text phrase := by
  unfold Says
  rw [String.toList_append, String.toList_append, hopening, hclosing, List.append_assoc,
    List.append_assoc, List.singleton_append, infix_append_cons_iff hc, infix_append_cons_iff hc]
  simp only [hbefore, hafter, false_or, or_false]

/-! ## §2 What prompts say -/

/-- An appointment is told to say its phrase, whatever its settings are. -/
theorem says_bookAppointment (introduction : String) (config : Members) :
    Says (bookAppointment introduction config) appointmentPhrase := by
  unfold bookAppointment
  dsimp only
  refine (says_lines_iff (by decide) (by decide)).2 ⟨_, ?_, says_append_append
    "3. CRITICAL: After successfully booking, you MUST say exactly: \"" appointmentPhrase
    "\" This exact phrase signals completion."⟩
  simp only [List.mem_cons, true_or, or_true]

/-- A form with fields is told to say its phrase. -/
theorem says_collectFields (introduction formName : String) (fields : List FormField) :
    Says (collectFields introduction formName fields) formPhrase := by
  refine (says_lines_iff (by decide) (by decide)).2 ⟨_, ?_, says_append_append
    "5. CRITICAL: After successful submission, you MUST say exactly: \"" formPhrase
    "\" This exact phrase signals completion."⟩
  simp only [List.mem_cons, true_or, or_true]

theorem says_sayExactly {text : String} :
    Says (sayExactly text) formPhrase ↔ Says text formPhrase :=
  says_quoted "Say exactly: ".toList [] (c := '\'') (by decide) rfl rfl (by decide +kernel)
    (by decide +kernel)

theorem says_formHeading {formName : String} :
    Says (formHeading formName) formPhrase ↔ Says formName formPhrase :=
  says_quoted "FORM COLLECTION INSTRUCTIONS for ".toList [':'] (c := '"') (by decide) rfl rfl
    (by decide +kernel) (by decide +kernel)

/-- A form without fields is not told to say its phrase, unless its author does so. -/
theorem says_collectFreely {introduction formName : String} :
    Says (collectFreely introduction formName) formPhrase ↔
      Says introduction formPhrase ∨ Says formName formPhrase := by
  have hfixed : ∀ line ∈ [
      "",
      "After speaking the introduction, collect the requested information from the caller.",
      "Ask questions one at a time and wait for responses.",
      "Once all information is collected, use the " ++ formTool ++ " tool to save the responses.",
      waitSuffix], ¬ Says line formPhrase := by decide +kernel
  unfold collectFreely
  rw [says_lines_iff (by decide) (by decide)]
  simp only [List.forall_mem_cons, List.exists_mem_cons_iff] at hfixed ⊢
  simp only [hfixed, says_sayExactly, says_formHeading, false_or, or_false, List.not_mem_nil,
    false_and, exists_false]

/-- **What the prompt of a form says**: its phrase, if there are fields or if the author has written
it into the introduction or the name of the form. -/
theorem says_collectForm {introduction formName : String} {fields : List FormField} :
    Says (collectForm introduction formName fields) formPhrase ↔
      fields ≠ [] ∨ Says introduction formPhrase ∨ Says formName formPhrase := by
  cases fields with
  | nil =>
    have hfreely : collectForm introduction formName [] = collectFreely introduction formName := rfl
    rw [hfreely, says_collectFreely]
    simp
  | cons f rest =>
    exact ⟨fun _ => Or.inl nofun, fun _ => says_collectFields introduction formName (f :: rest)⟩

end Prompt

/-! ## §3 What edges wait for -/

namespace Transition

/-- Texts that begin in different ways are different. -/
theorem ne_of_beginnings {text other start start' : String} (h : start.toList <+: text.toList)
    (h' : start'.toList <+: other.toList) (hstart : ¬ start.toList <+: start'.toList)
    (hstart' : ¬ start'.toList <+: start.toList) : text ≠ other := by
  rintro rfl
  exact (List.prefix_or_prefix_of_prefix h h').elim hstart hstart'

theorem prefix_formComplete : "The agent has said '".toList <+: formComplete.toList := by
  unfold formComplete
  simp only [String.toList_append, List.append_assoc]
  exact List.prefix_append _ _

theorem prefix_appointmentComplete :
    "The agent has said '".toList <+: appointmentComplete.toList := by
  unfold appointmentComplete
  simp only [String.toList_append, List.append_assoc]
  exact List.prefix_append _ _

theorem prefix_questionCondition (question : String) :
    "The agent just asked: \"".toList <+: (questionCondition question).toList := by
  unfold questionCondition
  simp only [String.toList_append, List.append_assoc]
  exact List.prefix_append _ _

theorem prefix_messageCondition (message : String) :
    "The agent said: \"".toList <+: (messageCondition message).toList := by
  unfold messageCondition
  simp only [String.toList_append, List.append_assoc]
  exact List.prefix_append _ _

/-- What is awaited of a caller, rather than of the agent, is said of the caller first. -/
theorem prefix_anyResponse : "The user".toList <+: anyResponse.toList := by decide +kernel

theorem prefix_questionAnswered : "The user".toList <+: questionAnswered.toList := by
  unfold questionAnswered
  rw [String.toList_append]
  -- The beginning of the first part is that of the whole.
  refine List.IsPrefix.trans ?_ (List.prefix_append _ _)
  decide +kernel

/-- What begins otherwise does not wait for a phrase. -/
theorem ne_complete {text start : String} (h : start.toList <+: text.toList)
    (hstart : ¬ start.toList <+: "The agent has said '".toList)
    (hstart' : ¬ "The agent has said '".toList <+: start.toList) :
    text ≠ formComplete ∧ text ≠ appointmentComplete :=
  ⟨ne_of_beginnings h prefix_formComplete hstart hstart',
    ne_of_beginnings h prefix_appointmentComplete hstart hstart'⟩

/-- No other step waits for a phrase. -/
theorem waitText_ne_complete {c : Category} (hform : c.isForm = false) (hc : c ≠ .appointment)
    (config : Members) :
    waitText c config ≠ formComplete ∧ waitText c config ≠ appointmentComplete := by
  have hany : anyResponse ≠ formComplete ∧ anyResponse ≠ appointmentComplete :=
    ne_complete prefix_anyResponse (by decide) (by decide)
  have hanswered : questionAnswered ≠ formComplete ∧ questionAnswered ≠ appointmentComplete :=
    ne_complete prefix_questionAnswered (by decide) (by decide)
  have hquestion : ∀ text, questionCondition text ≠ formComplete ∧
      questionCondition text ≠ appointmentComplete := fun text =>
    ne_complete (prefix_questionCondition text) (by decide) (by decide)
  have hmessage : ∀ text, messageCondition text ≠ formComplete ∧
      messageCondition text ≠ appointmentComplete := fun text =>
    ne_complete (prefix_messageCondition text) (by decide) (by decide)
  unfold waitText
  split
  · split
    · exact hquestion _
    · exact hanswered
  all_goals first | exact absurd rfl hc | cases hform | skip
  · split
    · exact hmessage _
    · exact hany
  · split
    · exact hmessage _
    · exact hany
  · exact hany

variable {s : Step} {l : Link}

/-- What an edge waits for that has no text of its own and leaves no handle with a meaning. -/
theorem ofLink_of_plain (hexplicit : l.explicitCondition = none)
    (hhandle : handleMeaning? l.sourceHandle = none) :
    ofLink (some s) l =
      if waitsForResponse s.category s.config then .llm (waitText s.category s.config)
      else .unconditional := by
  simp [ofLink, hexplicit, hhandle]

/-- **Which edges wait for a phrase**: of those that wait for want of anything else, the ones out of
forms for the phrase of forms, and the ones out of appointments for that of appointments. -/
theorem awaits_iff (hexplicit : l.explicitCondition = none)
    (hhandle : handleMeaning? l.sourceHandle = none) :
    (ofLink (some s) l = .llm formComplete ↔
      s.category.isForm = true ∧ waitsForResponse s.category s.config = true) ∧
    (ofLink (some s) l = .llm appointmentComplete ↔
      s.category = .appointment ∧ waitsForResponse s.category s.config = true) := by
  have hdiffer : appointmentComplete ≠ formComplete := by decide +kernel
  rw [ofLink_of_plain hexplicit hhandle]
  cases hwaits : waitsForResponse s.category s.config with
  | false => simp
  | true =>
    simp only [if_true, Condition.llm.injEq, and_true]
    cases hform : s.category.isForm with
    | true =>
      have htext : waitText s.category s.config = formComplete := by
        unfold waitText
        cases hcategory : s.category <;> simp_all [Category.isForm]
      have hc : s.category ≠ .appointment := by
        intro hc
        rw [hc] at hform
        cases hform
      rw [htext]
      simp [hdiffer.symm, hc]
    | false =>
      by_cases hc : s.category = .appointment
      · rw [hc]
        simp [waitText, hdiffer]
      · obtain ⟨hne, hne'⟩ := waitText_ne_complete hform hc s.config
        simp [hne, hne', hc]

end Transition

/-! ## §4 Told and awaited -/

namespace Step

variable {s : Step} {c : Compiled}

/-- The prompt of a form is made of its introduction, its name and its fields. -/
theorem prompt_of_compileForm (h : s.compileForm.Gives c) :
    ∃ fields toolIds, s.formFields.Gives fields ∧ c.node = some (s.scriptNode
      (Prompt.collectForm s.formIntroduction s.formTitle fields) toolIds) := by
  obtain ⟨fields, hfields, rfl⟩ := gives_compileForm.1 h
  obtain ⟨toolIds, hnode⟩ := s.node_compiledForm fields
  exact ⟨fields, toolIds, hfields, hnode⟩

/-- **The phrase that an edge waits for is told** to the agent of an appointment, whatever its
settings are. To the agent of a form it is told just in case an entry of the list of fields is
well-formed, or its author has written the phrase into the introduction or the name of the form.
There is no agent only if the fields are a value that is no list. -/
theorem awaited_phrase_told (s : Step) (l : Link) (hexplicit : l.explicitCondition = none)
    (hhandle : Transition.handleMeaning? l.sourceHandle = none) :
    (Transition.ofLink (some s) l = .llm Transition.appointmentComplete →
      ∃ c prompt toolIds, s.compile.Gives c ∧ c.node = some (s.scriptNode prompt toolIds) ∧
        Prompt.Says prompt Prompt.appointmentPhrase) ∧
    (Transition.ofLink (some s) l = .llm Transition.formComplete →
      ((∃ c, s.compile.Gives c) ↔ (s.setting "fields").Listable) ∧
      ∀ c, s.compile.Gives c → ∃ prompt toolIds, c.node = some (s.scriptNode prompt toolIds) ∧
        (Prompt.Says prompt Prompt.formPhrase ↔ s.HasField ∨
          Prompt.Says s.formIntroduction Prompt.formPhrase ∨
          Prompt.Says s.formTitle Prompt.formPhrase)) := by
  obtain ⟨hform, happointment⟩ := Transition.awaits_iff (s := s) hexplicit hhandle
  constructor
  · intro hwaits
    obtain ⟨hcategory, -⟩ := happointment.1 hwaits
    have hcompile : s.compile = s.compileAppointment := by
      unfold compile
      rw [hcategory]
    rw [hcompile]
    exact ⟨_, _, _, gives_pure.2 rfl, rfl, Prompt.says_bookAppointment _ _⟩
  · intro hwaits
    obtain ⟨hcategory, -⟩ := hform.1 hwaits
    have htransfer : s.category.isAgentTransfer = false := by
      cases h : s.category <;> simp_all [Category.isForm, Category.isAgentTransfer]
    refine ⟨?_, fun c hc => ?_⟩
    · rw [exists_gives_compile]
      exact ⟨fun h => h.fields hcategory, fun h => ⟨fun _ => h, by simp [htransfer]⟩⟩
    · rw [compile_of_isForm hcategory] at hc
      obtain ⟨fields, toolIds, hfields, hnode⟩ := prompt_of_compileForm hc
      refine ⟨_, toolIds, hnode, ?_⟩
      rw [Prompt.says_collectForm, formFields_ne_nil hfields]

/-- A form of which one entry is a well-formed field and another one is not. -/
def askingForm : Step where
  id := "f"
  type := some "form"
  data := { config := [("fields", .arr [.int 3, .obj [("question", .str "Your name?")]])] }

/-- An appointment without any settings. -/
def plainAppointment : Step := { id := "p", type := some "appointment" }

/-- Both are told what the edges out of them wait for. -/
theorem awaited_phrase_told_asking :
    (∃ c prompt toolIds, plainAppointment.compile.Gives c ∧
      c.node = some (plainAppointment.scriptNode prompt toolIds) ∧
      Prompt.Says prompt Prompt.appointmentPhrase) ∧
    (∃ c prompt toolIds, askingForm.compile.Gives c ∧
      c.node = some (askingForm.scriptNode prompt toolIds) ∧
      Prompt.Says prompt Prompt.formPhrase) := by
  let leaving : Link := { source := "f", target := "b" }
  have hwaits := (Transition.awaits_iff (s := plainAppointment) (l := leaving) rfl rfl).2.2
    ⟨by decide, by decide⟩
  have hwaits' := (Transition.awaits_iff (s := askingForm) (l := leaving) rfl rfl).1.2
    ⟨by decide, by decide⟩
  obtain ⟨happointment, -⟩ := awaited_phrase_told plainAppointment leaving rfl rfl
  obtain ⟨-, hform⟩ := awaited_phrase_told askingForm leaving rfl rfl
  obtain ⟨hgives, hsays⟩ := hform hwaits'
  obtain ⟨c, hc⟩ := hgives.2 (by decide)
  obtain ⟨prompt, toolIds, hnode, hprompt⟩ := hsays c hc
  have hfield : askingForm.HasField :=
    ⟨[.int 3, .obj [("question", .str "Your name?")]], rfl, 1, [("question", .str "Your name?")],
      { question := "Your name?", order := 1 }, rfl, rfl⟩
  exact ⟨happointment hwaits, c, prompt, toolIds, hc, hnode, hprompt.2 (Or.inl hfield)⟩

/-- A form without any settings. -/
def silentForm : Step := { id := "f", type := some "form" }

/-- The edge out of the form waits for a phrase that nobody is told to say. -/
theorem silentForm_stuck :
    Transition.ofLink (some silentForm) { source := "f", target := "b" } =
        .llm Transition.formComplete ∧
      ∃ c prompt toolIds, silentForm.compile.Gives c ∧
        c.node = some (silentForm.scriptNode prompt toolIds) ∧
        ¬ Prompt.Says prompt Prompt.formPhrase := by
  have hwaits := (Transition.awaits_iff (s := silentForm) (l := { source := "f", target := "b" })
    rfl rfl).1.2 ⟨by decide, by decide⟩
  have hintroduction : ¬ Prompt.Says silentForm.formIntroduction Prompt.formPhrase := by
    decide +kernel
  have htitle : ¬ Prompt.Says silentForm.formTitle Prompt.formPhrase := by decide +kernel
  refine ⟨hwaits, _, _, [], rfl, rfl, ?_⟩
  rw [Prompt.says_collectForm]
  rintro (hne | hsays | hsays)
  · exact hne rfl
  · exact hintroduction hsays
  · exact htitle hsays

end Step

end CallFlow
