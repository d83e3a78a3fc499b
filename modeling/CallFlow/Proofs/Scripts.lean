import CallFlow.Proofs.CompletionPhrases

/-!
# Speaking and Waiting

A script makes the agent speak a line, and then either go on at once or wait for the caller. Which
of the two it is depends on the category of the step alone. Whether the edges that leave the step
wait depends on the category as well, but only as long as the settings of the step do not say
otherwise, and no script takes notice of what they say. So the agent and the edges agree unless a
step is set to wait against its category, or not to wait.

## Sections

1. Prompts that pause
2. The scripts of steps
3. Scripts by category
4. Scripts and edges
-/

namespace CallFlow

open Attempt

/-! ## §1 Prompts that pause -/

namespace Prompt

/-- The prompt makes the agent speak a line and go on. -/
def Proceeds (prompt : String) : Prop := ∃ line, prompt = sayAndProceed line

theorem sayAndProceed_injective {line other : String}
    (h : sayAndProceed line = sayAndProceed other) : line = other := by
  unfold sayAndProceed sayExactly at h
  rwa [String.append_left_inj, String.append_left_inj, String.append_left_inj,
    String.append_right_inj] at h

theorem ask_injective {line other : String} (h : ask line = ask other) : line = other := by
  unfold ask sayExactly at h
  rwa [String.append_left_inj, String.append_left_inj, String.append_left_inj,
    String.append_left_inj, String.append_right_inj] at h

/-- The prompt makes the agent speak, stop and wait for the response. -/
inductive Pauses : String → Prop where
  | question (line : String) : Pauses (ask line)
  | appointment (introduction : String) (config : Members) :
      Pauses (bookAppointment introduction config)
  | form (introduction formName : String) (fields : List FormField) :
      Pauses (collectForm introduction formName fields)

/-- Lines that are put together end like the last of them. -/
theorem suffix_lines {last : String} {lines : List String} (h : lines.getLast? = some last) :
    last.toList <:+ ("\n".intercalate lines).toList := by
  rw [String.toList_intercalate]
  induction lines with
  | nil => cases h
  | cons line rest ih =>
    cases rest with
    | nil =>
      obtain rfl := Option.some.inj h
      simp
    | cons next more =>
      have hrest := ih (by rw [← h, List.getLast?_cons_cons])
      rw [List.map_cons, List.map_cons, List.intercalate_cons_cons, ← List.map_cons]
      exact hrest.trans (List.suffix_append _ _)

theorem suffix_bookAppointment (introduction : String) (config : Members) :
    waitSuffix.toList <:+ (bookAppointment introduction config).toList := by
  unfold bookAppointment
  apply suffix_lines
  simp only [List.getLast?_cons_cons, List.getLast?_singleton]

theorem suffix_collectForm (introduction formName : String) (fields : List FormField) :
    waitSuffix.toList <:+ (collectForm introduction formName fields).toList := by
  unfold collectForm collectFreely collectFields
  split
  · apply suffix_lines
    simp only [List.getLast?_cons_cons, List.getLast?_singleton]
  · apply suffix_lines
    simp only [List.getLast?_cons_cons, List.getLast?_singleton]

/-- What makes the agent wait stands at the end, but for a remark after a question. -/
theorem Pauses.ends {prompt : String} (h : Pauses prompt) :
    waitSuffix.toList <:+ prompt.toList ∨
      (waitSuffix ++ " Do not add anything else.").toList <:+ prompt.toList := by
  cases h with
  | question line =>
    right
    unfold ask
    rw [String.append_assoc, String.toList_append (s := sayExactly line ++ " ")]
    exact List.suffix_append _ _
  | appointment introduction config => exact Or.inl (suffix_bookAppointment introduction config)
  | form introduction formName fields =>
    exact Or.inl (suffix_collectForm introduction formName fields)

/-- A prompt that makes the agent wait does not make it go on. -/
theorem Pauses.not_proceeds {prompt : String} (h : Pauses prompt) : ¬ Proceeds prompt := by
  rintro ⟨line, rfl⟩
  have hends : "step.".toList <:+ (sayAndProceed line).toList := by
    have hending : "step.".toList <:+
        "After speaking, proceed immediately to the next step.".toList := by
      decide +kernel
    unfold sayAndProceed
    rw [String.toList_append]
    exact hending.trans (List.suffix_append _ _)
  -- Two endings of one text are endings of each other, and these are not.
  rcases h.ends with hwait | hwait
  · exact (List.suffix_or_suffix_of_suffix hends hwait).elim (by decide +kernel)
      (by decide +kernel)
  · exact (List.suffix_or_suffix_of_suffix hends hwait).elim (by decide +kernel)
      (by decide +kernel)

end Prompt

/-! ## §2 The scripts of steps -/

namespace Step

variable {s : Step} {c : Compiled} {prompt : String}

/-- The step compiles to a scripted node with the prompt. -/
def HasPrompt (s : Step) (prompt : String) : Prop :=
  ∃ c n script, s.compile.Gives c ∧ c.node = some n ∧ n.kind = .script script ∧
    script.prompt = prompt

theorem HasPrompt.unique {other : String} (h : s.HasPrompt prompt) (h' : s.HasPrompt other) :
    prompt = other := by
  obtain ⟨c, n, script, hc, hn, hkind, rfl⟩ := h
  obtain ⟨c', n', script', hc', hn', hkind', rfl⟩ := h'
  obtain rfl := hc.unique hc'
  obtain rfl := Option.some.inj (hn.symm.trans hn')
  rw [NodeKind.script.inj (hkind.symm.trans hkind')]

theorem hasPrompt_of_gives {attempt : Attempt Compiled} (hcompile : s.compile = attempt)
    (h : attempt.Gives c) {toolIds : List String}
    (hnode : c.node = some (s.scriptNode prompt toolIds)) : s.HasPrompt prompt :=
  ⟨c, _, _, by rw [hcompile]; exact h, hnode, rfl, rfl⟩

/-- Scripted nodes belong to steps of certain categories. -/
theorem HasPrompt.nodeType (h : s.HasPrompt prompt) :
    s.isActionable = true ∧ s.category.nodeType = "override_agent" := by
  obtain ⟨c, n, script, hc, hn, hkind, -⟩ := h
  cases hs : s.isActionable with
  | false =>
    -- A structural step has no node.
    rw [compile_structural hc hs] at hn
    cases hn
  | true =>
    obtain ⟨kind, hbrings⟩ := compile_brings hc hs
    obtain rfl := Option.some.inj (hn.symm.trans hbrings.node)
    have hscript : kind = .script script := hkind
    exact ⟨rfl, by rw [← hbrings.tag, hscript]; rfl⟩

/-! ## §3 Scripts by category -/

theorem hasPrompt_message (h : s.category = .message) :
    s.HasPrompt (Prompt.sayAndProceed (s.settingText ["message"] "Hello")) := by
  have hcompile : s.compile = s.compileMessage := by
    unfold compile
    rw [h]
  exact hasPrompt_of_gives hcompile (gives_debug_bind.2 (gives_pure.2 rfl)) rfl

theorem hasPrompt_question (h : s.category = .question) :
    s.HasPrompt (Prompt.ask (s.settingText ["question", "message"] "How can I help you?")) := by
  have hcompile : s.compile = s.compileQuestion := by
    unfold compile
    rw [h]
  exact hasPrompt_of_gives hcompile (gives_debug_bind.2 (gives_pure.2 rfl)) rfl

theorem hasPrompt_delay (h : s.category.isDelay = true) :
    s.HasPrompt (Prompt.sayAndProceed
      (s.settingText ["message", "waitMessage"] "One moment please...")) := by
  have hcompile : s.compile = s.compileDelay := by
    unfold compile
    cases hcategory : s.category <;> simp_all [Category.isDelay]
  exact hasPrompt_of_gives hcompile (gives_pure.2 rfl) rfl

/-- Greetings speak like steps of no known category. -/
theorem hasPrompt_unrecognized (h : s.category = .greeting ∨ s.category = .unknown) :
    s.HasPrompt (Prompt.sayAndProceed
      (s.settingText ["message", "text"] "How may I assist you?")) := by
  have hcompile : s.compile = s.compileUnrecognized := by
    unfold compile
    rcases h with h | h
    · rw [h]
    · rw [h]
  exact hasPrompt_of_gives hcompile (gives_info_bind.2 (gives_pure.2 rfl)) rfl

theorem hasPrompt_appointment (h : s.category = .appointment) :
    s.HasPrompt (Prompt.bookAppointment
      (s.settingText ["message", "introMessage"] "I can help you schedule an appointment.")
      s.config) := by
  have hcompile : s.compile = s.compileAppointment := by
    unfold compile
    rw [h]
  exact hasPrompt_of_gives hcompile (gives_pure.2 rfl) rfl

/-- A form may be told its fields, or not compile at all, so its prompt is given by them. -/
theorem HasPrompt.of_isForm (h : s.HasPrompt prompt) (hform : s.category.isForm = true) :
    ∃ fields, prompt = Prompt.collectForm s.formIntroduction s.formTitle fields := by
  obtain ⟨c, n, script, hc, hn, hkind, rfl⟩ := h
  rw [compile_of_isForm hform] at hc
  obtain ⟨fields, toolIds, -, hnode⟩ := prompt_of_compileForm hc
  obtain rfl := Option.some.inj (hn.symm.trans hnode)
  exact ⟨fields, by rw [← NodeKind.script.inj hkind]⟩

/-- **The category decides whether a script pauses**: it does just in case steps of the category
wait by default. -/
theorem HasPrompt.pauses_or_proceeds (h : s.HasPrompt prompt) :
    (Transition.waitsByDefault s.category = true ∧ Prompt.Pauses prompt) ∨
      (Transition.waitsByDefault s.category = false ∧ Prompt.Proceeds prompt) := by
  obtain ⟨hactionable, htype⟩ := h.nodeType
  cases hcategory : s.category with
  | message =>
    obtain rfl := h.unique (hasPrompt_message hcategory)
    exact Or.inr ⟨rfl, _, rfl⟩
  | question =>
    obtain rfl := h.unique (hasPrompt_question hcategory)
    exact Or.inl ⟨rfl, .question _⟩
  | appointment =>
    obtain rfl := h.unique (hasPrompt_appointment hcategory)
    exact Or.inl ⟨rfl, .appointment _ _⟩
  | form | formSubmission | collectInfo =>
    obtain ⟨fields, rfl⟩ := h.of_isForm (by rw [hcategory]; rfl)
    exact Or.inl ⟨rfl, .form _ _ fields⟩
  | delay | wait | pause =>
    obtain rfl := h.unique (hasPrompt_delay (by rw [hcategory]; rfl))
    exact Or.inr ⟨rfl, _, rfl⟩
  | greeting =>
    obtain rfl := h.unique (hasPrompt_unrecognized (Or.inl hcategory))
    exact Or.inr ⟨rfl, _, rfl⟩
  | unknown =>
    obtain rfl := h.unique (hasPrompt_unrecognized (Or.inr hcategory))
    exact Or.inr ⟨rfl, _, rfl⟩
  | start | trigger | condition =>
    -- These are structural and have no node.
    simp [isActionable, hcategory, Category.isStructural, Category.isTrigger,
      Category.isBranch] at hactionable
  | _ =>
    -- The nodes of all others are not scripted.
    rw [hcategory] at htype
    exact absurd htype (by decide)

end Step

/-! ## §4 Scripts and edges -/

namespace Transition

variable {s : Step} {l : Link}

/-- A link that leaves no handle in particular has none with a meaning. -/
theorem handleMeaning?_none : handleMeaning? none = none := by decide

/-- An edge that has no other reason to wait does so if its step does. -/
theorem waits_iff (hexplicit : l.explicitCondition = none)
    (hhandle : handleMeaning? l.sourceHandle = none) :
    (ofLink (some s) l = .unconditional ↔ waitsForResponse s.category s.config = false) ∧
      ((∃ text, ofLink (some s) l = .llm text) ↔ waitsForResponse s.category s.config = true) := by
  rw [ofLink_of_plain hexplicit hhandle]
  cases waitsForResponse s.category s.config <;> simp

/-- A step waits as its category does, unless its settings say otherwise. -/
theorem waitsForResponse_eq_iff :
    waitsForResponse s.category s.config = waitsByDefault s.category ↔
      ∀ wait, s.setting "waitForResponse" = .bool wait → wait = waitsByDefault s.category := by
  unfold waitsForResponse
  have hsetting : Json.member s.config "waitForResponse" = s.setting "waitForResponse" := rfl
  rw [hsetting]
  cases s.setting "waitForResponse" <;> simp

end Transition

namespace Step

/-- **Scripts and edges agree on waiting unless a setting interferes.** A script pauses just in case
steps of its category wait by default, and otherwise it proceeds. The edges that leave the step, if
nothing else decides on them, wait just in case the step does. So the agent and the edges agree
just in case the setting for waiting is no truth value, or says what holds by default. -/
theorem waiting_agrees_iff (s : Step) (l : Link) (hexplicit : l.explicitCondition = none)
    (hhandle : Transition.handleMeaning? l.sourceHandle = none) {prompt : String}
    (hprompt : s.HasPrompt prompt) :
    (Prompt.Pauses prompt ↔ Transition.waitsByDefault s.category = true) ∧
    (Prompt.Proceeds prompt ↔ Transition.waitsByDefault s.category = false) ∧
    (((Transition.ofLink (some s) l = .unconditional ↔ Prompt.Proceeds prompt) ∧
        ((∃ text, Transition.ofLink (some s) l = .llm text) ↔ Prompt.Pauses prompt)) ↔
      ∀ wait, s.setting "waitForResponse" = .bool wait →
        wait = Transition.waitsByDefault s.category) := by
  have hscript : (Prompt.Pauses prompt ↔ Transition.waitsByDefault s.category = true) ∧
      (Prompt.Proceeds prompt ↔ Transition.waitsByDefault s.category = false) := by
    rcases hprompt.pauses_or_proceeds with ⟨hwaits, hpauses⟩ | ⟨hwaits, hproceeds⟩
    · simp [hwaits, hpauses, hpauses.not_proceeds]
    · have hnot : ¬ Prompt.Pauses prompt := fun hpauses => hpauses.not_proceeds hproceeds
      simp [hwaits, hproceeds, hnot]
  obtain ⟨hpauses, hproceeds⟩ := hscript
  obtain ⟨hgoes, hstays⟩ := Transition.waits_iff (s := s) hexplicit hhandle
  refine ⟨hpauses, hproceeds, ?_⟩
  rw [hgoes, hstays, hpauses, hproceeds, ← Transition.waitsForResponse_eq_iff]
  cases Transition.waitsForResponse s.category s.config <;>
    cases Transition.waitsByDefault s.category <;> simp

/-- A question without any settings. -/
def plainQuestion : Step := { id := "q", type := some "question" }

/-- The agent waits after the question, and so does the edge. -/
theorem waiting_agrees_iff_question :
    ∃ l : Link, l.explicitCondition = none ∧ Transition.handleMeaning? l.sourceHandle = none ∧
      ∃ prompt, plainQuestion.HasPrompt prompt ∧ Prompt.Pauses prompt ∧
        ∃ text, Transition.ofLink (some plainQuestion) l = .llm text := by
  let leaving : Link := { source := "q", target := "b" }
  have hprompt := hasPrompt_question (s := plainQuestion) (by decide)
  obtain ⟨hpauses, -, hagrees⟩ := waiting_agrees_iff plainQuestion leaving rfl
    Transition.handleMeaning?_none hprompt
  have htold := hpauses.2 (by decide)
  obtain ⟨-, hwaits⟩ := hagrees.2 nofun
  exact ⟨leaving, rfl, Transition.handleMeaning?_none, _, hprompt, htold, hwaits.2 htold⟩

/-- A message that is set to wait for the caller. -/
def hurriedMessage : Step where
  id := "m"
  type := some "message"
  data := { config := [("message", .str "Thanks for calling"), ("waitForResponse", .bool true)] }

/-- The edge waits for the caller, and the agent is told to go on at once. -/
theorem hurriedMessage_disagrees :
    ∃ l : Link, l.explicitCondition = none ∧ Transition.handleMeaning? l.sourceHandle = none ∧
      ∃ prompt, hurriedMessage.HasPrompt prompt ∧ Prompt.Proceeds prompt ∧
        Transition.ofLink (some hurriedMessage) l ≠ .unconditional := by
  let leaving : Link := { source := "m", target := "b" }
  have hprompt := hasPrompt_message (s := hurriedMessage) (by decide)
  refine ⟨leaving, rfl, Transition.handleMeaning?_none, _, hprompt, ⟨_, rfl⟩, ?_⟩
  intro hgoes
  have hwaits := Transition.waits_iff (s := hurriedMessage) (l := leaving) rfl
    Transition.handleMeaning?_none
  exact absurd (hwaits.1.1 hgoes) (by decide)

end Step

end CallFlow
