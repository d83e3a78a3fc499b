import CallFlow.Proofs.Scripts

/-!
# Quoted Lines

An edge that waits after a question, a message or a greeting quotes the line that the agent speaks
there, so that only an answer to this line counts. The line is picked from the settings of the step
twice, once for the script and once for the quotation, and each time the first name counts that has
a value. For greetings the names are the same. For messages and questions they are not, and so the
agent may speak one line while the edge waits for an answer to another.

## Sections

1. Texts that quote
2. What is quoted
3. What is spoken
4. Quoted and spoken
-/

namespace CallFlow

theorem Json.firstGiven?_nil : firstGiven? [] = none := rfl

theorem Json.firstGiven?_cons (v : Json) (rest : List Json) :
    firstGiven? (v :: rest) = if v.isGiven then some v else firstGiven? rest := by
  cases hv : v.isGiven <;> simp [firstGiven?, hv]

/-! ## §1 Texts that quote -/

namespace Transition

/-- What an edge waits for that quotes a question. -/
def askedText (quoted : String) : String :=
  "The agent just asked: \"" ++ quoted ++
  "\" and the user has now responded specifically to THIS question. The user's response " ++
  "directly addresses what was just asked. Proceed only after the user responds to this " ++
  "specific question."

/-- What an edge waits for that quotes a message. -/
def saidText (quoted : String) : String :=
  "The agent said: \"" ++ quoted ++
  "...\" and is waiting for the user to respond before proceeding. Wait for the user to speak."

/-- The condition quotes the text as what the agent has asked or said. -/
inductive Quotes : Condition → String → Prop where
  | question (quoted : String) : Quotes (.llm (askedText quoted)) quoted
  | message (quoted : String) : Quotes (.llm (saidText quoted)) quoted

theorem quotes_llm {text quoted : String} :
    Quotes (.llm text) quoted ↔ text = askedText quoted ∨ text = saidText quoted := by
  constructor
  · intro h
    cases h with
    | question => exact Or.inl rfl
    | message => exact Or.inr rfl
  · rintro (rfl | rfl)
    · exact .question quoted
    · exact .message quoted

theorem not_quotes_unconditional {quoted : String} : ¬ Quotes .unconditional quoted := nofun

theorem prefix_askedText (quoted : String) :
    "The agent just asked: \"".toList <+: (askedText quoted).toList := by
  unfold askedText
  simp only [String.toList_append, List.append_assoc]
  exact List.prefix_append _ _

theorem prefix_saidText (quoted : String) :
    "The agent said: \"".toList <+: (saidText quoted).toList := by
  unfold saidText
  simp only [String.toList_append, List.append_assoc]
  exact List.prefix_append _ _

theorem askedText_ne_saidText (quoted other : String) : askedText quoted ≠ saidText other :=
  ne_of_beginnings (prefix_askedText quoted) (prefix_saidText other) (by decide) (by decide)

theorem askedText_injective {quoted other : String} (h : askedText quoted = askedText other) :
    quoted = other := by
  unfold askedText at h
  rwa [String.append_left_inj, String.append_left_inj, String.append_left_inj,
    String.append_right_inj] at h

theorem saidText_injective {quoted other : String} (h : saidText quoted = saidText other) :
    quoted = other := by
  unfold saidText at h
  rwa [String.append_left_inj, String.append_right_inj] at h

/-- A question is quoted by its beginning and nothing else. -/
theorem quotes_questionCondition {line quoted : String} :
    Quotes (.llm (questionCondition line)) quoted ↔ quoted = quote questionQuoteLength line := by
  have hsame : questionCondition line = askedText (quote questionQuoteLength line) := by
    unfold questionCondition askedText
    rfl
  rw [quotes_llm, hsame]
  constructor
  · rintro (h | h)
    · exact (askedText_injective h).symm
    · exact absurd h (askedText_ne_saidText _ _)
  · rintro rfl
    exact Or.inl rfl

theorem quotes_messageCondition {line quoted : String} :
    Quotes (.llm (messageCondition line)) quoted ↔ quoted = quote messageQuoteLength line := by
  have hsame : messageCondition line = saidText (quote messageQuoteLength line) := by
    unfold messageCondition saidText
    rfl
  rw [quotes_llm, hsame]
  constructor
  · rintro (h | h)
    · exact absurd h.symm (askedText_ne_saidText _ _)
    · exact (saidText_injective h).symm
  · rintro rfl
    exact Or.inr rfl

/-- A condition that speaks of the caller first quotes nothing. -/
theorem not_quotes_of_prefix {text quoted : String} (h : "The user".toList <+: text.toList) :
    ¬ Quotes (.llm text) quoted := by
  rw [quotes_llm]
  rintro (hasked | hsaid)
  · exact ne_of_beginnings h (prefix_askedText quoted) (by decide) (by decide) hasked
  · exact ne_of_beginnings h (prefix_saidText quoted) (by decide) (by decide) hsaid

theorem not_quotes_questionAnswered {quoted : String} :
    ¬ Quotes (.llm questionAnswered) quoted :=
  not_quotes_of_prefix prefix_questionAnswered

theorem not_quotes_anyResponse {quoted : String} : ¬ Quotes (.llm anyResponse) quoted :=
  not_quotes_of_prefix prefix_anyResponse

/-! ## §2 What is quoted -/

/-- The steps whose lines are quoted. -/
def quotesLines : Category → Bool
  | .question | .message | .greeting => true
  | _ => false

/-- The settings that may hold the line to quote; the first one with a value counts. -/
def quotedNames : Category → List String
  | .question => ["message", "question", "text"]
  | _ => ["message", "text"]

/-- How much of the line is quoted. -/
def quoteLength : Category → Nat
  | .question => questionQuoteLength
  | _ => messageQuoteLength

variable {s : Step} {l : Link} {quoted : String}

theorem quotes_waitText (hcategory : quotesLines s.category = true) :
    Quotes (.llm (waitText s.category s.config)) quoted ↔
      ∃ v, Json.givenMember? s.config (quotedNames s.category) = some v ∧
        quoted = quote (quoteLength s.category) v.display := by
  cases hc : s.category with
  | question =>
    cases hv : Json.givenMember? s.config ["message", "question", "text"] with
    | none => simp [waitText, quotedNames, hv, not_quotes_questionAnswered]
    | some v =>
      simp [waitText, quotedNames, quoteLength, hv, quotes_questionCondition]
  | message | greeting =>
    cases hv : Json.givenMember? s.config ["message", "text"] with
    | none => simp [waitText, quotedNames, hv, not_quotes_anyResponse]
    | some v => simp [waitText, quotedNames, quoteLength, hv, quotes_messageCondition]
  | _ =>
    rw [hc] at hcategory
    cases hcategory

/-- Some value is given just in case one of the settings has one. -/
theorem givenMember?_isSome {names : List String} :
    (Json.givenMember? s.config names).isSome = true ↔
      ∃ name ∈ names, (s.setting name).isGiven = true := by
  simp [Json.givenMember?, Json.firstGiven?, Step.setting]

/-- **What an edge quotes**: nothing if it does not wait, and otherwise the beginning of the first
value among the settings for it. -/
theorem quotes_iff (hcategory : quotesLines s.category = true)
    (hexplicit : l.explicitCondition = none) (hhandle : handleMeaning? l.sourceHandle = none) :
    Quotes (ofLink (some s) l) quoted ↔
      waitsForResponse s.category s.config = true ∧
        ∃ v, Json.givenMember? s.config (quotedNames s.category) = some v ∧
          quoted = quote (quoteLength s.category) v.display := by
  rw [ofLink_of_plain hexplicit hhandle]
  cases waitsForResponse s.category s.config with
  | false => simp [not_quotes_unconditional]
  | true => simp [quotes_waitText hcategory]

end Transition

/-! ## §3 What is spoken -/

namespace Prompt

/-- The prompt orders the agent to say the line. -/
inductive Orders : String → String → Prop where
  | proceed (line : String) : Orders (sayAndProceed line) line
  | question (line : String) : Orders (ask line) line

theorem orders_sayAndProceed {line other : String} :
    Orders (sayAndProceed line) other ↔ other = line := by
  constructor
  · generalize hprompt : sayAndProceed line = prompt
    intro h
    cases h with
    | proceed => exact (sayAndProceed_injective hprompt).symm
    | question => exact absurd ⟨line, hprompt.symm⟩ (Pauses.question other).not_proceeds
  · rintro rfl
    exact .proceed other

theorem orders_ask {line other : String} : Orders (ask line) other ↔ other = line := by
  constructor
  · generalize hprompt : ask line = prompt
    intro h
    cases h with
    | proceed => exact absurd ⟨other, hprompt⟩ (Pauses.question line).not_proceeds
    | question => exact (ask_injective hprompt).symm
  · rintro rfl
    exact .question other

end Prompt

namespace Step

variable {s : Step} {l : Link}

/-- The script of the step orders the agent to say the line. -/
def Speaks (s : Step) (line : String) : Prop :=
  ∃ prompt, s.HasPrompt prompt ∧ Prompt.Orders prompt line

/-- The settings that may hold the line to speak; the first one with a value counts. -/
def spokenNames : Category → List String
  | .question => ["question", "message"]
  | .message => ["message"]
  | _ => ["message", "text"]

/-- What is spoken where no setting has a value. -/
def defaultLine : Category → String
  | .question => "How can I help you?"
  | .message => "Hello"
  | _ => "How may I assist you?"

/-- What the agent is ordered to say. -/
def spokenLine (s : Step) : String :=
  s.settingText (spokenNames s.category) (defaultLine s.category)

/-- **What a step speaks** is one line: the first value among the settings for it. -/
theorem speaks_iff (hcategory : Transition.quotesLines s.category = true) {line : String} :
    s.Speaks line ↔ line = s.spokenLine := by
  -- A step has one prompt, so it is enough to look at the line in it.
  have hline : ∀ prompt, s.HasPrompt prompt →
      (Prompt.Orders prompt line ↔ line = s.spokenLine) →
      (s.Speaks line ↔ line = s.spokenLine) := by
    intro prompt hprompt horders
    rw [← horders]
    constructor
    · rintro ⟨other, hother, h⟩
      exact hprompt.unique hother ▸ h
    · intro h
      exact ⟨prompt, hprompt, h⟩
  cases hc : s.category with
  | question =>
    refine hline _ (hasPrompt_question hc) ?_
    rw [Prompt.orders_ask, spokenLine, hc]
    rfl
  | message =>
    refine hline _ (hasPrompt_message hc) ?_
    rw [Prompt.orders_sayAndProceed, spokenLine, hc]
    rfl
  | greeting =>
    refine hline _ (hasPrompt_unrecognized (Or.inl hc)) ?_
    rw [Prompt.orders_sayAndProceed, spokenLine, hc]
    rfl
  | _ =>
    rw [hc] at hcategory
    cases hcategory

/-! ## §4 Quoted and spoken -/

open Transition

/-- The step speaks one line and another one is quoted. -/
inductive Misquoted (s : Step) : Prop where
  /-- A question is spoken, and the message beside it is quoted. -/
  | message (hcategory : s.category = .question)
      (hmessage : (s.setting "message").isGiven = true)
      (hquestion : (s.setting "question").isGiven = true)
      (hdiffer : quote questionQuoteLength (s.setting "message").display ≠
        quote questionQuoteLength (s.setting "question").display)
  /-- The text of a question is quoted, and is not among what may be spoken. -/
  | questionText (hcategory : s.category = .question)
      (hmessage : (s.setting "message").isGiven = false)
      (hquestion : (s.setting "question").isGiven = false)
      (htext : (s.setting "text").isGiven = true)
      (hdiffer : quote questionQuoteLength (s.setting "text").display ≠
        quote questionQuoteLength (defaultLine .question))
  /-- The text of a message is quoted, and is not among what may be spoken. -/
  | messageText (hcategory : s.category = .message)
      (hmessage : (s.setting "message").isGiven = false)
      (htext : (s.setting "text").isGiven = true)
      (hdiffer : quote messageQuoteLength (s.setting "text").display ≠
        quote messageQuoteLength (defaultLine .message))

theorem misquoted_question (hcategory : s.category = .question) :
    s.Misquoted ↔
      ((s.setting "message").isGiven = true ∧ (s.setting "question").isGiven = true ∧
        quote questionQuoteLength (s.setting "message").display ≠
          quote questionQuoteLength (s.setting "question").display) ∨
      ((s.setting "message").isGiven = false ∧ (s.setting "question").isGiven = false ∧
        (s.setting "text").isGiven = true ∧
        quote questionQuoteLength (s.setting "text").display ≠
          quote questionQuoteLength (defaultLine .question)) := by
  constructor
  · rintro (⟨-, hmessage, hquestion, hdiffer⟩ | ⟨-, hmessage, hquestion, htext, hdiffer⟩ |
      ⟨hother, -, -, -⟩)
    · exact Or.inl ⟨hmessage, hquestion, hdiffer⟩
    · exact Or.inr ⟨hmessage, hquestion, htext, hdiffer⟩
    · rw [hcategory] at hother
      cases hother
  · rintro (⟨hmessage, hquestion, hdiffer⟩ | ⟨hmessage, hquestion, htext, hdiffer⟩)
    · exact .message hcategory hmessage hquestion hdiffer
    · exact .questionText hcategory hmessage hquestion htext hdiffer

theorem misquoted_message (hcategory : s.category = .message) :
    s.Misquoted ↔
      (s.setting "message").isGiven = false ∧ (s.setting "text").isGiven = true ∧
        quote messageQuoteLength (s.setting "text").display ≠
          quote messageQuoteLength (defaultLine .message) := by
  constructor
  · rintro (⟨hother, -, -, -⟩ | ⟨hother, -, -, -, -⟩ | ⟨-, hmessage, htext, hdiffer⟩)
    · rw [hcategory] at hother
      cases hother
    · rw [hcategory] at hother
      cases hother
    · exact ⟨hmessage, htext, hdiffer⟩
  · rintro ⟨hmessage, htext, hdiffer⟩
    exact .messageText hcategory hmessage htext hdiffer

theorem not_misquoted_greeting (hcategory : s.category = .greeting) : ¬ s.Misquoted := by
  rintro (⟨hother, -, -, -⟩ | ⟨hother, -, -, -, -⟩ | ⟨hother, -, -, -⟩) <;>
  · rw [hcategory] at hother
    cases hother

/-- The quoted value is the spoken line unless the step is misquoted. -/
theorem quote_eq_spokenLine_iff (hcategory : quotesLines s.category = true) {v : Json}
    (hv : Json.givenMember? s.config (quotedNames s.category) = some v) :
    quote (quoteLength s.category) v.display =
        quote (quoteLength s.category) s.spokenLine ↔ ¬ s.Misquoted := by
  have hsetting : Json.member s.config = s.setting := rfl
  rw [Json.givenMember?, hsetting] at hv
  unfold spokenLine settingText Json.displayFirst
  -- Which of the settings have a value decides what either look-up finds.
  cases hc : s.category with
  | question =>
    rw [misquoted_question hc]
    rw [hc] at hv
    cases hmessage : (s.setting "message").isGiven <;>
      cases hquestion : (s.setting "question").isGiven <;>
      cases htext : (s.setting "text").isGiven <;>
      simp_all [quotedNames, quoteLength, spokenNames,
        Json.firstGiven?_cons, Json.firstGiven?_nil]
  | message =>
    rw [misquoted_message hc]
    rw [hc] at hv
    cases hmessage : (s.setting "message").isGiven <;>
      cases htext : (s.setting "text").isGiven <;>
      simp_all [quotedNames, quoteLength, spokenNames,
        Json.firstGiven?_cons, Json.firstGiven?_nil]
  | greeting =>
    -- The same names are looked up for both.
    rw [hc] at hv
    have hsame : (Json.firstGiven? ((spokenNames .greeting).map s.setting)) = some v := hv
    simp [hsame, not_misquoted_greeting hc]
  | _ =>
    rw [hc] at hcategory
    cases hcategory

/-- **The line that is quoted is the line that is spoken, but for three kinds of settings.** A
question, a message or a greeting speaks one line. An edge that has no other reason to wait quotes
a line if the step waits and has a value for one. What it quotes is the beginning of the line that
is spoken, unless a question stands beside a message, or nothing but a text is there. -/
theorem quoted_line_is_spoken_iff (s : Step) (l : Link)
    (hcategory : s.category = .question ∨ s.category = .message ∨ s.category = .greeting)
    (hexplicit : l.explicitCondition = none) (hhandle : handleMeaning? l.sourceHandle = none) :
    ∃ line, (∀ other, s.Speaks other ↔ other = line) ∧
      ((∃ quoted, Quotes (ofLink (some s) l) quoted) ↔
        waitsForResponse s.category s.config = true ∧
          ∃ name ∈ quotedNames s.category, (s.setting name).isGiven = true) ∧
      ∀ quoted, Quotes (ofLink (some s) l) quoted →
        (quoted = quote (quoteLength s.category) line ↔ ¬ s.Misquoted) := by
  have hquotes : quotesLines s.category = true := by
    rcases hcategory with hc | hc | hc <;>
    · rw [hc]
      rfl
  refine ⟨s.spokenLine, fun other => speaks_iff hquotes, ?_, ?_⟩
  · constructor
    · rintro ⟨quoted, h⟩
      obtain ⟨hwaits, v, hv, -⟩ := (quotes_iff hquotes hexplicit hhandle).1 h
      exact ⟨hwaits, givenMember?_isSome.1 (Option.isSome_of_eq_some hv)⟩
    · rintro ⟨hwaits, hgiven⟩
      obtain ⟨v, hv⟩ := Option.isSome_iff_exists.1 (givenMember?_isSome.2 hgiven)
      exact ⟨_, (quotes_iff hquotes hexplicit hhandle).2 ⟨hwaits, v, hv, rfl⟩⟩
  · intro quoted h
    obtain ⟨-, v, hv, rfl⟩ := (quotes_iff hquotes hexplicit hhandle).1 h
    exact quote_eq_spokenLine_iff hquotes hv

/-- A question whose name for the line is the usual one. -/
def nameQuestion : Step where
  id := "q"
  type := some "question"
  data := { config := [("question", .str "What is your \"name\"?")] }

/-- The question is quoted as it is spoken, but for the quotes. -/
theorem quoted_line_is_spoken_iff_name :
    ∃ l : Link, ∃ line, nameQuestion.Speaks line ∧
      Quotes (ofLink (some nameQuestion) l) (quote questionQuoteLength line) := by
  let leaving : Link := { source := "q", target := "b" }
  obtain ⟨line, hspeaks, hquotes, hsame⟩ :=
    quoted_line_is_spoken_iff nameQuestion leaving (Or.inl (by decide)) rfl handleMeaning?_none
  obtain ⟨quoted, h⟩ := hquotes.2 ⟨by decide, "question", by decide, by decide⟩
  have hnot : ¬ nameQuestion.Misquoted := by
    rw [misquoted_question (by decide)]
    decide
  refine ⟨leaving, line, (hspeaks line).2 rfl, ?_⟩
  have hquoted : quoted = quote questionQuoteLength line := (hsame quoted h).2 hnot
  rwa [← hquoted]

/-- A question with a message beside it. -/
def politeQuestion : Step where
  id := "q"
  type := some "question"
  data := { config := [("message", .str "Hi"), ("question", .str "Your name?")] }

/-- The agent is told to ask the question, and the edge quotes the message. -/
theorem politeQuestion_misquoted :
    ∃ l : Link, l.explicitCondition = none ∧ handleMeaning? l.sourceHandle = none ∧
      politeQuestion.Speaks "Your name?" ∧ Quotes (ofLink (some politeQuestion) l) "Hi" ∧
        "Hi" ≠ quote questionQuoteLength "Your name?" := by
  let leaving : Link := { source := "q", target := "b" }
  refine ⟨leaving, rfl, handleMeaning?_none, ?_, ?_, by decide⟩
  · rw [speaks_iff (by decide)]
    decide
  · rw [quotes_iff (s := politeQuestion) (l := leaving) (by decide) rfl handleMeaning?_none]
    exact ⟨by decide, .str "Hi", rfl, by decide⟩

end Step

end CallFlow
