import CallFlow.Branch.Rule

/-!
# What Rules Say

A rule without a description says what its value means. Values are written as JSON values or as
texts, and mostly this makes no difference, since a value stands for its text. But a value of false
or zero passes for no value at all: such a rule says what its label means, or nothing. Only as a
text do these values count.

## Sections

1. Values that pass for none
2. What is said about a word
3. Words of rules
4. Values and their texts
-/

namespace CallFlow

/-! ## §1 Values that pass for none -/

namespace Json

/-- Truth values, numbers and texts. -/
def isScalar : Json → Bool
  | bool _ | int _ | float _ | str _ => true
  | _ => false

/-- The value is false, or a number that is zero. -/
def IsFalseOrZero (v : Json) : Prop :=
  v = bool false ∨ v = int 0 ∨ ∃ x, v = float x ∧ Decimal.isZero x = true

/-- Of the values with a text, false and zero are not given. -/
theorem isGiven_iff {v : Json} (hscalar : v.isScalar = true) (htext : v.display ≠ "") :
    v.isGiven = true ↔ ¬ v.IsFalseOrZero := by
  cases v with
  | bool b => cases b <;> simp [isGiven, IsFalseOrZero]
  | int i => simp [isGiven, IsFalseOrZero]
  | float x => simp [isGiven, IsFalseOrZero]
  | str s =>
    have hne : s ≠ "" := htext
    simp [isGiven, IsFalseOrZero, hne]
  | _ => cases hscalar

theorem displayFirst_cons (v : Json) (rest : List Json) (default : String) :
    displayFirst (v :: rest) default =
      if v.isGiven then v.display else displayFirst rest default := by
  unfold displayFirst firstGiven?
  rw [List.find?_cons]
  cases v.isGiven <;> rfl

/-- A text that is missing is as good as an empty one. -/
theorem displayFirst_ofText? (text : Option String) :
    displayFirst [ofText? text] "" = text.getD "" := by
  rw [displayFirst_cons]
  cases text with
  | none => rfl
  | some s =>
    by_cases hs : s = ""
    · rw [hs]
      rfl
    · simp [ofText?, isGiven, display, hs]

end Json

namespace BranchRule

variable {type : Option String} {word other text : String}

/-! ## §2 What is said about a word -/

/-- What a rule of some type says about a word. -/
def said (type : Option String) (word : String) : String :=
  match valueText? type (Text.lowerAscii word) with
  | some text => text
  | none => if word.isEmpty then "" else mentioned word

/-- What is said about words with a meaning of their own. -/
def meanings : List String :=
  [agreed, declined, "User sounds interested", "User sounds not interested",
    "User sounds neutral"]

theorem mem_of_valueText? (h : valueText? type word = some text) : text ∈ meanings := by
  unfold valueText? at h
  unfold meanings
  -- One case for every word of every type.
  grind

theorem prefix_mentioned (what : String) :
    "User mentioned \"".toList <+: (mentioned what).toList := by
  unfold mentioned
  rw [String.toList_append, String.toList_append, List.append_assoc]
  exact List.prefix_append _ _

/-- Whatever is mentioned, something is said. -/
theorem mentioned_ne (what : String) : mentioned what ≠ "" := by
  intro hempty
  have hbegins := prefix_mentioned what
  rw [hempty] at hbegins
  exact absurd hbegins (by decide)

theorem mentioned_injective (h : mentioned word = mentioned other) : word = other := by
  unfold mentioned at h
  rwa [String.append_left_inj, String.append_right_inj] at h

theorem valueText?_ne_mentioned (h : valueText? type word = some text) (other : String) :
    text ≠ mentioned other := by
  rintro rfl
  have hfixed : ∀ fixed ∈ meanings, ¬ "User mentioned \"".toList <+: fixed.toList := by decide
  exact hfixed _ (mem_of_valueText? h) (prefix_mentioned other)

/-- **The same is said about two words** just in case they are equal or have the same meaning. -/
theorem said_eq_iff (hother : other ≠ "") :
    said type word = said type other ↔ word = other ∨ ∃ text,
      valueText? type (Text.lowerAscii word) = some text ∧
        valueText? type (Text.lowerAscii other) = some text := by
  constructor
  · intro h
    unfold said at h
    cases hword : valueText? type (Text.lowerAscii word) with
    | some text =>
      cases hmeans : valueText? type (Text.lowerAscii other) with
      | some text' =>
        rw [hword, hmeans] at h
        exact Or.inr ⟨text, rfl, congrArg some h.symm⟩
      | none =>
        simp only [hword, hmeans, String.isEmpty_iff, hother, if_false] at h
        exact absurd h (valueText?_ne_mentioned hword other)
    | none =>
      cases hmeans : valueText? type (Text.lowerAscii other) with
      | some text =>
        exfalso
        simp only [hword, hmeans, String.isEmpty_iff] at h
        split at h
        · -- No meaning is empty.
          have hfixed := mem_of_valueText? hmeans
          rw [← h] at hfixed
          revert hfixed
          decide
        · exact valueText?_ne_mentioned hmeans word h.symm
      | none =>
        simp only [hword, hmeans, String.isEmpty_iff, hother, if_false] at h
        split at h
        · exact absurd h.symm (mentioned_ne other)
        · exact Or.inl (mentioned_injective h)
  · rintro (rfl | ⟨text, hword, hmeans⟩)
    · rfl
    · unfold said
      rw [hword, hmeans]

/-- What is a word in lower case is one as it stands. -/
theorem ne_of_lowerAscii (h : Text.lowerAscii word = other) (hother : other ≠ "") :
    word ≠ "" := by
  rintro rfl
  exact hother h.symm

/-- The types of rules whose values are answers to a yes-or-no question. -/
def AsksYesOrNo (type : Option String) : Prop := type = some "yes_no" ∨ type = some "boolean"

theorem said_of_true (htype : AsksYesOrNo type) (hword : Text.lowerAscii word = "true") :
    said type word = agreed := by
  unfold said
  rcases htype with rfl | rfl <;> rw [hword] <;> rfl

theorem valueText?_eq_declined_iff (htype : AsksYesOrNo type) :
    valueText? type word = some declined ↔ word ∈ ["no", "false"] := by
  unfold valueText?
  rcases htype with rfl | rfl <;> grind [agreed, declined]

/-- A rule says that the caller declines just in case its word is one of two. -/
theorem said_eq_declined_iff (htype : AsksYesOrNo type) :
    said type word = declined ↔ Text.lowerAscii word ∈ ["no", "false"] := by
  have hno : valueText? type (Text.lowerAscii "no") = some declined :=
    (valueText?_eq_declined_iff htype).2 (by decide)
  have hsaid : said type "no" = declined := by
    unfold said
    rw [hno]
  rw [← hsaid, said_eq_iff (by decide), hno, ← valueText?_eq_declined_iff htype]
  constructor
  · rintro (rfl | ⟨text, hword, hmeans⟩)
    · exact hno
    · exact hword.trans hmeans.symm
  · intro hword
    exact Or.inr ⟨declined, hword, rfl⟩

/-! ## §3 What rules are about -/

/-- The word that a rule is about: its value if that is given, or else its label. -/
def subject (r : BranchRule) : String :=
  if r.value.isGiven then r.value.display else r.label.getD ""

/-- **A rule without a description** says what its type makes of the word that it is about. -/
theorem text_eq_said {r : BranchRule} (h : r.description.getD "" = "") :
    r.text = said r.type r.subject := by
  have hsubject : Json.displayFirst [r.value, Json.ofText? r.label] "" = r.subject := by
    rw [Json.displayFirst_cons, Json.displayFirst_ofText?, subject]
  unfold text valueCondition said
  rw [h, hsubject]
  rfl

/-! ## §4 Values and their texts -/

/-- The rule with another value. -/
def withValue (r : BranchRule) (v : Json) : BranchRule := { r with value := v }

variable {r : BranchRule} {v : Json}

theorem text_withValue_of_given (hdescription : r.description.getD "" = "")
    (hv : v.isGiven = true) : (r.withValue v).text = said r.type v.display := by
  have hsubject : (r.withValue v).subject = v.display := if_pos hv
  rw [text_eq_said (r := r.withValue v) hdescription, hsubject]
  rfl

theorem text_withValue_of_missing (hdescription : r.description.getD "" = "")
    (hv : v.isGiven = false) : (r.withValue v).text = said r.type (r.label.getD "") := by
  have hsubject : (r.withValue v).subject = r.label.getD "" :=
    if_neg (Bool.not_eq_true _ ▸ hv)
  rw [text_eq_said (r := r.withValue v) hdescription, hsubject]
  rfl

theorem text_withValue_str (hdescription : r.description.getD "" = "") {s : String}
    (hs : s ≠ "") : (r.withValue (.str s)).text = said r.type s :=
  text_withValue_of_given hdescription (by simp [Json.isGiven, hs])

/-- **When a value means what its text means.** Take a rule without a description, and a value that
is a truth value, a number or a text. If the value is neither false nor zero, the rule says the same
of the value and of its text. If it is, the rule does not notice the value and says what it would
say without one. This is what it says of the text only if its label is the same text, or has the
same meaning. So a rule that asks yes or no takes true for a yes, whether it is written as a truth
value or as a word, but false for a no only if it is written as a word, or if the label says no. -/
theorem text_of_written_value_iff (r : BranchRule) (hdescription : r.description.getD "" = "")
    {v : Json} (hscalar : v.isScalar = true) (htext : v.display ≠ "") :
    ((r.withValue v).text = (r.withValue (.str v.display)).text ↔
      ¬ v.IsFalseOrZero ∨ r.label.getD "" = v.display ∨ ∃ text,
        valueText? r.type (Text.lowerAscii (r.label.getD "")) = some text ∧
          valueText? r.type (Text.lowerAscii v.display) = some text) ∧
    (v.IsFalseOrZero → (r.withValue v).text = (r.withValue .null).text) ∧
    (r.type = some "yes_no" ∨ r.type = some "boolean" →
      (r.withValue (.bool true)).text = "User said yes or agreed" ∧
      (∀ s, Text.lowerAscii s = "true" →
        (r.withValue (.str s)).text = "User said yes or agreed") ∧
      (∀ s, Text.lowerAscii s = "false" →
        (r.withValue (.str s)).text = "User said no or declined") ∧
      ((r.withValue (.bool false)).text = "User said no or declined" ↔
        Text.lowerAscii (r.label.getD "") ∈ ["no", "false"])) := by
  have hnotice := Json.isGiven_iff hscalar htext
  refine ⟨?_, ?_, fun htype => ⟨?_, ?_, ?_, ?_⟩⟩
  · rw [text_withValue_str hdescription htext, ← said_eq_iff htext, ← hnotice]
    cases hv : v.isGiven with
    | true => simp [text_withValue_of_given hdescription hv]
    | false => simp [text_withValue_of_missing hdescription hv]
  · intro hzero
    have hv : v.isGiven = false := by
      rw [← Bool.not_eq_true, hnotice]
      exact not_not_intro hzero
    rw [text_withValue_of_missing hdescription hv, text_withValue_of_missing hdescription rfl]
  · rw [text_withValue_of_given hdescription rfl]
    exact said_of_true htype rfl
  · intro s hs
    rw [text_withValue_str hdescription (ne_of_lowerAscii hs (by decide))]
    exact said_of_true htype hs
  · intro s hs
    rw [text_withValue_str hdescription (ne_of_lowerAscii hs (by decide))]
    refine (said_eq_declined_iff htype).2 ?_
    rw [hs]
    decide
  · rw [text_withValue_of_missing hdescription rfl]
    exact said_eq_declined_iff htype

/-- A rule that leads on if the caller declines. -/
def refusal : BranchRule := { type := some "boolean", label := some "No" }

/-- The label of the rule says what the value would say if it were noticed. -/
theorem text_of_written_value_iff_refusal :
    refusal.description.getD "" = "" ∧ (Json.bool false).isScalar = true ∧
      (Json.bool false).display ≠ "" ∧
      (refusal.withValue (.bool false)).text =
        (refusal.withValue (.str (Json.bool false).display)).text := by
  have htext : (Json.bool false).display ≠ "" := by decide
  obtain ⟨hsame, -⟩ := text_of_written_value_iff refusal rfl (v := .bool false) rfl htext
  exact ⟨rfl, rfl, htext, hsame.2 (Or.inr (Or.inr ⟨declined, by decide, by decide⟩))⟩

/-- Without the label, the rule says nothing of the value false, but declines for its text. -/
theorem unlabelled_false_unnoticed :
    ∃ r : BranchRule, r.description = none ∧ r.type = some "boolean" ∧
      (r.withValue (.bool false)).text ≠
        (r.withValue (.str (Json.bool false).display)).text :=
  ⟨{ type := some "boolean" }, rfl, rfl, by decide⟩

end BranchRule

end CallFlow
