import CallFlow.CommandLine.Arguments
import CallFlow.Json.Reader

/-!
# A Flow as an Argument

An argument that begins with a minus sign is taken for an option. The text of a flow never is: what
begins with a minus sign is a word, and a document that begins with a word is nothing but this word,
so it is no object.

## Sections

1. Complete documents
2. Documents that begin with a word
3. The argument
-/

namespace CallFlow

namespace Json

/-! ## §1 Complete documents -/

/-- Nothing is open, and no value is to come. -/
def Progress.Complete (p : Progress) : Prop := p.frames = [] ∧ p.expected = .delimiter

variable {p : Progress}

/-- A complete document takes nothing any more: no word, no text and no mark. -/
theorem Progress.Complete.refuses (h : p.Complete) :
    (∀ cs, p.word cs = .error .malformed) ∧ (∀ s, p.text s = .error .malformed) ∧
      ∀ c, p.mark c = .error .malformed := by
  obtain ⟨frames, expected, result⟩ := p
  obtain ⟨rfl, rfl⟩ : frames = [] ∧ expected = .delimiter := h
  refine ⟨fun cs => rfl, fun s => rfl, fun c => ?_⟩
  unfold mark
  split <;> simp_all [takesValue]

theorem Progress.Complete.stepBetween (h : p.Complete) {c : Char} {s : Inside × Progress}
    (hstep : Json.stepBetween p c = .ok s) : s.2 = p := by
  obtain ⟨-, -, hmark⟩ := h.refuses
  unfold Json.stepBetween at hstep
  rw [hmark] at hstep
  repeat' split at hstep
  all_goals cases hstep
  all_goals rfl

/-- Whatever character comes next, a complete document stays as it is. -/
theorem Progress.Complete.step (h : p.Complete) {inside : Inside} {c : Char}
    {s : Inside × Progress} (hstep : Json.step (inside, p) c = .ok s) : s.2 = p := by
  obtain ⟨hword, htext, -⟩ := h.refuses
  cases inside with
  | between => exact h.stepBetween hstep
  | word read =>
    simp only [Json.step, hword] at hstep
    split at hstep
    · cases hstep
    · cases hstep
      rfl
  | text read =>
    simp only [Json.step, htext] at hstep
    repeat' split at hstep
    all_goals cases hstep
    all_goals rfl
  | escape read | code read left value =>
    -- Within a text nothing is put anywhere yet.
    simp only [Json.step] at hstep
    repeat' split at hstep
    all_goals cases hstep
    all_goals rfl

/-! ## §2 Documents that begin with a word -/

/-- A document of which a word has been read and nothing besides: the word has not ended yet, or
its value is the one of the document. -/
inductive OneWord (s : Inside × Progress) : Prop where
  | reading (read : List Char) (h : s = (.word read, .start))
  | complete {cs : List Char} {v : Json} (hv : readWord cs = .ok v)
      (h : s.2 = ⟨[], .delimiter, some v⟩)

variable {s s' : Inside × Progress} {c : Char}

/-- A word that comes first is the whole document. -/
theorem exists_of_word {cs : List Char} (h : Progress.start.word cs = .ok p) :
    ∃ v, readWord cs = .ok v ∧ p = ⟨[], .delimiter, some v⟩ := by
  have hput : (readWord cs).map Progress.start.put = .ok p := h
  cases hv : readWord cs with
  | error e =>
    rw [hv] at hput
    cases hput
  | ok v =>
    rw [hv] at hput
    exact ⟨v, rfl, (Except.ok.inj hput).symm⟩

theorem OneWord.step (h : OneWord s) (hstep : Json.step s c = .ok s') : OneWord s' := by
  obtain ⟨inside, p⟩ := s
  cases h with
  | complete hv hp =>
    obtain rfl : p = _ := hp
    exact .complete hv (Progress.Complete.step ⟨rfl, rfl⟩ hstep)
  | reading read h =>
    obtain ⟨rfl, rfl⟩ := Prod.mk.inj h
    simp only [Json.step] at hstep
    split at hstep
    · -- The word ends before this character.
      cases hword : Progress.start.word read.reverse with
      | error e =>
        rw [hword] at hstep
        cases hstep
      | ok p =>
        rw [hword] at hstep
        obtain ⟨v, hv, rfl⟩ := exists_of_word hword
        exact .complete hv (Progress.Complete.stepBetween ⟨rfl, rfl⟩ hstep)
    · cases hstep
      exact .reading _ rfl

theorem OneWord.run {cs : List Char} (h : OneWord s) (hrun : cs.foldlM Json.step s = .ok s') :
    OneWord s' := by
  induction cs generalizing s with
  | nil =>
    cases hrun
    exact h
  | cons c rest ih =>
    rw [List.foldlM_cons] at hrun
    cases hstep : Json.step s c with
    | error e =>
      rw [hstep] at hrun
      cases hrun
    | ok next =>
      rw [hstep] at hrun
      exact ih (h.step hstep) hrun

theorem OneWord.finish {v : Json} (h : OneWord s) (hfinish : Json.finish s = .ok v) :
    ∃ cs, readWord cs = .ok v := by
  obtain ⟨inside, p⟩ := s
  cases h with
  | complete hv hp =>
    obtain rfl : p = _ := hp
    cases inside with
    | between =>
      cases hfinish
      exact ⟨_, hv⟩
    | word read => exact absurd hfinish nofun
    | _ => cases hfinish
  | reading read h =>
    obtain ⟨rfl, rfl⟩ := Prod.mk.inj h
    cases hword : Progress.start.word read.reverse with
    | error e =>
      simp only [Json.finish, hword] at hfinish
      cases hfinish
    | ok p =>
      obtain ⟨v', hv, rfl⟩ := exists_of_word hword
      simp only [Json.finish, hword] at hfinish
      cases hfinish
      exact ⟨_, hv⟩

/-- Words stand for scalars. -/
theorem readWord_ne_obj (cs : List Char) (m : Members) : readWord cs ≠ .ok (.obj m) := by
  have hnumber : ∀ v, number? cs = some v → v ≠ .obj m := by
    rintro v hv rfl
    unfold number? at hv
    dsimp only at hv
    split at hv
    · cases hv
    · split at hv
      · obtain ⟨n, -, h⟩ := Option.map_eq_some_iff.1 hv
        cases h
      · obtain ⟨x, -, h⟩ := Option.map_eq_some_iff.1 hv
        cases h
  intro h
  unfold readWord at h
  dsimp only at h
  repeat' split at h
  all_goals cases h
  exact hnumber _ ‹_› rfl

/-- **An object does not begin with a minus sign.** -/
theorem head?_ne_of_parse {text : String} {m : Members} (h : parse text = .ok (.obj m)) :
    text.toList.head? ≠ some '-' := by
  intro hhead
  obtain ⟨rest, hrest⟩ : ∃ rest, text.toList = '-' :: rest := by
    cases hlist : text.toList with
    | nil => simp [hlist] at hhead
    | cons c rest =>
      rw [hlist] at hhead
      exact ⟨rest, by rw [Option.some.inj hhead]⟩
  unfold parse at h
  rw [hrest] at h
  have hfirst : ('-' :: rest).foldlM step (.between, Progress.start) =
      rest.foldlM step (.word ['-'], Progress.start) := rfl
  rw [hfirst] at h
  cases hrun : rest.foldlM step (.word ['-'], Progress.start) with
  | error e =>
    rw [hrun] at h
    cases h
  | ok s =>
    rw [hrun] at h
    obtain ⟨cs, hcs⟩ := (OneWord.run (.reading ['-'] rfl) hrun).finish h
    exact readWord_ne_obj cs m hcs

/-- An object is not written in an empty text. -/
theorem not_isEmpty_of_parse {text : String} {m : Members} (h : parse text = .ok (.obj m)) :
    text.isEmpty = false := by
  rw [Bool.eq_false_iff]
  intro hempty
  rw [String.isEmpty_iff.1 hempty] at h
  cases h

end Json

/-! ## §3 The argument -/

namespace CommandLine

/-- The arguments that name a flow by its text, and ask for a strict compilation or not. -/
def flowArguments (text : String) (strict : Bool) : List String :=
  ["--flow-json", text] ++ if strict then ["--strict"] else []

theorem classify_of_head {argument : String} (h : argument.toList.head? ≠ some '-') :
    classify argument = .plain argument := by
  unfold classify
  have hmark : argument ≠ "--" := by
    rintro rfl
    exact h rfl
  rw [if_neg hmark]
  simp [h]

/-- **The command line reads the text of a flow as it is.** -/
theorem read_flowArguments {text : String} {m : Members} (h : Json.parse text = .ok (.obj m))
    (strict : Bool) :
    read (flowArguments text strict) = .order { flowJson := some text, strict } := by
  have hflow : classify "--flow-json" = .option "--flow-json" .flowJson none := by decide
  have htext : classify text = .plain text := classify_of_head (Json.head?_ne_of_parse h)
  have hstrict : classify "--strict" = .option "--strict" .strict none := by decide
  cases strict <;>
    simp [read, flowArguments, classifyAll, hflow, htext, hstrict, readArguments, Order.add,
      Switch.takesValue]

end CommandLine

end CallFlow
