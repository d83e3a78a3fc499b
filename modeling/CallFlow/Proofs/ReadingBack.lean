import CallFlow.Proofs.PrintedLines
import CallFlow.Proofs.Tables
import CallFlow.Proofs.WholeNumbers

/-!
# Documents Are Read Back

A value that is written on one line is read back as it was. The reader goes over the document one
character at a time, so every statement here says where a piece of text takes it. A word or a number
has no end of its own: after its last character the reader is where it is after the value, as far as
any mark that may follow can tell (`Ends`).

Numbers with a point are left aside, and so are whole numbers with more digits than are read. Names
of members have to be distinct, since the reader keeps one member for each name.

## Sections

1. Values that are read back
2. Runs of the reader
3. Texts
4. Words
5. Lists and objects
6. Members in order of their names
-/

namespace CallFlow.Json

/-! ## §1 Values that are read back -/

/-- Whether a value is no number with a point, and no object with a name that occurs twice. -/
def isFaithfulPart : Json → Bool
  | float _ => false
  | obj members => (Table.names members).Nodup
  | _ => true

/-- Whether a value is told apart from every other by its document: it holds no number with a point,
and no object with a name that occurs twice. -/
def isFaithful (v : Json) : Bool := everywhere isFaithfulPart v

@[simp] theorem isFaithful_int (i : Int) : (int i).isFaithful = true := rfl

@[simp] theorem isFaithful_str (s : String) : (str s).isFaithful = true := rfl

@[simp] theorem isFaithful_ofText? (s : Option String) : (ofText? s).isFaithful = true := by
  cases s <;> rfl

theorem isFaithful_arr {items : List Json} :
    (arr items).isFaithful = true ↔ ∀ v ∈ items, v.isFaithful = true := by
  simp [isFaithful, everywhere, isFaithfulPart, everywhereItems_iff]

theorem isFaithful_obj {members : Members} :
    (obj members).isFaithful = true ↔
      (Table.names members).Nodup ∧ ∀ m ∈ members, m.2.isFaithful = true := by
  simp [isFaithful, everywhere, isFaithfulPart, everywhereMembers_iff]

@[simp] theorem isFaithful_ofTexts (texts : List String) : (ofTexts texts).isFaithful = true := by
  simp [ofTexts, isFaithful_arr]

/-! ## §2 Runs of the reader -/

/-- The characters take the reader from one place to another. -/
def Reads (s : Inside × Progress) (cs : List Char) (s' : Inside × Progress) : Prop :=
  cs.foldlM step s = .ok s'

namespace Reads

variable {s s' s'' : Inside × Progress} {c : Char} {cs ds : List Char}

theorem nil : Reads s [] s := rfl

theorem cons (hstep : step s c = .ok s') (hrest : Reads s' cs s'') : Reads s (c :: cs) s'' := by
  unfold Reads
  rw [List.foldlM_cons, hstep]
  exact hrest

theorem single (hstep : step s c = .ok s') : Reads s [c] s' := cons hstep nil

theorem append (h : Reads s cs s') (h' : Reads s' ds s'') : Reads s (cs ++ ds) s'' := by
  unfold Reads
  rw [List.foldlM_append, show cs.foldlM step s = .ok s' from h]
  exact h'

end Reads

/-- The reader cannot tell the place from one between values, whatever mark comes next. -/
structure Ends (s : Inside × Progress) (p : Progress) : Prop where
  mark : ∀ c, isMark c = true → step s c = stepBetween p c
  finish : finish s = Json.finish (.between, p)

theorem ends_between (p : Progress) : Ends (.between, p) p where
  mark := fun _ _ => rfl
  finish := rfl

/-! ## §3 Texts -/

/-- The UTF-16 units of a character. -/
def units (c : Char) : List Nat :=
  if c.toNat < 0x10000 then [c.toNat]
  else [0xD800 + (c.toNat - 0x10000) / 0x400, 0xDC00 + (c.toNat - 0x10000) % 0x400]

theorem not_surrogate (c : Char) : ¬ (0xD800 ≤ c.toNat ∧ c.toNat < 0xE000) := by
  rintro ⟨hlow, hhigh⟩
  rcases c.valid with h | ⟨h, -⟩
  · exact absurd (show c.toNat < 0xD800 from h) (by omega)
  · exact absurd (show 0xDFFF < c.toNat from h) (by omega)

theorem toNat_lt (c : Char) : c.toNat < 0x110000 := by
  rcases c.valid with h | ⟨-, h⟩
  · exact Nat.lt_trans (show c.toNat < 0xD800 from h) (by omega)
  · exact h

/-- **Units are joined to the characters that they come from.** -/
theorem joinSurrogates_units (cs : List Char) : joinSurrogates (cs.flatMap units) = cs := by
  induction cs with
  | nil => rfl
  | cons c rest ih =>
    have hsurrogate := not_surrogate c
    have hbound := toNat_lt c
    rw [List.flatMap_cons]
    by_cases hsmall : c.toNat < 0x10000
    · -- The unit is no surrogate, so it stands for the character whatever comes next.
      have hhigh : isHighSurrogate c.toNat = false := by
        simp only [isHighSurrogate, Bool.and_eq_false_iff, decide_eq_false_iff_not]
        omega
      have hlow : isLowSurrogate c.toNat = false := by
        simp only [isLowSurrogate, Bool.and_eq_false_iff, decide_eq_false_iff_not]
        omega
      rw [units, if_pos hsmall, List.singleton_append]
      cases hrest : rest.flatMap units with
      | nil =>
        rw [hrest] at ih
        simp [joinSurrogates, hhigh, hlow, ← ih]
      | cons next more =>
        rw [hrest] at ih
        simp [joinSurrogates, hhigh, hlow, ih]
    · have hhigh : isHighSurrogate (0xD800 + (c.toNat - 0x10000) / 0x400) = true := by
        simp only [isHighSurrogate, Bool.and_eq_true, decide_eq_true_eq]
        omega
      have hlow : isLowSurrogate (0xDC00 + (c.toNat - 0x10000) % 0x400) = true := by
        simp only [isLowSurrogate, Bool.and_eq_true, decide_eq_true_eq]
        omega
      have hcode : 0x10000 + (0xD800 + (c.toNat - 0x10000) / 0x400 - 0xD800) * 0x400 +
          (0xDC00 + (c.toNat - 0x10000) % 0x400 - 0xDC00) = c.toNat := by
        omega
      rw [units, if_neg hsmall, List.cons_append, List.singleton_append, joinSurrogates, hhigh,
        hlow, Bool.and_self, if_pos rfl, hcode, Char.ofNat_toNat, ih]

variable {p : Progress} {read : List Nat}

theorem hexValue?_digitChar : ∀ d < 16, hexValue? d.digitChar = some d := by decide

/-- Four hexadecimal digits are read as a unit. -/
theorem reads_unitEscape {n : Nat} (hn : n < 0x10000) :
    Reads (.text read, p) (unitEscape n) (.text (n :: read), p) := by
  have hdigit : ∀ m, hexValue? (m % 16).digitChar = some (m % 16) := fun m =>
    hexValue?_digitChar _ (Nat.mod_lt m (by omega))
  have hvalue : 16 * (16 * (16 * (16 * 0 + n / 16 / 16 / 16 % 16) + n / 16 / 16 % 16) +
      n / 16 % 16) + n % 16 = n := by omega
  have hdigits : Text.hexDigits 4 n = [(n / 16 / 16 / 16 % 16).digitChar,
      (n / 16 / 16 % 16).digitChar, (n / 16 % 16).digitChar, (n % 16).digitChar] := rfl
  rw [unitEscape, hdigits]
  refine .cons rfl (.cons rfl ?_)
  have hcode : ∀ left value m, step (.code read (left + 2) value, p) (m % 16).digitChar =
      .ok (.code read (left + 1) (16 * value + m % 16), p) := by
    intro left value m
    simp only [step, hdigit]
    exact if_neg (by omega)
  refine .cons (hcode 2 0 _) (.cons (hcode 1 _ _) (.cons (hcode 0 _ _) (.single ?_)))
  simp only [step, hdigit, hvalue]
  rfl

theorem units_of_lt {c : Char} (h : c.toNat < 0x10000) : units c = [c.toNat] := if_pos h

/-- A character with an escape of its own. -/
theorem reads_simpleEscape {c e : Char} (hunit : e ≠ 'u')
    (hescape : simpleEscape? e = some c.toNat) (hsmall : c.toNat < 0x10000) :
    Reads (.text read, p) ['\\', e] (.text ((units c).reverse ++ read), p) := by
  refine .cons rfl (.single ?_)
  simp only [step, if_neg hunit, hescape, units_of_lt hsmall]
  rfl

/-- **A character is read back from its escape.** -/
theorem reads_escapeChar (c : Char) :
    Reads (.text read, p) (escapeChar c) (.text ((units c).reverse ++ read), p) := by
  unfold escapeChar
  split
  · rename_i hmark
    simp only [Bool.or_eq_true, decide_eq_true_eq] at hmark
    rcases hmark with rfl | rfl <;> exact reads_simpleEscape (by decide) rfl (by decide)
  rename_i hmark
  split
  · rename_i h
    subst h
    exact reads_simpleEscape (by decide) rfl (by decide)
  split
  · rename_i h
    subst h
    exact reads_simpleEscape (by decide) rfl (by decide)
  split
  · rename_i h
    subst h
    exact reads_simpleEscape (by decide) rfl (by decide)
  split
  · rename_i h
    exact reads_simpleEscape (by decide) (by rw [h]; rfl) (by omega)
  split
  · rename_i h
    exact reads_simpleEscape (by decide) (by rw [h]; rfl) (by omega)
  dsimp only
  split
  · -- The character stands for itself.
    rename_i hprinted
    simp only [Bool.and_eq_true, decide_eq_true_eq] at hprinted
    simp only [Bool.or_eq_true, decide_eq_true_eq, not_or] at hmark
    have hlow : ¬ c.toNat < 0x20 := by omega
    have hsmall : c.toNat < 0x10000 := by omega
    rw [units_of_lt hsmall]
    refine .single ?_
    simp only [step, if_neg hmark.1, if_neg hmark.2, if_neg hlow]
    rfl
  split
  · rename_i hsmall
    rw [units_of_lt hsmall]
    exact reads_unitEscape hsmall
  · rename_i hsmall
    have hbound := toNat_lt c
    rw [units, if_neg hsmall]
    exact (reads_unitEscape (by omega)).append (reads_unitEscape (by omega))

theorem reads_escapes (cs : List Char) :
    Reads (.text read, p) (cs.flatMap escapeChar)
      (.text ((cs.flatMap units).reverse ++ read), p) := by
  induction cs generalizing read with
  | nil => exact .nil
  | cons c rest ih =>
    rw [List.flatMap_cons, List.flatMap_cons, List.reverse_append, List.append_assoc]
    exact (reads_escapeChar c).append ih

/-- **A text is read back**, and put where a text may stand. -/
theorem reads_writeText {s : String} {p' : Progress} (htext : p.text s = .ok p') :
    Reads (.between, p) (writeText s).toList (.between, p') := by
  rw [writeText, String.toList_ofList]
  have hopen : step (.between, p) '"' = .ok (.text [], p) := rfl
  refine .cons hopen ((reads_escapes s.toList).append (.single ?_))
  simp only [step, if_true, List.append_nil, List.reverse_reverse, joinSurrogates_units,
    String.ofList_toList, htext]
  rfl

/-! ## §4 Words -/

/-- A character that goes on with a word. -/
def IsWordChar (c : Char) : Prop := (isLayout c || isMark c || c = '"') = false

instance (c : Char) : Decidable (IsWordChar c) := inferInstanceAs (Decidable (_ = _))

/-- Characters that go on with a word. -/
def IsWord (cs : List Char) : Prop := ∀ c ∈ cs, IsWordChar c

instance (cs : List Char) : Decidable (IsWord cs) :=
  (List.decidableBAll IsWordChar cs : Decidable (∀ c ∈ cs, IsWordChar c))

theorem reads_word {cs read : List Char} (h : IsWord cs) :
    Reads (.word read, p) cs (.word (cs.reverse ++ read), p) := by
  induction cs generalizing read with
  | nil => exact .nil
  | cons c rest ih =>
    have hc : (isLayout c || isMark c || c = '"') = false := h c (List.mem_cons_self ..)
    rw [List.reverse_cons, List.append_assoc]
    refine .cons ?_ (ih fun d hd => h d (List.mem_cons_of_mem _ hd))
    simp only [step, hc]
    rfl

/-- **A word is read back**, and put where a value may stand. -/
theorem reads_value {cs : List Char} {v : Json} (hne : cs ≠ []) (h : IsWord cs)
    (hvalue : readWord cs = .ok v) (hp : p.takesValue = true) :
    ∃ s, Reads (.between, p) cs s ∧ Ends s (p.put v) := by
  have hword : p.word cs = .ok (p.put v) := by
    rw [Progress.word, if_pos hp, hvalue]
    rfl
  refine ⟨(.word cs.reverse, p), ?_, fun c hc => ?_, ?_⟩
  · obtain ⟨c, rest, rfl⟩ := List.exists_cons_of_ne_nil hne
    have hc : (isLayout c || isMark c || c = '"') = false := h c (List.mem_cons_self ..)
    simp only [Bool.or_eq_false_iff, decide_eq_false_iff_not] at hc
    rw [List.reverse_cons]
    refine .cons ?_ (reads_word fun d hd => h d (List.mem_cons_of_mem _ hd))
    simp only [step, stepBetween, hc.1.1, hc.1.2, if_neg hc.2]
    rfl
  · simp only [step, hc, Bool.or_true, Bool.true_or, if_true, List.reverse_reverse, hword]
    rfl
  · simp only [finish, List.reverse_reverse, hword]
    rfl

/-- No layout, mark or quote is a digit or a sign. -/
theorem isWordChar_of_digit {c : Char} (h : c = '-' ∨ c.isDigit = true) : IsWordChar c := by
  unfold IsWordChar isLayout isMark
  rw [Bool.eq_false_iff]
  intro hother
  simp only [Bool.or_eq_true, decide_eq_true_eq] at hother
  rcases hother with (hlayout | hmark) | rfl
  · rcases hlayout with ((rfl | rfl) | rfl) | rfl <;> exact absurd h (by decide)
  · rcases hmark with ((((rfl | rfl) | rfl) | rfl) | rfl) | rfl <;> exact absurd h (by decide)
  · exact absurd h (by decide)

/-- **A scalar is read back.** -/
theorem reads_writeScalar {v : Json} (hfaithful : v.isFaithful = true)
    (hwritable : v.isWritable = true) (harr : ∀ items, v ≠ arr items) (hobj : ∀ members, v ≠ obj members)
    (hp : p.takesValue = true) :
    ∃ s, Reads (.between, p) (writeScalar v).toList s ∧ Ends s (p.put v) := by
  cases v with
  | null => exact reads_value (by decide) (by decide) rfl hp
  | bool b =>
    cases b
    · exact reads_value (by decide) (by decide) rfl hp
    · exact reads_value (by decide) (by decide) rfl hp
  | int i =>
    exact reads_value (toList_toString_int_ne_nil i)
      (fun c hc => isWordChar_of_digit (mem_toString_int c hc)) (readWord_int hwritable) hp
  | float x => cases hfaithful
  | str s =>
    have htext : p.text s = .ok (p.put (str s)) := by rw [Progress.text, if_pos hp]
    exact ⟨_, reads_writeText htext, ends_between _⟩
  | arr items => exact absurd rfl (harr items)
  | obj members => exact absurd rfl (hobj members)

/-! ## §5 Lists and objects -/

section

variable {frames : List Frame} {items : List Json} {members : List (String × Json)}
  {name : String} {result : Option Json} {s : Inside × Progress}

theorem reads_itemSeparator (h : Ends s ⟨.arr items :: frames, .delimiter, result⟩) :
    Reads s [',', ' '] (.between, ⟨.arr items :: frames, .value, result⟩) :=
  .cons ((h.mark ',' rfl).trans rfl) (.single rfl)

theorem reads_arrEnd (h : Ends s ⟨.arr items :: frames, .delimiter, result⟩) :
    Reads s [']'] (.between, Progress.put ⟨frames, .value, result⟩ (arr items.reverse)) :=
  .single ((h.mark ']' rfl).trans rfl)

theorem reads_memberSeparator (h : Ends s ⟨.obj members name :: frames, .delimiter, result⟩) :
    Reads s [',', ' '] (.between, ⟨.obj members name :: frames, .name, result⟩) :=
  .cons ((h.mark ',' rfl).trans rfl) (.single rfl)

theorem reads_objEnd (h : Ends s ⟨.obj members name :: frames, .delimiter, result⟩) :
    Reads s ['\x7d'] (.between, Progress.put ⟨frames, .value, result⟩ (obj members)) :=
  .single ((h.mark '\x7d' rfl).trans rfl)

/-- The name of a member, the colon and the blank behind it. -/
theorem reads_name {expected : Expected} (hexpected : expected = .firstName ∨ expected = .name)
    (k : String) :
    Reads (.between, ⟨.obj members name :: frames, expected, result⟩) (writeText k ++ ": ").toList
      (.between, ⟨.obj members k :: frames, .value, result⟩) := by
  have htext : Progress.text ⟨.obj members name :: frames, expected, result⟩ k =
      .ok ⟨.obj members k :: frames, .colon, result⟩ := by
    rcases hexpected with rfl | rfl <;> rfl
  rw [String.toList_append]
  exact (reads_writeText htext).append (.cons rfl (.single rfl))

end

mutual

/-- **A value on one line is read back**, and put where a value may stand. -/
theorem reads_write (depth : Nat) (v : Json) (hfaithful : v.isFaithful = true)
    (hwritable : v.isWritable = true) (p : Progress) (hp : p.takesValue = true) :
    ∃ s, Reads (.between, p) (write .line depth v).toList s ∧ Ends s (p.put v) := by
  cases v with
  | arr items =>
    simp only [isFaithful, isWritable, everywhere, Bool.and_eq_true] at hfaithful hwritable
    rw [write, enclose_line, String.toList_append, String.toList_append]
    have hopen : Reads (.between, p) ['[']
        (.between, ⟨.arr [] :: p.frames, .firstItem, p.result⟩) :=
      .single (by simp only [step, stepBetween, Progress.mark, hp, if_true]; rfl)
    refine ⟨_, ?_, ends_between _⟩
    cases items with
    | nil => exact hopen.append (.single rfl)
    | cons v rest =>
      obtain ⟨s, hitems, hends⟩ := reads_items (depth + 1) (v :: rest) (List.cons_ne_nil _ _)
        hfaithful.2 hwritable.2 [] p.frames .firstItem p.result (Or.inr rfl)
      have hclose := reads_arrEnd hends
      rw [List.append_nil, List.reverse_reverse] at hclose
      exact (hopen.append hitems).append hclose
  | obj members =>
    simp only [isFaithful, isWritable, everywhere, Bool.and_eq_true] at hfaithful hwritable
    rw [write, enclose_line, String.toList_append, String.toList_append]
    have hopen : Reads (.between, p) ['\x7b']
        (.between, ⟨.obj [] "" :: p.frames, .firstName, p.result⟩) :=
      .single (by simp only [step, stepBetween, Progress.mark, hp, if_true]; rfl)
    refine ⟨_, ?_, ends_between _⟩
    cases members with
    | nil => exact hopen.append (.single rfl)
    | cons member rest =>
      obtain ⟨s, name, hmembers, hends⟩ := reads_members (depth + 1) (member :: rest)
        (List.cons_ne_nil _ _) hfaithful.2 hwritable.2 [] "" p.frames .firstName p.result
        (Or.inl rfl) (of_decide_eq_true hfaithful.1)
      exact (hopen.append hmembers).append (reads_objEnd hends)
  | null | bool b | int i | float x | str s =>
    simp only [write]
    exact reads_writeScalar hfaithful hwritable nofun nofun hp

/-- The items of a list that is open are read back, and put behind those before them. -/
theorem reads_items (depth : Nat) (items : List Json) (hne : items ≠ [])
    (hfaithful : everywhereItems isFaithfulPart items = true)
    (hwritable : everywhereItems isShort items = true) (before : List Json)
    (frames : List Frame) (expected : Expected) (result : Option Json)
    (hexpected : expected = .value ∨ expected = .firstItem) :
    ∃ s, Reads (.between, ⟨.arr before :: frames, expected, result⟩)
        (", ".intercalate (writeItems .line depth items)).toList s ∧
      Ends s ⟨.arr (items.reverse ++ before) :: frames, .delimiter, result⟩ := by
  cases items with
  | nil => exact absurd rfl hne
  | cons v rest =>
    simp only [everywhereItems, Bool.and_eq_true] at hfaithful hwritable
    have hp : Progress.takesValue ⟨.arr before :: frames, expected, result⟩ = true := by
      rcases hexpected with rfl | rfl <;> rfl
    obtain ⟨s, hv, hends⟩ := reads_write depth v hfaithful.1 hwritable.1 _ hp
    cases rest with
    | nil =>
      simp only [writeItems]
      exact ⟨s, by simpa using hv, hends⟩
    | cons w more =>
      obtain ⟨s', hrest, hends'⟩ := reads_items depth (w :: more) (List.cons_ne_nil _ _) hfaithful.2
        hwritable.2 (v :: before) frames .value result (Or.inl rfl)
      refine ⟨s', ?_, by simpa using hends'⟩
      have htext : (", ".intercalate (writeItems .line depth (v :: w :: more))).toList =
          (write .line depth v).toList ++ ([',', ' '] ++
            (", ".intercalate (writeItems .line depth (w :: more))).toList) := by
        simp [writeItems, String.toList_intercalate]
      rw [htext]
      exact hv.append ((reads_itemSeparator hends).append hrest)

/-- The members of an object that is open are read back, and put behind those before them. -/
theorem reads_members (depth : Nat) (members : List (String × Json)) (hne : members ≠ [])
    (hfaithful : everywhereMembers isFaithfulPart members = true)
    (hwritable : everywhereMembers isShort members = true)
    (before : List (String × Json)) (name : String) (frames : List Frame) (expected : Expected)
    (result : Option Json) (hexpected : expected = .firstName ∨ expected = .name)
    (hnames : (Table.names (before ++ members)).Nodup) :
    ∃ s last, Reads (.between, ⟨.obj before name :: frames, expected, result⟩)
        (", ".intercalate (writeMembers .line depth members)).toList s ∧
      Ends s ⟨.obj (before ++ members) last :: frames, .delimiter, result⟩ := by
  cases members with
  | nil => exact absurd rfl hne
  | cons member rest =>
    obtain ⟨k, v⟩ := member
    simp only [everywhereMembers, Bool.and_eq_true] at hfaithful hwritable
    obtain ⟨s, hv, hends⟩ := reads_write depth v hfaithful.1 hwritable.1
      ⟨.obj before k :: frames, .value, result⟩ rfl
    -- The name is not among those before, so the member goes to the end.
    have hfresh : k ∉ Table.names before := by
      rw [Table.names_append] at hnames
      exact fun hk => (List.nodup_append.1 hnames).2.2 k hk k (List.mem_cons_self ..) rfl
    have hput : Progress.put ⟨.obj before k :: frames, .value, result⟩ v =
        ⟨.obj (before ++ [(k, v)]) k :: frames, .delimiter, result⟩ := by
      rw [← Table.set_of_notMem hfresh v]
      rfl
    rw [hput] at hends
    have hname : Reads (.between, ⟨.obj before name :: frames, expected, result⟩)
        (writeText k ++ ": ").toList (.between, ⟨.obj before k :: frames, .value, result⟩) :=
      reads_name hexpected k
    have hmember := hname.append hv
    cases rest with
    | nil =>
      refine ⟨s, k, ?_, hends⟩
      simpa [writeMembers] using hmember
    | cons next more =>
      obtain ⟨s', last, hrest, hends'⟩ := reads_members depth (next :: more)
        (List.cons_ne_nil _ _) hfaithful.2 hwritable.2 (before ++ [(k, v)]) k frames .name result
        (Or.inr rfl) (by simpa using hnames)
      refine ⟨s', last, ?_, by simpa using hends'⟩
      have htext : (", ".intercalate (writeMembers .line depth ((k, v) :: next :: more))).toList =
          ((writeText k ++ ": ").toList ++ (write .line depth v).toList) ++ ([',', ' '] ++
            (", ".intercalate (writeMembers .line depth (next :: more))).toList) := by
        obtain ⟨k', v'⟩ := next
        simp [writeMembers, String.toList_intercalate]
      rw [htext]
      exact hmember.append ((reads_memberSeparator hends).append hrest)

end

/-- **A document on one line is read back.** -/
theorem parse_render {v : Json} (hfaithful : v.isFaithful = true)
    (hwritable : v.isWritable = true) : parse (v.render .line) = .ok v := by
  obtain ⟨s, hreads, hends⟩ := reads_write 0 v hfaithful hwritable .start rfl
  have hrun : (v.render .line).toList.foldlM step (.between, Progress.start) = .ok s := hreads
  rw [parse, hrun]
  exact hends.finish

/-! ## §6 Members in order of their names -/

theorem names_sortMembersMembers (members : List (String × Json)) :
    Table.names (sortMembersMembers members) = Table.names members := by
  induction members with
  | nil => rfl
  | cons m rest ih =>
    simp only [Table.names, sortMembersMembers, List.map_cons] at ih ⊢
    rw [ih]

section

variable {q : Json → Bool}

mutual

/-- What sorting keeps of every value holds everywhere in a sorted value. -/
theorem everywhere_sortMembers (hq : ∀ v, q v = true → q v.sortMembers = true) (v : Json)
    (h : everywhere q v = true) : everywhere q v.sortMembers = true := by
  cases v with
  | arr items =>
    have hnode := hq (arr items)
    simp only [sortMembers, everywhere, Bool.and_eq_true] at h hnode ⊢
    exact ⟨hnode h.1, everywhereItems_sort hq items h.2⟩
  | obj members =>
    have hnode := hq (obj members)
    simp only [sortMembers, everywhere, Bool.and_eq_true] at h hnode ⊢
    refine ⟨hnode h.1, everywhereMembers_iff.2 fun m hm => ?_⟩
    exact everywhereMembers_iff.1 (everywhereMembers_sort hq members h.2) m
      ((List.mergeSort_perm ..).mem_iff.1 hm)
  | null | bool b | int i | float x | str s => exact h

theorem everywhereItems_sort (hq : ∀ v, q v = true → q v.sortMembers = true) (items : List Json)
    (h : everywhereItems q items = true) : everywhereItems q (sortMembersItems items) = true := by
  cases items with
  | nil => exact h
  | cons v rest =>
    simp only [sortMembersItems, everywhereItems, Bool.and_eq_true] at h ⊢
    exact ⟨everywhere_sortMembers hq v h.1, everywhereItems_sort hq rest h.2⟩

theorem everywhereMembers_sort (hq : ∀ v, q v = true → q v.sortMembers = true)
    (members : List (String × Json)) (h : everywhereMembers q members = true) :
    everywhereMembers q (sortMembersMembers members) = true := by
  cases members with
  | nil => exact h
  | cons member rest =>
    obtain ⟨k, v⟩ := member
    simp only [sortMembersMembers, everywhereMembers, Bool.and_eq_true] at h ⊢
    exact ⟨everywhere_sortMembers hq v h.1, everywhereMembers_sort hq rest h.2⟩

end

end

theorem isWritable_sortMembers {v : Json} (h : v.isWritable = true) :
    v.sortMembers.isWritable = true := by
  refine everywhere_sortMembers (fun v hv => ?_) v h
  cases v <;> exact hv

theorem isFaithful_sortMembers {v : Json} (h : v.isFaithful = true) :
    v.sortMembers.isFaithful = true := by
  refine everywhere_sortMembers (fun v hv => ?_) v h
  cases v with
  | obj members =>
    have hnames : (Table.names members).Nodup := of_decide_eq_true hv
    rw [← names_sortMembersMembers] at hnames
    refine decide_eq_true ?_
    exact (((List.mergeSort_perm (sortMembersMembers members) _).map Prod.fst).nodup_iff).2 hnames
  | null | bool b | int i | float x | str s | arr items => exact hv

end CallFlow.Json
