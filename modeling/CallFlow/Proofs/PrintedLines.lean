import CallFlow.Json.Printer
import CallFlow.Proofs.WholeNumbers
import CallFlow.Text.Lines

/-!
# Documents on One Line

A document on one line holds printable ASCII characters only. Texts are escaped, numbers consist of
digits and a few signs, and what stands between the parts of a document is printable as well. So a
document on one line is one line: it holds no newline, whatever its value is.

## Sections

1. Printable characters
2. Numbers
3. Texts
4. Documents
-/

namespace CallFlow

/-! ## §1 Printable characters -/

/-- The character is a printable one of ASCII. -/
def IsPrinted (c : Char) : Prop := 0x20 ≤ c.toNat ∧ c.toNat < 0x7F

instance (c : Char) : Decidable (IsPrinted c) := inferInstanceAs (Decidable (_ ∧ _))

/-- All characters are printable ones of ASCII. -/
def Printed (cs : List Char) : Prop := ∀ c ∈ cs, IsPrinted c

instance (cs : List Char) : Decidable (Printed cs) :=
  (List.decidableBAll IsPrinted cs : Decidable (∀ c ∈ cs, IsPrinted c))

namespace Printed

variable {cs ds : List Char} {c : Char}

@[simp] theorem nil : Printed [] := nofun

@[simp] theorem cons : Printed (c :: cs) ↔ IsPrinted c ∧ Printed cs := List.forall_mem_cons

@[simp] theorem append : Printed (cs ++ ds) ↔ Printed cs ∧ Printed ds := List.forall_mem_append

theorem sublist (h : Printed ds) (hsub : cs.Sublist ds) : Printed cs := fun c hc =>
  h c (hsub.subset hc)

theorem flatMap {α : Type} {f : α → List Char} {l : List α} (h : ∀ x ∈ l, Printed (f x)) :
    Printed (l.flatMap f) := by
  intro c hc
  obtain ⟨x, hx, hmem⟩ := List.mem_flatMap.1 hc
  exact h x hx c hmem

/-- Printed parts with a printed separator between them. -/
theorem intercalate {parts : List (List Char)} (hseparator : Printed ds)
    (hparts : ∀ part ∈ parts, Printed part) : Printed (ds.intercalate parts) := by
  induction parts with
  | nil => simp
  | cons part rest ih =>
    have hpart := hparts part (List.mem_cons_self ..)
    have hrest := ih fun p hp => hparts p (List.mem_cons_of_mem _ hp)
    cases rest with
    | nil => simpa using hpart
    | cons next more =>
      rw [List.intercalate_cons_cons]
      simp only [append]
      exact ⟨⟨hpart, hseparator⟩, hrest⟩

/-- A printed text is one line. -/
theorem newline_notMem (h : Printed cs) : '\n' ∉ cs := fun hmem =>
  absurd (h '\n' hmem) (by decide)

end Printed

/-! ## §2 Numbers -/

theorem isPrinted_of_isDigit {c : Char} (h : c.isDigit = true) : IsPrinted c := by
  obtain ⟨hlow, hhigh⟩ := Char.isDigit_iff_toNat.1 h
  have hlow' : 48 ≤ c.toNat := hlow
  have hhigh' : c.toNat ≤ 57 := hhigh
  exact ⟨by omega, by omega⟩

namespace Decimal

theorem printed_toDigits (n : Nat) : Printed (Nat.toDigits 10 n) := fun c hc =>
  isPrinted_of_isDigit (Json.isDigit_of_mem_toDigits c hc)

theorem printed_zeros (n : Nat) : Printed (zeros n) := by
  intro c hc
  rw [List.eq_of_mem_replicate hc]
  decide

theorem printed_digits (c : Nat) (j : Int) : Printed (Digits.ofNat c j).digits := by
  refine (printed_toDigits c).sublist ?_
  have hdropped := List.dropWhile_sublist (· = '0') (l := (Nat.toDigits 10 c).reverse)
  simpa [Digits.ofNat, dropTrailingZeros] using hdropped.reverse

/-- The shortest digits are digits, by whichever grid they are found. -/
theorem printed_shortest (m : Nat) (q : Int) : Printed (shortest m q).digits := by
  unfold shortest
  dsimp only
  split
  · rename_i d hfound
    obtain ⟨j, -, hd⟩ := List.exists_of_findSome?_eq_some hfound
    obtain ⟨c, -, rfl⟩ := Option.map_eq_some_iff.1 hd
    exact printed_digits c j
  · exact printed_digits m q

theorem printed_exponentText (style : NumberStyle) (e : Int) : Printed (exponentText style e) := by
  have hsign : IsPrinted (if e < 0 then '-' else '+') := by split <;> decide
  simp only [exponentText, Printed.cons, Printed.append]
  exact ⟨by decide, hsign, printed_zeros _, printed_toDigits _⟩

theorem printed_render (style : NumberStyle) {d : Digits} (h : Printed d.digits) :
    Printed (d.render style) := by
  have htake : ∀ n, Printed (d.digits.take n) := fun n => h.sublist (List.take_sublist ..)
  have hdrop : ∀ n, Printed (d.digits.drop n) := fun n => h.sublist (List.drop_sublist ..)
  unfold Digits.render
  split
  · simp only [Printed.append]
    refine ⟨⟨htake 1, ?_⟩, printed_exponentText style _⟩
    split
    · exact Printed.nil
    · exact Printed.cons.2 ⟨by decide, hdrop 1⟩
  · split
    · simp only [Printed.append]
      exact ⟨⟨by decide, printed_zeros _⟩, h⟩
    · simp only [Printed.append, Printed.cons]
      refine ⟨⟨htake _, printed_zeros _⟩, by decide, ?_⟩
      split
      · decide
      · exact hdrop _

/-- A number is printed if the words of its style are. -/
theorem printed_floatText {style : NumberStyle} (hinfinity : Printed style.infinityText.toList)
    (hnegative : Printed style.negativeInfinityText.toList)
    (hundefined : Printed style.undefinedText.toList) (x : Float) :
    Printed (floatText style x).toList := by
  unfold floatText
  split
  · exact hundefined
  · split
    · exact hnegative
    · exact hinfinity
  · rename_i negative m q hview
    have hbody : Printed (if m = 0 then ['0', '.', '0'] else (shortest m q).render style) := by
      split
      · decide
      · exact printed_render style (printed_shortest m q)
    rw [String.toList_ofList]
    split
    · exact Printed.cons.2 ⟨by decide, hbody⟩
    · exact hbody

end Decimal

namespace Json

theorem printed_int (i : Int) : Printed (toString i).toList := by
  intro c hc
  rcases mem_toString_int c hc with rfl | hdigit
  · decide
  · exact isPrinted_of_isDigit hdigit

/-! ## §3 Texts -/

theorem isPrinted_digitChar : ∀ n < 16, IsPrinted n.digitChar := by decide

theorem printed_hexDigits (width n : Nat) : Printed (Text.hexDigits width n) := by
  induction width generalizing n with
  | zero => exact Printed.nil
  | succ width ih =>
    simp only [Text.hexDigits, Printed.append, Printed.cons]
    exact ⟨ih _, isPrinted_digitChar _ (Nat.mod_lt n (by omega)), Printed.nil⟩

theorem printed_unitEscape (n : Nat) : Printed (unitEscape n) := by
  simp only [unitEscape, Printed.cons]
  exact ⟨by decide, by decide, printed_hexDigits 4 n⟩

theorem printed_escapeChar (c : Char) : Printed (escapeChar c) := by
  unfold escapeChar
  split
  · -- The character is a quote or a backslash.
    rename_i hmark
    simp only [Bool.or_eq_true, decide_eq_true_eq] at hmark
    rcases hmark with rfl | rfl <;> decide
  · iterate 5 (split; decide)
    dsimp only
    split
    · rename_i hprinted
      simp only [Bool.and_eq_true, decide_eq_true_eq] at hprinted
      exact Printed.cons.2 ⟨hprinted, Printed.nil⟩
    · split
      · exact printed_unitEscape _
      · exact Printed.append.2 ⟨printed_unitEscape _, printed_unitEscape _⟩

theorem printed_writeText (s : String) : Printed (writeText s).toList := by
  rw [writeText, String.toList_ofList, Printed.cons, Printed.append]
  exact ⟨by decide, Printed.flatMap fun c _ => printed_escapeChar c, by decide⟩

/-! ## §4 Documents -/

theorem printed_writeScalar (v : Json) : Printed (writeScalar v).toList := by
  cases v with
  | bool b => cases b <;> decide
  | int i => exact printed_int i
  | float x => exact Decimal.printed_floatText (by decide) (by decide) (by decide) x
  | str s => exact printed_writeText s
  | null | arr items | obj members => exact (by decide : Printed "null".toList)

/-- On one line, items stand between their brackets with commas and blanks between them. -/
theorem enclose_line (depth : Nat) (left right : String) (items : List String) :
    Layout.line.enclose depth left right items = left ++ ", ".intercalate items ++ right := by
  cases items <;> simp [Layout.enclose, Layout.newline, Layout.separator]

theorem printed_enclose {left right : String} {items : List String} {depth : Nat}
    (hleft : Printed left.toList) (hright : Printed right.toList)
    (hitems : ∀ item ∈ items, Printed item.toList) :
    Printed (Layout.line.enclose depth left right items).toList := by
  have hparts : ∀ part ∈ items.map String.toList, Printed part := by
    intro part hpart
    obtain ⟨item, hitem, rfl⟩ := List.mem_map.1 hpart
    exact hitems item hitem
  simp only [enclose_line, String.toList_append, String.toList_intercalate, Printed.append]
  exact ⟨⟨hleft, Printed.intercalate (by decide) hparts⟩, hright⟩

mutual

/-- **A document on one line is printed.** -/
theorem printed_write (depth : Nat) (v : Json) : Printed (write .line depth v).toList := by
  cases v with
  | arr items =>
    rw [write]
    exact printed_enclose (by decide) (by decide) (printed_writeItems (depth + 1) items)
  | obj members =>
    rw [write]
    exact printed_enclose (by decide) (by decide) (printed_writeMembers (depth + 1) members)
  | null | bool b | int i | float x | str s =>
    simp only [write]
    exact printed_writeScalar _

theorem printed_writeItems (depth : Nat) (items : List Json) :
    ∀ item ∈ writeItems .line depth items, Printed item.toList := by
  cases items with
  | nil => rw [writeItems]; exact nofun
  | cons v rest =>
    rw [writeItems]
    exact List.forall_mem_cons.2 ⟨printed_write depth v, printed_writeItems depth rest⟩

theorem printed_writeMembers (depth : Nat) (members : List (String × Json)) :
    ∀ item ∈ writeMembers .line depth members, Printed item.toList := by
  cases members with
  | nil => rw [writeMembers]; exact nofun
  | cons member rest =>
    obtain ⟨k, v⟩ := member
    rw [writeMembers]
    refine List.forall_mem_cons.2 ⟨?_, printed_writeMembers depth rest⟩
    simp only [String.toList_append, Printed.append]
    exact ⟨⟨printed_writeText k, by decide⟩, printed_write depth v⟩

end

/-- **A document on one line holds no newline.** -/
theorem newline_notMem_render (v : Json) : '\n' ∉ (v.render .line).toList :=
  (printed_write 0 v).newline_notMem

end Json

end CallFlow
