import CallFlow.Json.Reader
import Mathlib.Data.List.Basic
import Mathlib.Data.List.TakeWhile

/-!
# Whole Numbers in Documents

A whole number is written with all its digits, and read back if it does not have more of them than a
document may have. A value is *writable* if all whole numbers in it are as short as that.

## Sections

1. Writable values
2. Digits
3. Reading whole numbers back
-/

namespace CallFlow.Json

/-! ## §1 Writable values -/

mutual

/-- Whether something holds of a value and of all its parts. -/
def everywhere (p : Json → Bool) : Json → Bool
  | arr items => p (arr items) && everywhereItems p items
  | obj members => p (obj members) && everywhereMembers p members
  | v => p v

/-- `everywhere` for every item. -/
def everywhereItems (p : Json → Bool) : List Json → Bool
  | [] => true
  | v :: rest => everywhere p v && everywhereItems p rest

/-- `everywhere` for the value of every member. -/
def everywhereMembers (p : Json → Bool) : List (String × Json) → Bool
  | [] => true
  | (_, v) :: rest => everywhere p v && everywhereMembers p rest

end

theorem everywhereItems_iff {p : Json → Bool} {items : List Json} :
    everywhereItems p items = true ↔ ∀ v ∈ items, everywhere p v = true := by
  induction items with
  | nil => simp [everywhereItems]
  | cons v rest ih => simp [everywhereItems, ih]

theorem everywhereMembers_iff {p : Json → Bool} {members : List (String × Json)} :
    everywhereMembers p members = true ↔ ∀ m ∈ members, everywhere p m.2 = true := by
  induction members with
  | nil => simp [everywhereMembers]
  | cons m rest ih => simp [everywhereMembers, ih]

/-- Whether a value is no whole number with more digits than a document may have. -/
def isShort : Json → Bool
  | int i => (Nat.toDigits 10 i.natAbs).length ≤ maxIntegerDigits
  | _ => true

/-- Whether all whole numbers in a value are short enough to be written. -/
def isWritable (v : Json) : Bool := everywhere isShort v

/-! ## §2 Digits -/

theorem asciiDigit?_of_isDigit {c : Char} (h : c.isDigit = true) :
    Text.asciiDigit? c = some (c.toNat - 48) := by
  obtain ⟨hlow, hhigh⟩ := Char.isDigit_iff_toNat.1 h
  have hlow' : '0' ≤ c := hlow
  have hhigh' : c ≤ '9' := hhigh
  simp [Text.asciiDigit?, hlow', hhigh']

theorem digitsValue?_of_digits {cs : List Char} (h : ∀ c ∈ cs, c.isDigit = true) (acc : Nat) :
    digitsValue? cs acc = some (Nat.ofDigitChars 10 cs acc) := by
  induction cs generalizing acc with
  | nil => rfl
  | cons c rest ih =>
    rw [digitsValue?, asciiDigit?_of_isDigit (h c (List.mem_cons_self ..)), Option.bind_some,
      ih fun d hd => h d (List.mem_cons_of_mem _ hd), Nat.ofDigitChars_cons]
    rfl

/-- A number that is not zero does not begin with the digit zero. -/
theorem head?_toDigits {n : Nat} (hn : 0 < n) : (Nat.toDigits 10 n).head? ≠ some '0' := by
  induction n using Nat.strongRecOn with
  | _ n ih =>
    by_cases hsmall : n < 10
    · rw [Nat.toDigits_of_lt_base hsmall]
      have hdigit : ∀ d < 10, 0 < d → [d.digitChar].head? ≠ some '0' := by decide
      exact hdigit n hsmall hn
    · have hlarge : 10 ≤ n := by omega
      rw [Nat.toDigits_of_base_le (by omega) hlarge, List.head?_append_of_ne_nil _
        Nat.toDigits_ne_nil]
      exact ih (n / 10) (by omega) (by omega)

theorem hasSpareZero_toDigits (n : Nat) : hasSpareZero (Nat.toDigits 10 n) = false := by
  rcases Nat.eq_zero_or_pos n with rfl | hn
  · rfl
  · have hhead := head?_toDigits hn
    unfold hasSpareZero
    split
    · rename_i hdigits
      rw [hdigits] at hhead
      exact absurd rfl hhead
    · rfl

theorem isDigit_of_mem_toDigits {n : Nat} : ∀ c ∈ Nat.toDigits 10 n, c.isDigit = true :=
  fun _ hc => Nat.isDigit_of_mem_toDigits (by omega) (Nat.le_refl 10) hc

theorem splitMinus_of_digits {cs : List Char} (h : ∀ c ∈ cs, c.isDigit = true) :
    splitMinus cs = (false, cs) := by
  unfold splitMinus
  split
  · exact absurd (h '-' (List.mem_cons_self ..)) (by decide)
  · rfl

/-- Digits, perhaps after a sign, have neither point nor exponent. -/
theorem split_of_digits {cs ds : List Char} {negative : Bool}
    (h : ∀ c ∈ ds, c.isDigit = true) (hminus : splitMinus cs = (negative, ds)) :
    NumberParts.split cs = { negative, whole := ds, fraction := none, exponent := none } := by
  have hletter : ∀ c ∈ ds, (c = 'e' || c = 'E') = false := by
    intro c hc
    have hdigit := h c hc
    rw [Bool.eq_false_iff]
    rintro hletter
    simp only [Bool.or_eq_true, decide_eq_true_eq] at hletter
    rcases hletter with rfl | rfl <;> exact absurd hdigit (by decide)
  have hpoint : ∀ c ∈ ds, decide (c ≠ '.') = true := by
    intro c hc
    have hdigit := h c hc
    rw [decide_eq_true_eq]
    rintro rfl
    exact absurd hdigit (by decide)
  have htake : ds.takeWhile (fun c => !(c = 'e' || c = 'E')) = ds :=
    List.takeWhile_eq_self_iff.2 fun c hc => by rw [hletter c hc]; rfl
  have hdrop : ds.dropWhile (fun c => !(c = 'e' || c = 'E')) = [] :=
    List.dropWhile_eq_nil_iff.2 fun c hc => by rw [hletter c hc]; rfl
  have hwhole : ds.takeWhile (fun c => c ≠ '.') = ds := List.takeWhile_eq_self_iff.2 hpoint
  have hnone : ds.dropWhile (fun c => c ≠ '.') = [] := List.dropWhile_eq_nil_iff.2 hpoint
  simp only [NumberParts.split, hminus, htake, hdrop, hwhole, hnone]
  rfl

theorem number?_of_digits {cs : List Char} {negative : Bool} {n : Nat}
    (hminus : splitMinus cs = (negative, Nat.toDigits 10 n)) :
    number? cs = some (int (if negative then -(n : Int) else n)) := by
  have hdigits := isDigit_of_mem_toDigits (n := n)
  have hne : (Nat.toDigits 10 n).isEmpty = false := by
    rw [Bool.eq_false_iff, ne_eq, List.isEmpty_iff]
    exact Nat.toDigits_ne_nil
  have hvalue : natural? (Nat.toDigits 10 n) = some n := by
    rw [natural?, hne, if_neg Bool.false_ne_true, digitsValue?_of_digits hdigits,
      Nat.ofDigitChars_ten_toDigits]
  simp only [number?, split_of_digits hdigits hminus, hasSpareZero_toDigits, hvalue]
  rfl

/-! ## §3 Reading whole numbers back -/

/-- A number that is short enough is read back. -/
theorem readWord_of_digits {cs : List Char} {negative : Bool} {n : Nat}
    (hminus : splitMinus cs = (negative, Nat.toDigits 10 n))
    (hcs : ∀ c ∈ cs, c = '-' ∨ c.isDigit = true)
    (hshort : (Nat.toDigits 10 n).length ≤ maxIntegerDigits) :
    readWord cs = .ok (int (if negative then -(n : Int) else n)) := by
  have hcount : ¬ maxIntegerDigits < integerDigits cs := by
    unfold integerDigits
    rw [hminus]
    dsimp only
    split
    · exact Nat.not_lt.2 hshort
    · decide
  -- None of the words consists of digits and a sign.
  have hword : ∀ (w : String) (c : Char), c ∈ w.toList → c ≠ '-' → c.isDigit = false →
      String.ofList cs ≠ w := by
    rintro w c hc hsign hdigit rfl
    rw [String.toList_ofList] at hc
    rcases hcs c hc with rfl | h
    · exact hsign rfl
    · rw [hdigit] at h
      cases h
  simp only [readWord, if_neg hcount, number?_of_digits hminus]
  split
  · rename_i h
    exact absurd h (hword _ 'n' (by decide) (by decide) (by decide))
  · rename_i h
    exact absurd h (hword _ 't' (by decide) (by decide) (by decide))
  · rename_i h
    exact absurd h (hword _ 'f' (by decide) (by decide) (by decide))
  · rename_i h
    exact absurd h (hword _ 'N' (by decide) (by decide) (by decide))
  · rename_i h
    exact absurd h (hword _ 'I' (by decide) (by decide) (by decide))
  · rename_i h
    exact absurd h (hword _ 'I' (by decide) (by decide) (by decide))
  · rfl

/-- A whole number is written with its digits, after a sign if it is negative. -/
theorem toList_toString_int (i : Int) :
    (toString i).toList =
      if i < 0 then '-' :: Nat.toDigits 10 i.natAbs else Nat.toDigits 10 i.natAbs := by
  rw [Int.toString_eq_repr, Int.repr_eq_if]
  by_cases hneg : i < 0
  · rw [if_neg (by omega), if_pos hneg, String.toList_append, Nat.toList_repr,
      show (-i).toNat = i.natAbs by omega]
    rfl
  · rw [if_pos (by omega), if_neg hneg, Nat.toList_repr, show i.toNat = i.natAbs by omega]

theorem mem_toString_int {i : Int} : ∀ c ∈ (toString i).toList, c = '-' ∨ c.isDigit = true := by
  intro c hc
  rw [toList_toString_int] at hc
  split at hc
  · exact (List.mem_cons.1 hc).imp_right (isDigit_of_mem_toDigits c)
  · exact Or.inr (isDigit_of_mem_toDigits c hc)

theorem toList_toString_int_ne_nil (i : Int) : (toString i).toList ≠ [] := by
  rw [toList_toString_int]
  split
  · exact List.cons_ne_nil _ _
  · exact Nat.toDigits_ne_nil

/-- **A whole number is read back**, if it is short enough. -/
theorem readWord_int {i : Int} (h : isShort (int i) = true) :
    readWord (toString i).toList = .ok (int i) := by
  have hshort : (Nat.toDigits 10 i.natAbs).length ≤ maxIntegerDigits := of_decide_eq_true h
  have hchars := mem_toString_int (i := i)
  rw [toList_toString_int] at hchars ⊢
  split at hchars
  · rename_i hneg
    have hvalue : int (if true then -(i.natAbs : Int) else i.natAbs) = int i := by
      rw [if_pos rfl, show -(i.natAbs : Int) = i by omega]
    rw [if_pos hneg, ← hvalue]
    exact readWord_of_digits rfl hchars hshort
  · rename_i hneg
    have hvalue : int (if false then -(i.natAbs : Int) else i.natAbs) = int i := by
      rw [if_neg Bool.false_ne_true, show (i.natAbs : Int) = i by omega]
    rw [if_neg hneg, ← hvalue]
    exact readWord_of_digits (splitMinus_of_digits isDigit_of_mem_toDigits) hchars hshort

end CallFlow.Json
