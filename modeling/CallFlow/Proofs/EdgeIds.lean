import CallFlow.Assembly
import Mathlib.Data.List.TakeDrop

/-!
# Generated Edge Ids

The id that is made for an edge consists of a fixed word, a counter and the beginnings of two
node ids, joined by underscores. The node ids are free text and may hold underscores or even
look like edge ids; the counter holds digits only, so it can be read back up to the first
underscore behind it. Two ids that are made with different counters are therefore different.

## Sections

1. Reading up to a separator
2. Counters
3. Words in front
-/

namespace CallFlow.Assembly

/-! ## §1 Reading up to a separator -/

/-- The text before a separator that does not occur in it is known from the whole text. -/
theorem eq_of_append_separator {α : Type} [DecidableEq α] {sep : α} {xs ys zs ws : List α}
    (hx : sep ∉ xs) (hy : sep ∉ ys) (h : xs ++ sep :: zs = ys ++ sep :: ws) : xs = ys := by
  -- Reading stops at the first separator, which is the one behind the text.
  have takeWhile_before : ∀ us vs : List α, sep ∉ us →
      (us ++ sep :: vs).takeWhile (· ≠ sep) = us := by
    intro us vs hu
    rw [List.takeWhile_append_of_pos]
    · simp
    · intro c hc
      exact decide_eq_true fun hsep => hu (hsep ▸ hc)
  rw [← takeWhile_before xs zs hx, h, takeWhile_before ys ws hy]

/-! ## §2 Counters -/

/-- The characters of an edge id. -/
theorem toList_edgeId (n : Nat) (source target : String) :
    (edgeId n source target).toList =
      "edge_".toList ++ (Nat.toDigits 10 n ++ '_' ::
        ((Text.takeFirst idCut source).toList ++ "_to_".toList ++
          (Text.takeFirst idCut target).toList)) := by
  simp [edgeId, Nat.toString_eq_repr, Nat.toList_repr]

/-- **The counter of an edge id can be read back**, whatever the node ids are. -/
theorem edgeId_counter_injective {m n : Nat} {s t s' t' : String}
    (h : edgeId m s t = edgeId n s' t') : m = n := by
  have hchars : (edgeId m s t).toList = (edgeId n s' t').toList := congrArg String.toList h
  rw [toList_edgeId, toList_edgeId, List.append_cancel_left_eq] at hchars
  -- The counter has no underscore, whatever stands behind it.
  have hdigits : Nat.toDigits 10 m = Nat.toDigits 10 n :=
    eq_of_append_separator Nat.underscore_not_in_toDigits Nat.underscore_not_in_toDigits hchars
  rw [← Nat.ofDigitChars_ten_toDigits (n := m), hdigits, Nat.ofDigitChars_ten_toDigits]

/-! ## §3 Words in front -/

/-- Whether an id begins like the ids that are made. -/
def LooksGenerated (id : String) : Prop := "edge_".toList <+: id.toList

instance (id : String) : Decidable (LooksGenerated id) :=
  inferInstanceAs (Decidable ("edge_".toList <+: id.toList))

/-- Every id that is made begins with the same word. -/
theorem edgeId_looksGenerated (n : Nat) (source target : String) :
    LooksGenerated (edgeId n source target) := by
  rw [LooksGenerated, toList_edgeId]
  exact List.prefix_append ..

/-- An id that begins differently is never made. -/
theorem edgeId_ne_of_not_looksGenerated {id : String} (h : ¬ LooksGenerated id) (n : Nat)
    (source target : String) : edgeId n source target ≠ id := by
  rintro rfl
  exact h (edgeId_looksGenerated n source target)

end CallFlow.Assembly
