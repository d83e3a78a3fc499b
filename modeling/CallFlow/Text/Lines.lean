/-!
# Lines

A text file consists of lines, each of which ends in a newline. Lines that hold no newline
themselves are read back from such a file: `lines_ofLines`.
-/

namespace CallFlow.Text

/-- Lines, each with a newline at its end. -/
def ofLines : List String → String
  | [] => ""
  | line :: rest => line ++ "\n" ++ ofLines rest

/-- The lines of a text. What follows the last newline is a line as well, unless it is empty. -/
def lines (s : String) : List String :=
  let pieces := (s.toList.splitOn '\n').map String.ofList
  if pieces.getLast? = some "" then pieces.dropLast else pieces

theorem ofLines_append (ls more : List String) :
    ofLines (ls ++ more) = ofLines ls ++ ofLines more := by
  induction ls with
  | nil => simp [ofLines]
  | cons line rest ih => simp only [List.cons_append, ofLines, ih, String.append_assoc]

/-- The pieces between newlines are the lines, and nothing follows the last newline. -/
theorem splitOn_ofLines {ls : List String} (h : ∀ line ∈ ls, '\n' ∉ line.toList) :
    ((ofLines ls).toList.splitOn '\n').map String.ofList = ls ++ [""] := by
  induction ls with
  | nil => rfl
  | cons line rest ih =>
    have hline := h line (List.mem_cons_self ..)
    have hrest := ih fun l hl => h l (List.mem_cons_of_mem _ hl)
    have htext : (ofLines (line :: rest)).toList =
        line.toList ++ '\n' :: (ofLines rest).toList := by
      simp [ofLines, String.toList_append]
    rw [htext, List.splitOn_append_cons_self_of_not_mem hline, List.map_cons, hrest,
      String.ofList_toList, List.cons_append]

/-- **Lines are read back**, if none of them holds a newline. -/
theorem lines_ofLines {ls : List String} (h : ∀ line ∈ ls, '\n' ∉ line.toList) :
    lines (ofLines ls) = ls := by
  simp [lines, splitOn_ofLines h]

end CallFlow.Text
