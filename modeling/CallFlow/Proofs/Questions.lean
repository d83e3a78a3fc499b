import CallFlow.Proofs.ListedFields
import CallFlow.Proofs.Scripts

/-!
# The Questions of a Form

A form asks its well-formed entries, each once, in the order that they give themselves or that their
positions give them. Entries of equal order are asked as they are listed.

## Sections

1. Sorting by a rank
2. The order of questions
3. The prompt of a form
-/

namespace CallFlow

open Attempt

/-! ## §1 Sorting by a rank -/

/-- Sorting by a rank leaves items of equal rank in the order in which they stand. -/
theorem pairwise_mergeSort_rank {α : Type} {rank : α → Int} {R : α → α → Prop} {l : List α}
    (h : l.Pairwise R) :
    (l.mergeSort fun a b => rank a ≤ rank b).Pairwise fun a b =>
      rank a < rank b ∨ rank a = rank b ∧ R a b := by
  have htrans : ∀ a b c : α, decide (rank a ≤ rank b) → decide (rank b ≤ rank c) →
      decide (rank a ≤ rank c) := by
    intro a b c hab hbc
    simp only [decide_eq_true_eq] at hab hbc ⊢
    omega
  have htotal : ∀ a b : α, decide (rank a ≤ rank b) || decide (rank b ≤ rank a) := by
    intro a b
    simp only [Bool.or_eq_true, decide_eq_true_eq]
    omega
  induction l with
  | nil => simp
  | cons a rest ih =>
    obtain ⟨ha, hrest⟩ := List.pairwise_cons.1 h
    -- The first item goes before all items of its rank, and behind those of a lower one.
    obtain ⟨before, after, hwhole, hsorted, hlower⟩ := List.mergeSort_cons htrans htotal a rest
    have hpair := List.pairwise_mergeSort htrans htotal (a :: rest)
    specialize ih hrest
    rw [hsorted] at ih
    rw [hwhole] at hpair ⊢
    have hmem : ∀ b ∈ after, b ∈ rest := by
      intro b hb
      have hpart : b ∈ rest.mergeSort fun a b => rank a ≤ rank b := by
        rw [hsorted]
        exact List.mem_append_right _ hb
      exact List.mem_mergeSort.1 hpart
    rw [List.pairwise_append] at ih hpair ⊢
    obtain ⟨hbefore, hafter, hacross⟩ := ih
    obtain ⟨-, hfirst, -⟩ := hpair
    refine ⟨hbefore, List.pairwise_cons.2 ⟨fun b hb => ?_, hafter⟩, fun b hb c hc => ?_⟩
    · have hle := (List.pairwise_cons.1 hfirst).1 b hb
      rw [decide_eq_true_eq] at hle
      rcases Int.lt_or_eq_of_le hle with hlt | heq
      · exact Or.inl hlt
      · exact Or.inr ⟨heq, ha b (hmem b hb)⟩
    · rcases List.mem_cons.1 hc with rfl | hc
      · have hlt := hlower b hb
        rw [Bool.not_eq_true', decide_eq_false_iff_not] at hlt
        exact Or.inl (by omega)
      · exact hacross b hb c hc

/-! ## §2 The order of questions -/

namespace ListedField

variable {items : List Json}

/-- The entry is asked before another one: it has a lower order, or else it is listed before it. -/
def Before (q r : ListedField) : Prop :=
  q.order < r.order ∨ q.order = r.order ∧ q.position < r.position

instance (q r : ListedField) : Decidable (q.Before r) :=
  inferInstanceAs (Decidable (q.order < r.order ∨ q.order = r.order ∧ q.position < r.position))

/-- The fields among the entries of a list, as they are asked. -/
def inOrder (items : List Json) : List ListedField :=
  (listed items).mergeSort fun q r => q.order ≤ r.order

theorem mem_inOrder {q : ListedField} : q ∈ inOrder items ↔ q.In items := by
  rw [inOrder, List.mem_mergeSort, mem_listed]

/-- **The order of questions**: by rank, and entries of the same rank as they are listed. -/
theorem pairwise_inOrder (items : List Json) : (inOrder items).Pairwise Before :=
  pairwise_mergeSort_rank (pairwise_listed items)

/-- The order of questions leaves no choice. -/
theorem eq_of_pairwise {l l' : List ListedField} (hmem : ∀ q, q ∈ l ↔ q ∈ l')
    (hl : l.Pairwise Before) (hl' : l'.Pairwise Before) : l = l' := by
  have hnodup : ∀ {k : List ListedField}, k.Pairwise Before → k.Nodup := by
    refine fun hk => hk.imp fun hbefore => ?_
    rintro rfl
    rw [Before] at hbefore
    omega
  have hperm : l.Perm l' := (List.perm_ext_iff_of_nodup (hnodup hl) (hnodup hl')).2 hmem
  refine hperm.eq_of_pairwise (fun q r _ _ hbefore hafter => ?_) hl hl'
  rw [Before] at hbefore hafter
  omega

/-- No entry is asked twice. -/
theorem nodup_inOrder (items : List Json) : ((inOrder items).map (·.position)).Nodup := by
  have hperm : (inOrder items).Perm (listed items) := List.mergeSort_perm ..
  rw [(hperm.map _).nodup_iff, List.Nodup, List.pairwise_map]
  exact (pairwise_listed items).imp Nat.ne_of_lt

/-- Entries that say nothing about their order are asked as they are listed. -/
theorem pairwise_inOrder_of_unordered
    (h : ∀ m, .obj m ∈ items → Table.has m "order" = false) :
    (inOrder items).Pairwise fun q r => q.position < r.position := by
  have hrank : ∀ q ∈ inOrder items, q.order = q.position := by
    intro q hq
    obtain ⟨hentry, -⟩ := mem_inOrder.1 hq
    rw [order, h _ (List.mem_of_getElem? hentry), if_neg Bool.false_ne_true]
  refine (pairwise_inOrder items).imp_of_mem fun hq hr hbefore => ?_
  rw [Before, hrank _ hq, hrank _ hr] at hbefore
  omega

end ListedField

/-! ## §3 The prompt of a form -/

namespace Prompt

/-- What the prompt of a form says before its questions. -/
def formOpening (introduction formName : String) : String :=
  "\n".intercalate [
    sayExactly introduction,
    "",
    formHeading formName,
    "After the caller responds, collect the following information in order:",
    "",
    ""]

/-- What the prompt of a form says after its questions. -/
def formClosing : String :=
  "\n".intercalate [
    "",
    "",
    "IMPORTANT RULES:",
    "1. Ask each question one at a time, wait for the response before proceeding.",
    "2. If the caller's response is unclear, politely ask for clarification.",
    "3. For required fields, do not skip - gently re-ask if needed.",
    "4. Once all required fields are collected, use the " ++ formTool ++
      " tool to save the responses.",
    "5. CRITICAL: After successful submission, you MUST say exactly: \"" ++ formPhrase ++
      "\" This exact phrase signals completion.",
    "6. If submission fails, apologize and try again.",
    "7. Only after saying \"" ++ Text.dropLast formPhrase ++
      "\" should you proceed to the next step.",
    "",
    phoneNumberRule,
    "",
    waitSuffix]

/-- The questions stand one to a line between an opening and a closing. -/
theorem collectFields_eq (introduction formName : String) (fields : List FormField) :
    collectFields introduction formName fields =
      formOpening introduction formName ++ "\n".intercalate (fieldInstructions fields) ++
        formClosing := by
  unfold collectFields formOpening formClosing
  simp only [String.intercalate_cons_cons, String.intercalate_singleton, String.append_assoc,
    String.append_empty, String.empty_append]

end Prompt

namespace Step

open ListedField

variable {s : Step} {items : List Json}

/-- The prompt of a form is made of its introduction, its name and its fields. -/
theorem hasPrompt_form {fields : List FormField} (hform : s.category.isForm = true)
    (hfields : s.formFields.Gives fields) :
    s.HasPrompt (Prompt.collectForm s.formIntroduction s.formTitle fields) := by
  obtain ⟨toolIds, hnode⟩ := s.node_compiledForm fields
  exact hasPrompt_of_gives (compile_of_isForm hform)
    (gives_compileForm.2 ⟨fields, hfields, rfl⟩) hnode

/-- The instructions for the fields of a form are those for its well-formed entries. -/
theorem fieldInstructions_listed (items : List Json) :
    Prompt.fieldInstructions ((listed items).map asked) =
      (ListedField.inOrder items).zipIdx.map fun (q, i) =>
        Prompt.fieldInstruction (i + 1) q.field := by
  have hsort : (ListedField.inOrder items).map asked =
      Prompt.inOrder ((listed items).map asked) := by
    unfold ListedField.inOrder Prompt.inOrder
    exact List.map_mergeSort fun _ _ _ _ => rfl
  rw [Prompt.fieldInstructions, ← hsort, List.zipIdx_map, List.map_map]
  rfl

/-- A form with entries that are passed over, and with entries that say when they are asked. -/
def jumbledForm : Step where
  id := "f"
  type := some "form"
  data :=
    { config := [("fields", .arr [
        .str "junk",
        .obj [("question", .str "Name?")],
        .obj [("question", .int 5)],
        .obj [("question", .str "Email?"), ("order", .int (-1))],
        .obj [("question", .str "Phone?"), ("order", .int 1)]])] }

end Step

end CallFlow
