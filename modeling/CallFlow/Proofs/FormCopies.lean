import CallFlow.Proofs.Questions
import CallFlow.Proofs.RuleTexts

/-!
# Copies of Stored Forms

The fields of a stored form are written into the settings of a step, and read again when the step is
compiled. The two agree: what was read from an object once is read again from its copy, with the
extras that it came with. So the form that is registered asks what the stored one asks, nothing is
left out, and copying it a second time changes nothing.

## Sections

1. Fields that have been read
2. Copies of fields
3. Steps with stored forms
-/

namespace CallFlow

open Attempt Schema

/-! ## §1 Fields that have been read -/

namespace FormField

variable {f : FormField}

/-- The field has been read from an object, which has no key twice. -/
def IsRead (f : FormField) : Prop := ∃ m, (Table.names m).Nodup ∧ ofMembers m = .accepted f

/-- The fields of a stored form have been read if the form has. -/
theorem isRead_of_read {m : Members} {form : FormRecord}
    (h : FormRecord.read (.obj m) = .accepted form)
    (hkeys : ∀ items, Table.get? m "fields" = some (.arr items) →
      ∀ keys, .obj keys ∈ items → (Table.names keys).Nodup) :
    ∀ f ∈ form.fields, f.IsRead := by
  intro f hf
  simp only [FormRecord.read, readRecord, Checked.seq_eq_accepted, Checked.map_eq_accepted] at h
  obtain ⟨_, fields, ⟨_, _, ⟨_, -, rfl⟩, -, rfl⟩, hfields, rfl⟩ := h
  unfold Field.optional at hfields
  split at hfields
  · rename_i v hv
    obtain ⟨items, rfl, item, hitem, hread⟩ :=
      exists_of_mem_readList (Checked.of_under hfields) hf
    cases item with
    | obj keys => exact ⟨keys, hkeys items hv keys hitem, hread⟩
    | _ => cases hread
  · -- A form that lists no fields has none.
    obtain rfl := Checked.accepted.inj hfields
    cases hf

/-- The declared keys of the copy of a field. -/
def copiedKeys (f : FormField) : Members :=
  [("id", .str f.id), ("question", .str f.question), ("fieldType", .str f.fieldType),
    ("options", f.optionsValue), ("isRequired", .bool f.isRequired), ("order", .int f.order)]

theorem names_copiedKeys (f : FormField) :
    Table.names f.copiedKeys = schema.map Field.label := rfl

/-- An extra has a name of its own, also if it is another spelling of a declared key. -/
theorem IsRead.nodup (h : f.IsRead) : (Table.names (f.copiedKeys ++ f.extra)).Nodup := by
  obtain ⟨m, hm, hread⟩ := h
  obtain ⟨-, -, -, -, -, -, hextra⟩ := ofMembers_eq_accepted.1 hread
  rw [Table.names_append, names_copiedKeys, List.nodup_append, hextra]
  refine ⟨by decide, ?_, ?_⟩
  · exact hm.sublist (List.filter_sublist.map _)
  · rintro _ hlabel _ hname rfl
    obtain ⟨key, hkey, hsame⟩ := List.mem_map.1 hlabel
    obtain ⟨e, he, hother⟩ := List.mem_map.1 hname
    exact label_ne_of_mem_extraMembers he hkey (hsame.trans hother.symm)

/-! ## §2 Copies of fields -/

/-- The copy of a field ends with its extras. -/
theorem IsRead.toStored (h : f.IsRead) : f.toStored = .obj (f.copiedKeys ++ f.extra) :=
  congrArg Json.obj (Table.setAll_of_nodup h.nodup)

theorem readOptional_optionsValue (f : FormField) :
    readOptional (readList readText) f.optionsValue = .accepted f.options := by
  unfold optionsValue
  cases f.options with
  | none => rfl
  | some texts => exact congrArg (Checked.map some) (readList_ofTexts texts)

/-- **A copy reads as its field.** -/
theorem ofMembers_copy (h : f.IsRead) : ofMembers (f.copiedKeys ++ f.extra) = .accepted f := by
  have hextra : extraMembers schema (f.copiedKeys ++ f.extra) = f.extra := by
    refine extraMembers_append f.names_copiedKeys fun e he key hkey hsame => ?_
    have hnodup := h.nodup
    rw [Table.names_append, names_copiedKeys, List.nodup_append] at hnodup
    exact hnodup.2.2 _ (List.mem_map_of_mem hkey) _ (Table.mem_names_of_mem he) hsame
  have hoptions : Field.optional "options" none (readOptional (readList readText))
      (f.copiedKeys ++ f.extra) = .accepted f.options :=
    Field.optional_of_get? rfl f.readOptional_optionsValue
  exact ofMembers_eq_accepted.2 ⟨rfl, rfl, rfl, hoptions, rfl, rfl, hextra.symm⟩

end FormField

/-! ## §3 Steps with stored forms -/

namespace Step

open ListedField

variable {s : Step} {form : FormRecord} {lookup : FormLookup}

/-- A copy is asked as its field is, wherever it is listed. -/
theorem asked_copy {f : FormField} (h : f.IsRead) (position : Nat) :
    (read? (f.toStored, position)).map asked = some f := by
  have hentry : read? (f.toStored, position) =
      some { position, members := f.copiedKeys ++ f.extra, field := f } :=
    read?_eq_some.2 ⟨by rw [h.toStored], FormField.ofMembers_copy h⟩
  rw [hentry]
  rfl

/-- **A list of copies** asks what has been copied, one by one. -/
theorem asked_copies {fields : List FormField} (h : ∀ f ∈ fields, f.IsRead) :
    (listed (fields.map FormField.toStored)).map asked = fields := by
  have hentries : (fields.map FormField.toStored).zipIdx =
      fields.zipIdx.map fun e => (e.1.toStored, e.2) := List.zipIdx_map
  rw [listed, List.map_filterMap, hentries, List.filterMap_map]
  calc
    _ = fields.zipIdx.filterMap (some ∘ Prod.fst) := by
      refine List.filterMap_congr fun e he => ?_
      exact asked_copy (h e.1 (List.fst_mem_of_mem_zipIdx he)) e.2
    _ = fields := by rw [List.filterMap_eq_map, List.zipIdx_map_fst]

/-- The two settings that a stored form is copied into. -/
theorem get?_config_withForm (s : Step) (form : FormRecord) :
    Table.get? (s.withForm form).config "formName" = some (.str form.name) ∧
      Table.get? (s.withForm form).config "fields" =
        some (.arr (form.fields.map FormField.toStored)) := by
  have hconfig : (s.withForm form).config =
      Table.set (Table.set s.config "formName" (.str form.name)) "fields"
        (.arr (form.fields.map FormField.toStored)) := rfl
  rw [hconfig, Table.get?_set_of_ne _ (by decide), Table.get?_set_self, Table.get?_set_self]
  exact ⟨rfl, rfl⟩

theorem setting_withForm (s : Step) (form : FormRecord) :
    (s.withForm form).setting "formName" = .str form.name ∧
      (s.withForm form).setting "fields" = .arr (form.fields.map FormField.toStored) := by
  obtain ⟨hname, hfields⟩ := s.get?_config_withForm form
  unfold setting Json.member
  rw [hname, hfields]
  exact ⟨rfl, rfl⟩

/-- Copying a form a second time changes nothing. -/
theorem withForm_withForm (s : Step) (form : FormRecord) :
    (s.withForm form).withForm form = s.withForm form := by
  obtain ⟨hname, hfields⟩ := s.get?_config_withForm form
  unfold withForm at hname hfields ⊢
  dsimp only [config] at *
  rw [Table.set_of_get? hname, Table.set_of_get? hfields]

/-- A form that is found is copied. -/
theorem gives_enrich (hform : s.category.isForm = true) (hid : (s.setting "formId").isGiven = true)
    (hfound : lookup (s.setting "formId").display = .ok (some form)) :
    (s.enrich lookup).Gives (s.withForm form) := by
  have hfinds : (s.enrich? lookup).Gives (some (s.withForm form)) := by
    unfold enrich?
    simp only [hform, hid, Bool.not_true, Bool.or_false, Bool.false_eq_true, if_false, hfound]
    exact gives_info_bind.2 (gives_pure.2 rfl)
  exact gives_bind.2 ⟨_, hfinds, gives_pure.2 rfl⟩

/-- A form that has an id is registered with its name and its fields. -/
theorem exists_registered {fields : List FormField} (hform : s.category.isForm = true)
    (hid : (s.setting "formId").isGiven = true) (hfields : s.formFields.Gives fields) :
    ∃ c, s.compile.Gives c ∧ c.form = some
      { formId := (s.setting "formId").display, formName := s.formTitle, fields } := by
  refine ⟨s.compiledForm fields, ?_, ?_⟩
  · rw [compile_of_isForm hform]
    exact gives_compileForm.2 ⟨fields, hfields, rfl⟩
  · rw [compiledForm, if_pos hid]

/-- A form whose name is empty has the name of forms that have none. -/
theorem formTitle_of_text {name : String} (h : s.setting "formName" = .str name) :
    s.formTitle = if name.isEmpty then Prompt.defaultFormName else name := by
  rw [formTitle, settingText, List.map_singleton, h, Json.displayFirst_cons, Json.isGiven]
  cases name.isEmpty <;> rfl

/-- **A stored form survives being copied and compiled.** If its fields have been read once, as
those of a form in store have, it is registered under the id that the step names, with these fields
one by one. All that the copy changes in the step are the two settings that it is written into, and
copying the form again changes nothing. -/
theorem stored_form_survives (s : Step) (lookup : FormLookup) (form : FormRecord)
    (hform : s.category.isForm = true) (hid : (s.setting "formId").isGiven = true)
    (hfound : lookup (s.setting "formId").display = .ok (some form))
    (hread : ∀ f ∈ form.fields, f.IsRead) :
    ∃ t c, (s.enrich lookup).Gives t ∧ t.compile.Gives c ∧
      c.form = some
        { formId := (s.setting "formId").display
          formName := if form.name.isEmpty then Prompt.defaultFormName else form.name
          fields := form.fields } ∧
      t.formless = s.formless ∧ t.category = s.category ∧ (t.enrich lookup).Gives t := by
  have halike : s.Alike (s.withForm form) :=
    alike_withForm (Bool.and_eq_true_iff.2 ⟨hform, hid⟩) form
  have hform' : (s.withForm form).category.isForm = true := by rw [halike.category, hform]
  have hsame : (s.withForm form).setting "formId" = s.setting "formId" :=
    halike.setting (by decide)
  have hid' : ((s.withForm form).setting "formId").isGiven = true := by rw [hsame, hid]
  obtain ⟨hname, hfields⟩ := s.setting_withForm form
  have hlisted := gives_formFields (s := s.withForm form) (by rw [hfields]; rfl)
  obtain ⟨c, hc, hregistered⟩ := exists_registered hform' hid' hlisted
  rw [hsame, formTitle_of_text hname, asked_copies hread] at hregistered
  have hagain : ((s.withForm form).enrich lookup).Gives ((s.withForm form).withForm form) :=
    gives_enrich hform' hid' (by rw [hsame, hfound])
  rw [withForm_withForm] at hagain
  exact ⟨_, c, gives_enrich hform hid hfound, hc, hregistered, halike.formless, halike.category,
    hagain⟩

/-- A stored form with a field that has both spellings of a key, and a field that says nothing about
its order. -/
def contactForm : FormRecord where
  id := "contact-01"
  name := ""
  fields := [
    { id := "mail", question := "Where can we reach you?", fieldType := "email", order := 7
      extra := [("field_type", .str "text"), ("hint", .str "at work")] },
    { id := "when", question := "And when?", options := some [] }]

theorem contactForm_isRead : ∀ f ∈ contactForm.fields, f.IsRead := by
  let mail : Members := [("id", .str "mail"), ("question", .str "Where can we reach you?"),
    ("fieldType", .str "email"), ("field_type", .str "text"), ("order", .int 7),
    ("hint", .str "at work")]
  let hour : Members := [("id", .str "when"), ("question", .str "And when?"), ("options", .arr [])]
  have hread : FormRecord.read (.obj [("id", .str "contact-01"), ("name", .str ""),
      ("fields", .arr [.obj mail, .obj hour])]) = .accepted contactForm := rfl
  refine FormField.isRead_of_read hread fun items hitems keys hkeys => ?_
  obtain rfl : [.obj mail, .obj hour] = items := Json.arr.inj (Option.some.inj hitems)
  simp only [List.mem_cons, List.not_mem_nil, or_false, Json.obj.injEq] at hkeys
  rcases hkeys with rfl | rfl <;> decide

/-- A step that collects this form. -/
def contactStep : Step where
  id := "f"
  type := some "form"
  data := { config := [("formId", .str "contact-01"), ("fields", .str "old")] }

/-- Both fields are registered as they are stored, the first one with its second spelling. -/
theorem stored_form_survives_contact :
    ∃ t c, (contactStep.enrich (FormShelf.ofForms [contactForm]).lookup).Gives t ∧
      t.compile.Gives c ∧
      c.form = some { formId := "contact-01", formName := "Data Collection",
                      fields := contactForm.fields } := by
  obtain ⟨t, c, ht, hc, hregistered, -, -, -⟩ :=
    stored_form_survives contactStep (FormShelf.ofForms [contactForm]).lookup contactForm
      (by decide) (by decide) rfl contactForm_isRead
  exact ⟨t, c, ht, hc, hregistered⟩

end Step

end CallFlow
