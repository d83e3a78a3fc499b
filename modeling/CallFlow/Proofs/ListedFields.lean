import CallFlow.Proofs.Outcome
import CallFlow.Proofs.Readings
import CallFlow.Step.Compile

/-!
# Listed Fields

A form lists its fields in its settings, and a list of settings may hold anything. Of its entries
the well-formed ones are taken, and the others are passed over. An entry that says nothing about its
order is given its position for one, and the position counts all entries, also those that are passed
over.

## Sections

1. Reading one field
2. Well-formed entries
3. The fields of a form
-/

namespace CallFlow

open Attempt Schema

/-! ## §1 Reading one field -/

namespace FormField

variable {m : Members} {f : FormField}

/-- **A field is accepted** just in case each of its declared keys is. -/
theorem ofMembers_eq_accepted :
    ofMembers m = .accepted f ↔
      Field.optional "id" "" readText m = .accepted f.id ∧
      Field.optional "question" "" readText m = .accepted f.question ∧
      Field.optional fieldTypeKey "text" readText m = .accepted f.fieldType ∧
      Field.optional "options" none (readOptional (readList readText)) m = .accepted f.options ∧
      Field.optional isRequiredKey false readTruth m = .accepted f.isRequired ∧
      Field.optional "order" 0 readInteger m = .accepted f.order ∧
      f.extra = extraMembers schema m := by
  unfold ofMembers
  simp only [Checked.seq_eq_accepted, Checked.map_eq_accepted, Checked.pure_eq_accepted]
  constructor
  · rintro ⟨_, _, ⟨_, _, ⟨_, _, ⟨_, _, ⟨_, _, ⟨_, _, ⟨_, hid, rfl⟩, hquestion, rfl⟩, htype, rfl⟩,
      hoptions, rfl⟩, hrequired, rfl⟩, horder, rfl⟩, hextra, rfl⟩
    exact ⟨hid, hquestion, htype, hoptions, hrequired, horder, (Checked.accepted.inj hextra).symm⟩
  · rintro ⟨hid, hquestion, htype, hoptions, hrequired, horder, hextra⟩
    exact ⟨_, _, ⟨_, _, ⟨_, _, ⟨_, _, ⟨_, _, ⟨_, _, ⟨_, hid, rfl⟩, hquestion, rfl⟩, htype, rfl⟩,
      hoptions, rfl⟩, hrequired, rfl⟩, horder, rfl⟩, congrArg _ hextra.symm, rfl⟩

/-- **A listed field** is accepted just in case it is a field, whatever is said about its order. It
keeps the order that it has and is given its position otherwise. -/
theorem readListedField_eq_accepted {position : Nat} :
    Step.readListedField m position = .accepted f ↔
      ∃ g, ofMembers m = .accepted g ∧
        f = { g with order := if Table.has m "order" then g.order else position } := by
  unfold Step.readListedField
  cases hhas : Table.has m "order" with
  | true => simp
  | false =>
    have hnew : "order" ∉ Table.names m := by
      rw [← Table.has_iff_mem_names, hhas]
      exact Bool.false_ne_true
    have hmissing : Table.get? m "order" = none := by
      rwa [Table.has, Option.isSome_eq_false_iff, Option.isNone_iff_eq_none] at hhas
    have horder : Field.optional "order" 0 readInteger m = .accepted 0 :=
      Field.optional_of_missing hmissing
    have horder' : Field.optional "order" 0 readInteger (Table.set m "order" (.int position)) =
        .accepted (position : Int) :=
      Field.optional_of_get? (Table.get?_set_self ..) rfl
    have hextra : extraMembers schema (Table.set m "order" (.int position)) =
        extraMembers schema m :=
      extraMembers_set (k := "order") (by decide) ⟨"order", by simp [schema], rfl⟩ hnew _
    -- The other keys are read alike from both.
    simp (disch := decide) only [Bool.false_eq_true, if_false, ofMembers_eq_accepted, horder,
      horder', hextra, Field.optional_set, Checked.accepted.injEq]
    constructor
    · rintro ⟨hid, hquestion, htype, hoptions, hrequired, hposition, hrest⟩
      refine ⟨{ f with order := 0 }, ⟨hid, hquestion, htype, hoptions, hrequired, rfl, hrest⟩, ?_⟩
      rw [hposition]
    · rintro ⟨g, ⟨hid, hquestion, htype, hoptions, hrequired, -, hrest⟩, rfl⟩
      exact ⟨hid, hquestion, htype, hoptions, hrequired, rfl, hrest⟩

end FormField

/-! ## §2 Well-formed entries -/

/-- An entry of a list of fields that is a field, with its position in the list. -/
structure ListedField where
  position : Nat
  members : Members
  field : FormField

namespace ListedField

variable {items : List Json}

/-- The entry stands in the list at its position, and it reads as its field. -/
def In (q : ListedField) (items : List Json) : Prop :=
  items[q.position]? = some (.obj q.members) ∧ FormField.ofMembers q.members = .accepted q.field

/-- The order in which an entry is asked: its own, or else its position. -/
def order (q : ListedField) : Int :=
  if Table.has q.members "order" then q.field.order else q.position

/-- The field of an entry as it is asked. -/
def asked (q : ListedField) : FormField := { q.field with order := q.order }

/-- An entry with its position, if it is a field. -/
def read? : Json × Nat → Option ListedField
  | (.obj m, position) =>
    match FormField.ofMembers m with
    | .accepted field => some { position, members := m, field }
    | .rejected _ => none
  | _ => none

theorem read?_eq_some {e : Json × Nat} {q : ListedField} :
    read? e = some q ↔
      e = (.obj q.members, q.position) ∧ FormField.ofMembers q.members = .accepted q.field := by
  obtain ⟨v, position⟩ := e
  cases v with
  | obj m =>
    cases hread : FormField.ofMembers m with
    | accepted field =>
      simp only [read?, hread, Option.some.injEq, Prod.mk.injEq, Json.obj.injEq]
      constructor
      · rintro rfl
        exact ⟨⟨rfl, rfl⟩, hread⟩
      · obtain ⟨position', members, field'⟩ := q
        rintro ⟨⟨rfl, rfl⟩, hread'⟩
        rw [Checked.accepted.inj (hread.symm.trans hread')]
    | rejected vs =>
      simp only [read?, hread, reduceCtorEq, Prod.mk.injEq, Json.obj.injEq, false_iff]
      rintro ⟨⟨rfl, -⟩, hread'⟩
      exact absurd (hread.symm.trans hread') nofun
  | _ => simp [read?]

/-- The fields among the entries of a list, as they are listed. -/
def listed (items : List Json) : List ListedField := items.zipIdx.filterMap read?

theorem mem_listed {q : ListedField} : q ∈ listed items ↔ q.In items := by
  simp only [listed, List.mem_filterMap, read?_eq_some, In]
  constructor
  · rintro ⟨e, hmem, rfl, hread⟩
    exact ⟨List.mem_zipIdx_iff_getElem?.1 hmem, hread⟩
  · rintro ⟨hentry, hread⟩
    exact ⟨_, List.mem_zipIdx_iff_getElem?.2 hentry, rfl, hread⟩

/-- Fields are listed by their positions. -/
theorem pairwise_listed (items : List Json) :
    (listed items).Pairwise fun q r => q.position < r.position := by
  have hentries : items.zipIdx.Pairwise fun e e' => e.2 < e'.2 := by
    rw [← List.pairwise_map (f := Prod.snd), List.zipIdx_map_snd]
    exact List.pairwise_lt_range'
  refine hentries.filterMap read? fun e e' hlt q hq r hr => ?_
  obtain ⟨rfl, -⟩ := read?_eq_some.1 hq
  obtain ⟨rfl, -⟩ := read?_eq_some.1 hr
  exact hlt

end ListedField

/-! ## §3 The fields of a form -/

namespace Step

open ListedField

variable {s : Step} {items : List Json} {fields : List FormField}

/-- What has items is given. -/
theorem isGiven_of_items {v : Json} (h : v.items? = some items) (hne : items ≠ []) :
    v.isGiven = true := by
  cases v with
  | arr listed =>
    obtain rfl := Option.some.inj h
    simpa [Json.isGiven] using hne
  | str text =>
    obtain rfl := Option.some.inj h
    simpa [Json.isGiven] using hne
  | obj members =>
    obtain rfl := Option.some.inj h
    simpa [Json.isGiven] using hne
  | _ => cases h

theorem gives_listedFields (hitems : (s.setting "fields").items? = some items) :
    s.listedFields.Gives items.zipIdx := by
  unfold listedFields
  dsimp only
  by_cases hgiven : (s.setting "fields").isGiven = true
  · rw [if_pos hgiven, hitems]
    exact gives_pure.2 rfl
  · -- What is not given has no items.
    have hnone : items = [] := by
      by_contra hne
      exact hgiven (isGiven_of_items hitems hne)
    rw [if_neg hgiven, hnone]
    exact gives_pure.2 rfl

/-- What is taken of an entry. -/
theorem takeField_gives (s : Step) (e : Json × Nat) :
    (s.takeField e).Gives ((read? e).map asked) := by
  obtain ⟨v, position⟩ := e
  cases v with
  | obj m =>
    cases hread : readListedField m position with
    | accepted f =>
      obtain ⟨g, hg, rfl⟩ := FormField.readListedField_eq_accepted.1 hread
      simp only [takeField, hread, read?, hg]
      exact gives_pure.2 rfl
    | rejected vs =>
      cases hg : FormField.ofMembers m with
      | accepted g =>
        -- The entry would have been taken.
        have haccepted : readListedField m position = .accepted _ :=
          FormField.readListedField_eq_accepted.2 ⟨g, hg, rfl⟩
        cases hread.symm.trans haccepted
      | rejected vs' =>
        simp only [takeField, hread, read?, hg]
        exact gives_warn_bind.2 (gives_pure.2 rfl)
  | _ => exact gives_pure.2 rfl

/-- **The fields of a form** are its well-formed entries. -/
theorem gives_formFields (hitems : (s.setting "fields").items? = some items) :
    s.formFields.Gives ((listed items).map asked) := by
  unfold formFields
  refine gives_bind.2 ⟨_, gives_listedFields hitems, gives_bind.2
    ⟨items.zipIdx.map fun e => (read? e).map asked, ?_, gives_pure.2 ?_⟩⟩
  · rw [gives_mapM, List.forall₂_map_right_iff, List.forall₂_same]
    exact fun e _ => s.takeField_gives e
  · rw [listed, List.map_filterMap, List.filterMap_map]
    rfl

/-- A form whose fields are no list has none, if it is compiled at all. -/
theorem formFields_eq_nil (hitems : (s.setting "fields").items? = none)
    (h : s.formFields.Gives fields) : fields = [] := by
  unfold formFields listedFields at h
  dsimp only at h
  split at h
  · rw [hitems] at h
    obtain ⟨_, hfails, -⟩ := gives_bind.1 h
    exact absurd hfails not_gives_fail
  · obtain ⟨listed, hlisted, h⟩ := gives_bind.1 h
    rw [gives_pure.1 hlisted] at h
    exact gives_pure.1 h

/-- Some entry of the list of fields is a well-formed field. -/
def HasField (s : Step) : Prop :=
  ∃ items, (s.setting "fields").items? = some items ∧
    ∃ i m f, items[i]? = some (.obj m) ∧ readListedField m i = .accepted f

/-- **A form has fields to ask** just in case one of its entries is well-formed. -/
theorem formFields_ne_nil (h : s.formFields.Gives fields) : fields ≠ [] ↔ s.HasField := by
  unfold HasField
  cases hitems : (s.setting "fields").items? with
  | none => simp [formFields_eq_nil hitems h]
  | some items =>
    obtain rfl := h.unique (gives_formFields hitems)
    simp only [ne_eq, List.map_eq_nil_iff, Option.some.injEq, exists_eq_left']
    constructor
    · intro hne
      obtain ⟨q, hq⟩ := List.exists_mem_of_ne_nil _ hne
      obtain ⟨hentry, hread⟩ := mem_listed.1 hq
      exact ⟨q.position, q.members, q.asked, hentry,
        FormField.readListedField_eq_accepted.2 ⟨q.field, hread, rfl⟩⟩
    · rintro ⟨i, m, f, hentry, hread⟩
      obtain ⟨g, hg, -⟩ := FormField.readListedField_eq_accepted.1 hread
      exact List.ne_nil_of_mem (mem_listed.2 (⟨hentry, hg⟩ : In ⟨i, m, g⟩ items))

end Step

end CallFlow
