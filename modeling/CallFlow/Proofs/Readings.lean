import CallFlow.Proofs.Tables
import CallFlow.Schema.Record

/-!
# Accepted Readings

A reading that is put together from others is accepted just in case all of them are. This module
takes accepted readings apart, and says when a list or a dictionary that has been written item by
item reads back item by item.

## Sections

1. Readings put together
2. Lists and dictionaries
3. Fields
4. Members that are not declared
-/

namespace CallFlow.Schema

/-! ## §1 Readings put together -/

namespace Checked

variable {α β : Type}

@[simp] theorem map_accepted (f : α → β) (a : α) : f <$> accepted a = accepted (f a) := rfl

@[simp] theorem seq_accepted (f : α → β) (a : α) :
    accepted f <*> accepted a = accepted (f a) := rfl

@[simp] theorem pure_eq_accepted (a : α) : (pure a : Checked α) = accepted a := rfl

@[simp] theorem under_accepted (part : String) (a : α) :
    (accepted a).under part = accepted a := rfl

theorem of_under {part : String} {c : Checked α} {a : α} (h : c.under part = accepted a) :
    c = accepted a := by
  cases c with
  | accepted b => exact h
  | rejected vs => cases h

theorem map_eq_accepted {f : α → β} {c : Checked α} {b : β} :
    f <$> c = accepted b ↔ ∃ a, c = accepted a ∧ f a = b := by
  cases c with
  | accepted a => simp
  | rejected vs => exact ⟨nofun, nofun⟩

/-- Of two readings neither may be rejected. -/
theorem seq_eq_accepted {f : Checked (α → β)} {c : Checked α} {b : β} :
    f <*> c = accepted b ↔ ∃ g a, f = accepted g ∧ c = accepted a ∧ g a = b := by
  cases f with
  | accepted g =>
    cases c with
    | accepted a => simp
    | rejected vs => exact ⟨nofun, nofun⟩
  | rejected vs => cases c <;> exact ⟨nofun, nofun⟩

end Checked

/-! ## §2 Lists and dictionaries -/

variable {α β γ : Type}

/-- What is written item by item reads back item by item. -/
theorem Checked.all_map {read : γ → Checked β} {write : α → γ} {kept : α → β}
    (h : ∀ a, read (write a) = .accepted (kept a)) (l : List α) :
    Checked.all read (l.map write) = .accepted (l.map kept) := by
  induction l with
  | nil => rfl
  | cons a rest ih =>
    rw [List.map_cons, Checked.all, h a, ih]
    rfl

variable {read : Json → Checked β} {write : α → Json} {kept : α → β}

/-- **A list reads back item by item.** -/
theorem readList_map (h : ∀ a, read (write a) = .accepted (kept a)) (l : List α) :
    readList read (.arr (l.map write)) = .accepted (l.map kept) := by
  -- Every item is read at its own position, which shows in violations only.
  have hall : Checked.all (fun e : Json × Nat => (read e.1).under (toString e.2))
      (l.zipIdx.map fun e => (write e.1, e.2)) = .accepted (l.zipIdx.map fun e => kept e.1) :=
    Checked.all_map (fun e => by rw [h e.1]; rfl) l.zipIdx
  have hitems : (l.map write).zipIdx = l.zipIdx.map fun e => (write e.1, e.2) := by
    rw [List.zipIdx_map]
    rfl
  have hkept : l.zipIdx.map (fun e => kept e.1) = l.map kept := by
    conv_rhs => rw [← List.zipIdx_map_fst 0 l, List.map_map]
    rfl
  rw [readList, hitems, hall, hkept]

/-- **A dictionary reads back value by value**, under the same keys in the same order. -/
theorem readDictionary_map (h : ∀ a, read (write a) = .accepted (kept a)) (t : Table α) :
    readDictionary read (.obj (t.map fun e => (e.1, write e.2))) =
      .accepted (t.map fun e => (e.1, kept e.2)) :=
  Checked.all_map (fun e => by rw [h e.2]; rfl) t

/-- What is accepted of a list has been read from its items. -/
theorem Checked.exists_of_mem_all {read : γ → Checked β} {l : List γ} {bs : List β}
    (h : Checked.all read l = .accepted bs) {b : β} (hb : b ∈ bs) :
    ∃ c ∈ l, read c = .accepted b := by
  induction l generalizing bs with
  | nil =>
    obtain rfl := Checked.accepted.inj h
    cases hb
  | cons c rest ih =>
    obtain ⟨_, others, hfirst, hrest, rfl⟩ :=
      Checked.seq_eq_accepted.1 (show List.cons <$> read c <*> Checked.all read rest = _ from h)
    obtain ⟨first, hc, rfl⟩ := Checked.map_eq_accepted.1 hfirst
    rcases List.mem_cons.1 hb with rfl | hmem
    · exact ⟨c, List.mem_cons_self .., hc⟩
    · obtain ⟨c', hc', hread⟩ := ih hrest hmem
      exact ⟨c', List.mem_cons_of_mem _ hc', hread⟩

theorem exists_of_mem_readList {v : Json} {bs : List β} (h : readList read v = .accepted bs)
    {b : β} (hb : b ∈ bs) : ∃ items, v = .arr items ∧ ∃ item ∈ items, read item = .accepted b := by
  cases v with
  | arr items =>
    obtain ⟨e, he, hread⟩ := Checked.exists_of_mem_all h hb
    exact ⟨items, rfl, e.1, List.fst_mem_of_mem_zipIdx he, Checked.of_under hread⟩
  | _ => cases h

/-- A list of texts reads back as it is. -/
theorem readList_ofTexts (texts : List String) :
    readList readText (Json.ofTexts texts) = .accepted texts := by
  have hitem : ∀ text, readText (.str text) = .accepted (id text) := fun _ => rfl
  have hread := readList_map hitem texts
  rwa [List.map_id] at hread

/-- A list of which every item is accepted as it is. -/
theorem readList_accepted (items : List Json) :
    readList .accepted (.arr items) = .accepted items := by
  have hitem : ∀ item : Json, Checked.accepted (id item) = .accepted (id item) := fun _ => rfl
  have hread := readList_map hitem items
  rwa [List.map_id] at hread

/-! ## §3 Fields -/

namespace Field

variable {m : Members} {v : Json} {a d : α} {read : Json → Checked α}

theorem required_of_get? {f : Field} (h : Table.get? m (f.nameIn m) = some v)
    (hread : read v = .accepted a) : f.required read m = .accepted a := by
  unfold required
  rw [h]
  simp only [hread, Checked.under_accepted]

theorem optional_of_get? {f : Field} (h : Table.get? m (f.nameIn m) = some v)
    (hread : read v = .accepted a) : f.optional d read m = .accepted a := by
  unfold optional
  rw [h]
  simp only [hread, Checked.under_accepted]

/-- A field that is missing has its default. -/
theorem optional_of_missing {f : Field} (h : Table.get? m (f.nameIn m) = none) :
    f.optional d read m = .accepted d := by
  unfold optional
  rw [h]

/-- A field is given by its alias or by its name. -/
theorem nameIn_ne {f : Field} {k : String} (hname : f.name ≠ k) (halias : f.alias? ≠ some k)
    (m : Members) : f.nameIn m ≠ k := by
  unfold nameIn
  split
  · rename_i a ha
    split
    · rintro rfl
      exact halias ha
    · exact hname
  · exact hname

/-- How a payload spells a field depends on whether it has the alias. -/
theorem nameIn_set {f : Field} {k : String} (halias : f.alias? ≠ some k) (m : Members) (v : Json) :
    f.nameIn (Table.set m k v) = f.nameIn m := by
  unfold nameIn
  split
  · rename_i a ha
    have hne : k ≠ a := by
      rintro rfl
      exact halias ha
    rw [Table.has, Table.get?_set_of_ne _ hne, Table.has]
  · rfl

/-- Another key makes no difference to a field. -/
theorem optional_set {f : Field} {k : String} (hname : f.name ≠ k) (halias : f.alias? ≠ some k)
    (m : Members) (v : Json) : f.optional d read (Table.set m k v) = f.optional d read m := by
  unfold optional
  rw [nameIn_set halias, Table.get?_set_of_ne _ (nameIn_ne hname halias m).symm]

end Field

/-! ## §4 Members that are not declared -/

variable {fields : List Field} {m : Members}

theorem mem_extraMembers {e : String × Json} :
    e ∈ extraMembers fields m ↔ e ∈ m ∧ ∀ f ∈ fields, f.nameIn m ≠ e.1 := by
  unfold extraMembers
  rw [List.mem_filter]
  simp

/-- A field that has an alias is given by it where it can be. -/
theorem Field.nameIn_of_mem {f : Field} (h : f.label ∈ Table.names m) : f.nameIn m = f.label := by
  unfold nameIn label at *
  cases halias : f.alias? with
  | none => rfl
  | some a =>
    rw [halias, Option.getD_some, ← Table.has_iff_mem_names] at h
    simp [h]

/-- What is not declared has no label of what is. -/
theorem label_ne_of_mem_extraMembers {e : String × Json} (h : e ∈ extraMembers fields m) {f : Field}
    (hf : f ∈ fields) : f.label ≠ e.1 := by
  obtain ⟨hmem, hundeclared⟩ := mem_extraMembers.1 h
  intro hlabel
  have hname : f.label ∈ Table.names m := hlabel ▸ Table.mem_names_of_mem hmem
  exact hundeclared f hf ((Field.nameIn_of_mem hname).trans hlabel)

/-- Where every field is given by its label, the other members are the extras. -/
theorem extraMembers_append {declared extra : Members}
    (hdeclared : Table.names declared = fields.map Field.label)
    (hextra : ∀ e ∈ extra, ∀ f ∈ fields, f.label ≠ e.1) :
    extraMembers fields (declared ++ extra) = extra := by
  have hnames : ∀ f ∈ fields, f.nameIn (declared ++ extra) = f.label := by
    intro f hf
    refine Field.nameIn_of_mem ?_
    rw [Table.names_append, hdeclared]
    exact List.mem_append_left _ (List.mem_map_of_mem hf)
  have hnone : ∀ e ∈ declared,
      ¬ (!fields.any fun f => f.nameIn (declared ++ extra) = e.1) = true := by
    intro e he
    obtain ⟨f, hf, hlabel⟩ := List.mem_map.1 (hdeclared ▸ Table.mem_names_of_mem he)
    have hany : (fields.any fun f => f.nameIn (declared ++ extra) = e.1) = true :=
      List.any_eq_true.2 ⟨f, hf, by simp [hnames f hf, hlabel]⟩
    simp [hany]
  have hall : ∀ e ∈ extra, (!fields.any fun f => f.nameIn (declared ++ extra) = e.1) = true := by
    intro e he
    have hany : (fields.any fun f => f.nameIn (declared ++ extra) = e.1) = false := by
      refine List.any_eq_false.2 fun f hf => ?_
      simpa [hnames f hf] using hextra e he f hf
    simp [hany]
  rw [extraMembers, List.filter_append, List.filter_eq_nil_iff.2 hnone, List.nil_append,
    List.filter_eq_self.2 hall]

/-- A declared key that is set is no extra. -/
theorem extraMembers_set {k : String} (halias : ∀ f ∈ fields, f.alias? ≠ some k)
    (hdeclared : ∃ f ∈ fields, f.nameIn m = k) (hnew : k ∉ Table.names m) (v : Json) :
    extraMembers fields (Table.set m k v) = extraMembers fields m := by
  obtain ⟨f, hf, hk⟩ := hdeclared
  have hnames : fields.map (·.nameIn (Table.set m k v)) = fields.map (·.nameIn m) :=
    List.map_congr_left fun g hg => Field.nameIn_set (halias g hg) m v
  have hkeep : ∀ e : String × Json, (fields.any fun g => g.nameIn (Table.set m k v) = e.1) =
      fields.any fun g => g.nameIn m = e.1 := by
    intro e
    have hany := congrArg (List.any · fun name => decide (name = e.1)) hnames
    simpa only [List.any_map, Function.comp_def] using hany
  have htaken : (fields.any fun g => g.nameIn m = k) = true :=
    List.any_eq_true.2 ⟨f, hf, by simpa using hk⟩
  unfold extraMembers
  simp only [hkeep]
  rw [Table.set_of_notMem hnew, List.filter_append, List.filter_singleton, htaken]
  simp

/-- A record with declared members only has nothing that is to be refused. -/
theorem refuseExtra_declared (h : extraMembers fields m = []) :
    refuseExtra fields m = .accepted () := by
  unfold refuseExtra
  rw [h]
  rfl

end CallFlow.Schema
