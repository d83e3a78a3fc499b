import CallFlow.Table
import Mathlib.Data.List.Nodup

/-!
# Tables That Grow

A table that is only given new names grows at its end like a list. This module says so, and
says which entries a table holds after a change.

## Sections

1. Entries and names
2. New names
3. Entries after a change
4. Parts of a table
5. Changing all entries
-/

namespace CallFlow.Table

variable {α : Type}

/-! ## §1 Entries and names -/

theorem mem_names_of_mem {t : Table α} {e : String × α} (h : e ∈ t) : e.1 ∈ names t :=
  List.mem_map_of_mem h

@[simp] theorem names_append (t more : Table α) : names (t ++ more) = names t ++ names more :=
  List.map_append

/-- In a table that has no name twice, the entries are what is found under the names. -/
theorem get?_eq_some_iff_mem {t : Table α} (h : (names t).Nodup) {name : String} {value : α} :
    get? t name = some value ↔ (name, value) ∈ t := by
  refine ⟨mem_of_get?_eq_some, fun hmem => ?_⟩
  induction t with
  | nil => simp at hmem
  | cons e rest ih =>
    obtain ⟨k, v⟩ := e
    obtain ⟨hk, hrest⟩ := List.nodup_cons.1 (show (k :: names rest).Nodup from h)
    rcases List.mem_cons.1 hmem with heq | hmem
    · obtain ⟨rfl, rfl⟩ := Prod.mk.inj heq
      simp [get?]
    · -- A later entry has another name than the first.
      have hne : k ≠ name := fun hkn => hk (hkn ▸ mem_names_of_mem hmem)
      simpa [get?, hne] using ih hrest hmem

/-- Nothing is found just under the names that are not there. -/
theorem get?_eq_none_iff {t : Table α} {name : String} : get? t name = none ↔ name ∉ names t := by
  rw [← has_iff_mem_names, has, Bool.not_eq_true, Option.isSome_eq_false_iff,
    Option.isNone_iff_eq_none]

/-- What comes first is found first. -/
theorem get?_append (t more : Table α) (name : String) :
    get? (t ++ more) name = (get? t name).or (get? more name) := by
  induction t with
  | nil => simp [get?]
  | cons e rest ih =>
    by_cases hk : e.1 = name
    · simp [get?, hk]
    · simp [get?, hk, ih]

/-- Which names are there depends on the names alone. -/
theorem has_congr {t t' : Table α} (h : names t = names t') (name : String) :
    has t name = has t' name := by
  rw [Bool.eq_iff_iff, has_iff_mem_names, has_iff_mem_names, h]

/-! ## §2 New names -/

/-- A new name goes to the end with its value. -/
theorem set_of_notMem {t : Table α} {name : String} (h : name ∉ names t) (value : α) :
    set t name value = t ++ [(name, value)] := by
  induction t with
  | nil => rfl
  | cons e rest ih =>
    obtain ⟨k, v⟩ := e
    -- Neither the first name nor a later one is replaced.
    have hk : k ≠ name := fun hkn => h (hkn ▸ List.mem_cons_self ..)
    have hrest : name ∉ names rest := fun hmem => h (List.mem_cons_of_mem _ hmem)
    simp [set, hk, ih hrest]

/-- Entries with new names, of which none occurs twice, go to the end as they are. -/
theorem setAll_of_nodup {t more : Table α} (h : (names (t ++ more)).Nodup) :
    setAll t more = t ++ more := by
  unfold setAll
  induction more generalizing t with
  | nil => simp
  | cons e rest ih =>
    have hnew : e.1 ∉ names t := by
      rw [names_append, List.nodup_append] at h
      exact fun hmem => h.2.2 _ hmem _ (List.mem_cons_self ..) rfl
    have hsplit : t ++ e :: rest = (t ++ [e]) ++ rest := by simp
    rw [List.foldl_cons, set_of_notMem hnew, hsplit, ih (by rwa [← hsplit])]

/-! ## §3 Entries after a change -/

/-- Setting what is already there changes nothing. -/
theorem set_of_get? {t : Table α} {name : String} {value : α} (h : get? t name = some value) :
    set t name value = t := by
  induction t with
  | nil => cases h
  | cons e rest ih =>
    obtain ⟨k, v⟩ := e
    by_cases hk : k = name
    · simp_all [set, get?]
    · rw [get?, if_neg hk] at h
      rw [set, if_neg hk, ih h]

/-- After a name is set, an entry is the new one or was there before. -/
theorem mem_of_mem_set {t : Table α} {name : String} {value : α} {e : String × α}
    (h : e ∈ set t name value) : e = (name, value) ∨ e ∈ t := by
  induction t with
  | nil => simpa [set] using h
  | cons first rest ih =>
    obtain ⟨k, v⟩ := first
    -- The value is set in place here, or somewhere in the rest.
    by_cases hk : k = name
    · simp only [set, hk, if_true, List.mem_cons] at h
      exact h.imp_right fun hrest => List.mem_cons_of_mem _ hrest
    · simp only [set, hk, if_false, List.mem_cons] at h
      rcases h with rfl | hrest
      · exact Or.inr (List.mem_cons_self ..)
      · exact (ih hrest).imp_right fun hmem => List.mem_cons_of_mem _ hmem

/-- After the entry of a name is changed, its value is the changed one and others are as before. -/
theorem mem_modify {t : Table α} {name : String} {f : α → α} {k : String} {w : α} :
    (k, w) ∈ modify t name f ↔ ∃ v, (k, v) ∈ t ∧ w = if k = name then f v else v := by
  simp only [modify, List.mem_map, Prod.exists]
  constructor
  · rintro ⟨k', v, hmem, heq⟩
    refine ⟨v, ?_⟩
    split at heq <;> obtain ⟨rfl, rfl⟩ := Prod.mk.inj heq <;> simp_all
  · rintro ⟨v, hmem, rfl⟩
    refine ⟨k, v, hmem, ?_⟩
    split <;> rfl

/-! ## §4 Parts of a table -/

/-- A name that is kept has the same entry among those that are kept. -/
theorem get?_filter_of_pos {keep : String → Bool} {name : String} (h : keep name = true)
    (t : Table α) : get? (t.filter fun e => keep e.1) name = get? t name := by
  induction t with
  | nil => rfl
  | cons e rest ih =>
    obtain ⟨k, v⟩ := e
    by_cases hk : k = name
    · simp [hk, h, get?]
    · cases hkeep : keep k <;> simp [hkeep, get?, hk, ih]

theorem get?_erase_of_ne {k name : String} (h : k ≠ name) (t : Table α) :
    get? (erase t name) k = get? t k :=
  @get?_filter_of_pos α (fun k => decide (k ≠ name)) k (decide_eq_true h) t

/-- There is nothing to erase under a name that is not there. -/
theorem erase_of_notMem {t : Table α} {name : String} (h : name ∉ names t) : erase t name = t := by
  refine List.filter_eq_self.2 fun e he => decide_eq_true ?_
  rintro rfl
  exact h (mem_names_of_mem he)

/-- Setting a name that is left out does not show in what is kept. -/
theorem filter_set_of_neg {keep : String → Bool} {name : String} (h : keep name = false)
    (t : Table α) (value : α) :
    ((set t name value).filter fun e => keep e.1) = t.filter fun e => keep e.1 := by
  induction t with
  | nil => simp [set, h]
  | cons e rest ih =>
    obtain ⟨k, v⟩ := e
    by_cases hk : k = name
    · simp [set, hk, h]
    · cases hkeep : keep k <;> simp [set, hk, hkeep, ih]

/-! ## §5 Changing all entries -/

/-- The table with every entry changed. -/
def mapValues (f : α → α) (t : Table α) : Table α := t.map fun e => (e.1, f e.2)

variable (f : α → α) (t : Table α) (name : String)

@[simp] theorem names_mapValues : names (mapValues f t) = names t := by
  rw [names, mapValues, List.map_map]
  rfl

/-- Nothing changes if no entry does. -/
theorem mapValues_of_fixed {f : α → α} {t : Table α} (h : ∀ e ∈ t, f e.2 = e.2) :
    mapValues f t = t := by
  have hfixed : ∀ e ∈ t, (e.1, f e.2) = id e := fun e he => by rw [h e he, id]
  rw [mapValues, List.map_congr_left hfixed, List.map_id]

theorem get?_mapValues : get? (mapValues f t) name = (get? t name).map f := by
  induction t with
  | nil => rfl
  | cons e rest ih =>
    simp only [mapValues] at ih
    by_cases hk : e.1 = name <;> simp [mapValues, get?, hk, ih]

theorem mapValues_set (value : α) :
    mapValues f (set t name value) = set (mapValues f t) name (f value) := by
  induction t with
  | nil => rfl
  | cons e rest ih =>
    simp only [mapValues] at ih
    by_cases hk : e.1 = name <;> simp [mapValues, set, hk, ih]

/-- Changes that commute may be made in any order. -/
theorem mapValues_modify {g : α → α} (h : ∀ v, f (g v) = g (f v)) :
    mapValues f (modify t name g) = modify (mapValues f t) name g := by
  simp only [mapValues, modify, List.map_map]
  refine List.map_congr_left fun e _ => ?_
  simp only [Function.comp_apply]
  split
  · rw [h]
  · rfl

end CallFlow.Table
