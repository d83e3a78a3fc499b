/-!
# Tables in Order of First Insertion

A table is a list of named entries. Setting a name that is already there replaces its entry in
place; a new name goes to the end. So the order of a table is the order in which its names
were first set, and a table built by `set` alone has no name twice.

A table is seen through `get?` and `names`; §2 says what the operations do to both.

## Sections

1. Tables and their operations
2. What the operations do
-/

namespace CallFlow

/-! ## §1 Tables and their operations -/

/-- Named entries in the order in which their names were first set. -/
abbrev Table (α : Type) := List (String × α)

namespace Table

variable {α : Type}

/-- The names of the entries, in order. -/
def names (t : Table α) : List String := t.map Prod.fst

/-- The entry of a name. -/
def get? : Table α → String → Option α
  | [], _ => none
  | (k, v) :: rest, name => if k = name then some v else get? rest name

/-- Whether a name has an entry. -/
def has (t : Table α) (name : String) : Bool := (get? t name).isSome

/-- Gives a name its entry: in place if the name is there, else at the end. -/
def set : Table α → String → α → Table α
  | [], name, value => [(name, value)]
  | (k, v) :: rest, name, value =>
    if k = name then (k, value) :: rest else (k, v) :: set rest name value

/-- The table without the entries of a name. -/
def erase (t : Table α) (name : String) : Table α := t.filter fun e => e.1 ≠ name

/-- Changes the entry of a name, if it has one. -/
def modify (t : Table α) (name : String) (f : α → α) : Table α :=
  t.map fun e => if e.1 = name then (e.1, f e.2) else e

/-- Sets all entries of `more`, in order. -/
def setAll (t more : Table α) : Table α :=
  more.foldl (fun t e => set t e.1 e.2) t

/-- The table of a list of entries: a repeated name keeps its first place and its last value. -/
def ofEntries (entries : List (String × α)) : Table α := setAll [] entries

/-- Adds a value to the group of a name. -/
def addToGroup (t : Table (List α)) (name : String) (value : α) : Table (List α) :=
  set t name ((get? t name).getD [] ++ [value])

/-- Groups values by a name, groups and values in order of first appearance. -/
def group (name : α → String) (values : List α) : Table (List α) :=
  values.foldl (fun t v => addToGroup t (name v) v) []

/-! ## §2 What the operations do -/

theorem get?_set (t : Table α) (name other : String) (value : α) :
    get? (set t name value) other = if name = other then some value else get? t other := by
  induction t with
  | nil => simp [set, get?]
  | cons e rest ih =>
    obtain ⟨k, v⟩ := e
    by_cases hk : k = name <;> by_cases ho : name = other <;> simp_all [set, get?]

@[simp] theorem get?_set_self (t : Table α) (name : String) (value : α) :
    get? (set t name value) name = some value := by
  simp [get?_set]

theorem get?_set_of_ne (t : Table α) {name other : String} (h : name ≠ other) (value : α) :
    get? (set t name value) other = get? t other := by
  simp [get?_set, h]

/-- A name has an entry just in case it is one of the names. -/
theorem has_iff_mem_names (t : Table α) (name : String) :
    has t name = true ↔ name ∈ names t := by
  induction t with
  | nil => simp [has, get?, names]
  | cons e rest ih =>
    obtain ⟨k, v⟩ := e
    by_cases hk : k = name
    · simp [has, get?, names, hk]
    · simp_all [has, get?, names, Ne.symm hk]

theorem mem_of_get?_eq_some {t : Table α} {name : String} {value : α}
    (h : get? t name = some value) : (name, value) ∈ t := by
  induction t with
  | nil => simp [get?] at h
  | cons e rest ih =>
    obtain ⟨k, v⟩ := e
    by_cases hk : k = name
    · simp_all [get?]
    · exact List.mem_cons_of_mem _ (ih (by simpa [get?, hk] using h))

/-- A new name goes to the end, and an old one stays where it is. -/
theorem names_set (t : Table α) (name : String) (value : α) :
    names (set t name value) = if name ∈ names t then names t else names t ++ [name] := by
  induction t with
  | nil => simp [set, names]
  | cons e rest ih =>
    obtain ⟨k, v⟩ := e
    simp only [names] at ih ⊢
    by_cases hk : k = name
    · simp [set, hk]
    · by_cases hm : name ∈ rest.map Prod.fst <;> simp_all [set, Ne.symm hk]

theorem mem_names_set {t : Table α} {name other : String} {value : α} :
    other ∈ names (set t name value) ↔ other = name ∨ other ∈ names t := by
  rw [names_set]
  split
  · constructor
    · exact Or.inr
    · rintro (rfl | h)
      · assumption
      · exact h
  · simp [or_comm]

theorem nodup_names_set {t : Table α} (h : (names t).Nodup) (name : String) (value : α) :
    (names (set t name value)).Nodup := by
  rw [names_set]
  split
  · exact h
  · rename_i hn
    refine List.nodup_append.2 ⟨h, by simp, ?_⟩
    rintro a ha b hb rfl
    exact hn (List.mem_singleton.1 hb ▸ ha)

@[simp] theorem names_modify (t : Table α) (name : String) (f : α → α) :
    names (modify t name f) = names t := by
  simp only [names, modify, List.map_map]
  refine List.map_congr_left fun e _ => ?_
  simp only [Function.comp_apply]
  split <;> rfl

theorem get?_modify (t : Table α) (name other : String) (f : α → α) :
    get? (modify t name f) other =
      if other = name then (get? t other).map f else get? t other := by
  induction t with
  | nil => simp [modify, get?]
  | cons e rest ih =>
    obtain ⟨k, v⟩ := e
    simp only [modify] at ih
    by_cases hk : k = name <;> by_cases ho : k = other <;> simp_all [modify, get?]

end Table

end CallFlow
