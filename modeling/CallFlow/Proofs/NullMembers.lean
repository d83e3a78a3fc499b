import CallFlow.Flow.Payload
import CallFlow.Proofs.Readings
import CallFlow.Step.Compile

/-!
# Null in Payloads of Steps

A member of a step may be left out, or it may be there with the value null. For the position of a
step, and for the settings in its data, this makes no difference: what is read is the same, in
whatever place the member stands.

For the data of a step it makes a difference in one case. Settings that stand directly on a step are
moved into its data if it has none, and this is looked at before null is taken for missing. So null
for the data keeps the settings where they are, and they come to nothing: the step is read without
settings. Only a step without such settings is read as if the data were missing.

## Sections

1. Members with an explicit null
2. Regular members
3. Reading regular members
4. Settings on a step
5. Members that nothing looks at
6. Null and missing
-/

namespace CallFlow

open Schema

/-! ## §1 Members with an explicit null -/

/-- The members `q` are `p` with one more, which names something new and says null. -/
def AddsNull (name : String) (p q : Members) : Prop :=
  name ∉ Table.names p ∧
    ∃ before after, p = before ++ after ∧ q = before ++ (name, .null) :: after

namespace AddsNull

variable {name k : String} {p q : Members}

theorem get?_self (h : AddsNull name p q) : Table.get? q name = some .null := by
  obtain ⟨hnew, before, after, rfl, rfl⟩ := h
  rw [Table.names_append, List.mem_append, not_or] at hnew
  rw [Table.get?_append, Table.get?_eq_none_iff.2 hnew.1]
  simp [Table.get?]

theorem get?_missing (h : AddsNull name p q) : Table.get? p name = none :=
  Table.get?_eq_none_iff.2 h.1

/-- Nothing else is found differently. -/
theorem get?_of_ne (h : AddsNull name p q) (hk : k ≠ name) : Table.get? q k = Table.get? p k := by
  obtain ⟨-, before, after, rfl, rfl⟩ := h
  simp [Table.get?_append, Table.get?, hk.symm]

/-- Without the null, the members are the same. -/
theorem erase_self (h : AddsNull name p q) : Table.erase q name = p := by
  obtain ⟨hnew, before, after, rfl, rfl⟩ := h
  have hkept := Table.erase_of_notMem hnew
  unfold Table.erase at hkept ⊢
  rw [List.filter_append] at hkept ⊢
  rw [List.filter_cons_of_neg (by simp), hkept]

theorem erase_of_ne (h : AddsNull name p q) (hk : k ≠ name) :
    AddsNull name (Table.erase p k) (Table.erase q k) := by
  obtain ⟨hnew, before, after, rfl, rfl⟩ := h
  refine ⟨fun hmem => hnew ?_, Table.erase before k, Table.erase after k, ?_, ?_⟩
  · exact (List.filter_sublist.map Prod.fst).subset hmem
  · exact List.filter_append ..
  · unfold Table.erase
    rw [List.filter_append, List.filter_cons_of_pos (by simpa using hk.symm)]

/-- A new member goes to the end of both. -/
theorem set_of_notMem (h : AddsNull name p q) (hk : k ≠ name) (hnew : k ∉ Table.names p)
    (v : Json) : AddsNull name (Table.set p k v) (Table.set q k v) := by
  have hnew' : k ∉ Table.names q := by
    rw [← Table.get?_eq_none_iff, h.get?_of_ne hk, Table.get?_eq_none_iff]
    exact hnew
  rw [Table.set_of_notMem hnew, Table.set_of_notMem hnew']
  obtain ⟨hmissing, before, after, rfl, rfl⟩ := h
  refine ⟨?_, before, after ++ [(k, v)], by simp, by simp⟩
  rw [Table.names_append, List.mem_append, not_or]
  exact ⟨hmissing, fun hmem => hk.symm (List.mem_singleton.1 hmem)⟩

end AddsNull

namespace Step

variable {p q : Members} {s : Step}

/-! ## §2 Regular members -/

/-- A member that is no null is kept. -/
theorem dropNull_of_ne {name : String} (h : Table.get? p name ≠ some .null) :
    dropNull p name = p := by
  unfold dropNull
  split
  · contradiction
  · rfl

/-- **Dropping null** leaves the members without it. -/
theorem dropNull_of_addsNull {name : String} (h : AddsNull name p q) : dropNull q name = p := by
  unfold dropNull
  rw [h.get?_self]
  exact h.erase_self

theorem get?_dropNull_of_ne {name k : String} (h : k ≠ name) (m : Members) :
    Table.get? (dropNull m name) k = Table.get? m k := by
  unfold dropNull
  split
  · exact Table.get?_erase_of_ne h m
  · rfl

/-- What is left of a member that may be null depends on its value alone. -/
theorem get?_dropNull_congr {m m' : Members} {name : String}
    (h : Table.get? m name = Table.get? m' name) :
    Table.get? (dropNull m name) name = Table.get? (dropNull m' name) name := by
  have herased : ∀ m : Members, Table.get? (Table.erase m name) name = none := by
    intro m
    rw [Table.get?_eq_none_iff]
    intro hmem
    obtain ⟨e, he, rfl⟩ := List.mem_map.1 hmem
    simpa using (List.mem_filter.1 he).2
  unfold dropNull
  rw [h]
  split
  · rw [herased, herased]
  · exact h

/-- An explicit null is still there after another member is dropped. -/
theorem addsNull_dropNull {name k : String} (h : AddsNull name p q) (hk : k ≠ name) :
    AddsNull name (dropNull p k) (dropNull q k) := by
  unfold dropNull
  rw [h.get?_of_ne hk]
  split
  · exact h.erase_of_ne hk
  · exact h

/-- Where the settings stand does not depend on the position. -/
theorem addsNull_liftConfig (h : AddsNull "position" p q) :
    AddsNull "position" (liftConfig p) (liftConfig q) := by
  unfold liftConfig
  rw [h.get?_of_ne (k := "config") (by decide), h.get?_of_ne (k := "data") (by decide)]
  split
  · rename_i hdata
    refine (h.erase_of_ne (by decide)).set_of_notMem (by decide) ?_ _
    rw [← Table.get?_eq_none_iff, Table.get?_erase_of_ne (by decide), hdata]
  · exact h

/-- **Null for the position** is the same as no position. -/
theorem normalize_of_null_position (h : AddsNull "position" p q) : normalize q = normalize p := by
  have hregular := addsNull_dropNull (addsNull_liftConfig h) (k := "data") (by decide)
  have hkept : dropNull (dropNull (liftConfig p) "data") "position" =
      dropNull (liftConfig p) "data" :=
    dropNull_of_ne (by simp [hregular.get?_missing])
  unfold normalize
  rw [dropNull_of_addsNull hregular, hkept]

/-- Null for the data keeps settings from being moved, and is dropped. -/
theorem normalize_of_null_data (h : AddsNull "data" p q) :
    normalize q = dropNull p "position" := by
  have hlift : liftConfig q = q := by
    unfold liftConfig
    rw [h.get?_self]
    split <;> simp_all
  rw [normalize, hlift, dropNull_of_addsNull h]

/-! ## §3 Reading regular members -/

/-- **A step is accepted** just in case each of its declared members is. -/
theorem ofMembers_eq_accepted_iff {m : Members} :
    ofMembers m = .accepted s ↔
      Field.required "id" readText m = .accepted s.id ∧
      Field.optional "type" none (readOptional readText) m = .accepted s.type ∧
      Field.optional "position" {} Position.read m = .accepted s.position ∧
      Field.optional "data" {} StepData.read m = .accepted s.data ∧
      s.extra = extraMembers schema m := by
  unfold ofMembers
  simp only [Checked.seq_eq_accepted, Checked.map_eq_accepted, Checked.pure_eq_accepted]
  constructor
  · rintro ⟨_, _, ⟨_, _, ⟨_, _, ⟨_, _, ⟨_, hid, rfl⟩, htype, rfl⟩, hposition, rfl⟩, hdata, rfl⟩,
      hextra, rfl⟩
    exact ⟨hid, htype, hposition, hdata, (Checked.accepted.inj hextra).symm⟩
  · rintro ⟨hid, htype, hposition, hdata, hextra⟩
    exact ⟨_, _, ⟨_, _, ⟨_, _, ⟨_, _, ⟨_, hid, rfl⟩, htype, rfl⟩, hposition, rfl⟩, hdata, rfl⟩,
      congrArg _ hextra.symm, rfl⟩

theorem required_congr {α : Type} {m m' : Members} {name : String}
    (h : Table.get? m name = Table.get? m' name) (read : Json → Checked α) :
    Field.required name read m = Field.required name read m' := by
  simp only [Field.required, Field.nameIn, h]

theorem optional_congr {α : Type} {m m' : Members} {name : String}
    (h : Table.get? m name = Table.get? m' name) (default : α) (read : Json → Checked α) :
    Field.optional name default read m = Field.optional name default read m' := by
  simp only [Field.optional, Field.nameIn, h]

theorem optional_of_some {α : Type} {m : Members} {name : String} {v : Json}
    (h : Table.get? m name = some v) (default : α) (read : Json → Checked α) :
    Field.optional name default read m = (read v).under name := by
  simp only [Field.optional, Field.nameIn, h]

/-- Reading a step looks at its declared members, and at what else there is. -/
theorem ofMembers_congr {m m' : Members} (hid : Table.get? m "id" = Table.get? m' "id")
    (htype : Table.get? m "type" = Table.get? m' "type")
    (hposition : Table.get? m "position" = Table.get? m' "position")
    (hdata : Field.optional "data" {} StepData.read m = Field.optional "data" {} StepData.read m')
    (hextra : extraMembers schema m = extraMembers schema m') : ofMembers m = ofMembers m' := by
  unfold ofMembers
  rw [required_congr hid, optional_congr htype, optional_congr hposition, hdata, hextra]

/-- The data of a step is accepted just in case its label and its settings are. -/
theorem readData_eq_accepted_iff {m : Members} {d : StepData} :
    StepData.read (.obj m) = .accepted d ↔
      Field.optional "label" none StepData.readLabel m = .accepted d.label ∧
      Field.optional "config" [] StepData.readConfig m = .accepted d.config ∧
      d.extra = extraMembers ["label", "config"] m := by
  unfold StepData.read readRecord
  simp only [Checked.seq_eq_accepted, Checked.map_eq_accepted, Checked.pure_eq_accepted]
  constructor
  · rintro ⟨_, _, ⟨_, _, ⟨_, hlabel, rfl⟩, hconfig, rfl⟩, hextra, rfl⟩
    exact ⟨hlabel, hconfig, (Checked.accepted.inj hextra).symm⟩
  · rintro ⟨hlabel, hconfig, hextra⟩
    exact ⟨_, _, ⟨_, _, ⟨_, hlabel, rfl⟩, hconfig, rfl⟩, congrArg _ hextra.symm, rfl⟩

/-- **Null for the settings** in the data is the same as no settings. -/
theorem readData_of_null_config {d d' : Members} (h : AddsNull "config" d d') :
    StepData.read (.obj d') = StepData.read (.obj d) := by
  have hlabel := h.get?_of_ne (k := "label") (by decide)
  have hconfig : Field.optional "config" [] StepData.readConfig d' =
      Field.optional "config" [] StepData.readConfig d := by
    rw [optional_of_some h.get?_self, Field.optional_of_missing (f := "config") h.get?_missing]
    rfl
  have hextra : extraMembers ["label", "config"] d' = extraMembers ["label", "config"] d := by
    obtain ⟨-, before, after, rfl, rfl⟩ := h
    unfold extraMembers
    rw [List.filter_append, List.filter_append, List.filter_cons_of_neg (by simp [Field.nameIn])]
    rfl
  simp only [StepData.read, readRecord, hconfig, hextra, optional_congr hlabel]

/-- No member of a step has an alias. -/
theorem extraMembers_eq_filter (m : Members) :
    extraMembers schema m = m.filter fun e => !(schema.any fun f => f.name = e.1) := rfl

theorem extraMembers_dropNull_position (m : Members) :
    extraMembers schema (dropNull m "position") = extraMembers schema m := by
  unfold dropNull
  split
  · rw [extraMembers_eq_filter, extraMembers_eq_filter, Table.erase, List.filter_filter]
    refine List.filter_congr fun e _ => ?_
    -- The position is declared, so it is no extra member anyway.
    by_cases hposition : e.1 = "position" <;> simp [hposition, schema]
  · rfl

/-- **Null for the settings in the data of a step** is the same as no settings there. -/
theorem read_of_null_config {d d' : Members} (hd : Table.get? p "data" = some (.obj d))
    (h : AddsNull "config" d d') :
    read (.obj (Table.set p "data" (.obj d'))) = read (.obj p) := by
  have hregular : ∀ {m d : Members}, Table.get? m "data" = some (.obj d) →
      normalize m = dropNull m "position" := by
    intro m d hd
    have hlift : liftConfig m = m := by
      unfold liftConfig
      rw [hd]
      split <;> simp_all
    have hkept : dropNull m "data" = m := dropNull_of_ne (by simp [hd])
    rw [normalize, hlift, hkept]
  have hd' : Table.get? (Table.set p "data" (.obj d')) "data" = some (.obj d') :=
    Table.get?_set_self ..
  have hother : ∀ {k : String}, k ≠ "data" →
      Table.get? (Table.set p "data" (.obj d')) k = Table.get? p k :=
    fun hk => Table.get?_set_of_ne _ hk.symm _
  show ofMembers (normalize _) = ofMembers (normalize p)
  rw [hregular hd, hregular hd']
  refine ofMembers_congr ?_ ?_ ?_ ?_ ?_
  · rw [get?_dropNull_of_ne (by decide), get?_dropNull_of_ne (by decide), hother (by decide)]
  · rw [get?_dropNull_of_ne (by decide), get?_dropNull_of_ne (by decide), hother (by decide)]
  · exact get?_dropNull_congr (hother (by decide))
  · rw [optional_of_some (v := .obj d') (by rw [get?_dropNull_of_ne (by decide), hd']),
      optional_of_some (v := .obj d) (by rw [get?_dropNull_of_ne (by decide), hd]),
      readData_of_null_config h]
  · rw [extraMembers_dropNull_position, extraMembers_dropNull_position]
    exact @Table.filter_set_of_neg Json (fun k => !(schema.any fun f => f.name = k)) "data"
      (by decide) p _

/-! ## §4 Settings on a step -/

/-- **Settings on a step without data** become all of its data. -/
theorem get?_data_of_missing (hdata : Table.get? p "data" = none) :
    Table.get? (normalize p) "data" =
      (Table.get? p "config").map fun settings => .obj [("config", settings)] := by
  have hlift : Table.get? (liftConfig p) "data" =
      (Table.get? p "config").map fun settings => .obj [("config", settings)] := by
    unfold liftConfig
    rw [hdata]
    cases hsettings : Table.get? p "config" with
    | none => exact hdata
    | some settings => exact Table.get?_set_self ..
  -- The data is an object if it is there, and so it is not dropped.
  have hkept : dropNull (liftConfig p) "data" = liftConfig p := by
    apply dropNull_of_ne
    rw [hlift]
    cases Table.get? p "config" <;> simp
  rw [normalize, get?_dropNull_of_ne (by decide), hkept, hlift]

/-- What stands beside the data and the settings is not touched when settings are moved. -/
theorem get?_of_missing (hdata : Table.get? p "data" = none) {k : String} (hk : k ≠ "data")
    (hk' : k ≠ "config") :
    Table.get? (normalize p) k = Table.get? (dropNull p "position") k := by
  have hlift : Table.get? (liftConfig p) k = Table.get? p k := by
    unfold liftConfig
    rw [hdata]
    cases hsettings : Table.get? p "config" with
    | none => rfl
    | some settings =>
      dsimp only
      rw [Table.get?_set_of_ne _ hk.symm, Table.get?_erase_of_ne hk']
  have hdrop : Table.get? (dropNull (liftConfig p) "data") k = Table.get? p k := by
    rw [get?_dropNull_of_ne hk, hlift]
  unfold normalize
  by_cases hposition : k = "position"
  · subst hposition
    exact get?_dropNull_congr hdrop
  · rw [get?_dropNull_of_ne hposition, get?_dropNull_of_ne hposition, hdrop]

/-- What is read as the data of a step without data are the settings that stand on it. -/
theorem data_of_missing (hdata : Table.get? p "data" = none) (h : read (.obj p) = .accepted s) :
    ∃ settings, StepData.readConfig (Json.member p "config") = .accepted settings ∧
      s.data = { config := settings } := by
  obtain ⟨-, -, -, hread, -⟩ := ofMembers_eq_accepted_iff.1 h
  have hvalue := get?_data_of_missing hdata
  cases hsettings : Table.get? p "config" with
  | none =>
    rw [hsettings] at hvalue
    rw [Field.optional_of_missing (f := "data") hvalue] at hread
    refine ⟨[], ?_, (Checked.accepted.inj hread).symm⟩
    rw [Json.member, hsettings]
    rfl
  | some settings =>
    rw [hsettings] at hvalue
    rw [optional_of_some hvalue] at hread
    obtain ⟨hlabel, hconfig, hextra⟩ := readData_eq_accepted_iff.1 (Checked.of_under hread)
    refine ⟨s.data.config, ?_, ?_⟩
    · rw [Json.member, hsettings]
      exact Checked.of_under hconfig
    · have hnone : s.data.label = none := (Checked.accepted.inj hlabel).symm
      have hempty : s.data.extra = [] := hextra
      show s.data = ⟨none, s.data.config, []⟩
      rw [← hnone, ← hempty]

/-- Settings that are accepted come to nothing just in case they do not count as given. -/
theorem readConfig_eq_nil_iff {v : Json} {settings : Members}
    (h : StepData.readConfig v = .accepted settings) : settings = [] ↔ v.isGiven = false := by
  cases v with
  | null => exact iff_of_true (Checked.accepted.inj h).symm rfl
  | obj members =>
    obtain rfl : members = settings := Checked.accepted.inj h
    cases members <;> simp [Json.isGiven]
  | _ => cases h

/-! ## §5 Members that nothing looks at -/

/-- The step with other members beside those that are declared. -/
abbrev withExtra (s : Step) (extra : Members) : Step := { s with extra }

variable (s : Step) (extra : Members)

theorem settingsThenData_withExtra :
    (s.withExtra extra).settingsThenData = s.settingsThenData := rfl

theorem webhookMethod_withExtra : (s.withExtra extra).webhookMethod = s.webhookMethod := by
  unfold webhookMethod
  rw [settingsThenData_withExtra]

theorem compileWebhook_withExtra : (s.withExtra extra).compileWebhook = s.compileWebhook := by
  unfold compileWebhook
  rw [settingsThenData_withExtra, webhookMethod_withExtra]
  rfl

/-- **Members that are not declared** make no difference to what a step is compiled to. -/
theorem compile_withExtra : (s.withExtra extra).compile = s.compile := by
  have hcategory : (s.withExtra extra).category = s.category := rfl
  unfold compile
  rw [hcategory, compileWebhook_withExtra]
  cases s.category <;> rfl

variable {s}

/-! ## §6 Null and missing -/

/-- The compiler cannot tell two steps apart, and they show the same label. -/
structure SameAs (s t : Step) : Prop where
  id : t.id = s.id
  config : t.config = s.config
  label : t.data.label = s.data.label
  category : t.category = s.category
  compile : t.compile = s.compile

/-- **A step with null for its data** is read without the settings that stand on it. -/
theorem read_of_null_data (h : AddsNull "data" p q) (hread : read (.obj p) = .accepted s) :
    ∃ t, read (.obj q) = .accepted t ∧ t = { s with data := {}, extra := t.extra } := by
  have hdata := h.get?_missing
  obtain ⟨hid, htype, hposition, -, -⟩ := ofMembers_eq_accepted_iff.1 hread
  have hregular : read (.obj q) = ofMembers (dropNull p "position") := by
    rw [← normalize_of_null_data h]
    rfl
  rw [required_congr (get?_of_missing hdata (by decide) (by decide))] at hid
  rw [optional_congr (get?_of_missing hdata (by decide) (by decide))] at htype hposition
  have hnone : Table.get? (dropNull p "position") "data" = none := by
    rw [get?_dropNull_of_ne (by decide), hdata]
  refine ⟨{ s with data := {}, extra := extraMembers schema (dropNull p "position") }, ?_, rfl⟩
  rw [hregular]
  exact ofMembers_eq_accepted_iff.2
    ⟨hid, htype, hposition, Field.optional_of_missing (f := "data") hnone, rfl⟩

/-- **When null means missing in the payload of a step.** Null for the position, in whatever place
among the members, is read as if the position were missing, and so is null for the settings in the
data. Null for the data is accepted whenever the payload is accepted without it. But then nothing is
read as data, not even settings that stand on the step: the compiler sees the same step just in case
there are no such settings, or they are null or empty. -/
theorem null_reads_as_missing_iff (p : Members) :
    (∀ q, AddsNull "position" p q → read (.obj q) = read (.obj p)) ∧
    (∀ d d', Table.get? p "data" = some (.obj d) → AddsNull "config" d d' →
      read (.obj (Table.set p "data" (.obj d'))) = read (.obj p)) ∧
    ∀ q s, AddsNull "data" p q → read (.obj p) = .accepted s →
      ∃ t, read (.obj q) = .accepted t ∧ t = { s with data := {}, extra := t.extra } ∧
        (s.SameAs t ↔ (Json.member p "config").isGiven = false) := by
  refine ⟨fun q h => ?_, fun d d' hd h => ?_, fun q s h hread => ?_⟩
  · show ofMembers (normalize q) = ofMembers (normalize p)
    rw [normalize_of_null_position h]
  · exact read_of_null_config hd h
  · obtain ⟨t, ht, heq⟩ := read_of_null_data h hread
    obtain ⟨settings, hsettings, hdata⟩ := data_of_missing h.get?_missing hread
    refine ⟨t, ht, heq, ?_⟩
    rw [← readConfig_eq_nil_iff hsettings]
    constructor
    · intro hsame
      have hconfig : t.config = settings := hsame.config.trans (congrArg StepData.config hdata)
      rw [← hconfig, heq]
      rfl
    · rintro rfl
      -- Nothing but members that the compiler does not look at is left to differ.
      have hsame : t = s.withExtra t.extra := by
        rw [heq, withExtra, ← hdata]
      rw [hsame]
      exact ⟨rfl, rfl, rfl, rfl, compile_withExtra s t.extra⟩

/-- A step that says nothing but what it is. -/
def bare : Members := [("id", .str "a"), ("type", .str "message")]

/-- A step with a label and no settings. -/
def labelled : Members := [("id", .str "a"), ("data", .obj [("label", .str "Hello")])]

/-- Where there are no settings, null makes no difference in any place. -/
theorem null_reads_as_missing_iff_bare :
    AddsNull "data" bare (("data", .null) :: bare) ∧
    AddsNull "position" bare (bare ++ [("position", .null)]) ∧
    (∃ s t, read (.obj bare) = .accepted s ∧ read (.obj (("data", .null) :: bare)) = .accepted t ∧
      s.SameAs t) ∧
    read (.obj (bare ++ [("position", .null)])) = read (.obj bare) ∧
    read (.obj (Table.set labelled "data" (.obj [("config", .null), ("label", .str "Hello")]))) =
      read (.obj labelled) := by
  have hdata : AddsNull "data" bare (("data", .null) :: bare) := ⟨by decide, [], bare, rfl, rfl⟩
  have hposition : AddsNull "position" bare (bare ++ [("position", .null)]) :=
    ⟨by decide, bare, [], rfl, rfl⟩
  have hconfig : AddsNull "config" [("label", .str "Hello")]
      [("config", .null), ("label", .str "Hello")] :=
    ⟨by decide, [], [("label", .str "Hello")], rfl, rfl⟩
  obtain ⟨hsame, -, hread⟩ := null_reads_as_missing_iff bare
  obtain ⟨-, hsettings, -⟩ := null_reads_as_missing_iff labelled
  obtain ⟨t, ht, -, hiff⟩ := hread _ _ hdata rfl
  exact ⟨hdata, hposition, ⟨_, t, rfl, ht, hiff.2 rfl⟩, hsame _ hposition,
    hsettings _ _ rfl hconfig⟩

/-- A step with settings that stand on it. -/
def scripted : Members :=
  [("id", .str "a"), ("type", .str "message"), ("config", .obj [("message", .str "Hi")])]

/-- Null for the data takes the message away. -/
theorem scripted_silenced :
    AddsNull "data" scripted (scripted ++ [("data", .null)]) ∧
      ∃ s t, read (.obj scripted) = .accepted s ∧
        read (.obj (scripted ++ [("data", .null)])) = .accepted t ∧
        s.settingText ["message"] "Hello" = "Hi" ∧ t.settingText ["message"] "Hello" = "Hello" ∧
        ¬ s.SameAs t := by
  refine ⟨⟨by decide, scripted, [], by simp, rfl⟩, _, _, rfl, rfl, by decide, by decide, ?_⟩
  intro hsame
  have hconfig : ([] : Members) = [("message", .str "Hi")] := hsame.config
  cases hconfig

end Step

end CallFlow
