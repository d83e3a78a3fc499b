import CallFlow.CommandLine.Run
import CallFlow.Proofs.NullMembers
import CallFlow.Proofs.Outcome
import CallFlow.Proofs.Readings
import CallFlow.Proofs.WholeNumbers
import Mathlib.Algebra.Group.Nat.Defs

/-!
# Numbers of Documents

The reader refuses a whole number with too many digits, so every value that it gives can be written
again. This goes through the whole of a document: a container holds nothing but values that have
been read before it. A flow takes its settings as they stand in the document, so all numbers of a
flow from a document can be written. Only a flow that is put together by a program may hold others.

## Sections

1. Words
2. Runs of the reader
3. Steps and links
4. Flows
-/

namespace CallFlow

namespace Json

/-! ## §1 Words -/

theorem isWritable_arr {items : List Json} :
    (arr items).isWritable = true ↔ ∀ v ∈ items, v.isWritable = true := by
  simp [isWritable, everywhere, isShort, everywhereItems_iff]

theorem isWritable_obj {members : Members} :
    (obj members).isWritable = true ↔ ∀ m ∈ members, m.2.isWritable = true := by
  simp [isWritable, everywhere, isShort, everywhereMembers_iff]

theorem asciiDigit?_lt {c : Char} {d : Nat} (h : Text.asciiDigit? c = some d) : d < 10 := by
  unfold Text.asciiDigit? at h
  split at h
  · rename_i hdigit
    simp only [Bool.and_eq_true, decide_eq_true_eq] at hdigit
    have hhigh : c.toNat ≤ 57 := hdigit.2
    obtain rfl := Option.some.inj h
    omega
  · cases h

/-- Digits write a number that has no more digits than they are. -/
theorem of_digitsValue? {cs : List Char} {acc n : Nat} (h : digitsValue? cs acc = some n) :
    cs.all (Text.asciiDigit? · |>.isSome) = true ∧ n < (acc + 1) * 10 ^ cs.length := by
  induction cs generalizing acc with
  | nil =>
    obtain rfl := Option.some.inj h
    simp
  | cons c rest ih =>
    obtain ⟨d, hd, hrest⟩ := Option.bind_eq_some_iff.1 h
    obtain ⟨hall, hn⟩ := ih hrest
    refine ⟨by simp [hd, hall], ?_⟩
    have hdigit := asciiDigit?_lt hd
    calc n < (10 * acc + d + 1) * 10 ^ rest.length := hn
      _ ≤ (acc + 1) * 10 * 10 ^ rest.length := Nat.mul_le_mul_right _ (by omega)
      _ = (acc + 1) * 10 ^ (c :: rest).length := by
        rw [List.length_cons, Nat.pow_succ', Nat.mul_assoc]

theorem of_natural? {cs : List Char} {n : Nat} (h : natural? cs = some n) :
    cs.all (Text.asciiDigit? · |>.isSome) = true ∧
      (Nat.toDigits 10 n).length ≤ cs.length := by
  unfold natural? at h
  split at h
  · cases h
  · rename_i hne
    obtain ⟨hall, hn⟩ := of_digitsValue? h
    rw [Nat.zero_add, Nat.one_mul] at hn
    have hpos : 0 < cs.length := List.length_pos_iff.2 fun hnil => hne (List.isEmpty_iff.2 hnil)
    exact ⟨hall, (Nat.length_toDigits_le_iff (by omega) hpos).2 hn⟩

/-- A number without point and exponent is all whole. -/
theorem whole_of_split {cs : List Char} (hfraction : (NumberParts.split cs).fraction = none)
    (hexponent : (NumberParts.split cs).exponent = none) :
    (NumberParts.split cs).whole = (splitMinus cs).2 := by
  have hno : ∀ {l : List Char} {p : Char → Bool},
      (if (l.dropWhile p).isEmpty then none else some ((l.dropWhile p).drop 1)) = none →
        l.takeWhile p = l := by
    intro l p hnone
    split at hnone
    · rename_i hempty
      have hsplit := List.takeWhile_append_dropWhile (p := p) (l := l)
      rwa [List.isEmpty_iff.1 hempty, List.append_nil] at hsplit
    · cases hnone
  have hmantissa := hno hexponent
  have hwhole := hno hfraction
  exact hwhole.trans hmantissa

/-- A number with no more digits than are read can be written. -/
theorem isWritable_of_number? {cs : List Char} {v : Json}
    (hcount : integerDigits cs ≤ maxIntegerDigits) (h : number? cs = some v) :
    v.isWritable = true := by
  unfold number? at h
  dsimp only at h
  split at h
  · cases h
  rename_i hzero
  split at h
  · rename_i hparts
    rw [Bool.and_eq_true, Option.isNone_iff_eq_none, Option.isNone_iff_eq_none] at hparts
    have hwhole := whole_of_split hparts.1 hparts.2
    obtain ⟨i, hi, rfl⟩ := Option.map_eq_some_iff.1 h
    obtain ⟨n, hn, hcast⟩ := Option.bind_eq_some_iff.1 hi
    obtain rfl : (n : Int) = i := Option.some.inj hcast
    obtain ⟨hall, hlength⟩ := of_natural? hn
    rw [hwhole] at hall hlength hzero
    have hdigits : integerDigits cs = (splitMinus cs).2.length := by
      simp only [integerDigits, hall, hzero]
      rfl
    have hshort : (Nat.toDigits 10 n).length ≤ maxIntegerDigits := by omega
    -- The sign does not count.
    refine decide_eq_true ?_
    split <;> simpa using hshort
  · obtain ⟨x, -, rfl⟩ := Option.map_eq_some_iff.1 h
    rfl

/-- **A word that is read can be written.** -/
theorem isWritable_of_readWord {cs : List Char} {v : Json} (h : readWord cs = .ok v) :
    v.isWritable = true := by
  unfold readWord at h
  dsimp only at h
  split at h
  · cases h
  rename_i hcount
  split at h
  -- Six words are no numbers with digits.
  iterate 6
    · obtain rfl := Except.ok.inj h
      rfl
  split at h
  · rename_i number hnumber
    exact Except.ok.inj h ▸ isWritable_of_number? (Nat.not_lt.1 hcount) hnumber
  · cases h

/-! ## §2 Runs of the reader -/

section

variable {ε α β : Type} {x : Except ε α} {b : β}

theorem exists_of_map_eq_ok {f : α → β} (h : x.map f = .ok b) : ∃ a, x = .ok a ∧ f a = b := by
  cases x with
  | error e => cases h
  | ok a => exact ⟨a, rfl, Except.ok.inj h⟩

theorem exists_of_bind_eq_ok {f : α → Except ε β} (h : x.bind f = .ok b) :
    ∃ a, x = .ok a ∧ f a = .ok b := by
  cases x with
  | error e => cases h
  | ok a => exact ⟨a, rfl, h⟩

theorem eq_of_guarded {p : Prop} [Decidable p] {a : α} {e : ε} {y : α}
    (h : (if p then .ok a else .error e : Except ε α) = .ok y) : a = y := by
  split at h
  · exact Except.ok.inj h
  · cases h

end

/-- What has been read of a container can be written. -/
def Frame.IsWritable : Frame → Prop
  | .arr items => ∀ v ∈ items, v.isWritable = true
  | .obj members _ => ∀ m ∈ members, m.2.isWritable = true

/-- What has been read of a document can be written. -/
structure Progress.IsWritable (p : Progress) : Prop where
  frames : ∀ frame ∈ p.frames, frame.IsWritable
  result : ∀ v ∈ p.result, v.isWritable = true

namespace Progress.IsWritable

variable {p p' : Progress}

theorem start : Progress.start.IsWritable := ⟨nofun, nofun⟩

/-- A value may be put wherever it belongs. -/
theorem put (h : p.IsWritable) {v : Json} (hv : v.isWritable = true) : (p.put v).IsWritable := by
  obtain ⟨frames, expected, result⟩ := p
  obtain ⟨hframes, hresult⟩ := h
  cases frames with
  | nil => exact ⟨nofun, fun w hw => Option.some.inj hw ▸ hv⟩
  | cons frame rest =>
    have hrest := fun f hf => hframes f (List.mem_cons_of_mem _ hf)
    have hframe := hframes frame (List.mem_cons_self ..)
    cases frame with
    | arr items =>
      exact ⟨List.forall_mem_cons.2 ⟨List.forall_mem_cons.2 ⟨hv, hframe⟩, hrest⟩, hresult⟩
    | obj members name =>
      refine ⟨List.forall_mem_cons.2 ⟨fun m hm => ?_, hrest⟩, hresult⟩
      rcases Table.mem_of_mem_set hm with rfl | hmem
      · exact hv
      · exact hframe m hmem

theorem word (h : p.IsWritable) {cs : List Char} (hword : p.word cs = .ok p') :
    p'.IsWritable := by
  unfold Progress.word at hword
  split at hword
  · obtain ⟨v, hread, rfl⟩ := exists_of_map_eq_ok hword
    exact h.put (isWritable_of_readWord hread)
  · cases hword

theorem text (h : p.IsWritable) {s : String} (htext : p.text s = .ok p') : p'.IsWritable := by
  obtain ⟨frames, expected, result⟩ := p
  obtain ⟨hframes, hresult⟩ := h
  unfold Progress.text at htext
  split at htext
  · obtain rfl := Except.ok.inj htext
    exact put ⟨hframes, hresult⟩ rfl
  · split at htext
    · split at htext
      · rename_i members name rest hsame
        dsimp only at hsame
        subst hsame
        obtain rfl := Except.ok.inj htext
        obtain ⟨hframe, hrest⟩ := List.forall_mem_cons.1 hframes
        exact ⟨List.forall_mem_cons.2 ⟨hframe, hrest⟩, hresult⟩
      · cases htext
    · cases htext

/-- A mark opens a container, closes one, or goes on in it. -/
theorem mark (h : p.IsWritable) {c : Char} (hmark : p.mark c = .ok p') : p'.IsWritable := by
  obtain ⟨frames, expected, result⟩ := p
  obtain ⟨hframes, hresult⟩ := h
  unfold Progress.mark at hmark
  dsimp only at hmark hframes hresult
  -- The cases are those of the reader: two openings, two ends, two commas, a colon, no mark.
  split at hmark
  · obtain rfl := eq_of_guarded hmark
    exact ⟨List.forall_mem_cons.2 ⟨List.forall_mem_nil _, hframes⟩, hresult⟩
  · obtain rfl := eq_of_guarded hmark
    exact ⟨List.forall_mem_cons.2 ⟨List.forall_mem_nil _, hframes⟩, hresult⟩
  · obtain rfl := eq_of_guarded hmark
    obtain ⟨hframe, hrest⟩ := List.forall_mem_cons.1 hframes
    refine put ⟨hrest, hresult⟩ (isWritable_arr.2 fun v hv => ?_)
    exact hframe v (List.mem_reverse.1 hv)
  · obtain rfl := eq_of_guarded hmark
    obtain ⟨hframe, hrest⟩ := List.forall_mem_cons.1 hframes
    exact put ⟨hrest, hresult⟩ (isWritable_obj.2 hframe)
  · obtain rfl := eq_of_guarded hmark
    exact ⟨hframes, hresult⟩
  · obtain rfl := eq_of_guarded hmark
    exact ⟨hframes, hresult⟩
  · obtain rfl := eq_of_guarded hmark
    exact ⟨hframes, hresult⟩
  · cases hmark

theorem stepBetween (h : p.IsWritable) {c : Char} {s : Inside × Progress}
    (hstep : Json.stepBetween p c = .ok s) : s.2.IsWritable := by
  unfold Json.stepBetween at hstep
  split at hstep
  · exact Except.ok.inj hstep ▸ h
  · split at hstep
    · exact Except.ok.inj hstep ▸ h
    · split at hstep
      · obtain ⟨p', hmark, rfl⟩ := exists_of_map_eq_ok hstep
        exact h.mark hmark
      · exact Except.ok.inj hstep ▸ h

/-- **One character** leaves what has been read as it is, or adds what can be written. -/
theorem step {s s' : Inside × Progress} (h : s.2.IsWritable) {c : Char}
    (hstep : Json.step s c = .ok s') : s'.2.IsWritable := by
  obtain ⟨inside, p⟩ := s
  cases inside with
  | between => exact h.stepBetween hstep
  | word read =>
    simp only [Json.step] at hstep
    split at hstep
    · obtain ⟨p', hword, hbetween⟩ := exists_of_bind_eq_ok hstep
      exact (h.word hword).stepBetween hbetween
    · exact Except.ok.inj hstep ▸ h
  | text read =>
    simp only [Json.step] at hstep
    split at hstep
    · obtain ⟨p', htext, rfl⟩ := exists_of_map_eq_ok hstep
      exact h.text htext
    · split at hstep
      · exact Except.ok.inj hstep ▸ h
      · split at hstep
        · cases hstep
        · exact Except.ok.inj hstep ▸ h
  | escape read =>
    simp only [Json.step] at hstep
    split at hstep
    · exact Except.ok.inj hstep ▸ h
    · split at hstep
      · exact Except.ok.inj hstep ▸ h
      · cases hstep
  | code read left value =>
    simp only [Json.step] at hstep
    split at hstep
    · cases hstep
    · split at hstep <;> exact Except.ok.inj hstep ▸ h

/-- What one character keeps, all of them keep. -/
theorem run {s s' : Inside × Progress} (h : s.2.IsWritable) {cs : List Char}
    (hrun : cs.foldlM Json.step s = .ok s') : s'.2.IsWritable := by
  induction cs generalizing s with
  | nil => exact Except.ok.inj hrun ▸ h
  | cons c rest ih =>
    rw [List.foldlM_cons] at hrun
    obtain ⟨s'', hstep, hrest⟩ := exists_of_bind_eq_ok hrun
    exact ih (h.step hstep) hrest

theorem finish (h : p.IsWritable) {v : Json} (hfinish : Json.finish (.between, p) = .ok v) :
    v.isWritable = true := by
  unfold Json.finish at hfinish
  dsimp only at hfinish
  split at hfinish
  · rename_i hresult
    obtain rfl := Except.ok.inj hfinish
    exact h.result _ hresult
  · cases hfinish

end Progress.IsWritable

/-- **Whatever a document says can be written.** -/
theorem isWritable_of_parse {document : String} {v : Json} (h : parse document = .ok v) :
    v.isWritable = true := by
  obtain ⟨⟨inside, p⟩, hrun, hfinish⟩ := exists_of_bind_eq_ok h
  have hp : p.IsWritable := Progress.IsWritable.start.run hrun
  -- A document ends between values, or in a word that is its last value.
  cases inside with
  | between => exact hp.finish hfinish
  | word read =>
    obtain ⟨p', hword, hlast⟩ := exists_of_bind_eq_ok hfinish
    exact (hp.word hword).finish hlast
  | text read => cases hfinish
  | escape read => cases hfinish
  | code read left value => cases hfinish

/-! ## §3 Steps and links -/

section

variable {members : Members} {name : String} {v : Json}

theorem isWritable_of_get? (h : (obj members).isWritable = true)
    (hv : Table.get? members name = some v) : v.isWritable = true :=
  isWritable_obj.1 h _ (Table.mem_of_get?_eq_some hv)

theorem isWritable_filter (h : (obj members).isWritable = true) (keep : String × Json → Bool) :
    (obj (members.filter keep)).isWritable = true :=
  isWritable_obj.2 fun m hm => isWritable_obj.1 h m (List.mem_filter.1 hm).1

theorem isWritable_set (h : (obj members).isWritable = true) (hv : v.isWritable = true) :
    (obj (Table.set members name v)).isWritable = true := by
  refine isWritable_obj.2 fun m hm => ?_
  rcases Table.mem_of_mem_set hm with rfl | hmem
  · exact hv
  · exact isWritable_obj.1 h m hmem

theorem isWritable_member (h : (obj members).isWritable = true) (name : String) :
    (member members name).isWritable = true := by
  unfold member
  cases hv : Table.get? members name with
  | none => rfl
  | some v => exact isWritable_of_get? h hv

end

end Json

open Json Schema

/-- An optional member has its default, or has been read from a value that can be written. -/
theorem Schema.Field.of_optional {α : Type} {f : Field} {d a : α} {read : Json → Checked α}
    {m : Members} (hm : (obj m).isWritable = true) (h : f.optional d read m = .accepted a) :
    a = d ∨ ∃ v : Json, v.isWritable = true ∧ read v = .accepted a := by
  unfold optional at h
  split at h
  · rename_i v hv
    exact Or.inr ⟨v, isWritable_of_get? hm hv, Checked.of_under h⟩
  · exact Or.inl (Checked.accepted.inj h).symm

namespace Step

/-- Whether all whole numbers that an author has stored with a step can be written. -/
def isWritable (s : Step) : Bool :=
  [s.config, s.data.extra, s.extra].all fun members => (obj members).isWritable

theorem isWritable_liftConfig {m : Members} (h : (obj m).isWritable = true) :
    (obj (liftConfig m)).isWritable = true := by
  unfold liftConfig
  split
  · rename_i config hconfig _
    have hdata : (obj [("config", config)]).isWritable = true := by
      rw [isWritable_obj, List.forall_mem_singleton]
      exact isWritable_of_get? h hconfig
    exact isWritable_set (isWritable_filter h _) hdata
  · exact h

theorem isWritable_dropNull {m : Members} (h : (obj m).isWritable = true) (name : String) :
    (obj (dropNull m name)).isWritable = true := by
  unfold dropNull
  split
  · exact isWritable_filter h _
  · exact h

/-- The settings of a step are taken as they stand. -/
theorem isWritable_readConfig {v : Json} {config : Members} (hv : v.isWritable = true)
    (h : StepData.readConfig v = .accepted config) : (obj config).isWritable = true := by
  cases v with
  | null => exact Checked.accepted.inj h ▸ rfl
  | obj members => exact Checked.accepted.inj h ▸ hv
  | bool b | int i | float x | str s | arr items => cases h

theorem isWritable_readData {v : Json} {d : StepData} (hv : v.isWritable = true)
    (h : StepData.read v = .accepted d) :
    (obj d.config).isWritable = true ∧ (obj d.extra).isWritable = true := by
  cases v with
  | obj m =>
    obtain ⟨-, hconfig, hextra⟩ := readData_eq_accepted_iff.1 h
    refine ⟨?_, hextra ▸ isWritable_filter hv _⟩
    rcases Field.of_optional hv hconfig with hnone | ⟨v, hv, hread⟩
    · exact hnone ▸ rfl
    · exact isWritable_readConfig hv hread
  | null | bool b | int i | float x | str s | arr items => cases h

/-- **A step that is read** from what can be written can be written. -/
theorem isWritable_of_read {v : Json} {s : Step} (hv : v.isWritable = true)
    (h : Step.read v = .accepted s) : s.isWritable = true := by
  cases v with
  | obj m =>
    have hm : (obj (normalize m)).isWritable = true :=
      isWritable_dropNull (isWritable_dropNull (isWritable_liftConfig hv) _) _
    obtain ⟨-, -, -, hdata, hextra⟩ := ofMembers_eq_accepted_iff.1 h
    have hstored : (obj s.data.config).isWritable = true ∧
        (obj s.data.extra).isWritable = true := by
      rcases Field.of_optional hm hdata with hnone | ⟨v, hv, hread⟩
      · exact hnone ▸ ⟨rfl, rfl⟩
      · exact isWritable_readData hv hread
    have hrest : (obj s.extra).isWritable = true := hextra ▸ isWritable_filter hm _
    simp [isWritable, config, hstored, hrest]
  | null | bool b | int i | float x | str s | arr items => cases h

end Step

namespace Link

/-- Whether all whole numbers that an author has stored with a link can be written. -/
def isWritable (l : Link) : Bool :=
  (obj l.extra).isWritable &&
    l.data.all fun data => data.condition.isWritable && (obj data.extra).isWritable

theorem isWritable_readData {v : Json} {d : LinkData} (hv : v.isWritable = true)
    (h : LinkData.read v = .accepted d) :
    d.condition.isWritable = true ∧ (obj d.extra).isWritable = true := by
  cases v with
  | obj m =>
    obtain ⟨_, _, hcondition, hextra, rfl⟩ := Checked.seq_eq_accepted.1 h
    obtain ⟨condition, hread, rfl⟩ := Checked.map_eq_accepted.1 hcondition
    refine ⟨?_, Checked.accepted.inj hextra ▸ isWritable_filter hv _⟩
    rcases Field.of_optional hv hread with hnone | ⟨v, hv, hv'⟩
    · exact hnone ▸ rfl
    · exact Checked.accepted.inj hv' ▸ hv
  | null | bool b | int i | float x | str s | arr items => cases h

/-- What an accepted link carries besides its ends, in its data and beside them. -/
theorem of_ofMembers {m : Members} {l : Link} (h : ofMembers m = .accepted l) :
    Field.optional "data" none (readOptional LinkData.read) m = .accepted l.data ∧
      l.extra = extraMembers schema m := by
  unfold ofMembers at h
  simp only [Checked.seq_eq_accepted, Checked.map_eq_accepted, Checked.pure_eq_accepted] at h
  obtain ⟨_, _, ⟨_, _, ⟨_, _, ⟨_, _, ⟨_, _, ⟨_, _, ⟨_, _, ⟨_, -, rfl⟩, -, rfl⟩, -, rfl⟩, -, rfl⟩,
    -, rfl⟩, -, rfl⟩, hdata, rfl⟩, hextra, rfl⟩ := h
  exact ⟨hdata, (Checked.accepted.inj hextra).symm⟩

/-- **A link that is read** from what can be written can be written. -/
theorem isWritable_of_read {v : Json} {l : Link} (hv : v.isWritable = true)
    (h : Link.read v = .accepted l) : l.isWritable = true := by
  cases v with
  | obj m =>
    obtain ⟨hdata, hextra⟩ := of_ofMembers h
    have hrest : (obj l.extra).isWritable = true := hextra ▸ isWritable_filter hv _
    cases hstored : l.data with
    | none => simp [isWritable, hrest, hstored]
    | some d =>
      rw [hstored] at hdata
      obtain ⟨v, hv, hread⟩ := (Field.of_optional hv hdata).resolve_left nofun
      have hd : LinkData.read v = .accepted d := by
        cases v with
        | null => cases hread
        | _ =>
          obtain ⟨_, hd, hsame⟩ := Checked.map_eq_accepted.1 hread
          exact Option.some.inj hsame ▸ hd
      simp [isWritable, hrest, hstored, isWritable_readData hv hd]
  | null | bool b | int i | float x | str s | arr items => cases h

end Link

/-! ## §4 Flows -/

namespace Flow

/-- Whether all whole numbers in a flow can be written. -/
def isWritable (f : Flow) : Bool := f.steps.all Step.isWritable && f.links.all Link.isWritable

theorem isWritable_listOrEmpty {v : Json} (hv : v.isWritable = true) :
    (listOrEmpty v).isWritable = true := by
  unfold listOrEmpty
  split
  · exact hv
  · rfl

/-- A flow that is read from what can be written can be written. -/
theorem isWritable_of_read {steps links : Json} {f : Flow} (hsteps : steps.isWritable = true)
    (hlinks : links.isWritable = true) (h : Flow.read steps links = .accepted f) :
    f.isWritable = true := by
  obtain ⟨_, _, hmade, hreadLinks, rfl⟩ := Checked.seq_eq_accepted.1 h
  obtain ⟨_, hreadSteps, rfl⟩ := Checked.map_eq_accepted.1 hmade
  unfold isWritable
  rw [Bool.and_eq_true, List.all_eq_true, List.all_eq_true]
  constructor
  · intro s hs
    obtain ⟨items, hitems, item, hitem, hread⟩ :=
      exists_of_mem_readList (Checked.of_under hreadSteps) hs
    have hlist := isWritable_listOrEmpty hsteps
    rw [hitems, isWritable_arr] at hlist
    exact Step.isWritable_of_read (hlist item hitem) hread
  · intro l hl
    obtain ⟨items, hitems, item, hitem, hread⟩ :=
      exists_of_mem_readList (Checked.of_under hreadLinks) hl
    have hlist := isWritable_listOrEmpty hlinks
    rw [hitems, isWritable_arr] at hlist
    exact Link.isWritable_of_read (hlist item hitem) hread

/-- **A flow from a document** holds no number that cannot be written. -/
theorem isWritable_of_loadFlow {world : CommandLine.World} {o : CommandLine.Order} {f : Flow}
    (h : (CommandLine.loadFlow world o).Gives f) : f.isWritable = true := by
  unfold CommandLine.loadFlow at h
  obtain ⟨text, -, h⟩ := Attempt.gives_bind.1 h
  obtain ⟨v, hdocument, h⟩ := Attempt.gives_bind.1 h
  have hv : v.isWritable = true := by
    unfold CommandLine.readDocument at hdocument
    split at hdocument
    · rename_i hparse
      exact Attempt.gives_pure.1 hdocument ▸ isWritable_of_parse hparse
    · exact absurd hdocument Attempt.not_gives_fail
    · exact absurd hdocument Attempt.not_gives_fail
  split at h
  · rename_i m
    cases hread : Flow.read (member m "nodes") (member m "edges") with
    | accepted g =>
      rw [hread] at h
      have hsame : f = g := Attempt.gives_pure.1 h
      exact hsame ▸ isWritable_of_read (isWritable_member hv _) (isWritable_member hv _) hread
    | rejected vs =>
      rw [hread] at h
      exact absurd h Attempt.not_gives_fail
  · exact absurd h Attempt.not_gives_fail

end Flow

end CallFlow
