import CallFlow.Proofs.ReadingBack
import CallFlow.Trace

/-!
# What a Store Keeps

A store only ever adds to what it keeps. An event goes to the end of its trace in memory and, if the
store has a folder, to the end of the file of that trace; other traces and their files stay as they
are. So the two sides agree: the file of a trace has one line for each of its events, in order, and
each line reads back as its event.

This holds for traces whose ids are plain, which means that they hold no slash, in a file system
that keeps them apart: there is a place for the file of such a trace, and no other such trace has
the same. Where folders form a tree, every store has this of its file system.

## Sections

1. The lines of events
2. The files of plain traces
3. Looking into files
4. Recording one event
5. Recording several events
6. Starting a trace
-/

namespace CallFlow

/-! ## §1 The lines of events -/

namespace TraceEvent

/-- What an event says, apart from the time. -/
def said (e : TraceEvent) : String × String × Members := (e.traceId, e.event, e.data)

/-- A line is one line. -/
theorem newline_notMem_line (e : TraceEvent) : '\n' ∉ e.line.toList :=
  Json.newline_notMem_render _

/-- An event as its line tells it, with members in order of their names. -/
def sorted (e : TraceEvent) : Json :=
  .obj [("data", (Json.obj e.data).sortMembers), ("event", .str e.event),
    ("timestamp", .str e.timestamp), ("trace_id", .str e.traceId)]

theorem sortMembers_toJson (e : TraceEvent) : e.toJson.sortMembers = e.sorted := by
  simp only [toJson, Json.sortMembers, Json.sortMembersMembers, sorted]
  simp [List.mergeSort, List.MergeSort.Internal.splitInTwo]

/-- **A line reads back as its event.** -/
theorem parse_line {e : TraceEvent} (hfaithful : (Json.obj e.data).isFaithful = true)
    (hwritable : (Json.obj e.data).isWritable = true) : Json.parse e.line = .ok e.sorted := by
  have hfaithful' : e.toJson.isFaithful = true := by
    rw [toJson, Json.isFaithful_obj]
    exact ⟨(by decide : ["trace_id", "event", "timestamp", "data"].Nodup), by simp [hfaithful]⟩
  have hwritable' : e.toJson.isWritable = true := by
    simp only [Json.isWritable, toJson, Json.everywhere, Json.everywhereMembers,
      Json.isShort, Bool.true_and, Bool.and_true] at hwritable ⊢
    exact hwritable
  rw [line, Json.parse_render (Json.isFaithful_sortMembers hfaithful')
    (Json.isWritable_sortMembers hwritable'), sortMembers_toJson]

end TraceEvent

/-- The text of a file with a line for each event. -/
def logText (events : List TraceEvent) : String := Text.ofLines (events.map TraceEvent.line)

theorem logText_append (events more : List TraceEvent) :
    logText (events ++ more) = logText events ++ logText more := by
  rw [logText, List.map_append, Text.ofLines_append]
  rfl

theorem logText_singleton (e : TraceEvent) : logText [e] = e.line ++ "\n" := by
  simp [logText, Text.ofLines]

/-- The lines of such a file are those of the events. -/
theorem lines_logText (events : List TraceEvent) :
    Text.lines (logText events) = events.map TraceEvent.line := by
  refine Text.lines_ofLines fun line hline => ?_
  obtain ⟨e, -, rfl⟩ := List.mem_map.1 hline
  exact e.newline_notMem_line

/-! ## §2 The files of plain traces -/

namespace FilePlace

/-- The id holds no slash, so it is the name of a file. -/
def IsPlain (id : String) : Prop := '/' ∉ id.toList

/-- The file system has a place for the file of every plain trace, and no two of them have the same
place. -/
structure KeepsPlain (locate : String → Option FilePlace) : Prop where
  found : ∀ id, IsPlain id → ∃ place, locate id = some place
  apart : ∀ id other, IsPlain id → IsPlain other → locate id = locate other → id = other

/-- Other paths than those from the outermost folder begin with no slash. -/
theorem startsWith_slash {path : String} (h : path.toList.head? ≠ some '/') :
    path.startsWith "/" = false := by
  rw [Bool.eq_false_iff, ne_eq, String.startsWith_string_iff]
  rintro ⟨rest, hpath⟩
  exact h (by rw [← hpath]; rfl)

theorem slash_notMem_of_plain {id : String} (h : IsPlain id) : '/' ∉ (id ++ ".jsonl").toList := by
  rw [String.toList_append, List.mem_append, not_or]
  exact ⟨h, by decide⟩

theorem parts_of_plain {id : String} (h : IsPlain id) :
    parts (id ++ ".jsonl") = [id ++ ".jsonl"] := by
  have hlong : 6 ≤ (id ++ ".jsonl").toList.length := by
    simp [String.toList_append]
  -- A path as long as that is neither empty nor a single point.
  have hne : ∀ short : String, short.toList.length < 6 → id ++ ".jsonl" ≠ short := by
    rintro short hshort rfl
    omega
  have hempty := hne "" (by decide)
  have hpoint := hne "." (by decide)
  rw [parts, List.splitOn_eq_singleton (slash_notMem_of_plain h)]
  simp [hempty, hpoint]

/-- In a tree of folders, the file of a plain trace lies in the folder of the store. -/
theorem locate_of_plain (isFolder : List String → Bool) (folder : List String) {id : String}
    (h : IsPlain id) : locate isFolder folder id = some ⟨folder, id ++ ".jsonl"⟩ := by
  have hroot : (id ++ ".jsonl").startsWith "/" = false :=
    startsWith_slash fun hhead => slash_notMem_of_plain h (List.mem_of_mem_head? hhead)
  simp only [locate, parts_of_plain h, hroot, follow, Bool.false_eq_true, if_false]

/-- **A tree of folders keeps plain traces apart**, whatever folders there are. -/
theorem keepsPlain_locate (isFolder : List String → Bool) (folder : List String) :
    KeepsPlain (locate isFolder folder) where
  found := fun _ h => ⟨_, locate_of_plain isFolder folder h⟩
  apart := by
    intro id other h hother hsame
    rw [locate_of_plain isFolder folder h, locate_of_plain isFolder folder hother] at hsame
    have hnames : id ++ ".jsonl" = other ++ ".jsonl" :=
      congrArg FilePlace.name (Option.some.inj hsame)
    exact String.append_left_inj _ |>.1 hnames

theorem keepsPlain_ofTrace? : KeepsPlain ofTrace? := keepsPlain_locate _ _

end FilePlace

open FilePlace

/-! ## §3 Looking into files -/

namespace TraceFiles

/-- The text of the file at a place, if there is one. -/
def text? (files : TraceFiles) (place : FilePlace) : Option String :=
  (files.find? (·.1 = place)).map Prod.snd

/-- A text goes to the end of its file, and all other files stay as they are. -/
theorem text?_append (files : TraceFiles) (place other : FilePlace) (more : String) :
    text? (append files place more) other =
      if other = place then some ((text? files place).getD "" ++ more)
      else text? files other := by
  induction files with
  | nil => by_cases h : other = place <;> simp [text?, append, h, Ne.symm]
  | cons file rest ih =>
    obtain ⟨p, text⟩ := file
    simp only [text?] at ih ⊢
    by_cases hp : p = place <;> by_cases ho : other = place <;> by_cases hpo : p = other <;>
      simp_all [append]

end TraceFiles

namespace TraceStore

/-- The text of the file at a place, if the store has one there. -/
def textAt? (s : TraceStore) (place : FilePlace) : Option String :=
  s.disk.bind fun files => TraceFiles.text? files place

theorem fileLines?_eq_bind (s : TraceStore) (id : String) :
    s.fileLines? id = (s.locate id).bind fun place => (s.textAt? place).map Text.lines := by
  unfold fileLines? files textAt? TraceFiles.text?
  cases s.disk with
  | none => cases s.locate id <;> rfl
  | some files =>
    cases s.locate id with
    | none => rfl
    | some place => simp [List.find?_map, Function.comp_def]

/-- If the store has a folder, the file of a plain trace has a line for each of its events, in
order. -/
def Mirrors (s : TraceStore) : Prop :=
  s.disk.isSome = true → ∀ id place, IsPlain id → s.locate id = some place →
    (s.textAt? place).getD "" = logText (s.events id)

/-- A trace with events has a file, just in case the store has a folder. -/
theorem Mirrors.fileLines?_eq {s : TraceStore} (h : s.Mirrors) (hkeeps : KeepsPlain s.locate)
    {id : String} (hid : IsPlain id) (hevents : s.events id ≠ []) :
    s.fileLines? id = s.disk.map fun _ => (s.events id).map TraceEvent.line := by
  obtain ⟨place, hplace⟩ := hkeeps.found id hid
  rw [fileLines?_eq_bind, hplace, Option.bind_some]
  cases hdisk : s.disk with
  | none => simp [textAt?, hdisk]
  | some files =>
    have hsame := h (by rw [hdisk]; rfl) id place hid hplace
    -- A file that is missing would have no lines.
    cases htext : s.textAt? place with
    | none =>
      have hnone := lines_logText (s.events id)
      rw [← hsame, htext] at hnone
      exact absurd (List.map_eq_nil_iff.1 hnone.symm) hevents
    | some text =>
      rw [htext, Option.getD_some] at hsame
      rw [Option.map_some, Option.map_some, hsame, lines_logText]

/-! ## §4 Recording one event -/

/-- The event that comes next. -/
def nextEvent (s : TraceStore) (id event : String) (data : Members) : TraceEvent :=
  { traceId := id, event, timestamp := s.time s.recorded, data }

/-- The store after an event is recorded. -/
def record (s : TraceStore) (e : TraceEvent) : TraceStore := ((s.remember e).persist e).1

/-- The data of an event has none of the keys that the event itself uses. -/
def IsFree (data : Members) : Prop := reserved? ["self", "trace_id", "event"] data = none

variable (s : TraceStore) (e : TraceEvent)

/-- Recording touches nothing but the traces, their files and the number of events. -/
theorem record_frame : s.record e = { s.remember e with disk := (s.record e).disk } := by
  unfold record persist
  split
  · rfl
  · split <;> rfl

@[simp] theorem record_locate : (s.record e).locate = s.locate := by rw [record_frame]; rfl

@[simp] theorem record_disk_isSome : (s.record e).disk.isSome = s.disk.isSome := by
  unfold record persist remember
  dsimp only
  split
  · rfl
  · rename_i files hdisk
    split
    · rfl
    · rw [hdisk]
      rfl

theorem names_record (h : e.traceId ∈ Table.names s.traces) :
    Table.names (s.record e).traces = Table.names s.traces := by
  rw [record_frame]
  show Table.names (Table.addToGroup s.traces e.traceId e) = _
  rw [Table.addToGroup, Table.names_set, if_pos h]

/-- An event goes to the end of its trace, and all other traces stay as they are. -/
theorem events_remember (id : String) :
    (s.remember e).events id = if id = e.traceId then s.events id ++ [e] else s.events id := by
  show (Table.get? (Table.addToGroup s.traces e.traceId e) id).getD [] = _
  rw [Table.addToGroup, Table.get?_set]
  by_cases h : id = e.traceId
  · simp [h, events]
  · simp [h, Ne.symm h, events]

theorem events_record (id : String) :
    (s.record e).events id = if id = e.traceId then s.events id ++ [e] else s.events id := by
  rw [← events_remember, record_frame]
  rfl

variable {s e}

/-- An event with a place for its file is written. -/
theorem persist_of_place {place : FilePlace} (hplace : s.locate e.traceId = some place) :
    s.persist e = ({ s with
      disk := s.disk.map fun files => TraceFiles.append files place (e.line ++ "\n") },
      .ok e) := by
  obtain ⟨newId, time, locate, taken, recorded, traces, disk⟩ := s
  dsimp only at hplace
  cases disk with
  | none => rfl
  | some files => simp only [persist, hplace, Option.map_some]

/-- It goes to the end of the file at this place, and all other files stay as they are. -/
theorem textAt?_record {place : FilePlace} (hdisk : s.disk.isSome = true)
    (hplace : s.locate e.traceId = some place) (other : FilePlace) :
    (s.record e).textAt? other =
      if other = place then some ((s.textAt? place).getD "" ++ (e.line ++ "\n"))
      else s.textAt? other := by
  obtain ⟨files, hfiles⟩ := Option.isSome_iff_exists.1 hdisk
  have hrecord : (s.record e).disk = some (TraceFiles.append files place (e.line ++ "\n")) := by
    rw [record, persist_of_place (s := s.remember e) hplace]
    show s.disk.map _ = _
    rw [hfiles, Option.map_some]
  simp only [textAt?, hrecord, hfiles, Option.bind_some]
  exact TraceFiles.text?_append files place other _

/-- Free data makes an event. -/
theorem log_of_free {id event : String} {data : Members} (hdata : IsFree data) :
    s.log id event data =
      (s.remember (s.nextEvent id event data)).persist (s.nextEvent id event data) := by
  unfold IsFree at hdata
  simp only [log, hdata, nextEvent]

theorem log_of_plain (hkeeps : KeepsPlain s.locate) {id : String} (hid : IsPlain id)
    (event : String) {data : Members} (hdata : IsFree data) :
    s.log id event data =
      (s.record (s.nextEvent id event data), .ok (s.nextEvent id event data)) := by
  obtain ⟨place, hplace⟩ := hkeeps.found id hid
  rw [log_of_free hdata]
  generalize he : s.nextEvent id event data = e
  have hown : (s.remember e).locate e.traceId = some place := he ▸ hplace
  have hok : ((s.remember e).persist e).2 = .ok e := by rw [persist_of_place hown]
  exact Prod.ext rfl hok

/-- **Memory and files go on agreeing**, since an event is added to both. -/
theorem Mirrors.record (h : s.Mirrors) (hkeeps : KeepsPlain s.locate) (he : IsPlain e.traceId) :
    (s.record e).Mirrors := by
  intro hdisk id place hid hplace
  rw [record_disk_isSome] at hdisk
  rw [record_locate] at hplace
  obtain ⟨own, hown⟩ := hkeeps.found e.traceId he
  have hbefore := h hdisk id place hid hplace
  rw [textAt?_record hdisk hown, events_record]
  by_cases hsame : id = e.traceId
  · have hplaces : place = own := Option.some.inj (hplace.symm.trans (hsame ▸ hown))
    rw [if_pos hsame, if_pos hplaces, Option.getD_some, ← hplaces, hbefore, logText_append,
      logText_singleton]
  · -- Another trace has another file.
    have hplaces : place ≠ own := by
      rintro rfl
      exact hsame (hkeeps.apart id e.traceId hid he (hplace.trans hown.symm))
    rw [if_neg hsame, if_neg hplaces, hbefore]

/-! ## §5 Recording several events -/

/-- The store after several events of a trace are recorded. -/
def recordAll (s : TraceStore) (id : String) (story : List (String × Members)) : TraceStore :=
  story.foldl (fun s p => s.record (s.nextEvent id p.1 p.2)) s

theorem logAll_of_plain (hkeeps : KeepsPlain s.locate) {id : String} (hid : IsPlain id)
    {story : List (String × Members)} (hstory : ∀ p ∈ story, IsFree p.2) :
    s.logAll id story = (s.recordAll id story, .ok ()) := by
  induction story generalizing s with
  | nil => rfl
  | cons p rest ih =>
    simp only [logAll, log_of_plain hkeeps hid p.1 (hstory p (List.mem_cons_self ..))]
    exact ih (by rwa [record_locate]) fun q hq => hstory q (List.mem_cons_of_mem _ hq)

/-- What every recorded event keeps, a run of them keeps. -/
theorem recordAll_invariant {P : TraceStore → Prop} {id : String}
    {story : List (String × Members)}
    (hstep : ∀ s e, e.traceId = id → (e.event, e.data) ∈ story → P s → P (s.record e))
    {s : TraceStore} (h : P s) : P (s.recordAll id story) := by
  induction story generalizing s with
  | nil => exact h
  | cons p rest ih =>
    have hfirst := hstep s (s.nextEvent id p.1 p.2) rfl (List.mem_cons_self ..) h
    exact ih (fun s e he hmem => hstep s e he (List.mem_cons_of_mem _ hmem)) hfirst

theorem names_recordAll {s : TraceStore} {id : String} (h : id ∈ Table.names s.traces)
    (story : List (String × Members)) :
    Table.names (s.recordAll id story).traces = Table.names s.traces := by
  refine recordAll_invariant (P := fun s' => Table.names s'.traces = Table.names s.traces) ?_ rfl
  intro s' e he _ hnames
  rw [names_record s' e (he ▸ hnames ▸ h), hnames]

theorem events_recordAll_of_ne {s : TraceStore} {id other : String} (h : other ≠ id)
    (story : List (String × Members)) : (s.recordAll id story).events other = s.events other := by
  refine recordAll_invariant (P := fun s' => s'.events other = s.events other) ?_ rfl
  intro s' e he _ hevents
  rw [events_record, if_neg (he ▸ h), hevents]

/-- **A story is told at the end of its trace**, in order. -/
theorem said_recordAll (s : TraceStore) (id : String) (story : List (String × Members)) :
    ((s.recordAll id story).events id).map TraceEvent.said =
      (s.events id).map TraceEvent.said ++ story.map fun p => (id, p.1, p.2) := by
  induction story generalizing s with
  | nil => simp [recordAll]
  | cons p rest ih =>
    have hfirst : (s.record (s.nextEvent id p.1 p.2)).events id =
        s.events id ++ [s.nextEvent id p.1 p.2] :=
      (events_record ..).trans (if_pos rfl)
    show ((recordAll (s.record (s.nextEvent id p.1 p.2)) id rest).events id).map _ = _
    rw [ih, hfirst, List.map_append, List.append_assoc]
    rfl

theorem events_recordAll_ne_nil (s : TraceStore) (id : String) {story : List (String × Members)}
    (hstory : story ≠ []) : (s.recordAll id story).events id ≠ [] := by
  intro hnone
  have hsaid := said_recordAll s id story
  rw [hnone, List.map_nil, eq_comm, List.append_eq_nil_iff] at hsaid
  exact hstory (List.map_eq_nil_iff.1 hsaid.2)

/-- Recording events leaves alone what a store has been told in the beginning. -/
theorem recordAll_frame (s : TraceStore) (id : String) (story : List (String × Members)) :
    (s.recordAll id story).newId = s.newId ∧ (s.recordAll id story).locate = s.locate ∧
      (s.recordAll id story).taken = s.taken ∧
      (s.recordAll id story).disk.isSome = s.disk.isSome := by
  refine recordAll_invariant (P := fun s' => s'.newId = s.newId ∧ s'.locate = s.locate ∧
    s'.taken = s.taken ∧ s'.disk.isSome = s.disk.isSome) ?_ ⟨rfl, rfl, rfl, rfl⟩
  intro s' e _ _ hs'
  rw [record_disk_isSome, record_frame]
  exact hs'

theorem Mirrors.recordAll {s : TraceStore} (h : s.Mirrors) (hkeeps : KeepsPlain s.locate)
    {id : String} (hid : IsPlain id) (story : List (String × Members)) :
    (s.recordAll id story).Mirrors := by
  refine (recordAll_invariant (P := fun s' => s'.Mirrors ∧ s'.locate = s.locate) ?_ ⟨h, rfl⟩).1
  rintro s' e he - ⟨hs', hlocate⟩
  exact ⟨hs'.record (hlocate ▸ hkeeps) (he ▸ hid), (record_locate s' e).trans hlocate⟩

/-! ## §6 Starting a trace -/

/-- The store after an id has been taken and its trace is opened. -/
def opened (s : TraceStore) (id : String) : TraceStore :=
  { s with taken := s.taken + 1 }.openTrace id

theorem opened_frame (s : TraceStore) (id : String) :
    s.opened id = { s with taken := s.taken + 1, traces := (s.opened id).traces } := by
  unfold opened openTrace
  split <;> rfl

@[simp] theorem opened_newId (s : TraceStore) (id : String) : (s.opened id).newId = s.newId := by
  rw [opened_frame]

@[simp] theorem opened_taken (s : TraceStore) (id : String) :
    (s.opened id).taken = s.taken + 1 := by
  rw [opened_frame]

@[simp] theorem opened_locate (s : TraceStore) (id : String) :
    (s.opened id).locate = s.locate := by
  rw [opened_frame]

@[simp] theorem opened_disk (s : TraceStore) (id : String) : (s.opened id).disk = s.disk := by
  rw [opened_frame]

theorem events_of_notMem {s : TraceStore} {id : String} (h : id ∉ Table.names s.traces) :
    s.events id = [] := by
  rw [events, Table.get?_eq_none_iff.2 h, Option.getD_none]

theorem names_opened {s : TraceStore} {id : String} (h : id ∉ Table.names s.traces) :
    Table.names (s.opened id).traces = Table.names s.traces ++ [id] := by
  have hnone : Table.has s.traces id = false := by
    rwa [Bool.eq_false_iff, ne_eq, Table.has_iff_mem_names]
  simp only [opened, openTrace, hnone, Bool.false_eq_true, if_false]
  rw [Table.names_set, if_neg h]

/-- Telling a story in a new trace adds the trace at the end. -/
theorem names_told {s : TraceStore} {id : String} (h : id ∉ Table.names s.traces)
    (story : List (String × Members)) :
    Table.names ((s.opened id).recordAll id story).traces = Table.names s.traces ++ [id] := by
  have hopened := names_opened h
  rw [names_recordAll (by simp [hopened]), hopened]

/-- A trace that has been opened has no events yet. -/
@[simp] theorem events_opened (s : TraceStore) (id other : String) :
    (s.opened id).events other = s.events other := by
  unfold opened openTrace
  split
  · rfl
  · rename_i hnone
    have hnot : id ∉ Table.names s.traces := by
      rwa [Table.has_iff_mem_names] at hnone
    by_cases hsame : other = id
    · rw [hsame, events_of_notMem hnot]
      simp [events]
    · simp [events, Table.get?_set_of_ne _ (Ne.symm hsame)]

theorem Mirrors.opened {s : TraceStore} (h : s.Mirrors) (id : String) : (s.opened id).Mirrors := by
  intro hdisk other place hother hplace
  rw [opened_disk] at hdisk
  rw [opened_locate] at hplace
  rw [events_opened, textAt?, opened_disk]
  exact h hdisk other place hother hplace

/-- Starting a trace is opening it and recording that it started. -/
theorem start_eq {s : TraceStore} {label id : String} (hid : label ++ "-" ++ s.newId s.taken = id)
    {data : Members} (hkeys : reserved? ["self", "label"] data = none) :
    s.start label data =
      (((s.opened id).log id "compile_started" data).1,
        ((s.opened id).log id "compile_started" data).2.map fun _ => id) := by
  obtain ⟨s', answer, hlog⟩ : ∃ s' answer,
      (s.opened id).log id "compile_started" data = (s', answer) := ⟨_, _, rfl⟩
  rw [hlog]
  unfold opened at hlog
  simp only [start, hkeys, hid, hlog]
  cases answer <;> rfl

/-- **A trace starts with the event that says so.** -/
theorem start_of_plain {s : TraceStore} (hkeeps : KeepsPlain s.locate) {label id : String}
    (hid : label ++ "-" ++ s.newId s.taken = id) (hplain : IsPlain id) {data : Members}
    (hkeys : reserved? ["self", "label"] data = none) (hdata : IsFree data) :
    s.start label data = ((s.opened id).recordAll id [("compile_started", data)], .ok id) := by
  have hopened : KeepsPlain (s.opened id).locate := by rwa [opened_locate]
  rw [start_eq hid hkeys, log_of_plain hopened hplain "compile_started" hdata]
  rfl

end TraceStore

end CallFlow
