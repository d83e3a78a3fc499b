import CallFlow.Proofs.Traces

/-!
# Memory and Files

A store with a folder keeps every event twice. It is remembered first and then written to the file
of its trace, and the two can come apart in two ways. If there is no folder for the file, the event
is remembered all the same, although the call has failed. And a trace is named by any text, which is
read as a path: ids that lead to the same place share one file.

These are the only ways, whatever folders the file system has. Whatever calls are made to a new
store, a trace in memory holds the events that have been recorded for it unless some event of its
own could not be written, and its file holds a line for each of them unless some event of another
trace went to the same place. Traces with plain names, which hold no slash, are safe among
themselves wherever the file system keeps them apart.

Calls whose data holds a whole number that is too long to be written are left aside.

## Sections

1. Calls
2. Files of events
3. What a run leaves
4. One call
5. Runs of calls
-/

namespace CallFlow

open FilePlace

namespace TraceStore

/-! ## §1 Calls -/

/-- A call that may add an event to a store. -/
inductive Call where
  | start (label : String) (data : Members)
  | log (traceId event : String) (data : Members)

/-- The data that comes with a call. -/
def Call.data : Call → Members
  | .start _ data => data
  | .log _ _ data => data

/-- Carries out a call: gives the store that it leaves, and the event that it has recorded unless it
has failed. -/
def perform (s : TraceStore) : Call → TraceStore × Except Failure TraceEvent
  | .start label data =>
    let (s', answer) := s.start label data
    (s', answer.map fun id => s.nextEvent id "compile_started" data)
  | .log traceId event data => s.log traceId event data

/-- The store after some calls, in order. A call that fails may leave something, too. -/
def afterCalls (s : TraceStore) : List Call → TraceStore
  | [] => s
  | call :: rest => afterCalls (s.perform call).1 rest

/-- What the calls give, one after the other. -/
def outcomes (s : TraceStore) : List Call → List (Except Failure TraceEvent)
  | [] => []
  | call :: rest => (s.perform call).2 :: outcomes (s.perform call).1 rest

/-- The events of the calls that went through. -/
def successes (outcomes : List (Except Failure TraceEvent)) : List TraceEvent :=
  outcomes.filterMap Except.toOption

/-- The events that calls have recorded for a trace, oldest first. -/
def recordedFor (s : TraceStore) (calls : List Call) (id : String) : List TraceEvent :=
  (successes (s.outcomes calls)).filter (·.traceId = id)

/-! ## §2 Files of events -/

/-- The lines of a file with one line for each event; no file if there is none. -/
def fileOf : List TraceEvent → Option (List String)
  | [] => none
  | events => some (events.map TraceEvent.line)

/-- The file tells how many events there are. -/
theorem length_of_fileOf (events : List TraceEvent) :
    ((fileOf events).getD []).length = events.length := by
  cases events with
  | nil => rfl
  | cons e rest => simp [fileOf]

/-- Leaving some events out leaves the file as it is only if there are none of them. -/
theorem fileOf_filter_eq_iff {events : List TraceEvent} {p : TraceEvent → Bool} :
    fileOf events = fileOf (events.filter p) ↔ ∀ e ∈ events, p e = true := by
  constructor
  · intro h
    have hlength : (events.filter p).length = events.length := by
      rw [← length_of_fileOf, ← h, length_of_fileOf]
    exact List.length_filter_eq_length_iff.1 hlength
  · intro h
    rw [List.filter_eq_self.2 h]

/-- The text of a file after an event has been written. Without a file, there is one afterwards. -/
def addLine (file : Option String) (e : TraceEvent) : Option String :=
  some (file.getD "" ++ (e.line ++ "\n"))

theorem foldl_addLine (text : String) (events : List TraceEvent) :
    events.foldl addLine (some text) = some (text ++ logText events) := by
  induction events generalizing text with
  | nil => simp [logText, Text.ofLines]
  | cons e rest ih =>
    have hsplit := logText_append [e] rest
    rw [List.singleton_append, logText_singleton] at hsplit
    rw [List.foldl_cons, addLine, Option.getD_some, ih, hsplit, String.append_assoc]

/-- Events that are written to a new file make the file of these events. -/
theorem lines_foldl_addLine (events : List TraceEvent) :
    (events.foldl addLine none).map Text.lines = fileOf events := by
  cases events with
  | nil => rfl
  | cons e rest =>
    have hfirst : addLine none e = some (logText [e]) := by
      rw [logText_singleton, addLine, Option.getD_none, String.empty_append]
    rw [List.foldl_cons, hfirst, foldl_addLine, ← logText_append, Option.map_some, lines_logText]
    rfl

/-! ## §3 What a run leaves -/

/-- What there is in a second store because of the events that some calls have made in a first one.
All of them are remembered. Those with a place for their file are written there, and the calls for
the others have failed. -/
structure Leaves (s s' : TraceStore) (outcomes : List (Except Failure TraceEvent))
    (made : List TraceEvent) : Prop where
  place : s'.locate = s.locate
  folder : s'.disk.isSome = s.disk.isSome
  remembered : ∀ id, s'.events id = s.events id ++ made.filter (·.traceId = id)
  successes : successes outcomes = made.filter fun e => (s.locate e.traceId).isSome
  written : ∀ place, s'.textAt? place =
    (made.filter fun e => s.locate e.traceId = some place).foldl addLine (s.textAt? place)
  unwritten : ∀ id, .error (.noTraceFolder id) ∈ outcomes ↔
    s.locate id = none ∧ ∃ e ∈ made, e.traceId = id

namespace Leaves

variable {s s' s'' : TraceStore} {o o' : List (Except Failure TraceEvent)}
  {made made' : List TraceEvent}

theorem refl (s : TraceStore) : s.Leaves s [] [] where
  place := rfl
  folder := rfl
  remembered := fun id => (List.append_nil _).symm
  successes := rfl
  written := fun place => rfl
  unwritten := by simp

/-- **Runs follow each other**, and so do the events that they make. -/
theorem trans (h : s.Leaves s' o made) (h' : s'.Leaves s'' o' made') :
    s.Leaves s'' (o ++ o') (made ++ made') where
  place := h'.place.trans h.place
  folder := h'.folder.trans h.folder
  remembered := fun id => by
    rw [h'.remembered, h.remembered, List.filter_append, List.append_assoc]
  successes := by
    rw [TraceStore.successes, List.filterMap_append, List.filter_append, ← h.successes, ← h.place,
      ← h'.successes]
    rfl
  written := fun place => by
    rw [h'.written, h.written, h.place, List.filter_append, List.foldl_append]
  unwritten := fun id => by
    rw [List.mem_append, h.unwritten, h'.unwritten, h.place, ← and_or_left]
    simp only [List.mem_append, or_and_right, exists_or]

end Leaves

/-! ## §4 One call -/

variable {s : TraceStore}

/-- A call whose data uses a reserved name leaves everything as it is. -/
theorem leaves_of_reserved (s : TraceStore) (key : String) :
    s.Leaves s [.error (.reservedKey key)] [] where
  place := rfl
  folder := rfl
  remembered := fun id => (List.append_nil _).symm
  successes := rfl
  written := fun place => rfl
  unwritten := by simp

/-- The event is added to its trace in memory. -/
theorem events_remember_eq_append (s : TraceStore) (e : TraceEvent) (id : String) :
    (s.remember e).events id = s.events id ++ [e].filter (·.traceId = id) := by
  rw [events_remember]
  by_cases h : id = e.traceId
  · rw [if_pos h, List.filter_cons_of_pos (by simpa using h.symm), List.filter_nil]
  · rw [if_neg h, List.filter_cons_of_neg (by simpa using Ne.symm h), List.filter_nil,
      List.append_nil]

/-- An event without a place for its file is remembered all the same, and the call fails. -/
theorem persist_of_no_place {e : TraceEvent} (hdisk : s.disk.isSome = true)
    (hplace : s.locate e.traceId = none) :
    s.persist e = (s, .error (.noTraceFolder e.traceId)) := by
  obtain ⟨files, hfiles⟩ := Option.isSome_iff_exists.1 hdisk
  simp only [persist, hfiles, hplace]

theorem leaves_of_no_place {e : TraceEvent} (hdisk : s.disk.isSome = true)
    (hplace : s.locate e.traceId = none) :
    s.Leaves ((s.remember e).persist e).1 [((s.remember e).persist e).2] [e] := by
  rw [persist_of_no_place (s := s.remember e) hdisk hplace]
  refine ⟨rfl, rfl, events_remember_eq_append s e, ?_, fun place => ?_, fun id => ?_⟩
  · simp [successes, hplace, Except.toOption]
  · simp only [List.filter_cons, hplace, reduceCtorEq, decide_false, Bool.false_eq_true, if_false,
      List.filter_nil]
    rfl
  · simp only [List.mem_singleton, Except.error.injEq, Failure.noTraceFolder.injEq,
      exists_eq_left]
    constructor
    · rintro rfl
      exact ⟨hplace, rfl⟩
    · exact fun h => h.2.symm

/-- An event with a place for its file is remembered and written there. -/
theorem leaves_of_place {e : TraceEvent} (hdisk : s.disk.isSome = true) {place : FilePlace}
    (hplace : s.locate e.traceId = some place) :
    s.Leaves ((s.remember e).persist e).1 [((s.remember e).persist e).2] [e] := by
  have hok : ((s.remember e).persist e).2 = .ok e := by
    rw [persist_of_place (s := s.remember e) hplace]
  rw [hok]
  refine ⟨record_locate s e, record_disk_isSome s e, fun id => ?_, ?_, fun other => ?_,
    fun id => ?_⟩
  · rw [← events_remember_eq_append, ← record, record_frame]
    rfl
  · simp [successes, hplace, Except.toOption]
  · rw [← record, textAt?_record hdisk hplace]
    by_cases hsame : other = place
    · simp [hplace, hsame, addLine]
    · simp [hplace, hsame, Ne.symm hsame]
  · -- The one event that there is has a place.
    simp only [List.mem_singleton, reduceCtorEq, exists_eq_left, false_iff, not_and]
    rintro hnone rfl
    rw [hplace] at hnone
    cases hnone

/-- **An event that is made** is remembered, and then written if there is a folder for it. -/
theorem leaves_of_made (hdisk : s.disk.isSome = true) (e : TraceEvent) :
    s.Leaves ((s.remember e).persist e).1 [((s.remember e).persist e).2] [e] := by
  cases hplace : s.locate e.traceId with
  | none => exact leaves_of_no_place hdisk hplace
  | some place => exact leaves_of_place hdisk hplace

/-- The data of an event is that of the call that has made it. -/
theorem leaves_log (hdisk : s.disk.isSome = true) (id event : String) (data : Members) :
    ∃ made, s.Leaves (s.log id event data).1 [(s.log id event data).2] made ∧
      ∀ e ∈ made, e.data = data := by
  unfold log
  split
  · exact ⟨[], leaves_of_reserved s _, List.forall_mem_nil _⟩
  · exact ⟨_, leaves_of_made hdisk _, fun e he => List.mem_singleton.1 he ▸ rfl⟩

/-- Opening a trace makes no event. -/
theorem leaves_opened (s : TraceStore) (id : String) : s.Leaves (s.opened id) [] [] where
  place := opened_locate s id
  folder := by rw [opened_disk]
  remembered := fun other => by rw [events_opened, List.filter_nil, List.append_nil]
  successes := rfl
  written := fun place => by rw [textAt?, opened_disk]; rfl
  unwritten := by simp

theorem isFree_nil : IsFree [] := rfl

/-- An event that is recorded is the one that comes next. -/
theorem eq_nextEvent_of_log {id event : String} {data : Members} {e : TraceEvent}
    (h : (s.log id event data).2 = .ok e) : e = s.nextEvent id event data := by
  unfold log at h
  split at h
  · cases h
  · dsimp only at h
    unfold persist at h
    split at h
    · exact (Except.ok.inj h).symm
    · split at h
      · cases h
      · exact (Except.ok.inj h).symm

theorem perform_start {label : String} {data : Members}
    (hkeys : reserved? ["self", "label"] data = none) :
    s.perform (.start label data) =
      (s.opened (label ++ "-" ++ s.newId s.taken)).log (label ++ "-" ++ s.newId s.taken)
        "compile_started" data := by
  generalize hid : label ++ "-" ++ s.newId s.taken = id
  obtain ⟨s', answer, hlog⟩ : ∃ s' answer,
      (s.opened id).log id "compile_started" data = (s', answer) := ⟨_, _, rfl⟩
  rw [perform, start_eq hid hkeys, hlog]
  cases answer with
  | error e => rfl
  | ok e =>
    have hsame : (s.opened id).nextEvent id "compile_started" data =
        s.nextEvent id "compile_started" data := by
      rw [nextEvent, opened_frame]
      rfl
    rw [eq_nextEvent_of_log (congrArg Prod.snd hlog), hsame]
    rfl

theorem leaves_start (hdisk : s.disk.isSome = true) (label : String) (data : Members) :
    ∃ made,
      s.Leaves (s.perform (.start label data)).1 [(s.perform (.start label data)).2] made ∧
        ∀ e ∈ made, e.data = data := by
  cases hkeys : reserved? ["self", "label"] data with
  | some key =>
    have hstart : s.start label data = (s, .error (.reservedKey key)) := by
      simp only [start, hkeys]
    have hrefused : s.perform (.start label data) = (s, .error (.reservedKey key)) := by
      rw [perform, hstart]
      rfl
    rw [hrefused]
    exact ⟨[], leaves_of_reserved s _, List.forall_mem_nil _⟩
  | none =>
    rw [perform_start hkeys]
    generalize label ++ "-" ++ s.newId s.taken = id
    have hopened := leaves_opened s id
    obtain ⟨made, hlog, hdata⟩ :=
      leaves_log (hopened.folder.trans hdisk) id "compile_started" data
    exact ⟨made, hopened.trans hlog, hdata⟩

/-- **What one call leaves.** -/
theorem leaves_perform (hdisk : s.disk.isSome = true) (call : Call) :
    ∃ made, s.Leaves (s.perform call).1 [(s.perform call).2] made ∧
      ∀ e ∈ made, e.data = call.data := by
  cases call with
  | start label data => exact leaves_start hdisk label data
  | log id event data => exact leaves_log hdisk id event data

/-! ## §5 Runs of calls -/

/-- **What a run of calls leaves.** -/
theorem leaves_afterCalls (hdisk : s.disk.isSome = true) (calls : List Call) :
    ∃ made, s.Leaves (s.afterCalls calls) (s.outcomes calls) made ∧
      ∀ e ∈ made, ∃ call ∈ calls, e.data = call.data := by
  induction calls generalizing s with
  | nil => exact ⟨[], .refl s, List.forall_mem_nil _⟩
  | cons call rest ih =>
    obtain ⟨made, hcall, hdata⟩ := leaves_perform hdisk call
    obtain ⟨made', hrest, hdata'⟩ := ih (hcall.folder.trans hdisk)
    refine ⟨made ++ made', hcall.trans hrest, fun e he => ?_⟩
    rcases List.mem_append.1 he with he | he
    · exact ⟨call, List.mem_cons_self .., hdata e he⟩
    · obtain ⟨call', hmem, hsame⟩ := hdata' e he
      exact ⟨call', List.mem_cons_of_mem _ hmem, hsame⟩

section

variable {locate : String → Option FilePlace} {newId time : Nat → String} {s' : TraceStore}
  {o : List (Except Failure TraceEvent)} {made : List TraceEvent}

/-- **The file of a trace** after calls to a new store has a line for each event that has been
recorded for an id with the same place. -/
theorem Leaves.fileLines?_eq (h : (createIn locate newId time true).Leaves s' o made)
    (id : String) :
    s'.fileLines? id =
      fileOf ((TraceStore.successes o).filter fun e => locate e.traceId = locate id) := by
  have hlocate : s'.locate = locate := h.place
  have hsuccesses : TraceStore.successes o = made.filter fun e => (locate e.traceId).isSome :=
    h.successes
  rw [fileLines?_eq_bind, hlocate, hsuccesses, List.filter_filter]
  cases hplace : locate id with
  | none =>
    -- What has no place is not among the events that are recorded.
    have hnone : made.filter (fun e =>
        decide (locate e.traceId = none) && (locate e.traceId).isSome) = [] := by
      rw [List.filter_eq_nil_iff]
      intro e _
      cases locate e.traceId <;> simp
    rw [hnone]
    rfl
  | some place =>
    have hsame : made.filter (fun e =>
        decide (locate e.traceId = some place) && (locate e.traceId).isSome) =
          made.filter fun e => locate e.traceId = some place := by
      refine List.filter_congr fun e _ => ?_
      cases locate e.traceId <;> simp
    rw [Option.bind_some, h.written, hsame]
    exact lines_foldl_addLine _

/-- Memory holds the events that have been recorded for a trace, unless one is held that could not
be written. -/
theorem Leaves.events_eq_iff (h : (createIn locate newId time true).Leaves s' o made)
    (id : String) :
    s'.events id = (TraceStore.successes o).filter (·.traceId = id) ↔
      .error (.noTraceFolder id) ∉ o := by
  have hremembered : s'.events id = made.filter (·.traceId = id) := h.remembered id
  have hunwritten : .error (.noTraceFolder id) ∈ o ↔
      locate id = none ∧ ∃ e ∈ made, e.traceId = id := h.unwritten id
  have hrecorded : (TraceStore.successes o).filter (·.traceId = id) =
      (made.filter (·.traceId = id)).filter fun e => (locate e.traceId).isSome := by
    rw [h.successes, List.filter_filter, List.filter_filter]
    exact List.filter_congr fun e _ => Bool.and_comm _ _
  rw [hremembered, hrecorded, eq_comm, List.filter_eq_self, hunwritten]
  simp only [List.mem_filter, decide_eq_true_eq, and_imp, not_and, not_exists]
  constructor
  · rintro hall hnone e he rfl
    simpa [hnone] using hall e he rfl
  · rintro hnever e he rfl
    rw [Option.isSome_iff_ne_none]
    exact fun hnone => hnever hnone e he rfl

/-- A file holds the events that have been recorded for a trace, unless another trace has been
written there. -/
theorem Leaves.fileLines?_eq_iff (h : (createIn locate newId time true).Leaves s' o made)
    (id : String) :
    s'.fileLines? id = fileOf ((TraceStore.successes o).filter (·.traceId = id)) ↔
      ∀ e ∈ TraceStore.successes o, locate e.traceId = locate id → e.traceId = id := by
  -- The events for the trace are some of those for its place.
  have hrecorded : (TraceStore.successes o).filter (·.traceId = id) =
      ((TraceStore.successes o).filter fun e => locate e.traceId = locate id).filter
        (·.traceId = id) := by
    rw [List.filter_filter]
    refine List.filter_congr fun e _ => ?_
    by_cases hsame : e.traceId = id <;> simp [hsame]
  rw [h.fileLines?_eq, hrecorded, fileOf_filter_eq_iff]
  simp only [List.mem_filter, decide_eq_true_eq, and_imp]

end

/-- **When memory and files agree**, in whatever file system. Take any calls to a new store with a
folder, whose data can all be written. Then a trace holds the events that have been recorded for it
just in case no call has failed for want of a folder for its file. Its file holds one line for each
of these events, in order, just in case no event of another trace has gone to the same place. Both
are true of a trace with a plain name if all events that have been recorded belong to such traces,
and the file system keeps those apart. What is written for an event is one line, and reads back as
the event unless there are numbers with a point in its data. -/
theorem memory_and_file_agree_iff (locate : String → Option FilePlace) (newId time : Nat → String)
    (calls : List Call) (hwritable : ∀ call ∈ calls, (Json.obj call.data).isWritable = true)
    (id : String) :
    let store := createIn locate newId time true
    ((store.afterCalls calls).events id = store.recordedFor calls id ↔
      .error (.noTraceFolder id) ∉ store.outcomes calls) ∧
    ((store.afterCalls calls).fileLines? id = fileOf (store.recordedFor calls id) ↔
      ∀ e ∈ successes (store.outcomes calls), locate e.traceId = locate id → e.traceId = id) ∧
    (KeepsPlain locate → IsPlain id →
      (∀ e ∈ successes (store.outcomes calls), IsPlain e.traceId) →
        (store.afterCalls calls).events id = store.recordedFor calls id ∧
        (store.afterCalls calls).fileLines? id = fileOf (store.recordedFor calls id)) ∧
    ∀ e ∈ (store.afterCalls calls).events id, '\n' ∉ e.line.toList ∧
      ((Json.obj e.data).isFaithful = true → Json.parse e.line = .ok e.sorted) := by
  intro store
  obtain ⟨made, h, hdata⟩ := leaves_afterCalls (s := store) rfl calls
  refine ⟨h.events_eq_iff id, h.fileLines?_eq_iff id, fun hkeeps hid hplain =>
    ⟨(h.events_eq_iff id).2 fun hlost => ?_, (h.fileLines?_eq_iff id).2 fun e he hsame => ?_⟩,
    fun e he => ⟨e.newline_notMem_line, fun hfaithful => ?_⟩⟩
  · obtain ⟨place, hplace⟩ := hkeeps.found id hid
    have hnone : locate id = none := ((h.unwritten id).1 hlost).1
    rw [hplace] at hnone
    cases hnone
  · exact hkeeps.apart e.traceId id (hplain e he) hid hsame
  · have hmade : e ∈ made := by
      rw [h.remembered] at he
      exact (List.mem_filter.1 he).1
    obtain ⟨call, hcall, hsame⟩ := hdata e hmade
    exact TraceEvent.parse_line hfaithful (hsame ▸ hwritable call hcall)

/-- A new store with a folder. -/
def cabinet : TraceStore := create toString (fun _ => "utc") true

/-- Two calls for one trace. The data of the second uses a name that an event itself uses. -/
def twoCalls : List Call := [.log "a" "x" [], .log "a" "y" [("event", .null)]]

/-- The call that is refused leaves no trace. -/
theorem memory_and_file_agree_iff_twoCalls :
    (∀ call ∈ twoCalls, (Json.obj call.data).isWritable = true) ∧
      ((cabinet.afterCalls twoCalls).events "a").map TraceEvent.event = ["x"] ∧
      (cabinet.afterCalls twoCalls).fileLines? "a" = fileOf (cabinet.recordedFor twoCalls "a") := by
  have hwritable : ∀ call ∈ twoCalls, (Json.obj call.data).isWritable = true :=
    List.forall_mem_cons.2 ⟨rfl, List.forall_mem_cons.2 ⟨rfl, List.forall_mem_nil _⟩⟩
  have hplain : IsPlain "a" := by
    unfold IsPlain
    decide
  have houtcomes : cabinet.outcomes twoCalls =
      [.ok (cabinet.nextEvent "a" "x" []), .error (.reservedKey "event")] := by
    have hfirst := log_of_plain (s := cabinet) keepsPlain_ofTrace? hplain "x" isFree_nil
    simp only [twoCalls, outcomes, perform, hfirst]
    rfl
  have hsuccesses : successes (cabinet.outcomes twoCalls) = [cabinet.nextEvent "a" "x" []] := by
    rw [houtcomes]
    rfl
  obtain ⟨-, -, hagree, -⟩ := memory_and_file_agree_iff ofTrace? toString (fun _ => "utc") twoCalls
    hwritable "a"
  obtain ⟨hmemory, hfile⟩ := hagree keepsPlain_ofTrace? hplain (by
    show ∀ e ∈ successes (cabinet.outcomes twoCalls), IsPlain e.traceId
    rw [hsuccesses]
    intro e he
    obtain rfl := List.mem_singleton.1 he
    exact hplain)
  refine ⟨hwritable, ?_, hfile⟩
  have hrecorded : cabinet.recordedFor twoCalls "a" = [cabinet.nextEvent "a" "x" []] := by
    rw [recordedFor, hsuccesses]
    rfl
  exact congrArg (List.map TraceEvent.event) (hmemory.trans hrecorded)

/-- There is no folder for the file. -/
theorem ofTrace?_slashed : ofTrace? "a/b" = none := by
  have hparts : parts ("a/b" ++ ".jsonl") = ["a", "b.jsonl"] := by decide
  have hroot : ("a/b" ++ ".jsonl").startsWith "/" = false := startsWith_slash (by decide)
  rw [ofTrace?, FilePlace.locate, hparts, hroot]
  rfl

/-- The way to the file begins where it already is. -/
theorem ofTrace?_dotted : ofTrace? "./a" = ofTrace? "a" := by
  have hparts : parts ("./a" ++ ".jsonl") = ["a.jsonl"] := by decide
  have hroot : ("./a" ++ ".jsonl").startsWith "/" = false := startsWith_slash (by decide)
  have hplain : IsPlain "a" := by
    unfold IsPlain
    decide
  rw [ofTrace?, locate_of_plain _ _ hplain, FilePlace.locate, hparts, hroot]
  rfl

/-- A call that fails leaves an event in memory, and a file holds what another trace tells. -/
theorem cabinet_disagrees :
    (cabinet.recordedFor [.log "a/b" "x" []] "a/b" = [] ∧
      (cabinet.afterCalls [.log "a/b" "x" []]).events "a/b" ≠ []) ∧
    (cabinet.afterCalls [.log "a" "x" [], .log "./a" "y" []]).fileLines? "a" ≠
      fileOf (cabinet.recordedFor [.log "a" "x" [], .log "./a" "y" []] "a") := by
  constructor
  · have hfailed : cabinet.log "a/b" "x" [] =
        (cabinet.remember (cabinet.nextEvent "a/b" "x" []), .error (.noTraceFolder "a/b")) := by
      rw [log_of_free isFree_nil]
      exact persist_of_no_place (s := cabinet.remember _) rfl ofTrace?_slashed
    constructor
    · simp [recordedFor, outcomes, perform, hfailed, successes, Except.toOption]
    · simp [afterCalls, perform, hfailed, events_remember, nextEvent]
  · have hplain : IsPlain "a" := by
      unfold IsPlain
      decide
    have hplace : ofTrace? "./a" = some ⟨newFolder, "a" ++ ".jsonl"⟩ :=
      ofTrace?_dotted.trans (locate_of_plain _ _ hplain)
    have hfirst := log_of_plain (s := cabinet) keepsPlain_ofTrace? hplain "x" isFree_nil
    have hsame : (cabinet.record (cabinet.nextEvent "a" "x" [])).locate = ofTrace? :=
      record_locate ..
    generalize hs : cabinet.record (cabinet.nextEvent "a" "x" []) = s at hfirst hsame
    have hsecond : (s.log "./a" "y" []).2 = .ok (s.nextEvent "./a" "y" []) := by
      have hown : (s.remember (s.nextEvent "./a" "y" [])).locate "./a" = _ :=
        (congrFun hsame "./a").trans hplace
      rw [log_of_free isFree_nil, persist_of_place hown]
    have hsuccesses : successes (cabinet.outcomes [.log "a" "x" [], .log "./a" "y" []]) =
        [cabinet.nextEvent "a" "x" [], s.nextEvent "./a" "y" []] := by
      simp [outcomes, perform, hfirst, hsecond, successes, Except.toOption]
    obtain ⟨made, h, -⟩ :=
      leaves_afterCalls (s := cabinet) rfl [.log "a" "x" [], .log "./a" "y" []]
    have hfile := h.fileLines?_eq "a"
    rw [hsuccesses] at hfile
    rw [hfile, recordedFor, hsuccesses]
    intro hfiles
    have hlength := congrArg (fun file => (file.getD []).length) hfiles
    simp [length_of_fileOf, nextEvent, ofTrace?_dotted] at hlength

end TraceStore

end CallFlow
