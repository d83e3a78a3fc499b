import CallFlow.Proofs.Compiling
import CallFlow.Proofs.Declared
import CallFlow.Proofs.Tolerance
import CallFlow.Proofs.Traces

/-!
# The Traces of a Run

A compiler may work off many flows with one store of traces, and some of them may fail to compile. A
compilation of a flow that has steps opens a trace of its own and tells there how it came out. What
it returns is what it would return without a trace, but for the id of the trace. Later compilations
leave the trace as it is. If the store has a folder, the file of a trace tells the same as the trace
itself: it has a line for each event, from which the event can be read back.

## Sections

1. What a trace tells
2. One traced compilation
3. Orderly stores
4. Runs
-/

namespace CallFlow

open FilePlace

namespace Flow

/-! ## §1 What a trace tells -/

/-- The event at the start of a compilation. -/
def startedEvent (f : Flow) : String × Members :=
  ("compile_started", [("nodes", .int f.steps.length), ("edges", .int f.links.length)])

/-- The event for a link that was dropped. -/
def droppedEvent (d : DroppedLink) : String × Members :=
  ("edge_dropped",
    [("edge_id", Json.ofText? d.linkId), ("source", .str d.source), ("target", .str d.target),
      ("reason", .str d.reason.text)])

/-- The event at the end of a compilation that succeeded. -/
def finishedEvent (c : Compilation) : String × Members :=
  ("compile_finished",
    [("nodes", .int c.workflow.nodes.length), ("edges", .int c.workflow.edges.length),
      ("dropped_edges", .int c.dropped.length), ("tool_ids", Json.ofTexts c.facts.toolIds)])

/-- What the trace of a compilation tells, by how the compilation came out. -/
def story (f : Flow) : Except Failure Compilation → List (String × Members)
  | .ok c => f.startedEvent :: (c.dropped.map droppedEvent ++ [finishedEvent c])
  | .error _ => [f.startedEvent]

theorem story_ne_nil (f : Flow) (outcome : Except Failure Compilation) : f.story outcome ≠ [] := by
  cases outcome <;> simp [story]

/-- Whatever a trace tells can be told apart in a file. -/
theorem isFaithful_of_mem_story {f : Flow} {outcome : Except Failure Compilation}
    {p : String × Members} (hp : p ∈ f.story outcome) : (Json.obj p.2).isFaithful = true := by
  have hstarted : (Json.obj f.startedEvent.2).isFaithful = true := by
    rw [Json.isFaithful_obj]
    exact ⟨(by decide : ["nodes", "edges"].Nodup), by simp [startedEvent]⟩
  cases outcome with
  | error e =>
    obtain rfl := List.mem_singleton.1 hp
    exact hstarted
  | ok c =>
    simp only [story, List.mem_cons, List.mem_append, List.mem_map, List.not_mem_nil,
      or_false] at hp
    rcases hp with rfl | ⟨d, -, rfl⟩ | rfl
    · exact hstarted
    · rw [Json.isFaithful_obj]
      exact ⟨(by decide : ["edge_id", "source", "target", "reason"].Nodup), by simp [droppedEvent]⟩
    · rw [Json.isFaithful_obj]
      exact ⟨(by decide : ["nodes", "edges", "dropped_edges", "tool_ids"].Nodup),
        by simp [finishedEvent]⟩

theorem isFree_finishingEvents (c : Compilation) :
    ∀ p ∈ finishingEvents c, TraceStore.IsFree p.2 := by
  intro p hp
  simp only [finishingEvents, List.mem_append, List.mem_map, List.mem_singleton] at hp
  rcases hp with ⟨d, -, rfl⟩ | rfl <;> rfl

/-! ## §2 One traced compilation -/

/-- The id of the trace of a compilation that takes the given id from the supply. -/
def traceName (newId : String) : String := "flow-" ++ newId

theorem isPlain_traceName {newId : String} (h : '/' ∉ newId.toList) :
    IsPlain (traceName newId) := by
  unfold IsPlain traceName
  rw [String.toList_append, List.mem_append, not_or]
  exact ⟨by decide, h⟩

/-- **A traced compilation** tells its story in a trace that it opens, and returns what it would
return without the trace, with the id of the trace. -/
theorem compileTraced_eq {f : Flow} (hne : f.steps.isEmpty = false) (s : Settings)
    {store : TraceStore} (hkeeps : KeepsPlain store.locate) {id : String}
    (hid : traceName (store.newId store.taken) = id) (hplain : IsPlain id) :
    f.compileTraced s store =
      ((store.opened id).recordAll id (f.story (f.compile s).outcome),
        ⟨(f.compile s).journal,
          (f.compile s).outcome.map fun c => { c with traceId := some id }⟩) := by
  have hstart : store.start "flow" f.sizeData =
      ((store.opened id).recordAll id [f.startedEvent], .ok id) :=
    TraceStore.start_of_plain hkeeps hid hplain rfl rfl
  simp only [compileTraced, hne, Bool.false_eq_true, if_false, hstart]
  cases hcompile : f.compile s with
  | mk journal outcome =>
    cases outcome with
    | error e => rfl
    | ok c =>
      -- The remaining events go to the end of the same trace.
      have hstarted : KeepsPlain ((store.opened id).recordAll id [f.startedEvent]).locate := by
        rwa [(TraceStore.recordAll_frame ..).2.1, TraceStore.opened_locate]
      have hfinish := TraceStore.logAll_of_plain hstarted hplain (isFree_finishingEvents c)
      simp only [hfinish]
      rfl

end Flow

/-! ## §3 Orderly stores -/

namespace TraceStore

open CallFlow.Flow

/-- A store as traced compilations leave it: its traces are named after ids that have been taken,
every trace tells something, and if the store has a folder, files agree with memory. -/
structure Orderly (locate : String → Option FilePlace) (newId : Nat → String) (onDisk : Bool)
    (s : TraceStore) : Prop where
  supply : s.newId = newId
  place : s.locate = locate
  folder : s.disk.isSome = onDisk
  named : ∀ id ∈ Table.names s.traces, ∃ n < s.taken, id = traceName (newId n)
  told : ∀ id ∈ Table.names s.traces, s.events id ≠ []
  faithful : ∀ id, ∀ e ∈ s.events id, (Json.obj e.data).isFaithful = true
  mirrors : s.Mirrors

variable {locate : String → Option FilePlace} {newId : Nat → String} {onDisk : Bool}
  {s : TraceStore}

theorem orderly_createIn (locate : String → Option FilePlace) (newId time : Nat → String)
    (onDisk : Bool) : (createIn locate newId time onDisk).Orderly locate newId onDisk where
  supply := rfl
  place := rfl
  folder := by cases onDisk <;> rfl
  named := nofun
  told := nofun
  faithful := nofun
  mirrors := by
    intro hdisk id place _ _
    cases onDisk with
    | false => cases hdisk
    | true => rfl

namespace Orderly

/-- The id that is taken next names no trace yet. -/
theorem fresh (h : s.Orderly locate newId onDisk) (hinj : Function.Injective newId) :
    traceName (newId s.taken) ∉ Table.names s.traces := by
  intro hmem
  obtain ⟨n, hn, hname⟩ := h.named _ hmem
  have hsame : s.taken = n := hinj (String.append_right_inj _ |>.1 hname)
  exact absurd (hsame ▸ hn) (Nat.lt_irrefl _)

/-- A store with a folder has a file for each trace, with a line for each event. -/
theorem fileLines?_eq (h : s.Orderly locate newId onDisk) (hkeeps : KeepsPlain locate)
    (hplain : ∀ n, '/' ∉ (newId n).toList) {id : String} (hid : id ∈ Table.names s.traces) :
    s.fileLines? id = if onDisk then some ((s.events id).map TraceEvent.line) else none := by
  obtain ⟨n, -, rfl⟩ := h.named id hid
  rw [h.mirrors.fileLines?_eq (h.place ▸ hkeeps) (isPlain_traceName (hplain n)) (h.told _ hid),
    ← h.folder]
  cases s.disk <;> rfl

/-- Telling a story in a new trace keeps a store orderly. -/
theorem tell (h : s.Orderly locate newId onDisk) (hkeeps : KeepsPlain locate)
    (hinj : Function.Injective newId) (hplain : ∀ n, '/' ∉ (newId n).toList)
    {story : List (String × Members)} (hstory : story ≠ [])
    (hfaithful : ∀ p ∈ story, (Json.obj p.2).isFaithful = true) :
    ((s.opened (traceName (newId s.taken))).recordAll (traceName (newId s.taken)) story).Orderly
      locate newId onDisk := by
  generalize hid : traceName (newId s.taken) = id
  have hfresh : id ∉ Table.names s.traces := hid ▸ h.fresh hinj
  have hnames := names_told hfresh story
  obtain ⟨hsupply, hplace, htaken, hdisk⟩ := recordAll_frame (s.opened id) id story
  constructor
  case supply => rw [hsupply, opened_newId, h.supply]
  case place => rw [hplace, opened_locate, h.place]
  case folder => rw [hdisk, opened_disk, h.folder]
  case named =>
    intro other hother
    rw [hnames, List.mem_append, List.mem_singleton] at hother
    rw [htaken, opened_taken]
    rcases hother with hother | rfl
    · obtain ⟨n, hn, hname⟩ := h.named other hother
      exact ⟨n, Nat.lt_succ_of_lt hn, hname⟩
    · exact ⟨s.taken, Nat.lt_succ_self _, hid.symm⟩
  case told =>
    intro other hother hnone
    rw [hnames, List.mem_append, List.mem_singleton] at hother
    by_cases hsame : other = id
    · subst hsame
      exact events_recordAll_ne_nil _ _ hstory hnone
    · rw [events_recordAll_of_ne hsame, events_opened] at hnone
      exact h.told other (hother.resolve_right hsame) hnone
  case faithful =>
    refine recordAll_invariant
      (P := fun s' => ∀ id, ∀ e ∈ s'.events id, (Json.obj e.data).isFaithful = true) ?_ ?_
    · intro s' e _ hmem hs' other e' he'
      rw [events_record] at he'
      split at he'
      · rcases List.mem_append.1 he' with he' | he'
        · exact hs' other e' he'
        · exact List.mem_singleton.1 he' ▸ hfaithful _ hmem
      · exact hs' other e' he'
    · intro other
      rw [events_opened]
      exact h.faithful other
  case mirrors =>
    refine (h.mirrors.opened id).recordAll ?_ (hid ▸ isPlain_traceName (hplain _)) story
    rwa [opened_locate, h.place]

/-- In an orderly store, a compilation of a flow that has steps tells its story in a new trace. -/
theorem compileTraced_eq (h : s.Orderly locate newId onDisk) (hkeeps : KeepsPlain locate)
    (hplain : ∀ n, '/' ∉ (newId n).toList) {f : Flow} (hne : f.steps.isEmpty = false)
    (settings : Settings) :
    f.compileTraced settings s =
      ((s.opened (traceName (newId s.taken))).recordAll (traceName (newId s.taken))
          (f.story (f.compile settings).outcome),
        ⟨(f.compile settings).journal, (f.compile settings).outcome.map fun c =>
          { c with traceId := some (traceName (newId s.taken)) }⟩) := by
  apply Flow.compileTraced_eq hne settings (h.place ▸ hkeeps) _ (isPlain_traceName (hplain _))
  rw [h.supply]

end Orderly

end TraceStore

namespace Flow

open CallFlow.TraceStore

variable {locate : String → Option FilePlace} {newId : Nat → String} {onDisk : Bool}
  {store : TraceStore}

/-- A compilation of a flow that has steps opens one trace, and tells its story there. -/
theorem trace_of_compileTraced (h : store.Orderly locate newId onDisk) (hkeeps : KeepsPlain locate)
    (hinj : Function.Injective newId) (hplain : ∀ n, '/' ∉ (newId n).toList) {f : Flow}
    (hne : f.steps ≠ []) (s : Settings) :
    ∃ id, id ∉ Table.names store.traces ∧
      Table.names (f.compileTraced s store).1.traces = Table.names store.traces ++ [id] ∧
      (f.compileTraced s store).2.outcome =
        (f.compile s).outcome.map (fun c => { c with traceId := some id }) ∧
      ((f.compileTraced s store).1.events id).map TraceEvent.said =
        (f.story (f.compile s).outcome).map fun p => (id, p.1, p.2) := by
  have hempty : f.steps.isEmpty = false := by rwa [Bool.eq_false_iff, ne_eq, List.isEmpty_iff]
  have hfresh := h.fresh hinj
  rw [h.compileTraced_eq hkeeps hplain hempty]
  refine ⟨_, hfresh, names_told hfresh _, rfl, ?_⟩
  rw [said_recordAll, events_opened, events_of_notMem hfresh]
  rfl

/-- **One step of a run**: the store stays orderly, and the traces that it had stay as they were. -/
theorem orderly_compileTraced (h : store.Orderly locate newId onDisk) (hkeeps : KeepsPlain locate)
    (hinj : Function.Injective newId) (hplain : ∀ n, '/' ∉ (newId n).toList) (f : Flow)
    (s : Settings) :
    (f.compileTraced s store).1.Orderly locate newId onDisk ∧
      ∀ id ∈ Table.names store.traces,
        id ∈ Table.names (f.compileTraced s store).1.traces ∧
          (f.compileTraced s store).1.events id = store.events id := by
  cases hne : f.steps.isEmpty with
  | true =>
    rw [compileTraced, hne, if_pos rfl]
    exact ⟨h, fun id hid => ⟨hid, rfl⟩⟩
  | false =>
    have hfresh := h.fresh hinj
    rw [h.compileTraced_eq hkeeps hplain hne]
    refine ⟨h.tell hkeeps hinj hplain (f.story_ne_nil _) fun _ => isFaithful_of_mem_story,
      fun id hmem => ⟨?_, ?_⟩⟩
    · rw [names_told hfresh]
      exact List.mem_append_left _ hmem
    · have hother : id ≠ traceName (newId store.taken) := fun hsame => hfresh (hsame ▸ hmem)
      rw [events_recordAll_of_ne hother, events_opened]

/-! ## §4 Runs -/

/-- A flow, and the settings to compile it with. -/
structure Job where
  settings : Settings := {}
  flow : Flow

end Flow

open CallFlow.Flow CallFlow.TraceStore

/-- The store after some jobs have been worked off, one after the other. -/
def TraceStore.afterAll (store : TraceStore) (jobs : List Job) : TraceStore :=
  jobs.foldl (fun store job => (job.flow.compileTraced job.settings store).1) store

namespace Flow

variable {locate : String → Option FilePlace} {newId : Nat → String} {onDisk : Bool}
  {store : TraceStore}

/-- What one job keeps, a run of jobs keeps. -/
theorem orderly_afterAll (h : store.Orderly locate newId onDisk) (hkeeps : KeepsPlain locate)
    (hinj : Function.Injective newId) (hplain : ∀ n, '/' ∉ (newId n).toList) (jobs : List Job) :
    (store.afterAll jobs).Orderly locate newId onDisk ∧
      ∀ id ∈ Table.names store.traces, (store.afterAll jobs).events id = store.events id := by
  induction jobs generalizing store with
  | nil => exact ⟨h, fun _ _ => rfl⟩
  | cons job rest ih =>
    obtain ⟨hfirst, hkept⟩ := orderly_compileTraced h hkeeps hinj hplain job.flow job.settings
    obtain ⟨hlater, hkeptLater⟩ := ih hfirst
    refine ⟨hlater, fun id hid => ?_⟩
    obtain ⟨hmem, hevents⟩ := hkept id hid
    exact (hkeptLater id hmem).trans hevents

/-- **A run with traces.** Let a store work off some jobs, then one more, then others. If the flow
of that job is empty, no trace is opened. Otherwise one is, under a new id, and the job returns what
a compilation without traces returns, with that id. From then on the trace tells the story of that
compilation: its start with the size of the flow, and, if it succeeded, each dropped link in order
and the end with the size of the result. No trace that is there after the job is changed later.

If the store has a folder, the file of each trace has a line for each of its events, in order, and
each line reads back as its event. Only a number with more digits than a document may have would not
be read. -/
theorem traced_run (locate : String → Option FilePlace) (newId time : Nat → String) (onDisk : Bool)
    (hkeeps : KeepsPlain locate) (hinj : Function.Injective newId)
    (hplain : ∀ n, '/' ∉ (newId n).toList) (before : List Job) (job : Job) (after : List Job) :
    let store := (createIn locate newId time onDisk).afterAll before
    let traced := job.flow.compileTraced job.settings store
    let untraced := job.flow.compile job.settings
    let later := traced.1.afterAll after
    (job.flow.steps = [] → traced = (store, untraced) ∧ untraced.outcome = .error .emptyFlow) ∧
    (job.flow.steps ≠ [] → ∃ id, id ∉ Table.names store.traces ∧
      Table.names traced.1.traces = Table.names store.traces ++ [id] ∧
      traced.2.outcome = untraced.outcome.map (fun c => { c with traceId := some id }) ∧
      (later.events id).map TraceEvent.said =
        (job.flow.story untraced.outcome).map fun p => (id, p.1, p.2)) ∧
    (∀ id ∈ Table.names traced.1.traces, later.events id = traced.1.events id) ∧
    ∀ id ∈ Table.names later.traces,
      later.fileLines? id =
        (if onDisk then some ((later.events id).map TraceEvent.line) else none) ∧
      ∀ e ∈ later.events id, '\n' ∉ e.line.toList ∧
        ((Json.obj e.data).isWritable = true → Json.parse e.line = .ok e.sorted) := by
  intro store traced untraced later
  obtain ⟨hstore, -⟩ :=
    orderly_afterAll (orderly_createIn locate newId time onDisk) hkeeps hinj hplain before
  obtain ⟨htraced, -⟩ := orderly_compileTraced hstore hkeeps hinj hplain job.flow job.settings
  obtain ⟨hlater, hkept⟩ := orderly_afterAll htraced hkeeps hinj hplain after
  refine ⟨fun hnil => ?_, fun hne => ?_, hkept, fun id hid =>
    ⟨hlater.fileLines?_eq hkeeps hplain hid, fun e he =>
      ⟨e.newline_notMem_line, TraceEvent.parse_line (hlater.faithful id e he)⟩⟩⟩
  · have hempty : job.flow.steps.isEmpty = true := List.isEmpty_iff.2 hnil
    simp only [traced, untraced, compileTraced, Flow.compile, hempty, if_true]
    exact ⟨trivial, rfl⟩
  · obtain ⟨id, hfresh, hnames, houtcome, htold⟩ :=
      trace_of_compileTraced hstore hkeeps hinj hplain hne job.settings
    refine ⟨id, hfresh, hnames, houtcome, ?_⟩
    -- The story has been told when the job is done, and nothing is added to it later.
    rw [← htold]
    have hmem : id ∈ Table.names traced.1.traces := by
      rw [hnames]
      exact List.mem_append_right _ (List.mem_singleton_self id)
    exact congrArg _ (hkept id hmem)

/-- A supply of ids that look like random ones, at least at the beginning. -/
def countedId (n : Nat) : String := "00000000-0000-4000-8000-00000000000" ++ toString n

theorem countedId_injective : Function.Injective countedId := by
  intro m n h
  have htexts : toString m = toString n := String.append_right_inj _ |>.1 h
  have hdigits : Nat.toDigits 10 m = Nat.toDigits 10 n := by
    rw [← Nat.toList_repr, ← Nat.toList_repr]
    exact congrArg String.toList htexts
  rw [← Nat.ofDigitChars_ten_toDigits (n := m), hdigits, Nat.ofDigitChars_ten_toDigits]

theorem slash_notMem_countedId (n : Nat) : '/' ∉ (countedId n).toList := by
  unfold countedId
  rw [String.toList_append, List.mem_append, not_or]
  constructor
  · decide +kernel
  · intro hmem
    rw [Nat.toString_eq_repr, Nat.toList_repr] at hmem
    have hdigit := Nat.isDigit_of_mem_toDigits (by omega) (Nat.le_refl 10) hmem
    exact absurd hdigit (by decide)

/-- A clock that stands still. -/
def stoppedClock (_ : Nat) : String := "2026-01-01T00:00:00+00:00"

/-- Compiling the crossroads with the usual settings. -/
def crossroadsJob : Job := { flow := crossroads }

/-- Jobs that fail: one for an empty flow, and one for a form that lists a number of fields. -/
def failingJobs : List Job := [{ flow := {} }, { flow := numberedForm }]

/-- In a run with failures around it, the crossroads tell what became of their way to nowhere, and
the file of their trace tells it as well. -/
theorem traced_run_crossroads :
    KeepsPlain ofTrace? ∧ Function.Injective countedId ∧ (∀ n, '/' ∉ (countedId n).toList) ∧
      crossroadsJob.flow.steps ≠ [] ∧
      let store := (create countedId stoppedClock true).afterAll failingJobs
      let traced := crossroadsJob.flow.compileTraced crossroadsJob.settings store
      let later := traced.1.afterAll failingJobs
      ∃ id, id ∉ Table.names store.traces ∧
        (later.events id).map TraceEvent.event =
          ["compile_started", "edge_dropped", "compile_finished"] ∧
        later.fileLines? id = some ((later.events id).map TraceEvent.line) ∧
        ∀ e ∈ later.events id, Json.parse e.line = .ok e.sorted := by
  refine ⟨keepsPlain_ofTrace?, countedId_injective, slash_notMem_countedId, by decide, ?_⟩
  intro store traced later
  obtain ⟨-, htrace, -, hfiles⟩ := traced_run ofTrace? countedId stoppedClock true
    keepsPlain_ofTrace? countedId_injective slash_notMem_countedId failingJobs crossroadsJob
    failingJobs
  obtain ⟨id, hfresh, -, -, htold⟩ := htrace (by decide)
  have hstory : (crossroadsJob.flow.story
      (crossroadsJob.flow.compile crossroadsJob.settings).outcome).map
        (fun p => (p.1, (Json.obj p.2).isWritable)) =
      [("compile_started", true), ("edge_dropped", true), ("compile_finished", true)] := by
    decide +kernel
  have hsaid : (later.events id).map (fun e => (e.event, (Json.obj e.data).isWritable)) =
      [("compile_started", true), ("edge_dropped", true), ("compile_finished", true)] := by
    have hboth := congrArg (List.map fun said => (said.2.1, (Json.obj said.2.2).isWritable)) htold
    rw [List.map_map, List.map_map] at hboth
    exact hboth.trans hstory
  have hevents := congrArg (List.map Prod.fst) hsaid
  rw [List.map_map] at hevents
  -- A trace that tells something is there, so its file is.
  have hmem : id ∈ Table.names later.traces := by
    by_contra hnone
    rw [events_of_notMem hnone] at hsaid
    cases hsaid
  obtain ⟨hfile, hlines⟩ := hfiles id hmem
  refine ⟨id, hfresh, hevents, hfile, fun e he => (hlines e he).2 ?_⟩
  have hwritable := List.mem_map_of_mem (f := fun e : TraceEvent =>
    (e.event, (Json.obj e.data).isWritable)) he
  rw [hsaid] at hwritable
  simp only [List.mem_cons, Prod.mk.injEq, List.not_mem_nil, or_false] at hwritable
  rcases hwritable with ⟨-, h⟩ | ⟨-, h⟩ | ⟨-, h⟩ <;> exact h

end Flow

end CallFlow
