import CallFlow.CommandLine.Run
import CallFlow.Endpoint
import CallFlow.Proofs.Failing
import CallFlow.Proofs.FlowArgument
import CallFlow.Proofs.StoredForms

/-!
# The Endpoint and the Command Line Agree

The endpoint and the command line make settings from the same environment, read the same flow and
hand it to the same service, each in its own way. What the service gives is the document that the
endpoint answers with and the document that the command line prints, and what it fails with ends the
run and is told to the caller of the endpoint, if it is for the caller to know.

## Sections

1. The same flow
2. The same settings
3. What a flow comes to
4. Two front ends
-/

namespace CallFlow

open Attempt Schema

/-! ## §1 The same flow -/

/-- The object holds a flow with these steps and links. -/
structure HoldsFlow (m : Members) (nodes edges : List Members) : Prop where
  nodes : Json.member m "nodes" = .arr (nodes.map .obj)
  edges : Json.member m "edges" = .arr (edges.map .obj)

theorem get?_of_member {m : Members} {name : String} {v : Json} (h : Json.member m name = v)
    (hv : v.isNull = false) : Table.get? m name = some v := by
  unfold Json.member at h
  cases hget : Table.get? m name with
  | some w =>
    rw [hget] at h
    exact congrArg some h
  | none =>
    rw [hget] at h
    subst h
    cases hv

/-- Objects are read as their members. -/
theorem readList_readMembers (ms : List Members) :
    readList readMembers (.arr (ms.map .obj)) = .accepted ms := by
  have hall : ∀ k, Checked.all (fun e => (readMembers e.1).under (toString e.2))
      ((ms.map Json.obj).zipIdx k) = .accepted ms := by
    induction ms with
    | nil => exact fun k => rfl
    | cons m rest ih =>
      intro k
      rw [List.map_cons, List.zipIdx_cons, Checked.all, ih]
      rfl
  exact hall 0

/-- What a request says about strictness: nothing, or that it wants to be strict. -/
def strictWish (strict : Bool) : Json := if strict then .bool true else .null

/-- **A request for a flow is read** as this flow and its wish. -/
theorem read_request {b : Members} {nodes edges : List Members} (hflow : HoldsFlow b nodes edges)
    {strict : Bool} (hstrict : Json.member b "strict_dangling_edges" = strictWish strict) :
    Endpoint.Request.read (.obj b) =
      .accepted { nodes, edges, strictDanglingEdges := if strict then some true else none } := by
  have hnodes : Field.optional "nodes" [] (readList readMembers) b = .accepted nodes := by
    have hget : Table.get? b "nodes" = some (.arr (nodes.map .obj)) :=
      get?_of_member hflow.nodes rfl
    simp only [Field.optional, Field.nameIn, hget, readList_readMembers]
    rfl
  have hedges : Field.optional "edges" [] (readList readMembers) b = .accepted edges := by
    have hget : Table.get? b "edges" = some (.arr (edges.map .obj)) :=
      get?_of_member hflow.edges rfl
    simp only [Field.optional, Field.nameIn, hget, readList_readMembers]
    rfl
  have hwish : Field.optional "strict_dangling_edges" none (readOptional readTruth) b =
      .accepted (if strict then some true else none) := by
    cases strict with
    | true =>
      have hget : Table.get? b "strict_dangling_edges" = some (.bool true) :=
        get?_of_member hstrict rfl
      simp only [Field.optional, Field.nameIn, hget]
      rfl
    | false =>
      -- The wish may be missing, or it may be null.
      have hnull : (Table.get? b "strict_dangling_edges").getD .null = .null := hstrict
      simp only [Field.optional, Field.nameIn]
      cases hget : Table.get? b "strict_dangling_edges" with
      | none => rfl
      | some v =>
        rw [hget] at hnull
        obtain rfl : v = .null := hnull
        rfl
  show (Endpoint.Request.mk <$> _ <*> _ <*> _ : Checked Endpoint.Request) = _
  rw [hnodes, hedges, hwish]
  rfl

/-! ## §2 The same settings -/

/-- Whether an environment makes compilations strict. -/
def Settings.strictBy (environment : Table String) : Bool :=
  isSwitchedOn ((Table.get? environment "VFC_STRICT_DANGLING_EDGES").getD "")

/-- The settings of an environment that names neither a folder for traces nor a level for the
journal: all that is left to it is to make the compilation strict. -/
def Settings.ofSwitch (environment : Table String) (strict : Bool) : Settings :=
  { strictDanglingEdges := strict || strictBy environment }

/-- The environment leaves the folder for traces and the level of the journal open. -/
structure LeavesOpen (environment : Table String) : Prop where
  folder : Table.get? environment "VFC_TELEMETRY_DIR" = none
  level : Table.get? environment "VFC_LOG_LEVEL" = none

theorem environmentMembers_eq {environment : Table String} (h : LeavesOpen environment) :
    Settings.environmentMembers environment =
      [("strict_dangling_edges", .bool (Settings.strictBy environment)),
        ("log_level", .str Settings.defaultLogLevel), ("telemetry_dir", .null)] := by
  have hlevel : Text.upper Settings.defaultLogLevel = Settings.defaultLogLevel := by decide +kernel
  simp [Settings.environmentMembers, h.folder, h.level, hlevel, Settings.strictBy]

/-- Only a wish to be strict counts more than the environment. -/
theorem fromEnvironment_eq {environment : Table String} (h : LeavesOpen environment)
    (strict : Bool) {given : Members}
    (hgiven : given.filter (fun e => !e.2.isNull) =
      if strict then [("strict_dangling_edges", .bool true)] else []) :
    Settings.fromEnvironment environment given =
      .accepted (Settings.ofSwitch environment strict) := by
  have hread : ∀ strict switch : Bool, Settings.ofMembers (Table.setAll
      [("strict_dangling_edges", .bool switch), ("log_level", .str Settings.defaultLogLevel),
        ("telemetry_dir", .null)]
      (if strict then [("strict_dangling_edges", .bool true)] else [])) =
        .accepted { strictDanglingEdges := strict || switch } := by decide +kernel
  rw [Settings.fromEnvironment, environmentMembers_eq h, hgiven]
  exact hread strict (Settings.strictBy environment)

/-! ## §3 What a flow comes to -/

/-- Reads a flow from its steps and links, and compiles and validates it. -/
def compilePayload (nodes edges : List Members) (settings : Settings) (newId time : Nat → String) :
    Attempt ValidatedCompilation := do
  let f ← Attempt.ofChecked (Flow.read (.arr (nodes.map .obj)) (.arr (edges.map .obj)))
  f.compileOnce settings none newId time

section

variable {nodes edges : List Members} {settings : Settings} {newId time : Nat → String}

/-- Without stored forms and traces, a flow that has steps is just compiled and validated. -/
theorem compileOnce_of_no_folder (h : settings.telemetryDir = none) {f : Flow}
    (hne : f.steps.isEmpty = false) :
    f.compileOnce settings none newId time =
      f.compile settings >>= CompileService.validated := by
  unfold Flow.compileOnce CompileService.create CompileService.compile
  rw [h, hne]
  rfl

theorem gives_compileOnce_of_empty {f : Flow} (hempty : f.steps.isEmpty = true) :
    (f.compileOnce settings none newId time).Gives CompileService.emptyResult := by
  unfold Flow.compileOnce CompileService.create CompileService.compile
  rw [hempty, if_pos rfl, gives_info_bind, gives_pure]

/-- Without traces it does not matter where their ids and times would come from. -/
theorem compilePayload_supply (h : settings.telemetryDir = none) (newId' time' : Nat → String) :
    compilePayload nodes edges settings newId time =
      compilePayload nodes edges settings newId' time' := by
  have hcompile : ∀ f : Flow, f.compileOnce settings none newId time =
      f.compileOnce settings none newId' time' := by
    intro f
    unfold Flow.compileOnce CompileService.create
    rw [h]
    rfl
  unfold compilePayload
  simp only [hcompile]

/-- **How a flow may fail.** That it is empty is no reason. -/
theorem fails_compilePayload (h : settings.telemetryDir = none) {e : Failure}
    (he : (compilePayload nodes edges settings newId time).Fails e) :
    (∃ vs, e = .rejected vs) ∨
      (∃ linkId source target reason, e = .danglingLink linkId source target reason) ∨
      e = .notAListing ∨ e = .infiniteDelay := by
  unfold compilePayload at he
  rcases fails_bind.1 he with hread | ⟨f, -, hcompile⟩
  · left
    cases hflow : Flow.read (.arr (nodes.map .obj)) (.arr (edges.map .obj)) with
    | accepted f =>
      rw [hflow] at hread
      cases hread
    | rejected vs =>
      rw [hflow] at hread
      exact ⟨vs, (Except.error.inj hread).symm⟩
  · cases hne : f.steps.isEmpty with
    | true => exact absurd hcompile ((gives_compileOnce_of_empty hne).not_fails e)
    | false =>
      rw [compileOnce_of_no_folder h hne] at hcompile
      rcases fails_bind.1 hcompile with hfails | ⟨c, -, hvalidated⟩
      · cases Flow.failsAt_of_fails hfails with
        | noSteps hnone => simp [hnone] at hne
        | step _ hstep =>
          exact Or.inr (Or.inr ((Step.fails_compile.1 hstep).imp (·.2.1) (·.2.1)))
        | link hl hlink =>
          exact Or.inr (Or.inr (Or.inl (Flow.exists_consults_of_fails hl hlink).1))
        | lost => exact Or.inr (Or.inl ⟨_, _, _, _, rfl⟩)
      · -- A validation always comes to an end.
        exact absurd hvalidated ((CompileService.gives_validated.2 rfl).not_fails e)

end

/-! ## §4 Two front ends -/

section

variable {nodes edges : List Members} {strict : Bool}

/-- The endpoint turns what the flow comes to into a response. -/
theorem compile_endpoint {environment : Table String} (h : LeavesOpen environment) {b : Members}
    (hbody : HoldsFlow b nodes edges)
    (hstrict : Json.member b "strict_dangling_edges" = strictWish strict)
    (newId time : Nat → String) :
    Endpoint.compile environment (.obj b) newId time = Endpoint.respond
      (compilePayload nodes edges (Settings.ofSwitch environment strict) newId time) := by
  have hsettings : Endpoint.Request.settings
      { nodes, edges, strictDanglingEdges := if strict then some true else none } environment =
        .accepted (Settings.ofSwitch environment strict) :=
    fromEnvironment_eq h strict (by cases strict <;> rfl)
  unfold Endpoint.compile
  rw [read_request hbody hstrict]
  dsimp only
  rw [hsettings]
  exact pure_bind_eq _ _

/-- The command line reads the flow that the text holds. -/
theorem loadFlow_eq {world : CommandLine.World} {m : Members} {text : String}
    (htext : Json.parse text = .ok (.obj m)) (hflow : HoldsFlow m nodes edges) :
    CommandLine.loadFlow world { flowJson := some text, strict } =
      Attempt.ofChecked (Flow.read (.arr (nodes.map .obj)) (.arr (edges.map .obj))) := by
  have hnamed : CommandLine.flowText world { flowJson := some text, strict } = pure text := by
    simp [CommandLine.flowText, Json.not_isEmpty_of_parse htext]
  have hdocument : CommandLine.readDocument text = pure (.obj m) := by
    simp [CommandLine.readDocument, htext]
  rw [CommandLine.loadFlow, hnamed, pure_bind, hdocument, pure_bind]
  dsimp only
  rw [hflow.nodes, hflow.edges]

/-- What is prepared is compiled, and what comes of that is an exit code and a printed document. -/
theorem carryOut_of_prepare {world : CommandLine.World} {o : CommandLine.Order}
    {settings : Settings} {f : Flow} (h : (CommandLine.prepare world o).Gives (settings, f))
    (hout : o.outputFile = none) :
    let result := (f.compileOnce settings none world.newId world.time).outcome
    (CommandLine.carryOut world o).exit = result.map CommandLine.exitCode ∧
      ∀ v, result = .ok v → (CommandLine.carryOut world o).stdout =
        (CommandLine.document v).render (.block 2) ++ "\n" := by
  intro result
  have hprepared : (CommandLine.prepare world o).outcome = .ok (settings, f) := h
  have hresult :
      ((CompileService.create settings none world.newId world.time).compile f).2.outcome =
        result := rfl
  unfold CommandLine.carryOut
  simp only [hprepared, hresult]
  cases result with
  | error e => exact ⟨rfl, nofun⟩
  | ok v =>
    have hnoFile : (o.outputFile.getD "").isEmpty = true := by rw [hout]; rfl
    simp only [CommandLine.report, hnoFile, if_true]
    refine ⟨rfl, ?_⟩
    rintro v' hv'
    cases hv'
    rfl

/-- The command line turns what the flow comes to into an exit code and a printed document. -/
theorem carryOut_flow {world : CommandLine.World} (h : LeavesOpen world.environment)
    (strict : Bool) {m : Members} {text : String} (htext : Json.parse text = .ok (.obj m))
    (hflow : HoldsFlow m nodes edges) :
    let run := CommandLine.carryOut world { flowJson := some text, strict }
    let result := compilePayload nodes edges (Settings.ofSwitch world.environment strict)
      world.newId world.time
    run.exit = result.outcome.map CommandLine.exitCode ∧
      ∀ v, result.Gives v → run.stdout = (CommandLine.document v).render (.block 2) ++ "\n" := by
  have hsettings : CommandLine.settings world { flowJson := some text, strict } =
      .accepted (Settings.ofSwitch world.environment strict) :=
    fromEnvironment_eq h strict (by cases strict <;> rfl)
  have hprepare : CommandLine.prepare world { flowJson := some text, strict } =
      Prod.mk (Settings.ofSwitch world.environment strict) <$> Attempt.ofChecked
        (Flow.read (.arr (nodes.map .obj)) (.arr (edges.map .obj))) := by
    rw [CommandLine.prepare, hsettings, ← loadFlow_eq htext hflow]
    exact (pure_bind _ _).trans (bind_pure_comp _ _)
  unfold compilePayload
  cases hread : Flow.read (.arr (nodes.map .obj)) (.arr (edges.map .obj)) with
  | rejected vs =>
    have hrefused : (CommandLine.prepare world { flowJson := some text, strict }).outcome =
        .error (.rejected vs) := by rw [hprepare, hread]; rfl
    unfold CommandLine.carryOut
    simp only [hrefused]
    exact ⟨rfl, nofun⟩
  | accepted f =>
    have hprepared : (CommandLine.prepare world { flowJson := some text, strict }).Gives
        (Settings.ofSwitch world.environment strict, f) := by rw [hprepare, hread]; rfl
    have hcompiled : (do
        let f ← Attempt.ofChecked (.accepted f)
        f.compileOnce (Settings.ofSwitch world.environment strict) none world.newId world.time) =
        f.compileOnce (Settings.ofSwitch world.environment strict) none world.newId world.time :=
      pure_bind f _
    rw [hcompiled]
    exact carryOut_of_prepare hprepared rfl

end

/-- Whether a failure objects to the flow: it cannot be read, it is empty, or it cannot be compiled
without loss. -/
def Failure.Objects (e : Failure) : Prop :=
  (∃ vs, e = .rejected vs) ∨ e = .emptyFlow ∨
    ∃ linkId source target reason, e = .danglingLink linkId source target reason

theorem Failure.objects_iff {e : Failure} : e.Objects ↔ Endpoint.isRefusal e = true := by
  cases e <;> simp [Objects, Endpoint.isRefusal]

/-- A document of the endpoint and a printed document tell the same, and the exit code fits. -/
inductive TellsSame : Json → Json → Nat → Prop where
  | intro (workflow : Json) (summary : Members) (valid : Bool) (errors warnings : Json) :
    TellsSame
      (.obj [("workflow", workflow), ("summary", .obj summary), ("valid", .bool valid),
        ("errors", errors), ("warnings", warnings)])
      (.obj (("workflow", workflow) :: (summary ++ [("validation",
        .obj [("valid", .bool valid), ("errors", errors), ("warnings", warnings)])])))
      (if valid then 0 else 1)

theorem tellsSame (v : ValidatedCompilation) :
    TellsSame (Endpoint.document v) (CommandLine.document v) (CommandLine.exitCode v) :=
  .intro _ _ v.report.valid _ _

/-- What an answer of the endpoint and a run of the command line have to do with each other if a
flow comes to the given result. -/
structure Concord (result : Attempt ValidatedCompilation) (answer : Attempt Endpoint.Response)
    (run : CommandLine.Outcome) : Prop where
  documented : (∃ r, answer.Gives r ∧ r.status = 200) ↔ ∃ code, run.exit = .ok code
  documents : ∀ r code, answer.Gives r → run.exit = .ok code →
    ∃ v, result.Gives v ∧ r.content = Endpoint.document v ∧
      run.stdout = (CommandLine.document v).render (.block 2) ++ "\n" ∧
      TellsSame r.content (CommandLine.document v) code
  refused : (∃ r, answer.Gives r ∧ r.status = 400) ↔ ∃ e, run.exit = .error e ∧ e.Objects
  detailed : ∀ e, run.exit = .error e → e.Objects → answer.Gives (.refusal 400 e.message)
  /-- What is not for the caller of the endpoint to know is passed on. -/
  raised : ∀ e, answer.Fails e ↔ run.exit = .error e ∧ ¬ e.Objects
  failed : ∀ e, run.exit = .error e ↔ result.Fails e
  /-- An empty flow is no failure. -/
  neverEmpty : ¬ result.Fails .emptyFlow

section

variable {result : Attempt ValidatedCompilation} {run : CommandLine.Outcome}

theorem gives_respond {v : ValidatedCompilation} (h : result.Gives v) :
    (Endpoint.respond result).Gives (.ok (Endpoint.document v)) := by
  have houtcome : result.outcome = .ok v := h
  simp only [Endpoint.respond, houtcome]
  rfl

theorem respond_of_fails {e : Failure} (h : result.Fails e) :
    (e.Objects → (Endpoint.respond result).Gives (.refusal 400 e.message)) ∧
      (¬ e.Objects → (Endpoint.respond result).Fails e) := by
  have houtcome : result.outcome = .error e := h
  rw [Failure.objects_iff]
  simp only [Endpoint.respond, houtcome]
  constructor
  · intro hobjects
    rw [if_pos hobjects]
    rfl
  · intro hpasses
    rw [if_neg hpasses]
    rfl

/-- If the flow comes to a document, both front ends have it. -/
theorem concord_of_gives {v : ValidatedCompilation} (hv : result.Gives v)
    (hexit : run.exit = .ok (CommandLine.exitCode v))
    (hstdout : run.stdout = (CommandLine.document v).render (.block 2) ++ "\n") :
    Concord result (Endpoint.respond result) run := by
  have hanswer := gives_respond hv
  have hnoError : ∀ e, run.exit ≠ .error e := by
    intro e he
    rw [hexit] at he
    cases he
  refine ⟨⟨fun _ => ⟨_, hexit⟩, fun _ => ⟨_, hanswer, rfl⟩⟩, ?_, ⟨?_, ?_⟩, ?_, ?_, ?_,
    hv.not_fails _⟩
  · intro r code hr hcode
    obtain rfl := hr.unique hanswer
    obtain rfl : CommandLine.exitCode v = code := Except.ok.inj (hexit.symm.trans hcode)
    exact ⟨v, hv, rfl, hstdout, tellsSame v⟩
  · rintro ⟨r, hr, hstatus⟩
    obtain rfl := hr.unique hanswer
    cases hstatus
  · rintro ⟨e, he, -⟩
    exact absurd he (hnoError e)
  · intro e he
    exact absurd he (hnoError e)
  · exact fun e => ⟨fun h => absurd h (hanswer.not_fails e), fun h => absurd h.1 (hnoError e)⟩
  · exact fun e => ⟨fun h => absurd h (hnoError e), fun h => absurd h (hv.not_fails e)⟩

/-- If the flow comes to nothing, the run ends with the failure, and the endpoint tells it to its
caller or passes it on. -/
theorem concord_of_fails {e : Failure} (he : result.Fails e) (hexit : run.exit = .error e)
    (hempty : e ≠ .emptyFlow) : Concord result (Endpoint.respond result) run := by
  obtain ⟨htold, hpassed⟩ := respond_of_fails he
  have hnoCode : ∀ code, run.exit ≠ .ok code := by
    intro code hcode
    rw [hexit] at hcode
    cases hcode
  have hsame : ∀ {e'}, run.exit = .error e' ↔ e' = e := by
    intro e'
    rw [hexit, Except.error.injEq, eq_comm]
  have hfails : ∀ {e'}, result.Fails e' ↔ e' = e := by
    intro e'
    rw [Fails, show result.outcome = .error e from he, Except.error.injEq, eq_comm]
  by_cases hobjects : e.Objects
  · have hanswer := htold hobjects
    refine ⟨⟨?_, ?_⟩, ?_, ⟨fun _ => ⟨e, hexit, hobjects⟩, fun _ => ⟨_, hanswer, rfl⟩⟩,
      ?_, ?_, ?_, ?_⟩
    · rintro ⟨r, hr, hstatus⟩
      obtain rfl := hr.unique hanswer
      cases hstatus
    · rintro ⟨code, hcode⟩
      exact absurd hcode (hnoCode code)
    · exact fun r code _ hcode => absurd hcode (hnoCode code)
    · intro e' he' _
      rwa [hsame.1 he']
    · refine fun e' => ⟨fun h => absurd h (hanswer.not_fails e'), ?_⟩
      rintro ⟨he', hnot⟩
      exact absurd (hsame.1 he' ▸ hobjects) hnot
    · exact fun e' => hsame.trans hfails.symm
    · exact fun h => hempty (hfails.1 h).symm
  · have hanswer := hpassed hobjects
    have hnoAnswer : ∀ r, ¬ (Endpoint.respond result).Gives r := fun r hr => hr.not_fails e hanswer
    refine ⟨⟨?_, ?_⟩, ?_, ⟨?_, ?_⟩, ?_, ?_, ?_, ?_⟩
    · rintro ⟨r, hr, -⟩
      exact absurd hr (hnoAnswer r)
    · rintro ⟨code, hcode⟩
      exact absurd hcode (hnoCode code)
    · exact fun r _ hr => absurd hr (hnoAnswer r)
    · rintro ⟨r, hr, -⟩
      exact absurd hr (hnoAnswer r)
    · rintro ⟨e', he', hobjects'⟩
      exact absurd (hsame.1 he' ▸ hobjects') hobjects
    · intro e' he' hobjects'
      exact absurd (hsame.1 he' ▸ hobjects') hobjects
    · intro e'
      rw [hsame]
      constructor
      · intro h
        obtain rfl : e = e' := Except.error.inj (Eq.trans (Eq.symm hanswer) h)
        exact ⟨rfl, hobjects⟩
      · rintro ⟨rfl, -⟩
        exact hanswer
    · exact fun e' => hsame.trans hfails.symm
    · exact fun h => hempty (hfails.1 h).symm

end

/-- **The front ends agree.** Let the environment name no folder for traces and no level for the
journal, and let a request and a text hold the same flow, the request with a wish to be strict just
in case the text comes with `--strict`. Then the endpoint answers the request and the command line
ends its run in concord: both make of the flow what compiling it with the settings of the
environment comes to, and these are the same settings. -/
theorem front_ends_agree {world : CommandLine.World} (hopen : LeavesOpen world.environment)
    {nodes edges : List Members} (strict : Bool) {b m : Members} {text : String}
    (hbody : HoldsFlow b nodes edges)
    (hwish : Json.member b "strict_dangling_edges" = strictWish strict)
    (htext : Json.parse text = .ok (.obj m)) (hflow : HoldsFlow m nodes edges)
    (newId time : Nat → String) :
    ∃ settings,
      Settings.fromEnvironment world.environment
        [("strict_dangling_edges", strictWish strict)] = .accepted settings ∧
      CommandLine.read (CommandLine.flowArguments text strict) =
        .order { flowJson := some text, strict } ∧
      Concord (compilePayload nodes edges settings newId time)
        (Endpoint.compile world.environment (.obj b) newId time)
        (CommandLine.carryOut world { flowJson := some text, strict }) := by
  refine ⟨Settings.ofSwitch world.environment strict,
    fromEnvironment_eq hopen strict (by cases strict <;> rfl),
    CommandLine.read_flowArguments htext strict, ?_⟩
  rw [compile_endpoint hopen hbody hwish]
  obtain ⟨hexit, hstdout⟩ := carryOut_flow hopen strict htext hflow
  rw [compilePayload_supply rfl newId time] at hexit hstdout
  set result := compilePayload nodes edges (Settings.ofSwitch world.environment strict) newId time
  rcases result.gives_or_fails with ⟨v, hv⟩ | ⟨e, he⟩
  · rw [show result.outcome = .ok v from hv] at hexit
    exact concord_of_gives hv hexit (hstdout v hv)
  · rw [show result.outcome = .error e from he] at hexit
    refine concord_of_fails he hexit ?_
    rintro rfl
    -- A flow never fails for being empty.
    simpa using fails_compilePayload rfl he

/-- The steps of a flow with a loose end. -/
def looseNodes : List Members := [[("id", .str "a"), ("type", .str "message")]]

/-- The links of a flow with a loose end: its target is no step. -/
def looseEdges : List Members := [[("source", .str "a"), ("target", .str "b")]]

def looseFlow : Members :=
  [("nodes", .arr (looseNodes.map .obj)), ("edges", .arr (looseEdges.map .obj))]

/-- The flow with a loose end, as an argument. -/
def looseText : String :=
  "\x7b\"nodes\": [\x7b\"id\": \"a\", \"type\": \"message\"\x7d], " ++
    "\"edges\": [\x7b\"source\": \"a\", \"target\": \"b\"\x7d]\x7d"

/-- A request for the flow with a loose end. -/
def looseRequest (strict : Bool) : Members :=
  looseFlow ++ [("strict_dangling_edges", strictWish strict)]

/-- A world where the environment says that loose ends are fine. -/
def easyWorld : CommandLine.World where
  environment := [("VFC_STRICT_DANGLING_EDGES", "no")]
  textAt := fun _ => none
  canWrite := fun _ => false
  newId := fun n => toString n
  time := fun _ => ""

/-- Both front ends put up with the loose end unless they are told to be strict, and then both
refuse the flow. -/
theorem front_ends_agree_loose :
    let run := fun strict => CommandLine.carryOut easyWorld { flowJson := some looseText, strict }
    let answer := fun strict =>
      Endpoint.compile easyWorld.environment (.obj (looseRequest strict)) toString toString
    (run false).exit = .ok 0 ∧ (∃ r, (answer false).Gives r ∧ r.status = 200) ∧
      (run true).exit = .error (.danglingLink (some "") "a" "b" .targetMissing) ∧
      ∃ r, (answer true).Gives r ∧ r.status = 400 := by
  intro run answer
  have hopen : LeavesOpen easyWorld.environment := ⟨rfl, rfl⟩
  have htext : Json.parse looseText = .ok (.obj looseFlow) := rfl
  have hflow : HoldsFlow looseFlow looseNodes looseEdges := ⟨rfl, rfl⟩
  have hbody : ∀ strict, HoldsFlow (looseRequest strict) looseNodes looseEdges :=
    fun _ => ⟨rfl, rfl⟩
  have hwish : ∀ strict, Json.member (looseRequest strict) "strict_dangling_edges" =
      strictWish strict := fun _ => rfl
  have hexit : (run false).exit = .ok 0 := by decide +kernel
  have hrefused : (run true).exit =
      .error (.danglingLink (some "") "a" "b" .targetMissing) := by decide +kernel
  obtain ⟨settings, -, -, hlenient⟩ :=
    front_ends_agree hopen false (hbody false) (hwish false) htext hflow toString toString
  obtain ⟨settings', -, -, hstrict⟩ :=
    front_ends_agree hopen true (hbody true) (hwish true) htext hflow toString toString
  exact ⟨hexit, hlenient.documented.2 ⟨0, hexit⟩, hrefused,
    hstrict.refused.2 ⟨_, hrefused, Or.inr (Or.inr ⟨_, _, _, _, rfl⟩)⟩⟩

end CallFlow
