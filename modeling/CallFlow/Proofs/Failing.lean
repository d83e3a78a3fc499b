import CallFlow.Proofs.Chains
import CallFlow.Proofs.Compiling

/-!
# How Compilations Fail

Settings are free-form, and hardly anything that an author writes makes a step fail: what is
not understood is replaced by a default or passed over. Two kinds of settings do make a failure.
A list of fields or rules may be a value that is no list at all, and a delay may be infinite.

This module follows every failure of a compilation back to where it begins: to a step, to a link
whose expansion reads the rules of a branch, or, when the assembly is strict, to a connection
that is lost.

## Sections

1. Settings that cannot be used
2. Steps that fail
3. Rules that cannot be read
4. Chains that fail
5. Links that fail
6. Compilations that fail
7. Traces that fail
-/

namespace CallFlow

open Attempt

/-! ## §1 Settings that cannot be used -/

namespace Json

/-- If the value is given, it consists of items. -/
def Listable (v : Json) : Prop := v.isGiven = true → v.items?.isSome = true

instance (v : Json) : Decidable v.Listable :=
  inferInstanceAs (Decidable (v.isGiven = true → v.items?.isSome = true))

/-- Whether the value is an infinite number. -/
def isEndless : Json → Bool
  | float x =>
    match Decimal.view x with
    | .infinity _ => true
    | _ => false
  | _ => false

theorem not_listable {v : Json} : ¬ v.Listable ↔ v.isGiven = true ∧ v.items? = none := by
  unfold Listable
  rw [Classical.not_imp, Bool.not_eq_true, Option.isSome_eq_false_iff, Option.isNone_iff_eq_none]

end Json

/-! ## §2 Steps that fail -/

namespace Step

variable {s : Step} {e : Failure}

theorem fails_listedFields :
    s.listedFields.Fails e ↔ e = .notAListing ∧ ¬ (s.setting "fields").Listable := by
  rw [Json.not_listable]
  unfold listedFields
  dsimp only
  cases hgiven : (s.setting "fields").isGiven with
  | false => simp
  | true => cases hitems : (s.setting "fields").items? <;> simp

theorem not_fails_takeField (entry : Json × Nat) : ¬ (s.takeField entry).Fails e := by
  unfold takeField
  split
  · -- A malformed entry is passed over with a warning.
    split
    · exact not_fails_pure
    · rw [warn, fails_write_bind]
      exact not_fails_pure
  · exact not_fails_pure

theorem fails_formFields :
    s.formFields.Fails e ↔ e = .notAListing ∧ ¬ (s.setting "fields").Listable := by
  rw [← fails_listedFields, formFields]
  apply fails_bind_iff_left
  intro listed h
  -- Past the list, the fields are taken one by one.
  rw [fails_bind_iff_left fun _ => not_fails_pure] at h
  obtain ⟨entry, -, hentry⟩ := exists_fails_of_mapM h
  exact not_fails_takeField entry hentry

theorem fails_compileForm :
    s.compileForm.Fails e ↔ e = .notAListing ∧ ¬ (s.setting "fields").Listable := by
  rw [← fails_formFields, compileForm]
  apply fails_bind_iff_left
  intro fields
  rw [debug, fails_write_bind]
  split <;> exact not_fails_pure

theorem fails_wholeDelay? {v : Json} :
    (wholeDelay? v).Fails e ↔ e = .infiniteDelay ∧ v.isEndless = true := by
  cases v with
  | float x =>
    simp only [wholeDelay?, Json.isEndless]
    cases Decimal.view x <;> simp
  | _ => simp [wholeDelay?, Json.isEndless]

theorem fails_delayMs :
    s.delayMs.Fails e ↔ e = .infiniteDelay ∧ (s.setting "delay_ms").isEndless = true := by
  unfold delayMs
  split
  · rename_i hnull
    simp [hnull, Json.isEndless]
  · rename_i hempty
    simp [hempty, Json.isEndless]
  · rw [← fails_wholeDelay?]
    apply fails_bind_iff_left
    intro delay
    -- A delay that is no number is replaced.
    cases delay with
    | some i => exact not_fails_pure
    | none => simp [warn]

theorem fails_compileAgentTransfer :
    s.compileAgentTransfer.Fails e ↔
      e = .infiniteDelay ∧ (s.setting "delay_ms").isEndless = true := by
  rw [← fails_delayMs, compileAgentTransfer, fails_bind]
  simp

theorem not_fails_compilePhoneTransfer : ¬ s.compilePhoneTransfer.Fails e := by
  simp only [compilePhoneTransfer]
  -- An unknown style of transfer is replaced.
  split <;> simp [warn]

theorem not_fails_compileWebhook : ¬ s.compileWebhook.Fails e := by
  have hmethod : ¬ s.webhookMethod.Fails e := by
    -- An unknown method is replaced.
    simp only [webhookMethod]
    split <;> simp [warn]
  simp only [compileWebhook, fails_bind, hmethod, false_or, not_exists, not_and]
  intro method _
  -- A missing address is put up with.
  split <;> simp [debug, warn]

theorem not_fails_compileAudio : ¬ s.compileAudio.Fails e := by
  simp only [compileAudio]
  split <;> simp [warn]

/-- **All ways for a step to fail**: as a form whose fields are no list, or as a transfer with an
infinite delay. -/
theorem fails_compile :
    s.compile.Fails e ↔
      (s.category.isForm = true ∧ e = .notAListing ∧ ¬ (s.setting "fields").Listable) ∨
      (s.category.isAgentTransfer = true ∧ e = .infiniteDelay ∧
        (s.setting "delay_ms").isEndless = true) := by
  unfold compile
  cases s.category with
  | form | formSubmission | collectInfo =>
    simp [fails_compileForm, Category.isForm, Category.isAgentTransfer]
  | agentTransfer | transferAgent =>
    simp [fails_compileAgentTransfer, Category.isForm, Category.isAgentTransfer]
  | transfer | transferCall | phoneTransfer =>
    simp [not_fails_compilePhoneTransfer, Category.isForm, Category.isAgentTransfer]
  | webhook | apiCall | tool =>
    simp [not_fails_compileWebhook, Category.isForm, Category.isAgentTransfer]
  | playAudio => simp [not_fails_compileAudio, Category.isForm, Category.isAgentTransfer]
  | _ =>
    -- All other handlers write to the journal at most.
    simp [compileMessage, compileQuestion, compileAppointment, compileDelay, compileEnd,
      compileUnrecognized, debug, info, Category.isForm, Category.isAgentTransfer]

end Step

/-! ## §3 Rules that cannot be read -/

theorem BranchRule.not_fails_take (entry : Json) {e : Failure} :
    ¬ (BranchRule.take entry).Fails e := by
  unfold BranchRule.take
  split
  · -- A malformed entry is passed over with a warning.
    split <;> simp [warn]
  · exact not_fails_pure

theorem BranchRule.fails_parse {config : Members} {e : Failure} :
    (BranchRule.parse config).Fails e ↔
      e = .notAListing ∧ ¬ (Json.member config "conditions").Listable := by
  rw [Json.not_listable]
  unfold BranchRule.parse
  dsimp only
  cases hgiven : (Json.member config "conditions").isGiven with
  | false => simp
  | true =>
    cases hitems : (Json.member config "conditions").items? with
    | none => simp
    | some items =>
      -- The entries are taken one by one, and none of them fails.
      have htaken : ¬ (items.mapM BranchRule.take).Fails e := by
        intro h
        obtain ⟨entry, -, hentry⟩ := exists_fails_of_mapM h
        exact BranchRule.not_fails_take entry hentry
      simp [htaken]

namespace Flow

variable {f : Flow} {e : Failure}

/-- At a branch that some link enters, a hop fails if the rules of the branch are no list. -/
theorem fails_resolve {id : String} {branch : Step} (hbranch : f.step? id = some branch)
    (hentered : ∃ l ∈ f.links, l.target = id) {leaving : Link} :
    (f.resolve id leaving).Fails e ↔
      e = .notAListing ∧ ¬ (branch.setting "conditions").Listable := by
  unfold resolve
  rw [linksInto_isEmpty hentered, if_neg Bool.false_ne_true, hbranch]
  dsimp only
  rw [fails_bind, BranchRule.fails_parse]
  simp [Step.setting]

/-! ## §4 Chains that fail -/

/-- The branch is the given first one, or a walk through branches leads to it from there. -/
def OnTheWay (f : Flow) (first id : String) : Prop :=
  id = first ∨ f.HasBranch id ∧ f.Walk f.HasBranch first id

theorem OnTheWay.step {l : Link} {id : String} (hl : l ∈ f.links) (hbranch : f.HasBranch l.target)
    (h : f.OnTheWay l.target id) : f.OnTheWay l.source id := by
  rcases h with rfl | ⟨hid, hwalk⟩
  · exact Or.inr ⟨hbranch, .link hl rfl rfl⟩
  · exact Or.inr ⟨hid, .step hl rfl hbranch hwalk⟩

theorem OnTheWay.trans {first middle id : String} (h : f.OnTheWay first middle)
    (h' : f.OnTheWay middle id) : f.OnTheWay first id := by
  rcases h with rfl | ⟨hmiddle, hwalk⟩
  · exact h'
  · rcases h' with rfl | ⟨hid, hrest⟩
    · exact Or.inr ⟨hmiddle, hwalk⟩
    · exact Or.inr ⟨hid, hwalk.append hmiddle hrest⟩

theorem OnTheWay.entered {first id : String} (h : f.OnTheWay first id)
    (hfirst : ∃ l ∈ f.links, l.target = first) : ∃ l ∈ f.links, l.target = id := by
  rcases h with rfl | ⟨-, hwalk⟩
  · exact hfirst
  · exact hwalk.exists_last

/-- **Chains fail at a hop** out of some branch on the way. -/
theorem exists_fails_of_chainsFrom {left : List String} {branchId : String}
    (h : (f.chainsFrom left branchId).Fails e) :
    ∃ id, f.OnTheWay branchId id ∧ ∃ l ∈ f.linksFrom id, (f.resolve id l).Fails e := by
  -- Every further branch is taken off those that are left.
  induction hn : left.length using Nat.strongRecOn generalizing left branchId with
  | _ n ih =>
    rw [chainsFrom, fails_bind_iff_left fun _ => not_fails_pure] at h
    obtain ⟨l, hl, hpart⟩ := exists_fails_of_mapM h
    rw [fails_bind] at hpart
    rcases hpart with hresolve | ⟨hop, -, hpart⟩
    · exact ⟨branchId, Or.inl rfl, l, hl, hresolve⟩
    · -- The hop itself goes well, so the chains behind it fail.
      split at hpart
      · exact absurd hpart not_fails_pure
      · split at hpart
        · rename_i hbranch
          split at hpart
          · rename_i hleft
            rw [fails_bind_iff_left fun _ => not_fails_pure] at hpart
            have hshorter : (left.erase l.target).length < n := hn ▸ length_erase_lt hleft
            obtain ⟨id, hway, hfails⟩ := ih _ hshorter hpart rfl
            obtain ⟨hmem, rfl⟩ := mem_linksFrom.1 hl
            exact ⟨id, hway.step hmem (isBranch_iff.1 hbranch), hfails⟩
          · rw [warn, fails_write_bind] at hpart
            exact absurd hpart not_fails_pure
        · exact absurd hpart not_fails_pure

/-! ## §5 Links that fail -/

/-- The link enters a branch from a step that is neither a branch nor a trigger, so that it is
replaced by an expansion. -/
structure Expanded (f : Flow) (l : Link) : Prop where
  source_trigger : f.isTrigger l.source = false
  target_trigger : f.isTrigger l.target = false
  source_branch : f.isBranch l.source = false
  target_branch : f.isBranch l.target = true

/-- Only expanded links can fail, and they fail with their chains. -/
theorem fails_connectionsOf {l : Link} :
    (f.connectionsOf l).Fails e ↔
      f.Expanded l ∧ (f.chainsFrom (f.branchIds.erase l.target) l.target).Fails e := by
  constructor
  · intro h
    unfold connectionsOf at h
    split at h
    · exact absurd h not_fails_pure
    · rename_i hskip
      simp only [Bool.or_eq_true, not_or, Bool.not_eq_true] at hskip
      obtain ⟨⟨hsource, htarget⟩, hbranch⟩ := hskip
      split at h
      · rename_i hinto
        have hexpanded : f.Expanded l := ⟨hsource, htarget, hbranch, hinto⟩
        refine ⟨hexpanded, ?_⟩
        simpa [expand, hsource, hbranch, hinto, fails_bind] using h
      · exact absurd h not_fails_pure
  · rintro ⟨⟨hsource, htarget, hbranch, hinto⟩, hchains⟩
    simpa [connectionsOf, expand, hsource, htarget, hbranch, hinto, fails_bind] using hchains

/-- The rules of the branch are read in the course of some expansion. -/
def Consults (f : Flow) (id : String) : Prop :=
  (∃ l ∈ f.links, f.Expanded l ∧ f.OnTheWay l.target id) ∧ ∃ l ∈ f.links, l.source = id

theorem Consults.hasBranch {id : String} (h : f.Consults id) : f.HasBranch id := by
  obtain ⟨⟨l, -, hexpanded, hway⟩, -⟩ := h
  rcases hway with rfl | ⟨hid, -⟩
  · exact isBranch_iff.1 hexpanded.target_branch
  · exact hid

theorem Consults.entered {id : String} (h : f.Consults id) : ∃ l ∈ f.links, l.target = id := by
  obtain ⟨⟨l, hl, -, hway⟩, -⟩ := h
  exact hway.entered ⟨l, hl, rfl⟩

/-- **A link fails at a branch that is consulted**, because the rules there are no list. -/
theorem exists_consults_of_fails {l : Link} (hl : l ∈ f.links)
    (h : (f.connectionsOf l).Fails e) :
    e = .notAListing ∧ ∃ id branch, f.Consults id ∧ f.step? id = some branch ∧
      ¬ (branch.setting "conditions").Listable := by
  obtain ⟨hexpanded, hchains⟩ := fails_connectionsOf.1 h
  obtain ⟨id, hway, leaving, hleaving, hresolve⟩ := exists_fails_of_chainsFrom hchains
  obtain ⟨hmem, hsource⟩ := mem_linksFrom.1 hleaving
  have hconsults : f.Consults id := ⟨⟨l, hl, hexpanded, hway⟩, leaving, hmem, hsource⟩
  obtain ⟨s, hs, rfl, -⟩ := hconsults.hasBranch
  obtain ⟨branch, hbranch⟩ := Option.isSome_iff_exists.1 (step?_isSome hs)
  obtain ⟨he, hrules⟩ := (fails_resolve hbranch hconsults.entered).1 hresolve
  exact ⟨he, s.id, branch, hconsults, hbranch, hrules⟩

/-! ## §6 Compilations that fail -/

/-- Where a compilation with the given settings may fail. -/
inductive FailsAt (f : Flow) (s : Settings) : Failure → Prop where
  | noSteps (h : f.steps = []) : FailsAt f s .emptyFlow
  | step {t : Step} {e : Failure} (ht : t ∈ f.steps) (h : t.compile.Fails e) : FailsAt f s e
  | link {l : Link} {e : Failure} (hl : l ∈ f.links) (h : (f.connectionsOf l).Fails e) :
      FailsAt f s e
  /-- A connection of some link has an end that is no node, and the assembly is strict. -/
  | lost {compiled : List Compiled} {l : Link} {cs : List Connection} {c : Connection}
      {d : DroppedLink} (hstrict : s.strictDanglingEdges = true) (hcompiled : f.CompilesTo compiled)
      (hl : l ∈ f.links) (hcs : (f.connectionsOf l).Gives cs) (hc : c ∈ cs)
      (hlost : ((Assembly.ofSettings s).holdAll (f.steps.zip compiled)).lost? c = some d) :
      FailsAt f s (.danglingLink d.linkId d.source d.target d.reason)

theorem not_fails_entry : ¬ f.entry.Fails e := by
  unfold entry
  dsimp only
  split
  · exact not_fails_pure
  · split <;> simp [info]

theorem fails_compileStep {state : Facts × Assembly} {t : Step}
    (h : (compileStep state t).Fails e) : t.compile.Fails e := by
  unfold compileStep at h
  rw [fails_bind] at h
  rcases h with hcompile | ⟨c, -, hnode⟩
  · exact hcompile
  · -- A compiled node can always be added.
    exfalso
    revert hnode
    cases c.node with
    | none => exact not_fails_pure
    | some node =>
      have hadded : (state.2.addNode t.id node).Gives _ := Assembly.gives_addNode.2 rfl
      dsimp only
      rw [fails_bind]
      rintro (hadd | ⟨a, -, hpure⟩)
      · exact hadded.not_fails e hadd
      · exact not_fails_pure hpure

/-- Connecting links fails at a link, or at a connection that is lost. The assembly where this
happens has the nodes of the first one. -/
theorem exists_fails_of_connectLinks {a : Assembly} (h : (f.connectLinks a).Fails e) :
    (∃ l ∈ f.links, (f.connectionsOf l).Fails e) ∨
      a.strict = true ∧ ∃ l ∈ f.links, ∃ cs, (f.connectionsOf l).Gives cs ∧ ∃ c ∈ cs, ∃ d,
        a.lost? c = some d ∧ e = .danglingLink d.linkId d.source d.target d.reason := by
  let Alike : Assembly → Prop := fun b =>
    Table.names b.nodes = Table.names a.nodes ∧ b.strict = a.strict
  have hone : ∀ b c b', Alike b → (connectOne b c).Gives b' → Alike b' := by
    rintro b c b' ⟨hnames, hstrict⟩ hgives
    rw [Assembly.eq_place_of_gives hgives]
    exact ⟨(Assembly.names_nodes_place b c).trans hnames, (Assembly.place_strict b c).trans hstrict⟩
  have hlink : ∀ b l b', Alike b → (f.connectLink b l).Gives b' → Alike b' := by
    rintro b l b' ⟨hnames, hstrict⟩ hgives
    obtain ⟨cs, -, hrun⟩ := gives_bind.1 hgives
    rw [Assembly.eq_placeAll_of_gives hrun]
    exact ⟨(Assembly.names_nodes_placeAll b cs).trans hnames,
      (Assembly.placeAll_strict b cs).trans hstrict⟩
  obtain ⟨l, hl, b, hb, hfails⟩ := exists_fails_of_foldlM hlink ⟨rfl, rfl⟩ h
  unfold connectLink at hfails
  rw [fails_bind] at hfails
  rcases hfails with hconnections | ⟨cs, hcs, hrun⟩
  · exact Or.inl ⟨l, hl, hconnections⟩
  · obtain ⟨c, hc, b', ⟨hnames, hstrict⟩, hfails⟩ := exists_fails_of_foldlM hone hb hrun
    obtain ⟨hb', d, hd, he⟩ := Assembly.lost_of_fails_connectOne hfails
    rw [Assembly.lost?_congr hnames] at hd
    exact Or.inr ⟨hstrict.symm.trans hb', l, hl, cs, hcs, c, hc, d, hd, he⟩

/-- **Every failure of a compilation has its place.** -/
theorem failsAt_of_fails {s : Settings} (h : (f.compile s).Fails e) : f.FailsAt s e := by
  cases hne : f.steps.isEmpty with
  | true =>
    unfold compile at h
    rw [hne, if_pos rfl, fails_fail] at h
    rw [h]
    exact .noSteps (List.isEmpty_iff.1 hne)
  | false =>
    have hassemble : (f.assemble s).Fails e := (outcome_compile hne).symm.trans h
    unfold assemble at hassemble
    rw [fails_bind] at hassemble
    rcases hassemble with hentry | ⟨entry, -, hassemble⟩
    · exact absurd hentry not_fails_entry
    rw [fails_bind] at hassemble
    rcases hassemble with hsteps | ⟨state, hstate, hassemble⟩
    · obtain ⟨t, ht, state, -, hfails⟩ :=
        exists_fails_of_foldlM (I := fun _ => True) (fun _ _ _ _ _ => trivial) trivial hsteps
      exact .step ht (fails_compileStep hfails)
    obtain ⟨compiled, hcompiled, rfl⟩ := gives_compileSteps.1 hstate
    dsimp only at hassemble
    -- The start node is in place, so the entry can be connected.
    have hstart := Assembly.has_start_holdAll s (f.steps.zip compiled)
    obtain ⟨made, hmade⟩ := Assembly.gives_connectStart
      (a := (Assembly.ofSettings s).holdAll (f.steps.zip compiled))
      (by rw [Assembly.holdAll_startNodeId]; exact hstart) entry.stepId
    rw [fails_bind] at hassemble
    rcases hassemble with hconnect | ⟨connected, hconnected, hassemble⟩
    · exact absurd hconnect (hmade.not_fails e)
    obtain rfl := hmade.unique hconnected
    rw [fails_bind] at hassemble
    rcases hassemble with hlinks | ⟨a, -, hpure⟩
    · rcases exists_fails_of_connectLinks hlinks with
        ⟨l, hl, hfails⟩ | ⟨hstrict, l, hl, cs, hcs, c, hc, d, hd, rfl⟩
      · exact .link hl hfails
      · -- Connecting the entry changes neither strictness nor what is lost.
        rw [Assembly.lost?_congr (Assembly.names_nodes_enter ..)] at hd
        rw [Assembly.enter_frame] at hstrict
        have hstrictness := (Assembly.holdAll_strict _ _).symm.trans hstrict
        exact .lost hstrictness hcompiled hl hcs hc hd
    · exact absurd hpure not_fails_pure

/-! ## §7 Traces that fail -/

/-- A compilation of the flow fails, without a trace or with one in some store. -/
inductive Refuses (f : Flow) (s : Settings) : Failure → Prop where
  | plain {e : Failure} (h : (f.compile s).Fails e) : Refuses f s e
  | traced {e : Failure} (store : TraceStore) (h : (f.compileTraced s store).2.Fails e) :
      Refuses f s e

end Flow

/-- The failure is one of recording events: their data has a key of its own that is reserved, or
there is no folder for them. -/
def Failure.OfTracing (e : Failure) : Prop :=
  (∃ key, e = .reservedKey key) ∨ ∃ traceId, e = .noTraceFolder traceId

namespace TraceStore

theorem ofTracing_of_log {s s' : TraceStore} {traceId event : String} {data : Members}
    {e : Failure} (h : s.log traceId event data = (s', .error e)) : e.OfTracing := by
  unfold log at h
  split at h
  · cases h
    exact Or.inl ⟨_, rfl⟩
  · -- The event is remembered, and only its file can be missing.
    dsimp only at h
    unfold persist at h
    split at h
    · cases h
    · split at h
      · cases h
        exact Or.inr ⟨_, rfl⟩
      · cases h

theorem ofTracing_of_logAll {events : List (String × Members)} {s s' : TraceStore}
    {traceId : String} {e : Failure} (h : s.logAll traceId events = (s', .error e)) :
    e.OfTracing := by
  induction events generalizing s with
  | nil => cases h
  | cons first rest ih =>
    unfold logAll at h
    split at h
    · exact ih h
    · rename_i hfirst
      cases h
      exact ofTracing_of_log hfirst

theorem ofTracing_of_start {s s' : TraceStore} {label : String} {data : Members} {e : Failure}
    (h : s.start label data = (s', .error e)) : e.OfTracing := by
  unfold start at h
  split at h
  · cases h
    exact Or.inl ⟨_, rfl⟩
  · dsimp only at h
    split at h
    · cases h
    · rename_i hlog
      cases h
      exact ofTracing_of_log hlog

end TraceStore

namespace Flow

variable {f : Flow} {e : Failure}

/-- **A trace adds no failures but its own.** -/
theorem Refuses.fails_or_ofTracing {s : Settings} (h : f.Refuses s e) :
    (f.compile s).Fails e ∨ e.OfTracing := by
  cases h with
  | plain h => exact Or.inl h
  | traced store h =>
    unfold compileTraced at h
    split at h
    · -- Without steps both fail alike.
      rename_i hempty
      refine Or.inl ?_
      unfold compile
      rw [if_pos hempty]
      exact h
    · split at h
      · rename_i hstart
        rw [fails_fail] at h
        exact Or.inr (h ▸ TraceStore.ofTracing_of_start hstart)
      · dsimp only at h
        split at h
        · exact Or.inl h
        · split at h
          · rename_i hlog
            obtain rfl : _ = e := Except.error.inj h
            exact Or.inr (TraceStore.ofTracing_of_logAll hlog)
          · cases h

end Flow

end CallFlow
