import CallFlow.Proofs.BranchElimination
import CallFlow.Proofs.Failing
import CallFlow.Proofs.Repeated

/-!
# What Counts as Dangling

A connection is lost when one of its ends has no node. If every link joins declared steps, one
would not expect to lose any: triggers and branches have no nodes, but links at triggers are passed
over, and links at branches are expanded. There is one exception. A link into a branch is looked
at once, when it is expanded, and a trigger at the far end of its expansion is taken for any other
step there. So a connection is lost just in case some way leads through branches back to a trigger.

## Sections

1. Links between declared steps
2. Where connections end
3. Ways back to a trigger
4. Nothing else is dangling
-/

namespace CallFlow

open Attempt

/-! ## §1 Links between declared steps -/

/-- A step is a trigger or a branch, or else it has a node. -/
theorem Step.trigger_or_branch_or_actionable (t : Step) :
    t.category.isTrigger = true ∨ t.category.isBranch = true ∨ t.isActionable = true := by
  unfold isActionable Category.isStructural
  cases t.category.isTrigger <;> cases t.category.isBranch <;> simp

namespace Flow

variable {f : Flow}

/-- Both ends of every link are ids of steps. -/
structure EndsDeclared (f : Flow) : Prop where
  source : ∀ l ∈ f.links, ∃ t ∈ f.steps, t.id = l.source
  target : ∀ l ∈ f.links, ∃ t ∈ f.steps, t.id = l.target

theorem hasActionable_of_declared {id : String} (h : ∃ t ∈ f.steps, t.id = id)
    (htrigger : ¬ f.HasTrigger id) (hbranch : ¬ f.HasBranch id) : f.HasActionable id := by
  obtain ⟨t, ht, hid⟩ := h
  rcases t.trigger_or_branch_or_actionable with h | h | h
  · exact absurd ⟨t, ht, hid, h⟩ htrigger
  · exact absurd ⟨t, ht, hid, h⟩ hbranch
  · exact ⟨t, ht, hid, h⟩

/-! ## §2 Where connections end -/

/-- **Both ends of a connection have nodes**, unless it has come through branches to a trigger. -/
theorem Calls.ends (hf : f.DistinctIds) (hends : f.EndsDeclared) {l : Link} (hl : l ∈ f.links)
    {cs : List Connection} (h : f.Calls l cs) {c : Connection} (hc : c ∈ cs) :
    f.HasActionable c.source ∧
      (f.HasActionable c.target ∨
        f.HasTrigger c.target ∧ f.HasActionable l.source ∧ f.HasBranch l.target ∧
          f.Walk f.HasBranch l.target c.target) := by
  cases h with
  | atTrigger => simp at hc
  | leavesBranch => simp at hc
  | direct htrigger hsource htarget =>
    obtain rfl := List.mem_singleton.1 hc
    obtain ⟨hfrom, hto⟩ := not_or.1 htrigger
    exact ⟨hasActionable_of_declared (hends.source l hl) hfrom hsource,
      Or.inl (hasActionable_of_declared (hends.target l hl) hto htarget)⟩
  | entersBranch htrigger hsource htarget hexpand =>
    obtain ⟨hfrom, -⟩ := not_or.1 htrigger
    have hactionable := hasActionable_of_declared (hends.source l hl) hfrom hsource
    obtain ⟨chains, hchains, rfl⟩ := chains_of_expand hf hfrom hsource htarget hexpand
    obtain ⟨e, he, rfl⟩ := List.mem_map.1 hc
    obtain ⟨chain, hchain, rfl⟩ := List.mem_map.1 he
    -- The chain ends at the target of some link, which is declared and no branch.
    have hwalk := walk_of_mem_chainsFrom hchains hchain
    have hbranch := not_hasBranch_of_mem_chainsFrom hchains hchain
    obtain ⟨last, hlast, hlasttarget⟩ := hwalk.exists_last
    have hdeclared := hlasttarget ▸ hends.target last hlast
    refine ⟨hactionable, ?_⟩
    by_cases hto : f.HasTrigger chain.target
    · exact Or.inr ⟨hto, hactionable, htarget, hwalk⟩
    · exact Or.inl (hasActionable_of_declared hdeclared hto hbranch)

/-! ## §3 Ways back to a trigger -/

/-- A link leaves a step with a node and enters a branch, from where a walk through branches leads
to a trigger. A trigger with the id of the start node does not count, since that id has a node. -/
def ReturnsToTrigger (f : Flow) (startId : String) : Prop :=
  ∃ l ∈ f.links, f.HasActionable l.source ∧ f.HasBranch l.target ∧
    ∃ id, id ≠ startId ∧ f.HasTrigger id ∧ f.Walk f.HasBranch l.target id

/-- **A lost connection has come back to a trigger.** -/
theorem Calls.returns_of_lost (hf : f.DistinctIds) (hends : f.EndsDeclared) {l : Link}
    (hl : l ∈ f.links) {cs : List Connection} (h : f.Calls l cs) {c : Connection} (hc : c ∈ cs)
    {a : Assembly} {startId : String}
    (hnodes : ∀ id, Table.has a.nodes id = true ↔ id = startId ∨ f.HasActionable id)
    (hlost : a.lost? c ≠ none) : f.ReturnsToTrigger startId := by
  rw [ne_eq, Assembly.lost?_eq_none, hnodes, hnodes, not_and] at hlost
  obtain ⟨hsource, hactionable | ⟨htrigger, hfrom, hbranch, hwalk⟩⟩ := h.ends hf hends hl hc
  · exact absurd (Or.inr hactionable) (hlost (Or.inr hsource))
  · obtain ⟨hid, -⟩ := not_or.1 (hlost (Or.inr hsource))
    exact ⟨l, hl, hfrom, hbranch, c.target, hid, htrigger, hwalk⟩

namespace Passes

variable (p : Passes f) (s : Settings)

theorem has_result (id : String) :
    Table.has (p.result s).workflow.nodes id = true ↔
      id = s.startNodeId ∨ f.HasActionable id := by
  rw [Table.has_congr (p.names_nodes_result s)]
  exact p.compiles.has_holdAll s id

theorem dropped_result_eq_nil :
    (p.result s).dropped = [] ↔ ∀ c ∈ p.plan, (p.result s).workflow.joins c = true := by
  rw [p.dropped_result, List.map_eq_nil_iff, List.filter_eq_nil_iff]
  simp

/-- **A way back to a trigger is lost.** -/
theorem exists_lost_of_returns (hf : f.DistinctIds) (h : f.ReturnsToTrigger s.startNodeId) :
    ∃ c ∈ p.plan, (p.result s).workflow.joins c = false := by
  obtain ⟨l, hl, hsource, hbranch, id, hid, htrigger, hwalk⟩ := h
  obtain ⟨cs, hcs, hgives⟩ := exists_of_mem_left p.calls hl
  have hnot : ¬ f.HasBranch id := fun hentered => hf.not_hasTrigger_of_branch hentered htrigger
  obtain ⟨c, hc, -, rfl⟩ := (calls_of_gives hf hgives).exists_of_walk hf hl
    (hf.not_hasTrigger hsource) (hf.not_hasBranch hsource) hbranch hnot hwalk
  -- The trigger has no node, so the connection does not join two.
  have hnode : ¬ Table.has (p.result s).workflow.nodes c.target = true := by
    rw [p.has_result]
    rintro (hstart | hactionable)
    · exact hid hstart
    · exact hf.not_hasTrigger hactionable htrigger
  refine ⟨c, List.mem_flatten.2 ⟨cs, hcs, hc⟩, ?_⟩
  rw [Workflow.joins, Bool.eq_false_iff.2 hnode, Bool.and_false]

end Passes

/-! ## §4 Nothing else is dangling -/

/-- **Ways back to a trigger are all that dangles.** If no id is declared twice and every link joins
declared steps, connections are dropped just in case some way leads back to a trigger; without such
a way no link is refused as dangling either. -/
theorem dangling_iff_returns (f : Flow) (s : Settings) (hf : f.DistinctIds)
    (hends : f.EndsDeclared) :
    (∀ c, f.Returns s c → (c.dropped = [] ↔ ¬ f.ReturnsToTrigger s.startNodeId)) ∧
    ∀ linkId source target reason,
      f.Refuses s (.danglingLink linkId source target reason) →
        f.ReturnsToTrigger s.startNodeId := by
  refine ⟨fun c h => ?_, fun linkId source target reason h => ?_⟩
  · obtain ⟨p, hp⟩ := h.passes
    have hdropped : c.dropped = (p.result s).dropped := by rw [hp]
    rw [hdropped, p.dropped_result_eq_nil]
    constructor
    · -- A way back would be lost, but all of the plan is made.
      intro hjoins hreturns
      obtain ⟨x, hx, hlost⟩ := p.exists_lost_of_returns s hf hreturns
      rw [hjoins x hx] at hlost
      cases hlost
    · -- What is lost has come back to a trigger.
      intro hnone x hx
      by_contra hlost
      obtain ⟨cs, hcs, hmem⟩ := List.mem_flatten.1 hx
      obtain ⟨l, hl, hgives⟩ := exists_of_mem_right p.calls hcs
      have hnodes : ∀ id, Table.has (p.entered s).nodes id = true ↔
          id = s.startNodeId ∨ f.HasActionable id := by
        intro id
        rw [Table.has_congr (p.names_nodes_entered s)]
        exact p.compiles.has_holdAll s id
      exact hnone ((calls_of_gives hf hgives).returns_of_lost hf hends hl hmem hnodes
        (mt (p.lost?_entered s x).1 hlost))
  · -- Neither traces nor steps nor rules of branches fail in this way.
    have hfails : (f.compile s).Fails (.danglingLink linkId source target reason) := by
      rcases h.fails_or_ofTracing with hfails | ⟨key, he⟩ | ⟨traceId, he⟩
      · exact hfails
      · cases he
      · cases he
    generalize he : Failure.danglingLink linkId source target reason = e at hfails
    cases failsAt_of_fails hfails with
    | noSteps => cases he
    | step _ hstep =>
      rcases Step.fails_compile.1 hstep with ⟨-, hlisting, -⟩ | ⟨-, hendless, -⟩
      · exact absurd (he.trans hlisting) nofun
      · exact absurd (he.trans hendless) nofun
    | link hl hlink =>
      exact absurd (he.trans (exists_consults_of_fails hl hlink).1) nofun
    | lost _ hcompiled hl hcs hc hlost =>
      have hsome : _ ≠ none := fun hnone => absurd (hlost.symm.trans hnone) nofun
      exact (calls_of_gives hf hcs).returns_of_lost hf hends hl hc
        (hcompiled.has_holdAll s) hsome

/-- A flow in which a branch leads back to the trigger. -/
def roundabout : Flow where
  steps := [
    { id := "a", type := some "message" },
    { id := "c", type := some "condition" },
    { id := "t", type := some "trigger" }]
  links := [
    { id := "e1", source := "t", target := "a" },
    { id := "e2", source := "a", target := "c" },
    { id := "e3", source := "c", target := "t" }]

/-- The same flow without the link that leads back. -/
def oneWay : Flow := { roundabout with links := roundabout.links.take 2 }

/-- On the roundabout the way back is dropped, and without it nothing is. -/
theorem dangling_iff_returns_roundabout :
    (roundabout.DistinctIds ∧ roundabout.EndsDeclared ∧
      ∃ c, roundabout.Returns {} c ∧ c.dropped ≠ []) ∧
    oneWay.DistinctIds ∧ oneWay.EndsDeclared ∧ ∃ c, oneWay.Returns {} c ∧ c.dropped = [] := by
  constructor
  · have hids : roundabout.DistinctIds := by decide
    have hends : roundabout.EndsDeclared := ⟨by decide +kernel, by decide +kernel⟩
    obtain ⟨c, hgives⟩ := gives_of_succeeds (a := roundabout.compile {}) (by decide +kernel)
    have hreturns : roundabout.Returns {} c := .plain hgives
    have hback : roundabout.ReturnsToTrigger Workflow.defaultStartId :=
      ⟨_, List.mem_of_getElem? (i := 1) rfl, by decide +kernel, by decide +kernel, "t", by decide,
        by decide +kernel, .link (List.mem_of_getElem? (i := 2) rfl) rfl rfl⟩
    refine ⟨hids, hends, c, hreturns, fun hnone => ?_⟩
    exact ((dangling_iff_returns roundabout {} hids hends).1 c hreturns).1 hnone hback
  · have hids : oneWay.DistinctIds := by decide
    have hends : oneWay.EndsDeclared := ⟨by decide +kernel, by decide +kernel⟩
    obtain ⟨c, hgives⟩ := gives_of_succeeds (a := oneWay.compile {}) (by decide +kernel)
    have hreturns : oneWay.Returns {} c := .plain hgives
    -- No link leads to a trigger, so no walk does.
    have hnot : ∀ l ∈ oneWay.links, ¬ oneWay.HasTrigger l.target := by decide +kernel
    refine ⟨hids, hends, c, hreturns,
      ((dangling_iff_returns oneWay {} hids hends).1 c hreturns).2 ?_⟩
    rintro ⟨first, hfirst, -, -, id, -, htrigger, hwalk⟩
    obtain ⟨last, hlast, rfl⟩ := hwalk.exists_last
    exact hnot last hlast htrigger

/-- Declared ends are not enough: the roundabout joins declared steps, and yet a connection is
dropped, or refused by a strict compilation. -/
theorem roundabout_dangles :
    roundabout.DistinctIds ∧ roundabout.EndsDeclared ∧
      (∃ c, roundabout.Returns {} c ∧ c.dropped = [⟨some "e2", "a", "t", .targetMissing⟩]) ∧
      roundabout.Refuses { strictDanglingEdges := true }
        (.danglingLink (some "e2") "a" "t" .targetMissing) := by
  obtain ⟨c, hgives⟩ := gives_of_succeeds (a := roundabout.compile {}) (by decide +kernel)
  have hdropped : (roundabout.compile {}).outcome.map Compilation.dropped =
      .ok [⟨some "e2", "a", "t", .targetMissing⟩] := by
    decide +kernel
  have hstrict : (roundabout.compile { strictDanglingEdges := true }).outcome.map (fun _ => ()) =
      .error (.danglingLink (some "e2") "a" "t" .targetMissing) := by
    decide +kernel
  rw [hgives] at hdropped
  refine ⟨by decide, ⟨by decide +kernel, by decide +kernel⟩,
    ⟨c, .plain hgives, Except.ok.inj hdropped⟩, .plain ?_⟩
  rcases gives_or_fails (roundabout.compile { strictDanglingEdges := true }) with
    ⟨c', hc'⟩ | ⟨e, he⟩
  · rw [hc'] at hstrict
    cases hstrict
  · rw [he] at hstrict
    rw [← Except.error.inj hstrict]
    exact he

end Flow

end CallFlow
