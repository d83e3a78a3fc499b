import CallFlow.Proofs.BlankConditions
import CallFlow.Proofs.Tolerance

/-!
# Chains Piece by Piece

A chain of hops has a single condition, which is made of the texts of its hops. It makes no
difference how it is made: all at once, or of the conditions of pieces, wherever and as often as the
chain is split. Hops that are made at once leave no trace in it. So an edge that passes a branch
waits for the hops before this branch, and after that for nothing but what an edge waits for that
comes of a link into the branch.

## Sections

1. Joining conditions
2. Conditions of pieces
3. Hops made at once
4. Routes from a later branch
5. Edges from a later branch
6. Chains piece by piece
-/

namespace CallFlow

open Attempt

/-! ## §1 Joining conditions -/

namespace Condition

/-- The condition for one part of a chain and then another. What is done at once adds nothing, and
two texts are put together. Conditions of other kinds are part of no chain, so nothing is said of
them but that they stay as they are beside what is done at once. -/
def join? : Condition → Condition → Option Condition
  | .unconditional, second => some second
  | first, .unconditional => some first
  | .llm first, .llm second => some (.llm (first ++ Hop.separator ++ second))
  | _, _ => none

@[simp] theorem unconditional_join? (c : Condition) : unconditional.join? c = some c := by
  cases c <;> rfl

@[simp] theorem join?_unconditional (c : Condition) : c.join? unconditional = some c := by
  cases c <;> rfl

@[simp] theorem llm_join?_llm (first second : String) :
    (llm first).join? (llm second) = some (llm (first ++ Hop.separator ++ second)) := rfl

/-- **Joining is associative**, and if three conditions cannot be joined one way, then neither can
they the other way. -/
theorem join?_assoc (b c d : Condition) :
    (b.join? c).bind (·.join? d) = (c.join? d).bind b.join? := by
  cases b <;> cases c <;> cases d <;> simp [join?, String.append_assoc]

end Condition

/-! ## §2 Conditions of pieces -/

namespace Hop

variable {hops hops' : List Hop} {c : Condition}

/-- Only the texts of the hops count. -/
theorem combine_congr (h : hops.filterMap text? = hops'.filterMap text?) :
    combine hops = combine hops' := by
  unfold combine
  rw [h]

/-- **The condition of a chain is joined of those of its parts**, wherever it is split. -/
theorem combine_append (xs ys : List Hop) :
    (combine xs).join? (combine ys) = some (combine (xs ++ ys)) := by
  have htexts : (xs ++ ys).filterMap text? = xs.filterMap text? ++ ys.filterMap text? :=
    List.filterMap_append
  -- A separator stands between the parts only if both of them have texts, be they empty or not.
  by_cases hxs : xs.filterMap text? = []
  · have hsame : combine (xs ++ ys) = combine ys := combine_congr (by simp [hxs])
    rw [combine_of_eq_nil hxs, hsame, Condition.unconditional_join?]
  · by_cases hys : ys.filterMap text? = []
    · have hsame : combine (xs ++ ys) = combine xs := combine_congr (by simp [hys])
      rw [combine_of_eq_nil hys, hsame, Condition.join?_unconditional]
    · have hboth : (xs ++ ys).filterMap text? ≠ [] := by simp [htexts, hxs]
      rw [combine_of_ne_nil hxs, combine_of_ne_nil hys, combine_of_ne_nil hboth, htexts,
        Condition.llm_join?_llm, String.intercalate_append_of_ne_nil hxs hys]

/-- The condition of a hop by itself. -/
def condition : Hop → Condition
  | named text => .llm text
  | _ => .unconditional

theorem combine_singleton (hop : Hop) : combine [hop] = hop.condition := by
  cases hop with
  | blocked => rfl
  | unconditional => rfl
  | named text => simp [combine, condition, text?]

/-- **A chain is collapsed piece by piece**: a single hop has its own condition, and a longer chain
is split anywhere, its parts are collapsed, and their conditions are joined. -/
inductive Collapses : List Hop → Condition → Prop where
  | nothing : Collapses [] .unconditional
  | single (hop : Hop) : Collapses [hop] hop.condition
  | split {xs ys : List Hop} {c d e : Condition} (first : Collapses xs c) (second : Collapses ys d)
      (hjoin : c.join? d = some e) : Collapses (xs ++ ys) e

/-- Hop by hop, a chain is collapsed to what comes of it all at once. -/
theorem collapses_combine (hops : List Hop) : Collapses hops (combine hops) := by
  induction hops with
  | nil => exact .nothing
  | cons hop rest ih =>
    have hfirst : Collapses [hop] (combine [hop]) := combine_singleton hop ▸ .single hop
    exact .split hfirst ih (combine_append [hop] rest)

theorem Collapses.combine_eq (h : Collapses hops c) : combine hops = c := by
  induction h with
  | nothing => rfl
  | single hop => exact combine_singleton hop
  | @split xs ys c d e _ _ hjoin ihfirst ihsecond =>
    subst ihfirst ihsecond
    -- Both sides are the same join.
    apply Option.some.inj
    rw [← combine_append, hjoin]

/-- **However a chain is split, the same comes of it as all at once.** -/
theorem collapses_iff : Collapses hops c ↔ combine hops = c := by
  constructor
  · exact Collapses.combine_eq
  · rintro rfl
    exact collapses_combine hops

/-! ## §3 Hops made at once -/

theorem texts_filter (hops : List Hop) :
    (hops.filter (· ≠ .unconditional)).filterMap text? = hops.filterMap text? := by
  rw [List.filterMap_filter]
  apply List.filterMap_congr
  intro hop _
  cases hop <;> simp [text?]

/-- **Hops that are made at once leave no trace**: chains that differ in nothing else have the same
condition. -/
theorem combine_eq_of_filter_eq
    (h : hops'.filter (· ≠ .unconditional) = hops.filter (· ≠ .unconditional)) :
    combine hops' = combine hops := by
  apply combine_congr
  rw [← texts_filter hops', h, texts_filter]

end Hop

namespace Flow

variable {f : Flow} {first id : String} {route front back : List (Fin f.links.length)}
  {hops hops' : List Hop} {before after : List String}

/-! ## §4 Routes from a later branch -/

/-- **What lies ahead on a route is a route**: it may be split at every branch that it leaves. -/
theorem IsRoute.split (h : f.IsRoute first route) (hleaves : f.leaves route = before ++ id :: after) :
    ∃ front back, route = front ++ back ∧ f.leaves front = before ∧ f.leaves back = id :: after ∧
      f.IsRoute id back := by
  induction before generalizing first route with
  | nil =>
    have hfirst : id :: after = first :: (f.leaves route).tail := hleaves ▸ h.leaves_eq
    obtain ⟨rfl, -⟩ := List.cons.inj hfirst
    exact ⟨[], route, rfl, rfl, hleaves, h⟩
  | cons branchId before ih =>
    cases route with
    | nil => cases hleaves
    | cons i rest =>
      obtain ⟨hsource, hahead⟩ := List.cons.inj hleaves
      obtain ⟨-, ⟨rfl, -⟩ | ⟨-, hrest, -⟩⟩ := isRoute_cons.1 h
      · -- Past the last link there is nothing to split.
        simp at hahead
      · obtain ⟨front, back, rfl, hfront, hback, hroute⟩ := ih hrest hahead
        exact ⟨i :: front, back, rfl, by rw [← hsource, ← hfront]; rfl, hback, hroute⟩

/-- Every branch that a route leaves is on the way. -/
theorem IsRoute.onTheWay (h : f.IsRoute first route) (hid : id ∈ f.leaves route) :
    f.OnTheWay first id := by
  induction route generalizing first with
  | nil => cases hid
  | cons i rest ih =>
    obtain ⟨rfl, hrest⟩ := isRoute_cons.1 h
    rcases List.mem_cons.1 hid with rfl | hlater
    · exact Or.inl rfl
    · rcases hrest with ⟨rfl, -⟩ | ⟨hbranch, hroute, -⟩
      · cases hlater
      · have hlink : f.link i ∈ f.links := List.getElem_mem _
        exact (ih hroute hlater).step hlink hbranch

theorem HopsAlong.unique (h : f.HopsAlong route hops) (h' : f.HopsAlong route hops') :
    hops = hops' := by
  refine List.right_unique_forall₂' ?_ h h'
  rintro i hop hop' ⟨hgives, -⟩ ⟨hgives', -⟩
  exact hgives.unique hgives'

theorem HopsAlong.split (h : f.HopsAlong (front ++ back) hops) :
    ∃ earlier later, hops = earlier ++ later ∧ f.HopsAlong front earlier ∧
      f.HopsAlong back later := by
  have hfront := List.forall₂_take front.length h
  have hback := List.forall₂_drop front.length h
  rw [List.take_left] at hfront
  rw [List.drop_left] at hback
  exact ⟨_, _, (List.take_append_drop front.length hops).symm, hfront, hback⟩

/-- A chain ends as the one does that follows the rest of its route, and has the hops of that one
after its first ones. -/
theorem Follows.split {c c' : Chain} (h : f.Follows (front ++ back) c) (h' : f.Follows back c') :
    c'.target = c.target ∧ ∃ earlier, f.HopsAlong front earlier ∧ c.hops = earlier ++ c'.hops := by
  constructor
  · obtain ⟨k, hk, htarget⟩ := h.target
    obtain ⟨k', hk', htarget'⟩ := h'.target
    rw [List.getLast?_append, hk', Option.some_or] at hk
    obtain rfl := Option.some.inj hk
    rw [htarget, htarget']
  · obtain ⟨earlier, later, hhops, hearlier, hlater⟩ := h.hops.split
    rw [hlater.unique h'.hops] at hhops
    exact ⟨earlier, hearlier, hhops⟩

/-! ## §5 Edges from a later branch -/

/-- Where the search for chains comes to its end, so does the search from any branch on the way. -/
theorem exists_chains_of_onTheWay {chains : List Chain}
    (hentered : ∃ l ∈ f.links, l.target = first)
    (h : (f.chainsFrom (f.branchIds.erase first) first).Gives chains)
    (hway : f.OnTheWay first id) :
    ∃ chains', (f.chainsFrom (f.branchIds.erase id) id).Gives chains' := by
  rcases gives_or_fails (f.chainsFrom (f.branchIds.erase id) id) with hgives | ⟨e, he⟩
  · exact hgives
  · -- It would fail at a hop that the first search has come to as well.
    obtain ⟨id', hway', leaving, hleaving, hfails⟩ := exists_fails_of_chainsFrom he
    obtain ⟨hop, hhop⟩ := exists_hop_of_onTheWay hentered h (hway.trans hway') hleaving
    exact absurd hfails (hhop.not_fails e)

/-- The edge waits for the hops of a route that begins with the branch and leaves just the branches
of the edge: whichever way these hops are collapsed, the condition of the edge comes of it. -/
def WaitsAlong (f : Flow) (first : String) (e : ExpandedEdge) : Prop :=
  ∃ route hops, f.IsRoute first route ∧ e.via = f.leaves route ∧ f.HopsAlong route hops ∧
    ∀ c, Hop.Collapses hops c ↔ e.condition = c

/-- The edge passes the given branches, and from there on it goes as the other edge does. It ends
where that one ends, and it waits for the hops out of those branches and then for what the other
edge waits for. -/
structure Continues (f : Flow) (first : String) (before : List String) (e e' : ExpandedEdge) :
    Prop where
  target : e'.target = e.target
  via : e.via = before ++ e'.via
  condition : ∃ front back hops, f.IsRoute first (front ++ back) ∧ f.leaves front = before ∧
    f.leaves back = e'.via ∧ f.HopsAlong front hops ∧
    (Hop.combine hops).join? e'.condition = some e.condition

variable {entering direct : Link} {edges : List ExpandedEdge} {e : ExpandedEdge}

/-- Every edge of an expansion is made of a chain along a route. -/
theorem exists_follows_of_mem_expand (hentering : entering ∈ f.links)
    (hedges : (f.expand entering).Gives edges) (he : e ∈ edges) :
    f.HasBranch entering.target ∧
      ∃ chains, (f.chainsFrom (f.branchIds.erase entering.target) entering.target).Gives chains ∧
        ∃ route c, f.IsRoute entering.target route ∧ f.Follows route c ∧ e = c.edge entering := by
  obtain ⟨htrigger, hsource, htarget⟩ := ends_of_mem_expand hedges he
  obtain ⟨chains, hchains, rfl⟩ := exists_chains_of_expand htrigger hsource htarget hedges
  obtain ⟨c, hc, rfl⟩ := List.mem_map.1 he
  obtain ⟨route, hroute, hfollows⟩ :=
    exists_of_mem_right (chains_follow_routes ⟨entering, hentering, rfl⟩ hchains) hc
  exact ⟨htarget, chains, hchains, route, c, mem_routes.1 hroute, hfollows, rfl⟩

theorem waitsAlong_of_mem_expand (hentering : entering ∈ f.links)
    (hedges : (f.expand entering).Gives edges) (he : e ∈ edges) :
    f.WaitsAlong entering.target e := by
  obtain ⟨-, -, -, route, c, hroute, hfollows, rfl⟩ :=
    exists_follows_of_mem_expand hentering hedges he
  exact ⟨route, c.hops, hroute, hfollows.via, hfollows.hops, fun _ => Hop.collapses_iff⟩

/-- **An edge that passes a branch continues one that begins there.** -/
theorem exists_continues (hentering : entering ∈ f.links)
    (hedges : (f.expand entering).Gives edges) (he : e ∈ edges) (hdirect : direct ∈ f.links)
    (htrigger : f.isTrigger direct.source = false) (hsource : ¬ f.HasBranch direct.source)
    (hvia : e.via = before ++ direct.target :: after) :
    ∃ edges', (f.expand direct).Gives edges' ∧
      ∃ e' ∈ edges', f.Continues entering.target before e e' := by
  obtain ⟨hbranch, chains, hchains, route, c, hroute, hfollows, rfl⟩ :=
    exists_follows_of_mem_expand hentering hedges he
  have hleaves : f.leaves route = before ++ direct.target :: after := hfollows.via.symm.trans hvia
  have hway : f.OnTheWay entering.target direct.target := hroute.onTheWay (by simp [hleaves])
  have htarget : f.HasBranch direct.target := by
    rcases hway with hsame | ⟨hpassed, -⟩
    · exact hsame ▸ hbranch
    · exact hpassed
  -- The rest of the route begins with the branch that the other link enters, so it is found there.
  obtain ⟨front, back, rfl, hfront, hback, hrest⟩ := hroute.split hleaves
  obtain ⟨chains', hchains'⟩ := exists_chains_of_onTheWay ⟨entering, hentering, rfl⟩ hchains hway
  obtain ⟨c', hc', hfollows'⟩ :=
    exists_of_mem_left (chains_follow_routes ⟨direct, hdirect, rfl⟩ hchains') (mem_routes.2 hrest)
  obtain ⟨hends, earlier, hearlier, hhops⟩ := hfollows.split hfollows'
  have hvia' : c'.via = direct.target :: after := hfollows'.via.trans hback
  refine ⟨_, gives_expand htrigger hsource htarget hchains', c'.edge direct,
    List.mem_map_of_mem hc', hends, hvia.trans (congrArg _ hvia'.symm), ?_⟩
  refine ⟨front, back, earlier, hroute, hfront, hfollows'.via.symm, hearlier, ?_⟩
  show (Hop.combine earlier).join? (Hop.combine c'.hops) = some (Hop.combine c.hops)
  rw [hhops, Hop.combine_append]

/-! ## §6 Chains piece by piece -/

/-- **Chains may be collapsed piece by piece.** Conditions are joined so that what is done at once
is a unit on both sides, and texts are put together with the separator between them; this is
associative. The condition of a chain of hops of any kind, with any texts, is joined of those of its
two parts wherever it is split. So whichever way a chain is split into pieces, the same condition
comes of it as all at once, and it stays the same if hops that are made at once are put in or left
out anywhere.

So it is with the edges that replace a link into a branch. Each waits for the hops of a route from
the branch, and however these are collapsed, its condition comes of them. If it passes a branch that
another link enters from a step that is neither a branch nor a trigger, then that link is replaced
too by edges, and one of them goes on from there in the same way; the edge waits for the hops before
that branch and then for what the other one waits for. -/
theorem chains_collapse_piecewise :
    (∀ c : Condition, Condition.unconditional.join? c = some c ∧ c.join? .unconditional = some c) ∧
    (∀ first second : String, (Condition.llm first).join? (.llm second) =
      some (.llm (first ++ " AND " ++ second))) ∧
    (∀ b c d : Condition, (b.join? c).bind (·.join? d) = (c.join? d).bind b.join?) ∧
    (∀ xs ys : List Hop,
      (Hop.combine xs).join? (Hop.combine ys) = some (Hop.combine (xs ++ ys))) ∧
    (∀ (hops : List Hop) (c : Condition), Hop.Collapses hops c ↔ Hop.combine hops = c) ∧
    (∀ hops hops' : List Hop,
      hops'.filter (· ≠ .unconditional) = hops.filter (· ≠ .unconditional) →
        Hop.combine hops' = Hop.combine hops) ∧
    ∀ (f : Flow) (entering : Link) (edges : List ExpandedEdge), entering ∈ f.links →
      (f.expand entering).Gives edges → ∀ e ∈ edges, f.WaitsAlong entering.target e ∧
        ∀ (direct : Link) (before after : List String), direct ∈ f.links →
          f.isTrigger direct.source = false → ¬ f.HasBranch direct.source →
          e.via = before ++ direct.target :: after →
          ∃ edges', (f.expand direct).Gives edges' ∧
            ∃ e' ∈ edges', f.Continues entering.target before e e' := by
  refine ⟨fun c => ⟨Condition.unconditional_join? c, Condition.join?_unconditional c⟩,
    Condition.llm_join?_llm, Condition.join?_assoc, Hop.combine_append,
    fun hops c => Hop.collapses_iff, fun hops hops' => Hop.combine_eq_of_filter_eq, ?_⟩
  intro f entering edges hentering hedges e he
  refine ⟨waitsAlong_of_mem_expand hentering hedges he, ?_⟩
  intro direct before after hdirect htrigger hsource hvia
  exact exists_continues hentering hedges he hdirect htrigger hsource hvia

/-- A flow with two branches one after the other, where a link from elsewhere enters the second one
directly. -/
def junction : Flow where
  steps := [
    { id := "a", type := some "message" },
    { id := "m", type := some "message" },
    { id := "c", type := some "condition" },
    { id := "d", type := some "condition" },
    { id := "b", type := some "end" }]
  links := [
    { id := "e1", source := "a", target := "c" },
    { id := "e2", source := "c", target := "d", sourceHandle := some "yes" },
    { id := "e3", source := "m", target := "d" },
    { id := "e4", source := "d", target := "b", sourceHandle := some "no" }]

/-- The edge from the first message waits for an answer that agrees, and then for what the edge from
the other message waits for. -/
theorem chains_collapse_piecewise_junction :
    let entering : Link := { id := "e1", source := "a", target := "c" }
    let direct : Link := { id := "e3", source := "m", target := "d" }
    Hop.combine [.unconditional, .named "", .unconditional, .blocked, .named "B"] =
      Hop.combine [.named "", .blocked, .named "B"] ∧
    ∃ edges edges', (junction.expand entering).Gives edges ∧ (junction.expand direct).Gives edges' ∧
      ∃ e ∈ edges, ∃ e' ∈ edges', junction.WaitsAlong "c" e ∧ junction.Continues "c" ["c"] e e' ∧
        e.condition.text? = some "User said yes or agreed AND User said no or declined" ∧
        e'.condition.text? = some "User said no or declined" := by
  intro entering direct
  obtain ⟨-, -, -, -, -, hinserted, hexpansions⟩ := chains_collapse_piecewise
  refine ⟨hinserted _ _ (by decide), ?_⟩
  obtain ⟨edges, hedges⟩ := gives_of_succeeds (a := junction.expand entering) (by decide +kernel)
  have hfound : (junction.expand entering).outcome.map
      (fun edges => edges.map fun e => (e.via, e.condition.text?)) =
        .ok [(["c", "d"], some "User said yes or agreed AND User said no or declined")] := by
    decide +kernel
  rw [hedges] at hfound
  obtain ⟨e, rfl, hpair⟩ := List.map_eq_singleton_iff.1 (Except.ok.inj hfound)
  obtain ⟨hvia, htext⟩ := Prod.mk.inj hpair
  have htrigger : junction.isTrigger direct.source = false := by decide +kernel
  have hsource : ¬ junction.HasBranch direct.source := by decide +kernel
  obtain ⟨hwaits, hpassing⟩ := hexpansions junction entering [e] (.head _) hedges e (.head _)
  obtain ⟨edges', hedges', e', he', hcontinues⟩ :=
    hpassing direct ["c"] [] (.tail _ (.tail _ (.head _))) htrigger hsource hvia
  have hfound' : (junction.expand direct).outcome.map
      (fun edges => edges.map fun e => e.condition.text?) =
        .ok [some "User said no or declined"] := by decide +kernel
  rw [hedges'] at hfound'
  obtain ⟨only, rfl, htext'⟩ := List.map_eq_singleton_iff.1 (Except.ok.inj hfound')
  obtain rfl := List.mem_singleton.1 he'
  exact ⟨[e], [e'], hedges, hedges', e, .head _, e', .head _, hwaits, hcontinues, htext, htext'⟩

end Flow

end CallFlow
