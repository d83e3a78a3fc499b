import CallFlow.Proofs.Failing
import CallFlow.Proofs.SameRoads
import Mathlib.Data.List.FinRange
import Mathlib.Data.List.Flatten

/-!
# The Routes of an Expansion

A link into a branch is replaced by one edge for every route from there to a step that is no branch.
A route is a list of links, each leaving the branch that the one before it enters, and no branch is
left twice. Two links may join the same two steps, so links are told apart by their positions. The
edges come in the order of their routes: of two routes, the one comes first that takes the earlier
link where they part.

## Sections

1. Routes
2. Finding routes
3. The order of routes
4. Routes and chains
5. Expansions
-/

namespace CallFlow.Flow

open Attempt

variable {f : Flow}

/-! ## §1 Routes -/

/-- The link at a position. -/
def link (f : Flow) (i : Fin f.links.length) : Link := f.links[i]

/-- The branches that are left on the way along some links. -/
def leaves (f : Flow) (route : List (Fin f.links.length)) : List String :=
  route.map fun i => (f.link i).source

/-- The links lead from one id through branches to an id that is no branch, and leave every branch
once. -/
structure IsRoute (f : Flow) (first : String) (route : List (Fin f.links.length)) : Prop where
  starts : ∃ i, route.head? = some i ∧ (f.link i).source = first
  /-- Each link but the last one enters the branch that the next one leaves. -/
  joined : route.IsChain fun i j =>
    f.HasBranch (f.link i).target ∧ (f.link j).source = (f.link i).target
  ends : ∃ i, route.getLast? = some i ∧ ¬ f.HasBranch (f.link i).target
  once : (f.leaves route).Nodup

variable {first : String} {i : Fin f.links.length} {route : List (Fin f.links.length)}

/-- A route is one link out of the branches, or a link that enters a branch and a route from there
that does not come back. -/
theorem isRoute_cons :
    f.IsRoute first (i :: route) ↔ (f.link i).source = first ∧
      (route = [] ∧ ¬ f.HasBranch (f.link i).target ∨
        f.HasBranch (f.link i).target ∧ f.IsRoute (f.link i).target route ∧
          first ∉ f.leaves route) := by
  constructor
  · rintro ⟨⟨i', hi', hstarts⟩, hjoined, ⟨k, hk, hends⟩, honce⟩
    obtain rfl : i = i' := Option.some.inj hi'
    refine ⟨hstarts, ?_⟩
    cases route with
    | nil =>
      obtain rfl : i = k := Option.some.inj hk
      exact Or.inl ⟨rfl, hends⟩
    | cons j rest =>
      obtain ⟨⟨hbranch, hsource⟩, hrest⟩ := List.isChain_cons_cons.1 hjoined
      obtain ⟨hfresh, honce⟩ := List.nodup_cons.1 honce
      rw [List.getLast?_cons_cons] at hk
      exact Or.inr ⟨hbranch, ⟨⟨j, rfl, hsource⟩, hrest, ⟨k, hk, hends⟩, honce⟩, hstarts ▸ hfresh⟩
  · rintro ⟨rfl, ⟨rfl, hends⟩ | ⟨hbranch, hroute, hfresh⟩⟩
    · exact ⟨⟨i, rfl, rfl⟩, .singleton i, ⟨i, rfl, hends⟩, List.nodup_singleton _⟩
    · obtain ⟨⟨j, hj, hsource⟩, hjoined, ⟨k, hk, hends⟩, honce⟩ := hroute
      cases route with
      | nil => cases hj
      | cons j' rest =>
        obtain rfl : j' = j := Option.some.inj hj
        exact ⟨⟨i, rfl, rfl⟩, List.isChain_cons_cons.2 ⟨⟨hbranch, hsource⟩, hjoined⟩,
          ⟨k, by rwa [List.getLast?_cons_cons], hends⟩, List.nodup_cons.2 ⟨hfresh, honce⟩⟩

/-- A route leaves the branch where it begins first of all. -/
theorem IsRoute.leaves_eq (h : f.IsRoute first route) :
    f.leaves route = first :: (f.leaves route).tail := by
  obtain ⟨⟨i, hi, rfl⟩, -⟩ := h
  cases route with
  | nil => cases hi
  | cons j rest =>
    obtain rfl : j = i := Option.some.inj hi
    rfl

/-- After that it leaves other branches. -/
theorem IsRoute.passes (h : f.IsRoute first route) :
    ∀ id ∈ (f.leaves route).tail, f.HasBranch id ∧ id ≠ first := by
  induction route generalizing first with
  | nil => nofun
  | cons i rest ih =>
    obtain ⟨-, ⟨rfl, -⟩ | ⟨hbranch, hrest, hfresh⟩⟩ := isRoute_cons.1 h
    · nofun
    · intro id hid
      refine ⟨?_, fun heq => hfresh (heq ▸ hid)⟩
      have hleaves : id ∈ f.leaves rest := hid
      rw [hrest.leaves_eq] at hleaves
      rcases List.mem_cons.1 hleaves with rfl | hlater
      · exact hbranch
      · exact (ih hrest id hlater).1

/-! ## §2 Finding routes -/

/-- The positions of the links that leave an id, in order. -/
def positionsFrom (f : Flow) (id : String) : List (Fin f.links.length) :=
  (List.finRange f.links.length).filter fun i => (f.link i).source = id

theorem mem_positionsFrom {id : String} :
    i ∈ f.positionsFrom id ↔ (f.link i).source = id := by
  simp [positionsFrom]

theorem map_link_positionsFrom (id : String) :
    (f.positionsFrom id).map f.link = f.linksFrom id := by
  have hall : (List.finRange f.links.length).map f.link = f.links := List.map_get_finRange _
  have hsources : (fun l : Link => decide (l.source = id)) ∘ f.link =
      fun i => decide ((f.link i).source = id) := rfl
  rw [positionsFrom, ← hsources, ← List.filter_map, hall]
  rfl

/-- The routes that leave a branch and pass through the given branches only, each at most once. -/
def routesFrom (f : Flow) (left : List String) (first : String) :
    List (List (Fin f.links.length)) :=
  (f.positionsFrom first).flatMap fun i =>
    if f.HasBranch (f.link i).target then
      if (f.link i).target ∈ left then
        (routesFrom f (left.erase (f.link i).target) (f.link i).target).map (i :: ·)
      else []
    else [[i]]
termination_by left.length
decreasing_by exact length_erase_lt ‹_›

/-- **All routes are found**, and nothing else. -/
theorem mem_routesFrom {left : List String} (hleft : left.Nodup) (hfirst : first ∉ left) :
    route ∈ f.routesFrom left first ↔
      f.IsRoute first route ∧ ∀ id ∈ (f.leaves route).tail, id ∈ left := by
  -- Every further branch is taken off those that are left.
  induction hn : left.length using Nat.strongRecOn generalizing left first route with
  | _ n ih =>
    have hrest : ∀ {target : String} {rest : List (Fin f.links.length)}, target ∈ left →
        (rest ∈ f.routesFrom (left.erase target) target ↔
          f.IsRoute target rest ∧ ∀ id ∈ (f.leaves rest).tail, id ∈ left.erase target) :=
      fun htarget => ih _ (hn ▸ length_erase_lt htarget) (hleft.erase _) hleft.not_mem_erase rfl
    rw [routesFrom, List.mem_flatMap]
    constructor
    · rintro ⟨i, hi, hmem⟩
      have hsource := mem_positionsFrom.1 hi
      split at hmem
      · rename_i hbranch
        split at hmem
        · rename_i htarget
          obtain ⟨rest, hfound, rfl⟩ := List.mem_map.1 hmem
          obtain ⟨hroute, hpasses⟩ := (hrest htarget).1 hfound
          have hall : ∀ id ∈ f.leaves rest, id ∈ left := by
            intro id hid
            rw [hroute.leaves_eq] at hid
            rcases List.mem_cons.1 hid with rfl | hlater
            · exact htarget
            · exact List.mem_of_mem_erase (hpasses id hlater)
          have hfresh : first ∉ f.leaves rest := fun h => hfirst (hall first h)
          exact ⟨isRoute_cons.2 ⟨hsource, Or.inr ⟨hbranch, hroute, hfresh⟩⟩, hall⟩
        · cases hmem
      · rename_i hends
        obtain rfl := List.mem_singleton.1 hmem
        exact ⟨isRoute_cons.2 ⟨hsource, Or.inl ⟨rfl, hends⟩⟩, nofun⟩
    · rintro ⟨hroute, hpasses⟩
      cases route with
      | nil =>
        obtain ⟨⟨i, hi, -⟩, -⟩ := hroute
        cases hi
      | cons i rest =>
        obtain ⟨hsource, ⟨rfl, hends⟩ | ⟨hbranch, hroute, -⟩⟩ := isRoute_cons.1 hroute
        · refine ⟨i, mem_positionsFrom.2 hsource, ?_⟩
          rw [if_neg hends]
          exact List.mem_singleton_self _
        · have htarget : (f.link i).target ∈ left := by
            refine hpasses _ (?_ : _ ∈ f.leaves rest)
            rw [hroute.leaves_eq]
            exact List.mem_cons_self ..
          refine ⟨i, mem_positionsFrom.2 hsource, ?_⟩
          rw [if_pos hbranch, if_pos htarget]
          refine List.mem_map_of_mem ((hrest htarget).2 ⟨hroute, fun id hid => ?_⟩)
          -- What is left later is none of the branches so far.
          exact (List.mem_erase_of_ne (hroute.passes id hid).2).2
            (hpasses id (List.mem_of_mem_tail hid))

/-- The routes that begin with a branch, whatever they pass, are found among all branches. -/
theorem mem_routes :
    route ∈ f.routesFrom (f.branchIds.erase first) first ↔ f.IsRoute first route := by
  rw [mem_routesFrom (nodup_branchIds.erase _) nodup_branchIds.not_mem_erase]
  refine and_iff_left_of_imp fun hroute id hid => ?_
  obtain ⟨hbranch, hne⟩ := hroute.passes id hid
  exact (List.mem_erase_of_ne hne).2 (mem_branchIds.2 hbranch)

/-! ## §3 The order of routes -/

/-- **Routes are found in order**: of two routes, the one comes first that takes the earlier link
where they part. -/
theorem routesFrom_sorted (left : List String) (first : String) :
    (f.routesFrom left first).Pairwise (List.Lex (· < ·)) := by
  induction hn : left.length using Nat.strongRecOn generalizing left first with
  | _ n ih =>
    rw [routesFrom, List.pairwise_flatMap]
    constructor
    · -- Routes with the same first link.
      intro i _
      split
      · split
        · rename_i htarget
          rw [List.pairwise_map]
          exact (ih _ (hn ▸ length_erase_lt htarget) _ _ rfl).imp List.Lex.cons
        · exact .nil
      · exact List.pairwise_singleton _ _
    · -- Routes with different first links.
      have hpositions : (f.positionsFrom first).Pairwise (· < ·) :=
        (List.pairwise_lt_finRange _).filter _
      have hhead : ∀ (i : Fin f.links.length) (route : List (Fin f.links.length)),
          route ∈ (if f.HasBranch (f.link i).target then
            if (f.link i).target ∈ left then
              (f.routesFrom (left.erase (f.link i).target) (f.link i).target).map (i :: ·)
            else []
          else [[i]]) → ∃ rest, route = i :: rest := by
        intro i route hmem
        split at hmem
        · split at hmem
          · obtain ⟨rest, -, rfl⟩ := List.mem_map.1 hmem
            exact ⟨rest, rfl⟩
          · cases hmem
        · exact ⟨[], List.mem_singleton.1 hmem⟩
      refine hpositions.imp fun {i j} hlt route hroute route' hroute' => ?_
      obtain ⟨rest, rfl⟩ := hhead i route hroute
      obtain ⟨rest', rfl⟩ := hhead j route' hroute'
      exact .rel hlt

/-! ## §4 Routes and chains -/

/-- The hops of a route are the conditions of its links, none of which is blocked. -/
def HopsAlong (f : Flow) (route : List (Fin f.links.length)) (hops : List Hop) : Prop :=
  List.Forall₂ (fun i hop => (f.resolve (f.link i).source (f.link i)).Gives hop ∧ hop ≠ .blocked)
    route hops

/-- The chain is made of the links of a route. -/
structure Follows (f : Flow) (route : List (Fin f.links.length)) (c : Chain) : Prop where
  target : ∃ i, route.getLast? = some i ∧ c.target = (f.link i).target
  hops : f.HopsAlong route c.hops
  via : c.via = f.leaves route

theorem Follows.extend {c : Chain} {hop : Hop} (h : f.Follows route c)
    (hsource : (f.link i).source = first) (hhop : (f.resolve first (f.link i)).Gives hop)
    (hne : hop ≠ .blocked) : f.Follows (i :: route) (c.extend hop first) := by
  obtain ⟨⟨k, hk, htarget⟩, hhops, hvia⟩ := h
  subst hsource
  refine ⟨⟨k, ?_, htarget⟩, .cons ⟨hhop, hne⟩ hhops, congrArg _ hvia⟩
  cases route with
  | nil => cases hk
  | cons j rest => rwa [List.getLast?_cons_cons]

/-- **Chains follow routes**, one by one. -/
theorem chains_follow_routes {left : List String} {chains : List Chain}
    (hentered : ∃ l ∈ f.links, l.target = first)
    (h : (f.chainsFrom left first).Gives chains) :
    List.Forall₂ f.Follows (f.routesFrom left first) chains := by
  induction hn : left.length using Nat.strongRecOn generalizing left first chains with
  | _ n ih =>
    obtain ⟨parts, hparts, rfl⟩ := chainsOver_of_gives h
    rw [← map_link_positionsFrom, List.forall₂_map_left_iff] at hparts
    have hsources : ∀ i ∈ f.positionsFrom first, (f.link i).source = first :=
      fun i hi => mem_positionsFrom.1 hi
    have hover := (List.forall₂_and_left _ _).2 ⟨hsources, hparts⟩
    rw [routesFrom]
    refine List.rel_flatten (List.forall₂_map_left_iff.2 (hover.imp ?_))
    rintro i part ⟨hsource, hpart⟩
    cases hpart with
    | blocked h => exact absurd rfl (ne_blocked_of_entered hentered h)
    | ends hhop hne htarget =>
      rw [if_neg htarget]
      exact .cons
        ⟨⟨i, rfl, rfl⟩, .cons ⟨hsource.symm ▸ hhop, hne⟩ .nil, by simp [leaves, hsource]⟩ .nil
    | @passes hop more hhop hne hbranch htarget hmore =>
      rw [if_pos hbranch, if_pos htarget, List.forall₂_map_left_iff, List.forall₂_map_right_iff]
      have hlink : f.link i ∈ f.links := List.getElem_mem _
      have hrest := ih _ (hn ▸ length_erase_lt htarget) ⟨f.link i, hlink, rfl⟩ hmore rfl
      exact hrest.imp fun route c hfollows => hfollows.extend hsource hhop hne
    | turnsBack _ _ hbranch hnot =>
      rw [if_pos hbranch, if_neg hnot]
      exact .nil

/-! ## §5 Expansions -/

/-- The condition of hops of which none is blocked: none if all are made at once, else all their
texts, in order. -/
theorem combine_of_hops {hops : List Hop} (h : ∀ hop ∈ hops, hop ≠ .blocked) :
    ((∀ hop ∈ hops, hop = .unconditional) → Hop.combine hops = .unconditional) ∧
      ((∃ hop ∈ hops, hop ≠ .unconditional) →
        Hop.combine hops = .llm (" AND ".intercalate (hops.filterMap Hop.text?))) := by
  constructor
  · intro hall
    apply Hop.combine_of_eq_nil
    rw [List.filterMap_eq_nil_iff]
    intro hop hhop
    rw [hall hop hhop]
    rfl
  · rintro ⟨hop, hhop, hne⟩
    apply Hop.combine_of_ne_nil
    intro hnone
    -- The hop is neither blocked nor made at once, so it has a text.
    have htext := List.filterMap_eq_nil_iff.1 hnone hop hhop
    cases hop with
    | blocked => exact absurd rfl (h _ hhop)
    | unconditional => exact absurd rfl hne
    | named text => cases htext

/-- The edge replaces a link that enters a branch, and follows a route from there. -/
structure Replaces (f : Flow) (entering : Link) (route : List (Fin f.links.length))
    (e : ExpandedEdge) : Prop where
  source : e.source = entering.source
  target : ∃ i, route.getLast? = some i ∧ e.target = (f.link i).target
  enteringId : e.enteringId = entering.id
  via : e.via = f.leaves route
  condition : ∃ hops, f.HopsAlong route hops ∧
    ((∀ hop ∈ hops, hop = .unconditional) → e.condition = .unconditional) ∧
    ((∃ hop ∈ hops, hop ≠ .unconditional) →
      e.condition = .llm (" AND ".intercalate (hops.filterMap Hop.text?)))

theorem Follows.replaces {c : Chain} (h : f.Follows route c) (entering : Link) :
    f.Replaces entering route (c.edge entering) where
  source := rfl
  target := h.target
  enteringId := rfl
  via := h.via
  condition := by
    refine ⟨c.hops, h.hops, combine_of_hops fun hop hhop => ?_⟩
    obtain ⟨i, -, -, hne⟩ := exists_of_mem_right h.hops hhop
    exact hne

/-- Where every branch that may be read has rules that can be walked through, the search for chains
comes to its end. -/
theorem exists_gives_chainsFrom
    (hrules : ∀ id branch, f.HasBranch id → f.step? id = some branch →
      (branch.setting "conditions").Listable)
    (hfirst : f.HasBranch first) (hentered : ∃ l ∈ f.links, l.target = first)
    (left : List String) : ∃ chains, (f.chainsFrom left first).Gives chains := by
  rcases gives_or_fails (f.chainsFrom left first) with hgives | ⟨e, he⟩
  · exact hgives
  · obtain ⟨id, hway, leaving, -, hfails⟩ := exists_fails_of_chainsFrom he
    have hid : f.HasBranch id := by
      rcases hway with rfl | ⟨hid, -⟩
      · exact hfirst
      · exact hid
    obtain ⟨branch, hbranch⟩ : ∃ branch, f.step? id = some branch := by
      obtain ⟨s, hs, rfl, -⟩ := hid
      exact Option.isSome_iff_exists.1 (step?_isSome hs)
    exact absurd (hrules id branch hid hbranch)
      ((fails_resolve hbranch (hway.entered hentered)).1 hfails).2

/-- **An expansion follows the routes.** Let the rules of every branch be a list, or nothing. Then a
link that enters a branch from a step that is neither a branch nor a trigger is replaced by one edge
for every route that begins with the branch, in the order of the routes. The edge leads from the
source of the link to the end of the route, it names the branches on the way, and it waits for the
texts of all hops. No hop on the way is blocked. -/
theorem expansion_follows_routes (f : Flow) {entering : Link} (hentering : entering ∈ f.links)
    (htrigger : f.isTrigger entering.source = false) (hsource : ¬ f.HasBranch entering.source)
    (htarget : f.HasBranch entering.target)
    (hrules : ∀ id branch, f.HasBranch id → f.step? id = some branch →
      (branch.setting "conditions").Listable) :
    ∃ routes edges, (f.expand entering).Gives edges ∧
      (∀ route, route ∈ routes ↔ f.IsRoute entering.target route) ∧
      routes.Pairwise (List.Lex (· < ·)) ∧
      List.Forall₂ (f.Replaces entering) routes edges := by
  have hentered : ∃ l ∈ f.links, l.target = entering.target := ⟨entering, hentering, rfl⟩
  obtain ⟨chains, hchains⟩ :=
    exists_gives_chainsFrom hrules htarget hentered (f.branchIds.erase entering.target)
  have hexpand : (f.expand entering).Gives (chains.map (Chain.edge entering)) := by
    unfold expand
    rw [if_neg (by simp [isBranch_iff, htrigger, hsource, htarget])]
    exact gives_bind.2 ⟨chains, hchains, gives_pure.2 rfl⟩
  refine ⟨f.routesFrom (f.branchIds.erase entering.target) entering.target, _, hexpand,
    fun route => mem_routes, routesFrom_sorted _ _, ?_⟩
  rw [List.forall₂_map_right_iff]
  exact (chains_follow_routes hentered hchains).imp fun route c hc => hc.replaces entering

/-- At the crossroads, the link into the first branch is replaced by two edges. The way back between
the branches makes no third one. -/
theorem expansion_follows_routes_crossroads :
    let entering : Link := { id := "e2", source := "a", target := "c" }
    ∃ routes edges, (crossroads.expand entering).Gives edges ∧
      routes.Pairwise (List.Lex (· < ·)) ∧
      List.Forall₂ (crossroads.Replaces entering) routes edges ∧
      edges.map (fun e => (e.target, e.via)) = [("nowhere", ["c", "d"]), ("b", ["c", "d"])] := by
  intro entering
  have hentering : entering ∈ crossroads.links := .tail _ (.head _)
  have htrigger : crossroads.isTrigger entering.source = false := by decide
  have hsource : ¬ crossroads.HasBranch entering.source := by decide
  have htarget : crossroads.HasBranch entering.target := by decide
  have hlists : ∀ t ∈ crossroads.steps, (t.setting "conditions").Listable := by decide
  obtain ⟨routes, edges, hedges, -, hsorted, hreplaces⟩ :=
    expansion_follows_routes crossroads hentering htrigger hsource htarget
      fun id branch _ hbranch => hlists branch (mem_of_step?_eq_some hbranch).1
  have hends : (crossroads.expand entering).outcome.map
      (fun edges => edges.map fun e => (e.target, e.via)) =
        .ok [("nowhere", ["c", "d"]), ("b", ["c", "d"])] := by decide +kernel
  rw [hedges] at hends
  exact ⟨routes, edges, hedges, hsorted, hreplaces, Except.ok.inj hends⟩

/-- A flow that declares a branch once more as a message, with a number where the rules of a branch
would be. -/
def relabelled : Flow where
  steps := [
    { id := "a", type := some "message" },
    { id := "c", type := some "condition" },
    { id := "c", type := some "message", data := { config := [("conditions", .int 5)] } },
    { id := "b", type := some "end" }]
  links := [
    { id := "e1", source := "a", target := "c" },
    { id := "e2", source := "c", target := "b" }]

/-- The rules of all steps that are declared as branches are not enough: what is read is the last
step with the id. -/
theorem relabelled_fails :
    (∀ t ∈ relabelled.steps, t.category.isBranch = true → (t.setting "conditions").Listable) ∧
      ∃ entering ∈ relabelled.links, relabelled.isTrigger entering.source = false ∧
        ¬ relabelled.HasBranch entering.source ∧ relabelled.HasBranch entering.target ∧
        ¬ ∃ edges, (relabelled.expand entering).Gives edges := by
  have hfails : (relabelled.expand { id := "e1", source := "a", target := "c" }).outcome.map
      (fun _ => ()) = .error .notAListing := by decide +kernel
  refine ⟨by decide, { id := "e1", source := "a", target := "c" }, .head _, by decide, by decide,
    by decide, ?_⟩
  rintro ⟨edges, hedges⟩
  rw [hedges] at hfails
  cases hfails

end CallFlow.Flow
