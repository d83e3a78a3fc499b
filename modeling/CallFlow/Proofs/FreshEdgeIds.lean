import CallFlow.Proofs.Calls

/-!
# Edge Ids Are Made Once

An assembly counts the edge ids that it makes, and every id holds its number. The nodes that an edge
joins enter the id as free text, cut to a few characters, so that they may look like part of another
id or like a whole one. The number is read back all the same. So in a run of any length no id is
made twice, and none is that of the edge from the start, which does not begin as made ids do.

An edge without a given id is therefore added to the edges that are there, as long as their ids have
been made by the same assembly. A given id may anticipate one that is going to be made.

## Sections

1. Requests
2. Counting
3. The ids that a run makes
4. New edges
-/

namespace CallFlow.Assembly

open Attempt

/-! ## §1 Requests -/

/-- A call, or the addition of any node, whatever edges it lists already. -/
inductive Request where
  | call (call : Call)
  | putNode (id : String) (node : Node)

/-- Carries out a request. -/
def answer (a : Assembly) : Request → Called (Option String)
  | .call call => a.perform call
  | .putNode id node =>
    let (a, added) := a.callAddNode id node
    (a, do added; return none)

/-- The assembly after a request, be it one that fails. -/
def afterRequest (a : Assembly) (request : Request) : Assembly := (a.answer request).1

/-- The assembly after some requests, in order. -/
def afterRequests (a : Assembly) (requests : List Request) : Assembly :=
  requests.foldl afterRequest a

/-- The edge id that a request has made: its answer, if the counter of ids has gone up. -/
def madeId? (a : Assembly) (request : Request) : Option String :=
  match (a.answer request).2.outcome with
  | .ok answer => if a.made < (a.answer request).1.made then answer else none
  | .error _ => none

/-- The edge ids that requests have made, in order. -/
def idsMade (a : Assembly) : List Request → List String
  | [] => []
  | request :: rest => (a.madeId? request).toList ++ idsMade (a.afterRequest request) rest

/-! ## §2 Counting -/

/-- What a request does to the counter: nothing, or the answer is the next id. -/
inductive Counted (a : Assembly) : Called (Option String) → Prop where
  | same {called : Called (Option String)} (h : called.1.made = a.made) : Counted a called
  | next (source target : String) {called : Called (Option String)}
      (h : called.1.made = a.made + 1)
      (hanswer : called.2.Gives (some (edgeId (a.made + 1) source target))) : Counted a called

variable {a : Assembly}

theorem made_callAddNode (a : Assembly) (id : String) (node : Node) :
    (a.callAddNode id node).1.made = a.made := by
  rw [callAddNode_fst]
  split <;> rfl

theorem made_drop (a : Assembly) (d : DroppedLink) : (a.drop d).1.made = a.made := by
  unfold drop
  split <;> rfl

theorem counted_callConnect (a : Assembly) (source target : String) (condition : Condition)
    (id linkId : Option String) :
    a.Counted (a.callConnect source target condition id linkId) := by
  unfold callConnect
  split
  · -- The connection is dropped, if it is not refused.
    exact .same (made_drop ..)
  · dsimp only
    split
    · exact .next source target rfl (gives_pure.2 rfl)
    · exact .same rfl

theorem counted_callConnectStart (a : Assembly) (entry : Option String) :
    a.Counted (a.callConnectStart entry) := by
  unfold callConnectStart
  split
  · exact .same rfl
  · rename_i id
    split
    · -- The line in the journal changes neither the assembly nor the answer.
      cases a.counted_callConnect a.startNodeId id .unconditional (some a.startEdgeId) none with
      | same h => exact .same h
      | next source target h hanswer =>
        exact .next source target h
          (gives_bind.2 ⟨_, hanswer, gives_debug_bind.2 (gives_pure.2 rfl)⟩)
    · exact .same rfl

/-- **Whatever is requested**, the counter stays or the answer is the next id. -/
theorem counted_answer (a : Assembly) (request : Request) : a.Counted (a.answer request) := by
  cases request with
  | putNode id node => exact .same (made_callAddNode a id node)
  | call call =>
    cases call with
    | addNode id position kind => exact .same (made_callAddNode a id { position, kind })
    | connect source target condition id linkId =>
      exact a.counted_callConnect source target condition id linkId
    | connectStart entry => exact a.counted_callConnectStart entry
    | nextEdgeId source target => exact .next source target rfl (gives_pure.2 rfl)

/-- One request makes no id, or the next one. -/
theorem madeId?_cases (a : Assembly) (request : Request) :
    (a.madeId? request = none ∧ (a.afterRequest request).made = a.made) ∨
    ∃ source target, a.madeId? request = some (edgeId (a.made + 1) source target) ∧
      (a.afterRequest request).made = a.made + 1 := by
  cases a.counted_answer request with
  | same h =>
    refine Or.inl ⟨?_, h⟩
    unfold madeId?
    split
    · exact if_neg (by omega)
    · rfl
  | next source target h hanswer =>
    have houtcome : (a.answer request).2.outcome = .ok _ := hanswer
    refine Or.inr ⟨source, target, ?_, h⟩
    simp only [madeId?, houtcome]
    exact if_pos (by omega)

/-! ## §3 The ids that a run makes -/

/-- **The ids that a run makes are numbered** without gaps, from the number after the last. -/
theorem idsMade_eq (a : Assembly) (requests : List Request) :
    ∃ ends : List (String × String),
      a.idsMade requests =
        (ends.zipIdx (a.made + 1)).map (fun p => edgeId p.2 p.1.1 p.1.2) ∧
      (a.afterRequests requests).made = a.made + ends.length := by
  induction requests generalizing a with
  | nil => exact ⟨[], rfl, rfl⟩
  | cons request rest ih =>
    obtain ⟨ends, hmade, hcount⟩ := ih (a.afterRequest request)
    have hafter : a.afterRequests (request :: rest) =
        (a.afterRequest request).afterRequests rest := rfl
    rw [hafter, hcount, idsMade, hmade]
    rcases a.madeId?_cases request with ⟨hnone, hsame⟩ | ⟨source, target, hsome, hnext⟩
    · exact ⟨ends, by rw [hnone, hsame]; rfl, by rw [hsame]⟩
    · refine ⟨(source, target) :: ends, ?_, ?_⟩
      · rw [hsome, hnext, List.zipIdx_cons]
        rfl
      · rw [hnext, List.length_cons]
        omega

theorem idsMade_append (a : Assembly) (requests more : List Request) :
    a.idsMade (requests ++ more) =
      a.idsMade requests ++ (a.afterRequests requests).idsMade more := by
  induction requests generalizing a with
  | nil => rfl
  | cons request rest ih =>
    rw [List.cons_append, idsMade, idsMade, ih, List.append_assoc]
    rfl

/-- Asking for an id makes it. -/
theorem idsMade_nextEdgeId (a : Assembly) (source target : String) :
    a.idsMade [.call (.nextEdgeId source target)] = [(a.nextEdgeId source target).1] := by
  have hmade : a.madeId? (.call (.nextEdgeId source target)) =
      some (a.nextEdgeId source target).1 :=
    if_pos (Nat.lt_succ_self a.made)
  rw [idsMade, hmade]
  rfl

/-- No id is made twice, because no number is given twice. -/
theorem nodup_idsMade (a : Assembly) (requests : List Request) : (a.idsMade requests).Nodup := by
  obtain ⟨ends, hmade, -⟩ := a.idsMade_eq requests
  have hnumbers : ((ends.zipIdx (a.made + 1)).map Prod.snd).Nodup := by
    rw [List.zipIdx_map_snd]
    exact List.nodup_range'
  rw [hmade]
  refine List.pairwise_map.2 ((List.pairwise_map.1 hnumbers).imp ?_)
  intro p q hne hsame
  exact hne (edgeId_counter_injective hsame)

/-- The number of an id that has been made has been reached. -/
theorem of_mem_idsMade {requests : List Request} {id : String} (h : id ∈ a.idsMade requests) :
    ∃ n ≤ (a.afterRequests requests).made, ∃ source target, id = edgeId n source target := by
  obtain ⟨ends, hmade, hcount⟩ := a.idsMade_eq requests
  rw [hmade] at h
  obtain ⟨⟨⟨source, target⟩, n⟩, hp, rfl⟩ := List.mem_map.1 h
  have hn := List.snd_lt_add_of_mem_zipIdx hp
  exact ⟨n, by omega, source, target, rfl⟩

/-! ## §4 New edges -/

/-- The next id has not been made yet. -/
theorem next_notMem_idsMade (a : Assembly) (requests : List Request) (source target : String) :
    edgeId ((a.afterRequests requests).made + 1) source target ∉ a.idsMade requests := by
  intro hmem
  obtain ⟨n, hn, s, t, heq⟩ := of_mem_idsMade hmem
  have hnumber : (a.afterRequests requests).made + 1 = n := edgeId_counter_injective heq
  omega

theorem edgeId_ne_defaultStartEdgeId (n : Nat) (source target : String) :
    edgeId n source target ≠ Settings.defaultStartEdgeId :=
  edgeId_ne_of_not_looksGenerated (by decide) n source target

/-- If no other ids are in use than those that a run has made and the default one from the start,
then the assembly knows them all. -/
theorem knowsIds_of_made {requests : List Request}
    (h : ∀ id ∈ Table.names (a.afterRequests requests).edges,
      id ∈ a.idsMade requests ∨ id = Settings.defaultStartEdgeId) :
    (a.afterRequests requests).KnowsIds := by
  intro id hid
  rcases h id hid with hmade | rfl
  · exact Or.inr (of_mem_idsMade hmade)
  · exact Or.inl (by decide)

/-- Between two nodes, an edge without a given id gets the next one. -/
theorem callConnect_made {source target : String}
    (h : a.missingEnd? source target = none) (condition : Condition) {id : Option String}
    (hid : id.getD "" = "") (linkId : Option String) :
    a.callConnect source target condition id linkId =
      (a.addMade { source, target, condition },
        pure (some (edgeId (a.made + 1) source target))) := by
  simp only [callConnect, h, hid]
  rfl

/-- A connection with a missing end makes no edge, whether it is refused or dropped. -/
theorem edges_after_of_missing {source target : String} {reason : DropReason}
    (h : a.missingEnd? source target = some reason) (condition : Condition)
    (id linkId : Option String) :
    (a.after (.connect source target condition id linkId)).edges = a.edges := by
  show (a.callConnect source target condition id linkId).1.edges = a.edges
  cases hstrict : a.strict with
  | true => rw [(callConnect_of_strict h hstrict condition id linkId).1]
  | false => rw [(callConnect_of_lenient h hstrict condition id linkId).1]

/-- **Edge ids are made once.** Whatever is requested of a new assembly, and whatever texts name the
nodes, no edge id is made twice, and none is the default id of the edge from the start; an id that
is asked for counts among those that are made. So if every edge has an id that this assembly has
made, or that default id, then a connection without a given id between two nodes gets an id that has
been neither made nor used before, and adds its edge behind all others, which stay as they are.
Without one of its ends it adds none. -/
theorem made_ids_never_repeat (startNodeId startEdgeId : String) (strict : Bool)
    (requests : List Request) :
    let fresh := begin startNodeId startEdgeId strict
    let a := fresh.afterRequests requests
    let made := fresh.idsMade requests
    made.Nodup ∧ Settings.defaultStartEdgeId ∉ made ∧
    (∀ source target, fresh.idsMade (requests ++ [.call (.nextEdgeId source target)]) =
      made ++ [(a.nextEdgeId source target).1]) ∧
    ((∀ id ∈ Table.names a.edges, id ∈ made ∨ id = Settings.defaultStartEdgeId) →
      ∀ (source target : String) (condition : Condition) (id linkId : Option String),
        id.getD "" = "" →
        let e : Edge := { source, target, condition }
        (Table.has a.nodes source = true → Table.has a.nodes target = true →
          ∃ new : String,
            (a.perform (.connect source target condition id linkId)).2.Gives (some new) ∧
            new ∉ made ∧ new ≠ Settings.defaultStartEdgeId ∧ new ∉ Table.names a.edges ∧
            (a.after (.connect source target condition id linkId)).edges =
              a.edges ++ [(new, e)]) ∧
        (Table.has a.nodes source = false ∨ Table.has a.nodes target = false →
          (a.after (.connect source target condition id linkId)).edges = a.edges)) := by
  intro fresh a made
  refine ⟨nodup_idsMade fresh requests, fun hmem => ?_, fun source target => ?_, ?_⟩
  · obtain ⟨n, -, source, target, heq⟩ := of_mem_idsMade hmem
    exact edgeId_ne_defaultStartEdgeId n source target heq.symm
  · rw [idsMade_append, idsMade_nextEdgeId]
  · intro hnames source target condition id linkId hid e
    have hknows : a.KnowsIds := knowsIds_of_made hnames
    constructor
    · intro hsource htarget
      have hends := missingEnd?_eq_none.2 ⟨hsource, htarget⟩
      have hmade : a.perform (.connect source target condition id linkId) = _ :=
        callConnect_made hends condition hid linkId
      refine ⟨edgeId (a.made + 1) source target, ?_,
        next_notMem_idsMade fresh requests source target,
        edgeId_ne_defaultStartEdgeId _ source target, hknows.next_notMem source target, ?_⟩
      · rw [hmade]
        exact gives_pure.2 rfl
      · rw [after, hmade]
        exact hknows.edges_addMade e
    · intro hmissing
      exact edges_after_of_missing (missingEnd?_of_missing hmissing) condition id linkId

/-- Requests with nodes whose ids look like edge ids and begin alike. -/
def confusing : List Request := [
  .putNode "edge_1_edge_1_e_to_edge_1_e" { kind := .finish, edgeOrder := ["edge_1_x_to_y"] },
  .putNode "edge_1_e_to" { kind := .finish },
  .call (.connectStart (some "edge_1_e_to")),
  .call (.connect "edge_1_e_to" "edge_1_edge_1_e_to_edge_1_e" .unconditional none none),
  .call (.nextEdgeId "edge_1_e" "edge_1_e")]

/-- The next connection adds an edge to the two that are there. -/
theorem made_ids_never_repeat_confusing :
    let fresh := begin Workflow.defaultStartId Settings.defaultStartEdgeId true
    let a := fresh.afterRequests confusing
    fresh.idsMade confusing = ["edge_1_edge_1_e_to_edge_1_e", "edge_2_edge_1_e_to_edge_1_e"] ∧
    Table.names a.edges = ["start_to_entry", "edge_1_edge_1_e_to_edge_1_e"] ∧
    let call : Call :=
      .connect "edge_1_e_to" "edge_1_edge_1_e_to_edge_1_e" .unconditional (some "") none
    ∃ new, (a.perform call).2.Gives (some new) ∧
      Table.names (a.after call).edges =
        ["start_to_entry", "edge_1_edge_1_e_to_edge_1_e", new] := by
  intro fresh a
  have hmade : fresh.idsMade confusing =
      ["edge_1_edge_1_e_to_edge_1_e", "edge_2_edge_1_e_to_edge_1_e"] := by decide +kernel
  have hnames : Table.names a.edges = ["start_to_entry", "edge_1_edge_1_e_to_edge_1_e"] := by
    decide +kernel
  obtain ⟨-, -, -, hnew⟩ := made_ids_never_repeat Workflow.defaultStartId
    Settings.defaultStartEdgeId true confusing
  have hknown : ∀ id ∈ Table.names a.edges,
      id ∈ fresh.idsMade confusing ∨ id = Settings.defaultStartEdgeId := by
    rw [hmade, hnames]
    decide
  obtain ⟨hadds, -⟩ := hnew hknown "edge_1_e_to" "edge_1_edge_1_e_to_edge_1_e" .unconditional
    (some "") none rfl
  obtain ⟨new, hgives, -, -, -, hedges⟩ := hadds (by decide +kernel) (by decide +kernel)
  refine ⟨hmade, hnames, new, hgives, ?_⟩
  rw [hedges, Table.names_append]
  exact congrArg (· ++ [new]) hnames

end CallFlow.Assembly
