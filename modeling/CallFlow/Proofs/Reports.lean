import CallFlow.Proofs.Validity
import CallFlow.Proofs.Warnings

/-!
# What Reports Say

The validator is given workflows that nobody has compiled: edges may dangle, nodes may list edges
that do not exist, and there may be several start nodes, or none. Errors are about single nodes and
edges, so they can be read off the workflow. The warnings about unreached nodes are about all paths
at once, and there what a search visits has to be compared with the nodes that paths lead to.

## Sections

1. Paths
2. Errors
3. Warnings
4. Reports
-/

namespace CallFlow

/-- The type of a node tells whether conversations begin there. -/
theorem NodeKind.isStart_iff_tag (kind : NodeKind) :
    kind.isStart = true ↔ kind.tag = "start" := by
  cases kind <;> simp [isStart, tag]

namespace Workflow

open Relation

variable {w : Workflow} {root startId a b id : String}

/-! ## §1 Paths -/

/-- A path of no edges or more, each of which joins two nodes. -/
inductive Path (w : Workflow) : String → String → Prop where
  | here {a : String} (ha : Table.has w.nodes a = true) : Path w a a
  | step {a b : String} {e : String × Edge} (he : e ∈ w.edges) (hsource : e.2.source = a)
      (ha : Table.has w.nodes a = true) (htarget : Table.has w.nodes e.2.target = true)
      (rest : Path w e.2.target b) : Path w a b

theorem path_iff_leadsToNode :
    w.Path a b ↔ Table.has w.nodes a = true ∧ ReflTransGen w.LeadsToNode a b := by
  constructor
  · intro h
    induction h with
    | here ha => exact ⟨ha, .refl⟩
    | step he hsource ha htarget _ ih =>
      exact ⟨ha, .head ⟨⟨_, he, hsource, rfl⟩, htarget⟩ ih.2⟩
  · rintro ⟨ha, h⟩
    -- The first edge leads to a node, and the rest of the path begins there.
    induction h using ReflTransGen.head_induction_on with
    | refl => exact .here ha
    | head hedge _ ih =>
      obtain ⟨⟨e, he, hsource, rfl⟩, htarget⟩ := hedge
      exact .step he hsource ha htarget (ih htarget)

/-- **A search visits what paths lead to.** -/
theorem mem_reachableFrom_iff_path : id ∈ w.reachableFrom root ↔ w.Path root id := by
  rw [mem_reachableFrom, path_iff_leadsToNode]

instance (w : Workflow) (root id : String) : Decidable (w.Path root id) :=
  decidable_of_iff (id ∈ w.reachableFrom root) mem_reachableFrom_iff_path

/-- What is visited includes the root, unless that is no node. -/
theorem reachableFrom_eq_nil : w.reachableFrom root = [] ↔ Table.has w.nodes root = false := by
  rw [List.eq_nil_iff_forall_not_mem, ← Bool.not_eq_true]
  constructor
  · intro hnone hroot
    exact hnone root (mem_reachableFrom_iff_path.2 (.here hroot))
  · intro hroot id hid
    exact hroot (mem_reachableFrom.1 hid).1

/-! ## §2 Errors -/

theorem startsAt_iff :
    w.startsAt startId = true ↔
      ∃ n, Table.get? w.nodes startId = some n ∧ n.kind.tag = "start" := by
  unfold startsAt
  cases Table.get? w.nodes startId with
  | none => simp
  | some n => simp [NodeKind.isStart_iff_tag]

/-- **A workflow without errors** has two nodes or more, its start is a start node, and its edges
join nodes. -/
theorem errors_eq_nil :
    w.errors startId = [] ↔ 2 ≤ w.nodes.length ∧ w.startsAt startId = true ∧ w.Joined := by
  have hedges : (w.edges.flatMap fun e => w.edgeErrors e.1 e.2) = [] ↔ w.Joined := by
    rw [List.flatMap_eq_nil_iff]
    exact forall₂_congr fun e _ => edgeErrors_eq_nil
  unfold errors
  rw [List.append_eq_nil_iff, List.append_eq_nil_iff, hedges, and_assoc]
  -- Each of the other two texts is there unless its condition holds.
  refine and_congr ?_ (and_congr_left' ?_)
  · split
    · rename_i hfew
      exact iff_of_false (List.cons_ne_nil _ _) (by omega)
    · rename_i hmany
      exact iff_of_true rfl (by omega)
  · cases w.startsAt startId <;> simp

/-! ## §3 Warnings -/

theorem unreachable_eq :
    w.unreachable startId =
      (Table.names w.nodes).filter fun id => id ≠ startId ∧ ¬ w.Path startId id := by
  unfold unreachable
  refine List.filter_congr fun id _ => ?_
  rw [Bool.eq_iff_iff]
  simp [mem_reachableFrom_iff_path]

theorem deadEnds_eq :
    w.deadEnds startId =
      (w.nodes.filter fun n => n.1 ≠ startId ∧
        n.2.kind.tag ∉ ["end", "phone_number", "standalone_agent"] ∧
        n.2.edgeOrder = []).map Prod.fst := by
  unfold deadEnds
  congr 1
  refine List.filter_congr fun n _ => ?_
  have hterminal : n.2.kind.isTerminal = false ↔
      n.2.kind.tag ∉ ["end", "phone_number", "standalone_agent"] := by
    rw [← NodeKind.isTerminal_iff_tag, Bool.not_eq_true]
  rw [Bool.eq_iff_iff, decide_eq_true_iff, ← hterminal, ← List.isEmpty_iff]
  simp [and_assoc]

/-! ## §4 Reports -/

/-- **What a report says of any workflow.** Let the workflow be compiled or not. A search from a
root visits exactly the nodes to which a path leads from there, and nothing if the root is no node.
The workflow is valid just in case it has at least two nodes, the start is a start node, and both
ends of every edge are nodes. And the warnings are, in the order of the nodes: one for every node
besides the start that no path from the start leads to; and then one for every node besides the
start where a conversation may not end, and which lists no edge. -/
theorem report_by_paths (w : Workflow) :
    (∀ root id, id ∈ w.reachableFrom root ↔ w.Path root id) ∧
    (∀ root, w.reachableFrom root = [] ↔ Table.has w.nodes root = false) ∧
    ∀ startId,
      ((w.validate startId).valid = true ↔
        2 ≤ w.nodes.length ∧
        (∃ n, Table.get? w.nodes startId = some n ∧ n.kind.tag = "start") ∧
        ∀ e ∈ w.edges,
          Table.has w.nodes e.2.source = true ∧ Table.has w.nodes e.2.target = true) ∧
      (w.validate startId).warnings =
        ((Table.names w.nodes).filter fun id => id ≠ startId ∧ ¬ w.Path startId id).map
          (fun id => "Node " ++ id ++ " is not reachable from the start node") ++
        (w.nodes.filter fun n => n.1 ≠ startId ∧
            n.2.kind.tag ∉ ["end", "phone_number", "standalone_agent"] ∧
            n.2.edgeOrder = []).map
          fun n => "Node " ++ n.1 ++ " has no outgoing edges" := by
  refine ⟨fun root id => mem_reachableFrom_iff_path, fun root => reachableFrom_eq_nil,
    fun startId => ⟨?_, ?_⟩⟩
  · have hvalid : (w.validate startId).valid = true ↔ w.errors startId = [] := List.isEmpty_iff
    rw [hvalid, errors_eq_nil, startsAt_iff]
    exact Iff.rfl
  · show w.warnings startId = _
    rw [warnings_eq_texts, unreachable_eq, deadEnds_eq, List.map_map]
    rfl

end Workflow

end CallFlow
