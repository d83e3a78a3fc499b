import CallFlow.Proofs.Tables
import CallFlow.Workflow.Report

/-!
# Workflows of the Same Shape

The findings on a workflow depend on its shape alone: on the ids of its nodes and edges, on the
nodes that its edges join, on the nodes where conversations begin or may end, and on the edges that
its nodes list. So the findings stay the same when every node and every edge is changed in a way that
keeps all this.

## Sections

1. Changes that keep the shape
2. Findings
-/

namespace CallFlow.Workflow

/-! ## §1 Changes that keep the shape -/

/-- The workflow with every node and every edge changed. -/
def mapParts (f : Node → Node) (g : Edge → Edge) (w : Workflow) : Workflow where
  nodes := Table.mapValues f w.nodes
  edges := Table.mapValues g w.edges

/-- The changes keep what findings depend on. -/
structure KeepsShape (f : Node → Node) (g : Edge → Edge) : Prop where
  isStart : ∀ n, (f n).kind.isStart = n.kind.isStart
  isTerminal : ∀ n, (f n).kind.isTerminal = n.kind.isTerminal
  edgeOrder : ∀ n, (f n).edgeOrder = n.edgeOrder
  source : ∀ e, (g e).source = e.source
  target : ∀ e, (g e).target = e.target

variable {f : Node → Node} {g : Edge → Edge} (w : Workflow)

theorem has_mapParts (id : String) : Table.has (w.mapParts f g).nodes id = Table.has w.nodes id :=
  Table.has_congr (Table.names_mapValues f w.nodes) id

variable (h : KeepsShape f g)

include h

theorem startIds_mapParts : (w.mapParts f g).startIds = w.startIds := by
  simp [startIds, mapParts, Table.mapValues, List.filter_map, Function.comp_def, h.isStart]

theorem startsAt_mapParts (id : String) : (w.mapParts f g).startsAt id = w.startsAt id := by
  unfold startsAt mapParts
  rw [Table.get?_mapValues]
  cases Table.get? w.nodes id with
  | none => rfl
  | some n => exact h.isStart n

theorem leads_mapParts : (w.mapParts f g).leads = w.leads := by
  funext source target
  simp [leads, mapParts, Table.mapValues, List.any_map, Function.comp_def, h.source, h.target]

/-- A node lists the same edges as before, each of them changed. -/
theorem outgoing_mapParts (id : String) :
    (w.mapParts f g).outgoing id = (w.outgoing id).map g := by
  unfold outgoing mapParts
  rw [Table.get?_mapValues]
  cases Table.get? w.nodes id with
  | none => rfl
  | some n =>
    simp only [Option.map_some, h.edgeOrder, List.map_filterMap, Table.get?_mapValues]

/-! ## §2 Findings -/

theorem edgeErrors_mapParts (id : String) (e : Edge) :
    (w.mapParts f g).edgeErrors id (g e) = w.edgeErrors id e := by
  simp only [edgeErrors, has_mapParts, h.source, h.target]

theorem errors_mapParts (startId : String) :
    (w.mapParts f g).errors startId = w.errors startId := by
  have hlength : (w.mapParts f g).nodes.length = w.nodes.length := List.length_map ..
  have hedges : ((w.mapParts f g).edges.flatMap fun e => (w.mapParts f g).edgeErrors e.1 e.2) =
      w.edges.flatMap fun e => w.edgeErrors e.1 e.2 := by
    show (Table.mapValues g w.edges).flatMap _ = _
    rw [Table.mapValues, List.flatMap_map]
    simp only [edgeErrors_mapParts w h]
  rw [errors, hlength, startsAt_mapParts w h, hedges, errors]

theorem unreachable_mapParts (startId : String) :
    (w.mapParts f g).unreachable startId = w.unreachable startId := by
  have hnames : Table.names (w.mapParts f g).nodes = Table.names w.nodes :=
    Table.names_mapValues f w.nodes
  rw [unreachable, reachableFrom, hnames, has_mapParts, leads_mapParts w h, unreachable,
    reachableFrom]

theorem deadEnds_mapParts (startId : String) :
    (w.mapParts f g).deadEnds startId = w.deadEnds startId := by
  simp [deadEnds, mapParts, Table.mapValues, List.filter_map, Function.comp_def, h.isTerminal,
    h.edgeOrder]

/-- **The findings depend on the shape alone.** -/
theorem validate_mapParts (startId : String) :
    (w.mapParts f g).validate startId = w.validate startId := by
  rw [validate, errors_mapParts w h, warnings, unreachable_mapParts w h, deadEnds_mapParts w h,
    validate, warnings]

end CallFlow.Workflow
