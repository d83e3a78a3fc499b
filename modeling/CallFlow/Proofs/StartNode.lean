import CallFlow.Proofs.Connections

/-!
# The Start Node and Its Edges

The start node is put into every workflow, and the edge to the entry is all that is meant to be
attached to it. Its id is an id like any other, though. A step with this id is kept out of the
workflow, but a link with an end of this id is connected to the start node; and such a step may be
chosen as the entry, which connects the start node to itself. In a flow that keeps clear of the id
the start node stands alone.

## Sections

1. The first edge and later ones
2. What is attached to the start
-/

namespace CallFlow.Flow

open Attempt

variable {f : Flow}

/-! ## §1 The first edge and later ones -/

namespace Passes

variable (p : Passes f) (s : Settings)

/-- Under the id of the settings there is the first edge, or none. -/
theorem get?_startEdge (hs : ¬ Assembly.LooksGenerated s.startEdgeId)
    (hne : s.startEdgeId.isEmpty = false) :
    Table.get? (p.result s).workflow.edges s.startEdgeId =
      p.entry.stepId.map fun id => (startEdge s id).2 := by
  rw [p.edges_result s hs hne, p.edges_entered s hne]
  cases p.entry.stepId with
  | some id => simp [startEdge, Table.get?]
  | none =>
    -- All other ids are made, and the given one does not look like them.
    rw [Option.map_none, Option.map_none, Option.toList_none, List.nil_append,
      ← Option.not_isSome_iff_eq_none]
    intro hfound
    obtain ⟨e, he, hid⟩ := List.mem_map.1 ((Table.has_iff_mem_names ..).1 hfound)
    obtain ⟨q, -, rfl⟩ := List.mem_map.1 he
    exact Assembly.edgeId_ne_of_not_looksGenerated hs _ _ _ hid

/-- Edges under other ids are those that links make. -/
theorem exists_later_iff (hs : ¬ Assembly.LooksGenerated s.startEdgeId)
    (hne : s.startEdgeId.isEmpty = false) {a b : String} :
    (∃ e ∈ (p.result s).workflow.edges, e.1 ≠ s.startEdgeId ∧ e.2.source = a ∧ e.2.target = b) ↔
      f.Connects s.startNodeId a b := by
  rw [← p.exists_made_iff s, ← p.later_edges_result s hs hne]
  simp only [List.mem_filter, decide_eq_true_eq, and_assoc]

/-! ## §2 What is attached to the start -/

/-- An edge leads to the start just in case it is the edge to an entry of this id, or a link lands
there. -/
theorem exists_into_start_iff (hs : ¬ Assembly.LooksGenerated s.startEdgeId)
    (hne : s.startEdgeId.isEmpty = false) :
    (∃ e ∈ (p.result s).workflow.edges, e.2.target = s.startNodeId) ↔
      p.entry.stepId = some s.startNodeId ∨ ∃ a, f.Connects s.startNodeId a s.startNodeId := by
  constructor
  · rintro ⟨e, he, htarget⟩
    rcases (p.exists_edge_iff s hs hne).1 ⟨e, he, rfl, htarget⟩ with ⟨-, hid⟩ | hconnects
    · exact Or.inl hid
    · exact Or.inr ⟨_, hconnects⟩
  · rintro (hid | ⟨a, hconnects⟩)
    · obtain ⟨e, he, -, htarget⟩ := (p.exists_edge_iff s hs hne).2 (Or.inl ⟨rfl, hid⟩)
      exact ⟨e, he, htarget⟩
    · obtain ⟨e, he, -, htarget⟩ := (p.exists_edge_iff s hs hne).2 (Or.inr hconnects)
      exact ⟨e, he, htarget⟩

/-- Besides the first edge, those that leave the start are made from links with this source. -/
theorem exists_out_of_start_iff (hs : ¬ Assembly.LooksGenerated s.startEdgeId)
    (hne : s.startEdgeId.isEmpty = false) :
    (∃ e ∈ (p.result s).workflow.edges, e.1 ≠ s.startEdgeId ∧ e.2.source = s.startNodeId) ↔
      ∃ b, f.Connects s.startNodeId s.startNodeId b := by
  constructor
  · rintro ⟨e, he, hlater, hsource⟩
    exact ⟨_, (p.exists_later_iff s hs hne).1 ⟨e, he, hlater, hsource, rfl⟩⟩
  · rintro ⟨b, hconnects⟩
    obtain ⟨e, he, hlater, hsource, -⟩ := (p.exists_later_iff s hs hne).2 hconnects
    exact ⟨e, he, hlater, hsource⟩

end Passes

/-- **What is attached to the start node.** Under the id of the settings there is the edge to the
entry. An edge leads to the start just in case the entry has its id, or a link lands on its id; and
an edge besides the first leaves the start just in case a link with this source lands on a node.
Without steps and links of this id the start is isolated from everything but its entry. -/
theorem start_attachments (f : Flow) (s : Settings) (hs : ¬ Assembly.LooksGenerated s.startEdgeId)
    (hne : s.startEdgeId.isEmpty = false) {c : Compilation} (h : f.Returns s c) :
    (Table.get? c.workflow.edges s.startEdgeId = c.entryId.map fun id =>
      { source := s.startNodeId, target := id, condition := .unconditional }) ∧
    ((∃ e ∈ c.workflow.edges, e.2.target = s.startNodeId) ↔
      c.entryId = some s.startNodeId ∨ ∃ a, f.Connects s.startNodeId a s.startNodeId) ∧
    ((∃ e ∈ c.workflow.edges, e.1 ≠ s.startEdgeId ∧ e.2.source = s.startNodeId) ↔
      ∃ b, f.Connects s.startNodeId s.startNodeId b) ∧
    (f.KeepsClear s.startNodeId →
      (∀ e ∈ c.workflow.edges, e.2.target ≠ s.startNodeId) ∧
      ∀ e ∈ c.workflow.edges, e.2.source = s.startNodeId → e.1 = s.startEdgeId) := by
  obtain ⟨p, hp⟩ := h.passes
  have hworkflow : c.workflow = (p.result s).workflow := by rw [hp]
  have hentry : c.entryId = p.entry.stepId := by rw [hp]; rfl
  have hinto : (∃ e ∈ c.workflow.edges, e.2.target = s.startNodeId) ↔
      c.entryId = some s.startNodeId ∨ ∃ a, f.Connects s.startNodeId a s.startNodeId := by
    rw [hworkflow, hentry]
    exact p.exists_into_start_iff s hs hne
  have hout : (∃ e ∈ c.workflow.edges, e.1 ≠ s.startEdgeId ∧ e.2.source = s.startNodeId) ↔
      ∃ b, f.Connects s.startNodeId s.startNodeId b := by
    rw [hworkflow]
    exact p.exists_out_of_start_iff s hs hne
  refine ⟨?_, hinto, hout, fun hclear => ⟨fun e he htarget => ?_, fun e he hsource => ?_⟩⟩
  · rw [hworkflow, hentry]
    exact p.get?_startEdge s hs hne
  · -- Neither the entry nor a link has the id.
    rcases hinto.1 ⟨e, he, htarget⟩ with hid | ⟨a, hconnects⟩
    · exact hclear.ne_of_hasActionable
        (hasActionable_of_entry p.entry_gives (hentry ▸ hid)) rfl
    · obtain ⟨-, l, hl, hend⟩ := hconnects.ends
      exact (hclear.links l hl).2 hend
  · -- Another edge would be made from a link that has the id.
    by_contra hlater
    obtain ⟨b, hconnects⟩ := hout.1 ⟨e, he, hlater, hsource⟩
    obtain ⟨⟨l, hl, hend⟩, -⟩ := hconnects.ends
    exact (hclear.links l hl).1 hend

/-- A flow with a link to an id that no step has, but the start node. -/
def homeward : Flow where
  steps := [{ id := "a", type := some "message" }]
  links := [{ id := "e1", source := "a", target := Workflow.defaultStartId }]

/-- The link home is connected to the start node, and the crossroads leave the start alone. -/
theorem start_attachments_homeward :
    ¬ Assembly.LooksGenerated Settings.defaultStartEdgeId ∧
      Settings.defaultStartEdgeId.isEmpty = false ∧
      (∃ c, homeward.Returns {} c ∧
        ∃ e ∈ c.workflow.edges, e.2.target = Workflow.defaultStartId) ∧
      crossroads.KeepsClear Workflow.defaultStartId ∧
      ∃ c, crossroads.Returns {} c ∧
        ∀ e ∈ c.workflow.edges, e.2.target ≠ Workflow.defaultStartId := by
  have hid : ¬ Assembly.LooksGenerated Settings.defaultStartEdgeId := by decide +kernel
  have hclear : crossroads.KeepsClear Workflow.defaultStartId := ⟨by decide, by decide⟩
  refine ⟨hid, rfl, ?_, hclear, ?_⟩
  · obtain ⟨c, hgives⟩ := gives_of_succeeds (a := homeward.compile {}) (by decide +kernel)
    have hreturns : homeward.Returns {} c := .plain hgives
    have hfollowed : homeward.Followed
        { id := "e1", source := "a", target := Workflow.defaultStartId } :=
      ⟨by decide +kernel, by decide +kernel, by decide +kernel⟩
    have hconnects : homeward.Connects Workflow.defaultStartId "a" Workflow.defaultStartId :=
      ⟨⟨_, List.mem_singleton_self _, hfollowed, rfl, by decide +kernel, Or.inl rfl⟩,
        Or.inr (by decide +kernel), Or.inl rfl⟩
    have hattached := (start_attachments homeward {} hid rfl hreturns).2.1
    exact ⟨c, hreturns, hattached.2 (Or.inr ⟨"a", hconnects⟩)⟩
  · obtain ⟨c, hgives⟩ := gives_of_succeeds (a := crossroads.compile {}) (by decide +kernel)
    have hreturns : crossroads.Returns {} c := .plain hgives
    exact ⟨c, hreturns, ((start_attachments crossroads {} hid rfl hreturns).2.2.2 hclear).1⟩

/-- A link to the id of the start node is attached to that node. -/
theorem homeward_attached :
    ¬ Assembly.LooksGenerated Settings.defaultStartEdgeId ∧
      Settings.defaultStartEdgeId.isEmpty = false ∧
      ∃ c, homeward.Returns {} c ∧
        ∃ e ∈ c.workflow.edges, e.2.target = Workflow.defaultStartId := by
  obtain ⟨c, hgives⟩ := gives_of_succeeds (a := homeward.compile {}) (by decide +kernel)
  have hedges : (homeward.compile {}).outcome.map
      (fun c => c.workflow.edges.any fun e => e.2.target = Workflow.defaultStartId) = .ok true := by
    decide +kernel
  rw [hgives] at hedges
  obtain ⟨e, he, htarget⟩ := List.any_eq_true.1 (Except.ok.inj hedges)
  exact ⟨by decide +kernel, rfl, c, .plain hgives, e, he, of_decide_eq_true htarget⟩

end CallFlow.Flow
