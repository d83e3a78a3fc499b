import CallFlow.Proofs.Compiling
import CallFlow.Proofs.Shapes

/-!
# Workflows Without Their Prompts

The prompt of a scripted node is text for the runtime: nothing that assembles a workflow or validates
it reads a prompt. So taking the prompts out of the compiled steps, and the texts of stored forms
out of their registrations, comes to the same as taking them out of the result.

## Sections

1. Nodes
2. Assemblies
3. Compiled steps
4. Workflows
-/

namespace CallFlow

/-! ## §1 Nodes -/

/-- What a node does, with another prompt if it has one. -/
def NodeKind.withPrompt (prompt : String) : NodeKind → NodeKind
  | script s => script { s with prompt }
  | kind => kind

namespace Node

/-- The node with another prompt, if it has one. -/
def withPrompt (n : Node) (prompt : String) : Node := { n with kind := n.kind.withPrompt prompt }

/-- The node without its prompt. -/
def mute (n : Node) : Node := n.withPrompt ""

variable (n : Node)

@[simp] theorem isStart_mute : n.mute.kind.isStart = n.kind.isStart := by
  obtain ⟨position, edgeOrder, kind⟩ := n
  cases kind <;> rfl

@[simp] theorem isTerminal_mute : n.mute.kind.isTerminal = n.kind.isTerminal := by
  obtain ⟨position, edgeOrder, kind⟩ := n
  cases kind <;> rfl

variable {n}

/-- Another prompt that does not change what a node does does not change the node. -/
theorem withPrompt_of_kind {prompt : String} (h : (n.withPrompt prompt).kind = n.kind) :
    n.withPrompt prompt = n := by
  show { n with kind := (n.withPrompt prompt).kind } = n
  rw [h]

theorem withPrompt_of_isStart (h : n.kind.isStart = true) (prompt : String) :
    n.withPrompt prompt = n := by
  apply withPrompt_of_kind
  unfold withPrompt
  cases hkind : n.kind <;> simp_all [NodeKind.isStart, NodeKind.withPrompt]

/-- Nodes that are equal without their prompts differ in their prompts only. -/
theorem exists_prompt_of_mute {m : Node} (h : m.mute = n.mute) :
    ∃ prompt, m = n.withPrompt prompt := by
  obtain ⟨position, edgeOrder, kind⟩ := n
  obtain ⟨position', edgeOrder', kind'⟩ := m
  simp only [mute, withPrompt, mk.injEq] at h ⊢
  obtain ⟨rfl, rfl, hkind⟩ := h
  simp only [true_and]
  cases kind <;> cases kind' <;> simp_all [NodeKind.withPrompt]
  -- Two scripts are left, which differ in their prompts.
  rename_i s s'
  obtain ⟨label, override, prompt, toolIds, knowledge, config⟩ := s
  obtain ⟨label', override', prompt', toolIds', knowledge', config'⟩ := s'
  simp_all

end Node

/-! ## §2 Assemblies -/

/-- The compiled step without its prompt, and without the texts of its form. -/
def Compiled.mute (c : Compiled) : Compiled :=
  { c with
    node := c.node.map Node.mute
    form := c.form.map fun r => { r with formName := "", fields := [] } }

namespace Assembly

/-- The assembly without prompts. -/
def mute (a : Assembly) : Assembly := { a with nodes := Table.mapValues Node.mute a.nodes }

variable (a : Assembly)

theorem hold_mute (id : String) (c : Compiled) : (a.hold id c).mute = a.mute.hold id c.mute := by
  cases hnode : c.node with
  | none => simp [hold, Compiled.mute, hnode]
  | some node =>
    by_cases hid : id = a.startNodeId
    · simp [hold, Compiled.mute, hnode, hid, mute]
    · simp [hold, Compiled.mute, hnode, hid, mute, Table.mapValues_set]

theorem addEdge_mute (id : String) (e : Edge) : (a.addEdge id e).mute = a.mute.addEdge id e := by
  -- The list of edges and the prompt are different parts of a node.
  have hnodes := Table.mapValues_modify Node.mute a.nodes e.source
    (g := fun n => { n with edgeOrder := n.edgeOrder ++ [id] }) fun _ => rfl
  simp only [addEdge, mute, hnodes]

theorem addGiven_mute (id : String) (e : Edge) : (a.addGiven id e).mute = a.mute.addGiven id e := by
  unfold addGiven
  split
  · exact addEdge_mute { a with made := a.made + 1 } _ e
  · exact addEdge_mute a id e

theorem has_mute (id : String) : Table.has a.mute.nodes id = Table.has a.nodes id :=
  Table.has_congr (Table.names_mapValues ..) id

theorem enter_mute (entry : Option String) : (a.enter entry).mute = a.mute.enter entry := by
  cases entry with
  | none => rfl
  | some id =>
    simp only [enter, has_mute]
    split
    · exact addGiven_mute a _ _
    · rfl

theorem place_mute (c : Flow.Connection) : (a.place c).mute = a.mute.place c := by
  have hlost : a.mute.lost? = a.lost? := lost?_congr (Table.names_mapValues ..)
  unfold place
  rw [hlost]
  cases a.lost? c with
  | some d => rfl
  | none => exact addEdge_mute { a with made := a.made + 1 } _ _

theorem placeAll_mute (cs : List Flow.Connection) : (a.placeAll cs).mute = a.mute.placeAll cs := by
  induction cs generalizing a with
  | nil => rfl
  | cons c rest ih => rw [placeAll_cons, ih, place_mute, placeAll_cons]

/-- What is held depends on the ids and on the muted results alone, apart from prompts. -/
theorem holdAll_mute {a b : Assembly} (hab : b.mute = a.mute) {l l' : List (Step × Compiled)}
    (h : List.Forall₂ (fun q q' => q'.1.id = q.1.id ∧ q'.2.mute = q.2.mute) l l') :
    (b.holdAll l').mute = (a.holdAll l).mute := by
  induction h generalizing a b with
  | nil => exact hab
  | @cons q q' rest rest' hq _ ih =>
    apply ih
    rw [hold_mute, hold_mute, hab, hq.1, hq.2]

end Assembly

/-! ## §3 Compiled steps -/

/-- The facts without the texts of forms. -/
def Facts.mute (facts : Facts) : Facts :=
  { facts with forms := facts.forms.map fun r => { r with formName := "", fields := [] } }

theorem Facts.absorb_mute (facts : Facts) (c : Compiled) :
    (facts.absorb c).mute = facts.mute.absorb c.mute := by
  cases hform : c.form <;> simp [absorb, mute, Compiled.mute, hform]

theorem Facts.foldl_absorb_mute {l l' : List Compiled}
    (h : List.Forall₂ (fun c c' => c'.mute = c.mute) l l') {facts facts' : Facts}
    (hfacts : facts'.mute = facts.mute) :
    (l'.foldl absorb facts').mute = (l.foldl absorb facts).mute := by
  induction h generalizing facts facts' with
  | nil => exact hfacts
  | @cons c c' rest rest' hc _ ih =>
    apply ih
    rw [absorb_mute, absorb_mute, hfacts, hc]

/-! ## §4 Workflows -/

namespace Workflow

/-- The workflow without prompts. -/
def mute (w : Workflow) : Workflow := { w with nodes := Table.mapValues Node.mute w.nodes }

/-- A node keeps its place in the workflow without its prompt. -/
theorem keepsShape_mute : KeepsShape Node.mute id where
  isStart := Node.isStart_mute
  isTerminal := Node.isTerminal_mute
  edgeOrder _ := rfl
  source _ := rfl
  target _ := rfl

variable (w : Workflow)

theorem mute_eq_mapParts : w.mute = w.mapParts Node.mute id := by
  have hedges : Table.mapValues id w.edges = w.edges := List.map_id _
  rw [mapParts, hedges, mute]

theorem names_mute : Table.names w.mute.nodes = Table.names w.nodes := Table.names_mapValues ..

theorem startIds_mute : w.mute.startIds = w.startIds := by
  rw [mute_eq_mapParts, startIds_mapParts w keepsShape_mute]

/-- **Prompts have no say in validation.** -/
theorem validate_mute (startId : String) : w.mute.validate startId = w.validate startId := by
  rw [mute_eq_mapParts, validate_mapParts w keepsShape_mute]

end Workflow

/-- The result without prompts, and without the texts of forms. -/
def Compilation.mute (c : Compilation) : Compilation :=
  { c with workflow := c.workflow.mute, facts := c.facts.mute }

/-- Results whose workflows agree without prompts have the same findings. -/
theorem Compilation.validate_congr {c d : Compilation} (h : d.workflow.mute = c.workflow.mute) :
    d.validate = c.validate := by
  have hstart : d.startId = c.startId := by
    rw [startId, ← Workflow.startIds_mute, h, Workflow.startIds_mute, startId]
  rw [validate, hstart, ← Workflow.validate_mute, h, Workflow.validate_mute, validate]

end CallFlow
