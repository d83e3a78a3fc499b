import CallFlow.Proofs.Outcome
import CallFlow.Step.Compile

/-!
# The Nodes of Compiled Steps

Every category has its own way to compile a step, but all of them agree on the frame of the
node: it lies where the step lies, it lists no edges yet, and it is never a start node. What kind
of node it is depends on the category alone. The facts that come with the node are facts about
it: they name the tools that it refers to, and say whether it hands the call over. Only
structural steps, which are triggers and branches, have no node, and they bring no facts either.

The categories are handled in eight ways, and §2 says what a step comes to in each of them. All
else about compiled steps follows from this by cases.

## Sections

1. Ways to handle a category
2. What steps come to
3. Nodes with their facts
4. Nodes of steps
-/

namespace CallFlow

open Attempt

/-! ## §1 Ways to handle a category -/

/-- The ways in which steps are compiled. -/
inductive Handling where
  /-- Steps that have no node. -/
  | structural
  /-- Steps that speak from a script and collect no form. -/
  | speech
  | form
  | phoneTransfer
  | agentTransfer
  | ending
  /-- Steps that call a service. -/
  | service
  /-- Steps that play a recording. -/
  | recording
  deriving DecidableEq

/-- The type of node that is made in some way. -/
def Handling.nodeType : Handling → String
  | structural | speech | form => "override_agent"
  | phoneTransfer => "phone_number"
  | agentTransfer => "standalone_agent"
  | ending => "end"
  | service | recording => "tool"

namespace Category

/-- The type of node that the steps of a category have. -/
def nodeType (c : Category) : String :=
  if c.isTerminal then "end"
  else if c.isPhoneTransfer then "phone_number"
  else if c.isAgentTransfer then "standalone_agent"
  else if c.isWebhook || c = .playAudio then "tool"
  else "override_agent"

/-- How the steps of a category are compiled. -/
def handling : Category → Handling
  | start | trigger | condition => .structural
  | message | greeting | question | appointment | delay | wait | pause | unknown => .speech
  | form | formSubmission | collectInfo => .form
  | transfer | transferCall | phoneTransfer => .phoneTransfer
  | agentTransfer | transferAgent => .agentTransfer
  | finish | endCall | hangup => .ending
  | webhook | apiCall | tool => .service
  | playAudio => .recording

/-- No category has steps with a start node. -/
theorem nodeType_ne_start (c : Category) : c.nodeType ≠ NodeKind.start.tag := by
  cases c <;> decide

theorem nodeType_eq (c : Category) : c.nodeType = c.handling.nodeType := by
  cases c <;> rfl

theorem isStructural_iff {c : Category} : c.isStructural = true ↔ c.handling = .structural := by
  cases c <;> decide

theorem isForm_iff {c : Category} : c.isForm = true ↔ c.handling = .form := by
  cases c <;> decide

theorem eq_playAudio_iff {c : Category} : c = .playAudio ↔ c.handling = .recording := by
  cases c <;> decide

end Category

namespace Step

/-! ## §2 What steps come to -/

/-- What a form says first. -/
def formIntroduction (s : Step) : String :=
  s.settingText ["message", "introMessage"] "I need to collect some information from you."

/-- The name of a form. -/
def formTitle (s : Step) : String := s.settingText ["formName"] Prompt.defaultFormName

/-- What a form with the fields is compiled to. It is registered if it has an id. -/
def compiledForm (s : Step) (fields : List FormField) : Compiled :=
  let formId := s.setting "formId"
  let prompt := Prompt.collectForm s.formIntroduction s.formTitle fields
  if formId.isGiven then
    { node := some (s.scriptNode prompt [formToolId formId.display])
      hasForm := true
      form := some { formId := formId.display, formName := s.formTitle, fields }
      toolIds := [formToolId formId.display] }
  else { node := some (s.scriptNode prompt []), hasForm := true }

/-- **Compiling a form** comes down to taking its fields. -/
theorem gives_compileForm {s : Step} {c : Compiled} :
    s.compileForm.Gives c ↔ ∃ fields, s.formFields.Gives fields ∧ c = s.compiledForm fields := by
  unfold compileForm compiledForm
  dsimp only
  rw [gives_bind]
  refine exists_congr fun fields => and_congr_right fun _ => ?_
  rw [gives_debug_bind]
  split <;> exact gives_pure

theorem node_compiledForm (s : Step) (fields : List FormField) :
    ∃ toolIds, (s.compiledForm fields).node = some (s.scriptNode
      (Prompt.collectForm s.formIntroduction s.formTitle fields) toolIds) := by
  unfold compiledForm
  dsimp only
  split <;> exact ⟨_, rfl⟩

/-- What may come of compiling a step, one case for each way to handle it. -/
inductive ComesTo (s : Step) : Compiled → Prop where
  | nothing (h : s.category.handling = .structural) : s.ComesTo {}
  | speech (h : s.category.handling = .speech) (prompt : String) (hasAppointment : Bool) :
      s.ComesTo { node := some (s.scriptNode prompt []), hasAppointment }
  | unnamedForm (h : s.category.handling = .form) (hid : (s.setting "formId").isGiven = false)
      (prompt : String) : s.ComesTo { node := some (s.scriptNode prompt []), hasForm := true }
  | namedForm (h : s.category.handling = .form) (hid : (s.setting "formId").isGiven = true)
      (prompt formName : String) (fields : List FormField) :
      s.ComesTo {
        node := some (s.scriptNode prompt [formToolId (s.setting "formId").display])
        hasForm := true
        form := some { formId := (s.setting "formId").display, formName, fields }
        toolIds := [formToolId (s.setting "formId").display] }
  | phoneTransfer (h : s.category.handling = .phoneTransfer) (number : String)
      (style : TransferStyle) :
      s.ComesTo { node := some (s.plainNode (.phoneTransfer number style)), hasTransfer := true }
  | agentTransfer (h : s.category.handling = .agentTransfer) (agentId : String) (delayMs : Int)
      (firstMessage : Bool) :
      s.ComesTo { node := some (s.plainNode (.agentTransfer agentId delayMs firstMessage)) }
  | ending (h : s.category.handling = .ending) :
      s.ComesTo { node := some (s.plainNode .finish) }
  | service (h : s.category.handling = .service) (toolId : String)
      (webhook : Option WebhookRegistration) (hid : ∀ w, webhook = some w → w.toolId = toolId) :
      s.ComesTo { node := some (s.plainNode (.tools [toolId])), webhook, toolIds := [toolId] }
  | recording (h : s.category.handling = .recording) (audio : AudioRegistration)
      (hid : audio.stepId = s.id) :
      s.ComesTo {
        node := some (s.plainNode (.tools [audioToolId s.id]))
        audio := some audio
        toolIds := [audioToolId s.id] }

variable {s : Step} {c : Compiled}

theorem compileMessage_comesTo (hs : s.category.handling = .speech)
    (h : s.compileMessage.Gives c) : s.ComesTo c := by
  simp only [compileMessage, gives_debug_bind, gives_pure] at h
  subst h
  exact .speech hs _ false

theorem compileQuestion_comesTo (hs : s.category.handling = .speech)
    (h : s.compileQuestion.Gives c) : s.ComesTo c := by
  simp only [compileQuestion, gives_debug_bind, gives_pure] at h
  subst h
  exact .speech hs _ false

theorem compileDelay_comesTo (hs : s.category.handling = .speech)
    (h : s.compileDelay.Gives c) : s.ComesTo c := by
  simp only [compileDelay, gives_pure] at h
  subst h
  exact .speech hs _ false

theorem compileUnrecognized_comesTo (hs : s.category.handling = .speech)
    (h : s.compileUnrecognized.Gives c) : s.ComesTo c := by
  simp only [compileUnrecognized, gives_info_bind, gives_pure] at h
  subst h
  exact .speech hs _ false

theorem compileAppointment_comesTo (hs : s.category.handling = .speech)
    (h : s.compileAppointment.Gives c) : s.ComesTo c := by
  simp only [compileAppointment, gives_pure] at h
  subst h
  exact .speech hs _ true

theorem compileForm_comesTo (hs : s.category.handling = .form) (h : s.compileForm.Gives c) :
    s.ComesTo c := by
  obtain ⟨fields, -, rfl⟩ := gives_compileForm.1 h
  unfold compiledForm
  dsimp only
  split
  · rename_i hid
    exact .namedForm hs hid _ _ fields
  · rename_i hid
    exact .unnamedForm hs (Bool.eq_false_iff.2 hid) _

theorem compilePhoneTransfer_comesTo (hs : s.category.handling = .phoneTransfer)
    (h : s.compilePhoneTransfer.Gives c) : s.ComesTo c := by
  simp only [compilePhoneTransfer] at h
  -- A style of transfer that is not known is replaced, and the node is made all the same.
  split at h
  · simp only [pure_bind, gives_pure] at h
    subst h
    exact .phoneTransfer hs _ _
  · simp only [gives_warn_bind, pure_bind, gives_pure] at h
    subst h
    exact .phoneTransfer hs _ _

theorem compileAgentTransfer_comesTo (hs : s.category.handling = .agentTransfer)
    (h : s.compileAgentTransfer.Gives c) : s.ComesTo c := by
  simp only [compileAgentTransfer, gives_bind, gives_pure] at h
  obtain ⟨delay, -, h⟩ := h
  subst h
  exact .agentTransfer hs _ delay _

theorem compileEnd_comesTo (hs : s.category.handling = .ending) (h : s.compileEnd.Gives c) :
    s.ComesTo c := by
  simp only [compileEnd, gives_pure] at h
  subst h
  exact .ending hs

theorem compileWebhook_comesTo (hs : s.category.handling = .service)
    (h : s.compileWebhook.Gives c) : s.ComesTo c := by
  simp only [compileWebhook, gives_bind] at h
  obtain ⟨method, -, h⟩ := h
  -- The node is there even if the address of the service is missing.
  split at h
  · simp only [gives_bind, gives_pure] at h
    obtain ⟨-, -, h⟩ := h
    subst h
    refine .service hs _ (some _) fun w hw => ?_
    rw [← Option.some.inj hw]
  · simp only [gives_bind, gives_pure] at h
    obtain ⟨-, -, h⟩ := h
    subst h
    refine .service hs _ none fun w hw => ?_
    cases hw

/-- The recording is registered under the id of the step, and the node refers to its tool. -/
theorem compileAudio_comesTo (hs : s.category.handling = .recording)
    (h : s.compileAudio.Gives c) : s.ComesTo c := by
  simp only [compileAudio] at h
  split at h
  · -- There is nothing to play.
    simp only [gives_warn_bind, gives_pure] at h
    subst h
    exact .recording hs _ rfl
  · simp only [gives_pure] at h
    subst h
    exact .recording hs _ rfl

/-- **What comes of compiling a step** is decided by how its category is handled. -/
theorem comesTo_of_gives (h : s.compile.Gives c) : s.ComesTo c := by
  revert h
  unfold compile
  cases hc : s.category with
  | start | trigger | condition =>
    intro h
    rw [gives_pure.1 h]
    exact .nothing (by rw [hc]; rfl)
  | message => exact compileMessage_comesTo (by rw [hc]; rfl)
  | question => exact compileQuestion_comesTo (by rw [hc]; rfl)
  | appointment => exact compileAppointment_comesTo (by rw [hc]; rfl)
  | form | formSubmission | collectInfo => exact compileForm_comesTo (by rw [hc]; rfl)
  | delay | wait | pause => exact compileDelay_comesTo (by rw [hc]; rfl)
  | transfer | transferCall | phoneTransfer =>
    exact compilePhoneTransfer_comesTo (by rw [hc]; rfl)
  | agentTransfer | transferAgent => exact compileAgentTransfer_comesTo (by rw [hc]; rfl)
  | finish | endCall | hangup => exact compileEnd_comesTo (by rw [hc]; rfl)
  | webhook | apiCall | tool => exact compileWebhook_comesTo (by rw [hc]; rfl)
  | playAudio => exact compileAudio_comesTo (by rw [hc]; rfl)
  | greeting | unknown => exact compileUnrecognized_comesTo (by rw [hc]; rfl)

/-! ## §3 Nodes with their facts -/

/-- A node of the type has been made for the step, and the facts that come with it are true
of it. -/
structure Brings (s : Step) (type : String) (c : Compiled) (kind : NodeKind) : Prop where
  node : c.node = some (s.plainNode kind)
  tag : kind.tag = type
  toolIds : c.toolIds = kind.toolIds
  transfer : c.hasTransfer = decide (kind.tag = "phone_number")
  audio : ∀ a, c.audio = some a → a.stepId = s.id ∧ kind = .tools [audioToolId s.id]

/-- **A step has a node or is structural.** The type of the node is that of the category, and the
facts that come with it are true of it. -/
theorem ComesTo.brings_or_nothing (h : s.ComesTo c) :
    (s.category.handling = .structural ∧ c = {}) ∨
      s.category.handling ≠ .structural ∧ ∃ kind, s.Brings s.category.nodeType c kind := by
  rw [Category.nodeType_eq]
  cases h with
  | nothing h => exact Or.inl ⟨h, rfl⟩
  | recording h audio hid =>
    rw [h]
    refine Or.inr ⟨nofun, _, rfl, rfl, rfl, rfl, fun a ha => ?_⟩
    obtain rfl := Option.some.inj ha
    exact ⟨hid, rfl⟩
  | speech h | unnamedForm h | namedForm h | phoneTransfer h | agentTransfer h | ending h
  | service h =>
    rw [h]
    exact Or.inr ⟨nofun, _, rfl, rfl, rfl, rfl, nofun⟩

/-! ## §4 Nodes of steps -/

/-- A node has been made for the step, it lists no edges, and it is no start node. -/
def HasFreshNode (s : Step) (c : Compiled) : Prop :=
  ∃ kind : NodeKind, kind.isStart = false ∧ c.node = some (s.plainNode kind)

theorem isActionable_iff : s.isActionable = true ↔ s.category.handling ≠ .structural := by
  rw [isActionable, Bool.not_eq_true', ← Bool.not_eq_true, Category.isStructural_iff]

/-- **Every actionable step has a node**, whose type is that of its category, and the facts that
come with it are true of it. -/
theorem compile_brings (h : s.compile.Gives c) (hs : s.isActionable = true) :
    ∃ kind, s.Brings s.category.nodeType c kind := by
  rcases (comesTo_of_gives h).brings_or_nothing with ⟨hnone, -⟩ | ⟨-, hbrings⟩
  · exact absurd hnone (isActionable_iff.1 hs)
  · exact hbrings

theorem Brings.fresh {kind : NodeKind} (h : s.Brings s.category.nodeType c kind) :
    s.HasFreshNode c := by
  refine ⟨kind, ?_, h.node⟩
  cases kind with
  | start => exact absurd h.tag.symm (Category.nodeType_ne_start _)
  | _ => rfl

/-- Every actionable step has a fresh node. -/
theorem compile_fresh (h : s.compile.Gives c) (hs : s.isActionable = true) :
    s.HasFreshNode c := by
  obtain ⟨kind, hkind⟩ := compile_brings h hs
  exact hkind.fresh

/-- A structural step has no node, and no facts come with it. -/
theorem compile_structural (h : s.compile.Gives c) (hs : s.isActionable = false) : c = {} := by
  rcases (comesTo_of_gives h).brings_or_nothing with ⟨-, hnothing⟩ | ⟨hactionable, -⟩
  · exact hnothing
  · rw [isActionable_iff.2 hactionable] at hs
    cases hs

/-- Wherever a step has a node, it is a fresh one. -/
theorem hasFreshNode_of_node (h : s.compile.Gives c) (hnode : c.node.isSome = true) :
    s.HasFreshNode c := by
  cases hs : s.isActionable with
  | true => exact compile_fresh h hs
  | false =>
    rw [compile_structural h hs] at hnode
    exact absurd hnode Bool.false_ne_true

end Step

end CallFlow
