import CallFlow.Proofs.RuleTexts
import CallFlow.Proofs.StepNodes

/-!
# Nodes and Facts Agree

What comes of a step is a node and the facts that the runtime has to be told about it, and the two
are put down side by side. They never drift apart: a fact is there just in case there is a node for
it, it names the tool that the node refers to, and a step without a node brings no facts. A scripted
node moreover has something to show, because every value that counts as given has a text.

## Sections

1. Texts of given values
2. Labels
3. Nodes and facts
-/

namespace CallFlow

open Attempt

/-! ## §1 Texts of given values -/

namespace Decimal

/-- Digits are written with a point or with an exponent. -/
theorem Digits.render_ne_nil (style : NumberStyle) (d : Digits) : d.render style ≠ [] := by
  unfold render exponentText
  dsimp only
  split
  · simp
  · split
    · simp
    · simp

/-- A number has a text if the words for those that are not finite are not empty. -/
theorem floatText_ne_empty {style : NumberStyle} (hinfinity : style.infinityText ≠ "")
    (hnegative : style.negativeInfinityText ≠ "") (hundefined : style.undefinedText ≠ "")
    (x : Float) : floatText style x ≠ "" := by
  unfold floatText
  split
  · exact hundefined
  · split
    · exact hnegative
    · exact hinfinity
  · rename_i negative m q _
    have hbody : (if m = 0 then ['0', '.', '0'] else (shortest m q).render style) ≠ [] := by
      split
      · simp
      · exact Digits.render_ne_nil style _
    rw [Ne, String.ofList_eq_empty_iff]
    cases negative with
    | true => simp
    | false => exact hbody

end Decimal

namespace Json

theorem toString_int_ne_empty (i : Int) : toString i ≠ "" := by
  rw [Int.toString_eq_repr, Int.repr_eq_if]
  split
  · exact Nat.repr_ne_empty
  · simp

/-- **A value that counts as given has a text.** -/
theorem display_ne_empty {v : Json} (h : v.isGiven = true) : v.display ≠ "" := by
  cases v with
  | null => cases h
  | bool b => cases b <;> decide
  | int i => exact toString_int_ne_empty i
  | float x => exact Decimal.floatText_ne_empty (by decide) (by decide) (by decide) x
  | str s => simpa [isGiven, display] using h
  | arr items => simp [display, quoted]
  | obj members => simp [display, quoted]

theorem displayFirst_ne_empty {values : List Json} {default : String} (h : default ≠ "") :
    displayFirst values default ≠ "" := by
  induction values with
  | nil => exact h
  | cons v rest ih =>
    rw [displayFirst_cons]
    split
    · rename_i hgiven
      exact display_ne_empty hgiven
    · exact ih

end Json

/-! ## §2 Labels -/

namespace Step

theorem rawCategory_ne_empty (s : Step) : s.rawCategory ≠ "" :=
  Json.displayFirst_ne_empty (by decide)

/-- A step that is given no label shows its category. -/
theorem nodeLabel_ne_empty (s : Step) : s.nodeLabel ≠ "" :=
  Json.displayFirst_ne_empty s.rawCategory_ne_empty

/-! ## §3 Nodes and facts -/

variable {s : Step} {c : Compiled}

/-- Only triggers and branches have no node, and then there is nothing at all. -/
theorem ComesTo.node_eq_none_iff (h : s.ComesTo c) :
    (c.node = none ↔ s.category.handling = .structural) ∧ (c.node = none → c = {}) := by
  rcases h.brings_or_nothing with ⟨hstructural, rfl⟩ | ⟨hactionable, kind, hbrings⟩
  · exact ⟨iff_of_true rfl hstructural, fun _ => rfl⟩
  · rw [hbrings.node]
    exact ⟨iff_of_false nofun hactionable, nofun⟩

/-- A node lies where the step lies, lists no edges, and is no start node. -/
theorem ComesTo.node_frame (h : s.ComesTo c) {n : Node} (hn : c.node = some n) :
    n.position = s.position ∧ n.edgeOrder = [] ∧ n.kind.tag ≠ "start" := by
  rcases h.brings_or_nothing with ⟨-, rfl⟩ | ⟨-, kind, hbrings⟩
  · cases hn
  · obtain rfl := Option.some.inj (hn.symm.trans hbrings.node)
    have htag : kind.tag ≠ NodeKind.start.tag := hbrings.tag ▸ Category.nodeType_ne_start _
    exact ⟨rfl, rfl, htag⟩

/-- The tools to register are those that the node refers to. -/
theorem ComesTo.toolIds_eq (h : s.ComesTo c) :
    c.toolIds = (c.node.map (·.kind.toolIds)).getD [] := by
  rcases h.brings_or_nothing with ⟨-, rfl⟩ | ⟨-, kind, hbrings⟩
  · rfl
  · rw [hbrings.node, hbrings.toolIds]
    rfl

theorem ComesTo.hasTransfer_iff (h : s.ComesTo c) :
    c.hasTransfer = true ↔ ∃ n, c.node = some n ∧ n.kind.tag = "phone_number" := by
  rcases h.brings_or_nothing with ⟨-, rfl⟩ | ⟨-, kind, hbrings⟩
  · exact iff_of_false nofun nofun
  · rw [hbrings.node, hbrings.transfer, decide_eq_true_iff]
    simp [plainNode]

/-- A form is registered just in case the step collects one and gives its id. -/
theorem ComesTo.form_iff (h : s.ComesTo c) :
    c.form.isSome = true ↔ s.category.isForm = true ∧ (s.setting "formId").isGiven = true := by
  rw [Category.isForm_iff]
  cases h with
  | namedForm h hid => exact iff_of_true rfl ⟨h, hid⟩
  | unnamedForm h hid => exact iff_of_false nofun fun ⟨_, hgiven⟩ => by simp [hid] at hgiven
  | nothing h | speech h | phoneTransfer h | agentTransfer h | ending h | service h
  | recording h =>
    rw [h]
    exact iff_of_false nofun fun ⟨hform, _⟩ => by cases hform

theorem ComesTo.audio_iff (h : s.ComesTo c) :
    c.audio.isSome = true ↔ s.category = .playAudio := by
  rw [Category.eq_playAudio_iff]
  cases h with
  | recording h => exact iff_of_true rfl h
  | nothing h | speech h | unnamedForm h | namedForm h | phoneTransfer h | agentTransfer h
  | ending h | service h =>
    rw [h]
    exact iff_of_false nofun nofun

/-- What is registered names the tool of the node, or the step itself. -/
theorem ComesTo.registers (h : s.ComesTo c) :
    (∀ r, c.form = some r → c.toolIds = [formToolId r.formId]) ∧
    (∀ w, c.webhook = some w → ∃ n, c.node = some n ∧ n.kind = .tools [w.toolId]) ∧
    ∀ a, c.audio = some a → a.stepId = s.id := by
  cases h with
  | namedForm _ _ prompt formName fields =>
    refine ⟨fun r hr => ?_, nofun, nofun⟩
    rw [← Option.some.inj hr]
  | service _ toolId webhook hid =>
    refine ⟨nofun, fun w hw => ?_, nofun⟩
    exact ⟨_, rfl, by rw [hid w hw]; rfl⟩
  | recording _ audio hid =>
    refine ⟨nofun, nofun, fun a ha => ?_⟩
    rw [← Option.some.inj ha, hid]
  | nothing | speech | unnamedForm | phoneTransfer | agentTransfer | ending =>
    exact ⟨nofun, nofun, nofun⟩

/-- All scripted nodes of a step show its label. -/
theorem ComesTo.script_label (h : s.ComesTo c) {n : Node} (hn : c.node = some n)
    {script : Script} (hscript : n.kind = .script script) : script.label = s.nodeLabel := by
  cases h with
  | nothing => cases hn
  | speech | unnamedForm | namedForm =>
    obtain rfl := Option.some.inj hn
    rw [← NodeKind.script.inj hscript]
  | phoneTransfer | agentTransfer | ending | service | recording =>
    obtain rfl := Option.some.inj hn
    cases hscript

/-- **The facts that come with a node agree with it.** Whatever the settings of a step are, if the
step is compiled then
* it has no node just in case it is a start, a trigger or a condition, and then it brings nothing;
* a node lies where the step lies, lists no edges, and is no start node;
* the tools to register are exactly those that the node refers to;
* a transfer is announced just in case the node hands the call over to a phone number;
* a form is registered just in case the step collects a form and gives its id, and then there is
  one tool, which is that of the form;
* a service is registered under the tool of the node, and called by one of five methods;
* a recording is registered just in case the step plays one, and under the id of the step;
* a scripted node has a label. -/
theorem node_and_facts_agree (s : Step) {c : Compiled} (h : s.compile.Gives c) :
    (c.node = none ↔
      s.category = .start ∨ s.category = .trigger ∨ s.category = .condition) ∧
    (c.node = none → c = {}) ∧
    (∀ n, c.node = some n →
      n.position = s.position ∧ n.edgeOrder = [] ∧ n.kind.tag ≠ "start") ∧
    c.toolIds = (c.node.map (·.kind.toolIds)).getD [] ∧
    (c.hasTransfer = true ↔ ∃ n, c.node = some n ∧ n.kind.tag = "phone_number") ∧
    (c.form.isSome = true ↔
      s.category.isForm = true ∧ (s.setting "formId").isGiven = true) ∧
    (∀ r, c.form = some r → c.toolIds = [formToolId r.formId]) ∧
    (∀ w, c.webhook = some w → (∃ n, c.node = some n ∧ n.kind = .tools [w.toolId]) ∧
      w.method.name ∈ ["GET", "POST", "PUT", "PATCH", "DELETE"]) ∧
    (c.audio.isSome = true ↔ s.category = .playAudio) ∧
    (∀ a, c.audio = some a → a.stepId = s.id) ∧
    (∀ n script, c.node = some n → n.kind = .script script → script.label ≠ "") := by
  have hcomes := comesTo_of_gives h
  obtain ⟨hnone, hnothing⟩ := hcomes.node_eq_none_iff
  obtain ⟨hform, hservice, hrecording⟩ := hcomes.registers
  have hstructural : s.category.handling = .structural ↔
      s.category = .start ∨ s.category = .trigger ∨ s.category = .condition := by
    cases s.category <;> decide
  refine ⟨hnone.trans hstructural, hnothing, fun n hn => hcomes.node_frame hn, hcomes.toolIds_eq,
    hcomes.hasTransfer_iff, hcomes.form_iff, hform, fun w hw => ⟨hservice w hw, ?_⟩,
    hcomes.audio_iff, hrecording, fun n script hn hscript => ?_⟩
  · cases w.method <;> decide
  · rw [hcomes.script_label hn hscript]
    exact s.nodeLabel_ne_empty

/-- A step that calls a service. The first setting for the tool does not count as given, and the
address stands beside the settings. -/
def orderLookup : Step where
  id := "w"
  type := some "webhook"
  data := {
    config := [("toolId", .int 0), ("name", .str "find_order"), ("method", .str "patch")]
    extra := [("url", .str "orders")] }

/-- The service is registered under the tool that the node refers to. -/
theorem node_and_facts_agree_orderLookup :
    ∃ c w n, orderLookup.compile.Gives c ∧ c.webhook = some w ∧ w.method = .patch ∧
      c.node = some n ∧ n.kind = .tools [w.toolId] ∧ c.toolIds = ["find_order"] := by
  obtain ⟨c, hc⟩ := gives_of_succeeds (a := orderLookup.compile) (by decide +kernel)
  have hregistered : orderLookup.compile.outcome.map (fun c =>
      (c.webhook.map (·.method), c.toolIds)) = .ok (some .patch, ["find_order"]) := by
    decide +kernel
  rw [hc] at hregistered
  obtain ⟨hwebhook, htools⟩ := Prod.mk.inj (Except.ok.inj hregistered)
  obtain ⟨w, hw, hmethod⟩ := Option.map_eq_some_iff.1 hwebhook
  obtain ⟨-, -, -, -, -, -, -, hservice, -⟩ := node_and_facts_agree orderLookup hc
  obtain ⟨⟨n, hn, hkind⟩, -⟩ := hservice w hw
  exact ⟨c, w, n, hc, hw, hmethod, hn, hkind, htools⟩

end Step

end CallFlow
