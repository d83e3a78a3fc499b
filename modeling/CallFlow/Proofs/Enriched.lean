import CallFlow.Form.Enrichment
import CallFlow.Proofs.EntryChoice
import CallFlow.Proofs.Repeated
import CallFlow.Proofs.SameRoads
import CallFlow.Proofs.Tables

/-!
# Enriched Flows

A stored form is copied into two settings of a step, its name and its fields, and only into steps
that collect a form and name one. So what a flow is enriched with can be told from those two settings
alone: two flows that are enriched from the same one are *alike*. Their steps have the same ids and
categories, their links lead along the same roads, and the same step is their entry, because
nothing that decides about these reads the two settings.

## Sections

1. Lists of related items
2. Steps without forms
3. Alike steps
4. Alike flows
5. Enrichment
-/

namespace CallFlow

open Attempt

/-! ## §1 Lists of related items -/

/-- A search that cannot tell related items apart finds related items. -/
theorem rel_find? {α β : Type} {R : α → β → Prop} {p : α → Bool} {q : β → Bool}
    (hpq : ∀ x y, R x y → p x = q y) {l : List α} {l' : List β} (h : List.Forall₂ R l l') :
    Option.Rel R (l.find? p) (l'.find? q) := by
  induction h with
  | nil => exact .none
  | @cons x y rest rest' hxy _ ih =>
    rw [List.find?_cons, List.find?_cons, ← hpq x y hxy]
    cases p x with
    | true => exact .some hxy
    | false => exact ih

theorem rel_or {α β : Type} {R : α → β → Prop} {x x' : Option α} {y y' : Option β}
    (h : Option.Rel R x y) (h' : Option.Rel R x' y') : Option.Rel R (x.or x') (y.or y') := by
  cases h with
  | none => simpa using h'
  | some h => simpa using Option.Rel.some h

/-- Either nothing is found on both sides, or related items are. -/
theorem rel_cases {α β : Type} {R : α → β → Prop} {x : Option α} {y : Option β}
    (h : Option.Rel R x y) :
    (x = none ∧ y = none) ∨ ∃ a b, x = some a ∧ y = some b ∧ R a b := by
  cases h with
  | none => exact Or.inl ⟨rfl, rfl⟩
  | some h => exact Or.inr ⟨_, _, rfl, rfl, h⟩

/-- What is related to something found is found. -/
theorem of_rel_left {α β : Type} {R : α → β → Prop} {x : Option α} {y : Option β} {a : α}
    (h : Option.Rel R x y) (ha : x = some a) : ∃ b, y = some b ∧ R a b := by
  subst ha
  cases h with
  | some h => exact ⟨_, rfl, h⟩

theorem of_rel_right {α β : Type} {R : α → β → Prop} {x : Option α} {y : Option β} {b : β}
    (h : Option.Rel R x y) (hb : y = some b) : ∃ a, x = some a ∧ R a b := by
  subst hb
  cases h with
  | some h => exact ⟨_, rfl, h⟩

/-- Lists that are related to the same list are related to each other. -/
theorem forall₂_join {α β γ : Type} {R : α → β → Prop} {S : α → γ → Prop} {T : β → γ → Prop}
    (hjoin : ∀ x y z, R x y → S x z → T y z) {l : List α} {ys : List β} {zs : List γ}
    (h : List.Forall₂ R l ys) (h' : List.Forall₂ S l zs) : List.Forall₂ T ys zs := by
  induction h generalizing zs with
  | nil =>
    cases h'
    exact .nil
  | cons hxy _ ih =>
    obtain ⟨z, rest, hxz, hrest, rfl⟩ := List.forall₂_cons_left_iff.1 h'
    exact .cons (hjoin _ _ _ hxy hxz) (ih hrest)

theorem any_eq_of_forall₂ {α β : Type} {R : α → β → Prop} {p : α → Bool} {q : β → Bool}
    (hpq : ∀ x y, R x y → p x = q y) {l : List α} {l' : List β} (h : List.Forall₂ R l l') :
    l.any p = l'.any q := by
  induction h with
  | nil => rfl
  | cons hxy _ ih => rw [List.any_cons, List.any_cons, hpq _ _ hxy, ih]

/-! ## §2 Steps without forms -/

namespace Step

/-- Whether a setting says something else than a stored form does. -/
def isOwn (name : String) : Bool := name ≠ "formName" && name ≠ "fields"

/-- The step without what a stored form says. -/
def formless (t : Step) : Step :=
  { t with data := { t.data with config := t.config.filter fun e => isOwn e.1 } }

/-- Whether the step collects a form and names one. -/
def namesForm (t : Step) : Bool := t.category.isForm && (t.setting "formId").isGiven

variable (t : Step)

theorem setting_formless {name : String} (h : isOwn name = true) :
    t.formless.setting name = t.setting name := by
  show (Table.get? (t.config.filter fun e => isOwn e.1) name).getD .null = _
  rw [Table.get?_filter_of_pos h]
  rfl

theorem rawCategory_formless : t.formless.rawCategory = t.rawCategory := by
  rw [rawCategory, setting_formless t (by decide), rawCategory]
  rfl

theorem namesForm_formless : t.formless.namesForm = t.namesForm := by
  rw [namesForm, category, rawCategory_formless, setting_formless t (by decide)]
  rfl

theorem formless_withForm (form : FormRecord) : (t.withForm form).formless = t.formless := by
  have hconfig : ((t.withForm form).config.filter fun e => isOwn e.1) =
      t.config.filter fun e => isOwn e.1 := by
    show ((Table.set (Table.set t.config _ _) _ _).filter fun e => isOwn e.1) = _
    rw [Table.filter_set_of_neg (by decide), Table.filter_set_of_neg (by decide)]
  rw [formless, hconfig]
  rfl

/-! ## §3 Alike steps -/

/-- Two steps differ at most in what a stored form says, and only if they name a form. -/
structure Alike (t u : Step) : Prop where
  formless : u.formless = t.formless
  same : t.namesForm = false → u = t

namespace Alike

variable {t u : Step} (h : t.Alike u)

include h

theorem id : u.id = t.id := (congrArg Step.id h.formless :)

theorem position : u.position = t.position := (congrArg Step.position h.formless :)

theorem label : u.data.label = t.data.label := (congrArg (fun s => s.data.label) h.formless :)

theorem setting {name : String} (hown : isOwn name = true) : u.setting name = t.setting name := by
  rw [← setting_formless u hown, h.formless, setting_formless t hown]

theorem rawCategory : u.rawCategory = t.rawCategory := by
  rw [← rawCategory_formless, h.formless, rawCategory_formless]

theorem category : u.category = t.category := by rw [Step.category, h.rawCategory, Step.category]

theorem isActionable : u.isActionable = t.isActionable := by
  rw [Step.isActionable, h.category, Step.isActionable]

theorem namesForm : u.namesForm = t.namesForm := by
  rw [← namesForm_formless, h.formless, namesForm_formless]

theorem nodeLabel : u.nodeLabel = t.nodeLabel := by
  rw [Step.nodeLabel, h.setting (by decide), h.setting (by decide), h.label, h.rawCategory,
    Step.nodeLabel]

theorem firstMessage? : Flow.firstMessage? u = Flow.firstMessage? t := by
  unfold Flow.firstMessage?
  rw [h.category, h.setting (by decide)]

theorem parse : BranchRule.parse u.config = BranchRule.parse t.config := by
  have hlisted : Json.member u.config "conditions" = Json.member t.config "conditions" :=
    h.setting (by decide)
  rw [BranchRule.parse, hlisted, BranchRule.parse]

theorem givenMember? (names : List String) (hown : names.all isOwn = true) :
    Json.givenMember? u.config names = Json.givenMember? t.config names := by
  have hvalues : names.map (Json.member u.config) = names.map (Json.member t.config) := by
    refine List.map_congr_left fun name hname => ?_
    exact h.setting (List.all_eq_true.1 hown name hname)
  rw [Json.givenMember?, hvalues, Json.givenMember?]

/-- What a step waits for does not depend on the form. -/
theorem waits (c : Category) :
    Transition.waitsForResponse c u.config = Transition.waitsForResponse c t.config ∧
      Transition.waitText c u.config = Transition.waitText c t.config := by
  have hwait : Json.member u.config "waitForResponse" = Json.member t.config "waitForResponse" :=
    h.setting (by decide)
  constructor
  · rw [Transition.waitsForResponse, hwait, Transition.waitsForResponse]
  · simp only [Transition.waitText, h.givenMember? ["message", "question", "text"] rfl,
      h.givenMember? ["message", "text"] rfl]

end Alike

/-- Steps that are alike the same step are alike. -/
theorem Alike.join {t u u' : Step} (h : t.Alike u) (h' : t.Alike u') : u.Alike u' where
  formless := h'.formless.trans h.formless.symm
  same := by
    intro hnone
    rw [h.namesForm] at hnone
    rw [h'.same hnone, h.same hnone]

theorem alike_withForm {t : Step} (h : t.namesForm = true) (form : FormRecord) :
    t.Alike (t.withForm form) where
  formless := t.formless_withForm form
  same := fun hnone => absurd (h.symm.trans hnone) nofun

theorem Alike.refl (t : Step) : t.Alike t := ⟨rfl, fun _ => rfl⟩

/-- Enriching a step gives a step that is alike, wherever forms are looked up. -/
theorem alike_of_enrich {t u : Step} {lookup : FormLookup} (h : (t.enrich lookup).Gives u) :
    t.Alike u := by
  obtain ⟨found, hfound, hu⟩ := gives_bind.1 h
  rw [gives_pure.1 hu]
  unfold enrich? at hfound
  dsimp only at hfound
  split at hfound
  · rw [gives_pure.1 hfound]
    exact Alike.refl t
  · rename_i hnames
    -- Whatever the lookup says, the step names a form.
    have hnames : t.namesForm = true := by
      rw [namesForm, Bool.and_eq_true]
      simpa using hnames
    split at hfound
    · rw [gives_warn_bind, gives_pure] at hfound
      rw [hfound]
      exact Alike.refl t
    · rw [gives_warn_bind, gives_pure] at hfound
      rw [hfound]
      exact Alike.refl t
    · rw [gives_info_bind, gives_pure] at hfound
      rw [hfound]
      exact alike_withForm hnames _

end Step

/-! ## §4 Alike flows -/

namespace Flow

/-- Two flows have alike steps and the same links. -/
structure Alike (f g : Flow) : Prop where
  links : g.links = f.links
  steps : List.Forall₂ Step.Alike f.steps g.steps

variable {f g g' : Flow}

/-- What is enriched from the same flow is alike. -/
theorem Alike.join (h : f.Alike g) (h' : f.Alike g') : g.Alike g' where
  links := h'.links.trans h.links.symm
  steps := forall₂_join (fun _ _ _ ht ht' => ht.join ht') h.steps h'.steps

theorem alike_of_enrich {lookup : FormLookup} (h : (f.enrich lookup).Gives g) : f.Alike g := by
  obtain ⟨steps, hsteps, hg⟩ := gives_bind.1 h
  rw [gives_pure.1 hg]
  exact ⟨rfl, (gives_mapM.1 hsteps).imp fun t u hu => Step.alike_of_enrich hu⟩

namespace Alike

variable (h : f.Alike g) (id : String)

include h

theorem step? : Option.Rel Step.Alike (f.step? id) (g.step? id) := by
  apply rel_find? _ (List.forall₂_reverse_iff.2 h.steps)
  intro t u htu
  rw [htu.id]

theorem lastActionable? :
    Option.Rel Step.Alike (f.lastActionable? id) (g.lastActionable? id) := by
  apply rel_find? _ (List.forall₂_reverse_iff.2 h.steps)
  intro t u htu
  rw [htu.id, htu.isActionable]

theorem isTrigger : g.isTrigger id = f.isTrigger id := by
  unfold Flow.isTrigger
  rcases rel_cases (h.step? id) with ⟨hf, hg⟩ | ⟨t, u, hf, hg, htu⟩
  · rw [hf, hg]
  · simp only [hf, hg, htu.category]

theorem isBranch : g.isBranch id = f.isBranch id := by
  refine (any_eq_of_forall₂ ?_ h.steps).symm
  intro t u htu
  rw [htu.id, htu.category]

/-- **Alike flows have the same roads.** -/
theorem sameRoads : f.SameRoads g where
  links := h.links
  isTrigger := h.isTrigger
  isBranch := h.isBranch
  resolve := by
    intro id l
    unfold resolve
    rw [linksInto, linksInto, h.links]
    rcases rel_cases (h.step? id) with ⟨hf, hg⟩ | ⟨t, u, hf, hg, htu⟩
    · rw [hf, hg]
    · simp only [hf, hg, htu.parse]
  ofLink := by
    intro l
    unfold Transition.ofLink
    rcases rel_cases (h.step? l.source) with ⟨hf, hg⟩ | ⟨t, u, hf, hg, htu⟩
    · rw [hf, hg]
    · obtain ⟨hwaits, htext⟩ := htu.waits t.category
      simp only [hf, hg, Option.map_some, Option.getD_some, htu.category, hwaits, htext]

theorem triggered? : Option.Rel Step.Alike f.triggered? g.triggered? := by
  have htrigger : Option.Rel Step.Alike f.firstTrigger? g.firstTrigger? := by
    apply rel_find? _ h.steps
    intro t u htu
    rw [htu.category]
  unfold Flow.triggered?
  rw [h.links]
  rcases rel_cases htrigger with ⟨hf, hg⟩ | ⟨t, u, hf, hg, htu⟩
  · rw [hf, hg]
    exact .none
  · simp only [hf, hg, Option.bind_eq_bind, Option.bind_some, htu.id]
    cases f.links.find? fun l => l.source = t.id with
    | none => exact .none
    | some l =>
      -- The link leads to alike steps, and both have nodes or neither has.
      rcases rel_cases (h.step? l.target) with ⟨hf, hg⟩ | ⟨t, u, hf, hg, htu⟩
      · simp only [hf, hg, Option.bind_some]
        exact .none
      · simp only [hf, hg, Option.bind_some, Option.filter_some, htu.isActionable]
        split
        · exact .some htu
        · exact .none

/-- **Alike steps are chosen as entries.** -/
theorem chooseEntry : Option.Rel Step.Alike f.chooseEntry.1 g.chooseEntry.1 := by
  rw [chooseEntry_fst, chooseEntry_fst]
  refine rel_or (rel_or h.triggered? ?_) ?_
  · apply rel_find? _ h.steps
    intro t u htu
    rw [htu.isActionable, htu.id, h.links]
  · apply rel_find? _ h.steps
    intro t u htu
    rw [htu.isActionable]

theorem entry {e e' : Entry} (he : f.entry.Gives e) (he' : g.entry.Gives e') :
    e'.stepId = e.stepId ∧ e'.firstMessage = e.firstMessage := by
  obtain ⟨hstep, hmessage⟩ := of_entry he
  obtain ⟨hstep', hmessage'⟩ := of_entry he'
  rw [Entry.stepId, Entry.stepId, hstep, hstep', hmessage, hmessage']
  rcases rel_cases h.chooseEntry with ⟨hf, hg⟩ | ⟨t, u, hf, hg, htu⟩
  · rw [hf, hg]
    exact ⟨rfl, rfl⟩
  · simp only [hf, hg, Option.map_some, Option.bind_some, htu.id, htu.firstMessage?, and_self]

end Alike

end Flow

end CallFlow
