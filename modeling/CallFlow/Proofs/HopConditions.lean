import CallFlow.Proofs.Entering
import CallFlow.Proofs.RuleTexts

/-!
# The Conditions of Hops

A branch lists rules for the links that leave it, and an author may have left anything in the list.
What is no well-formed rule is passed over, so that it makes no difference whether it is there. Of
the rules that are left, the first one that names the target of a link is the one that the link
follows, even if an earlier one fits its handle. A rule that says nothing counts as little as none:
then the handle of the link speaks for itself, if there is one.

## Sections

1. Entries and rules
2. Choosing a rule
3. The condition of a hop
4. Hops by their first rule
-/

namespace CallFlow

open Attempt

/-! ## §1 Entries and rules -/

/-- What a setting lists; nothing if it lists nothing. -/
def Json.entries (v : Json) : List Json := v.items?.getD []

/-- What is not given lists nothing. -/
theorem Json.entries_of_not_given {v : Json} (h : v.isGiven = false) : v.entries = [] := by
  cases v with
  | str s =>
    obtain rfl : s = "" := by simpa [isGiven] using h
    rfl
  | arr items =>
    obtain rfl : items = [] := by simpa [isGiven] using h
    rfl
  | obj members =>
    obtain rfl : members = [] := by simpa [isGiven] using h
    rfl
  | _ => rfl

namespace BranchRule

/-- The rule that an entry is, if it is a well-formed object. -/
def ofItem? : Json → Option BranchRule
  | .obj m => (ofMembers m).toOption
  | _ => none

/-- Whether an entry is a rule at all. -/
def isRule (entry : Json) : Bool := (ofItem? entry).isSome

theorem gives_take (entry : Json) : (take entry).Gives (ofItem? entry) := by
  cases entry with
  | obj m =>
    unfold take ofItem?
    dsimp only
    cases ofMembers m with
    | accepted r => exact gives_pure.2 rfl
    | rejected vs => exact gives_warn_bind.2 (gives_pure.2 rfl)
  | _ => exact gives_pure.2 rfl

/-- The rules among some entries, in order. -/
def among (entries : List Json) : List BranchRule := entries.filterMap ofItem?

/-- **Only rules count**: entries that are none may be put in or left out anywhere. -/
theorem among_filter (entries : List Json) : among (entries.filter isRule) = among entries := by
  unfold among
  rw [List.filterMap_filter]
  refine List.filterMap_congr fun entry _ => ?_
  unfold isRule
  cases ofItem? entry <;> rfl

/-- The rules of a branch are those among its entries. -/
theorem gives_parse {config : Members} (h : (Json.member config "conditions").Listable) :
    (parse config).Gives (among (Json.member config "conditions").entries) := by
  unfold parse
  dsimp only
  cases hgiven : (Json.member config "conditions").isGiven with
  | false =>
    rw [Json.entries_of_not_given hgiven]
    exact gives_pure.2 rfl
  | true =>
    obtain ⟨items, hitems⟩ := Option.isSome_iff_exists.1 (h hgiven)
    have htaken : (items.mapM take).Gives (items.map ofItem?) := by
      rw [gives_mapM, List.forall₂_map_right_iff]
      exact List.forall₂_same.2 fun entry _ => gives_take entry
    have hrules : (items.map ofItem?).filterMap (fun r => r) =
        among (Json.member config "conditions").entries := by
      rw [Json.entries, hitems, List.filterMap_map]
      rfl
    rw [if_pos rfl, hitems]
    exact gives_bind.2 ⟨_, htaken, gives_pure.2 hrules.symm⟩

/-- What a handle says is never nothing. -/
theorem handleText_ne (handle : String) : handleText handle ≠ "" := by
  unfold handleText
  split
  -- The texts besides the last are fixed.
  case h_8 => exact mentioned_ne handle
  all_goals decide

end BranchRule

/-- The rules of a step, in order. -/
def Step.rules (s : Step) : List BranchRule := BranchRule.among (s.setting "conditions").entries

namespace Flow

variable {f : Flow} {rules : List BranchRule} {l : Link} {choice : Option BranchRule} {hop : Hop}

/-! ## §2 Choosing a rule -/

/-- The rule leads to the target of the link. -/
def FitsTarget (l : Link) (r : BranchRule) : Prop := r.targetId = some l.target

/-- The link has a handle, which is not empty, and it is the id or the label of the rule. -/
def FitsHandle (l : Link) (r : BranchRule) : Prop :=
  l.sourceHandle.getD "" ≠ "" ∧ (r.id = l.sourceHandle ∨ r.label = l.sourceHandle)

instance (l : Link) : DecidablePred (FitsTarget l) := fun r =>
  inferInstanceAs (Decidable (r.targetId = some l.target))

instance (l : Link) : DecidablePred (FitsHandle l) := fun r =>
  inferInstanceAs (Decidable (l.sourceHandle.getD "" ≠ "" ∧
    (r.id = l.sourceHandle ∨ r.label = l.sourceHandle)))

/-- **Which rule a link follows**: the first one that leads to its target, or, only if there is
none, the first one that fits its handle. -/
inductive Chooses (rules : List BranchRule) (l : Link) : Option BranchRule → Prop where
  | byTarget {r : BranchRule} (h : IsFirst (FitsTarget l) rules r) : Chooses rules l (some r)
  | byHandle {r : BranchRule} (htarget : ∀ q ∈ rules, ¬ FitsTarget l q)
      (h : IsFirst (FitsHandle l) rules r) : Chooses rules l (some r)
  | nothing (htarget : ∀ q ∈ rules, ¬ FitsTarget l q)
      (hhandle : ∀ q ∈ rules, ¬ FitsHandle l q) : Chooses rules l none

theorem ruleFor?_eq (rules : List BranchRule) (l : Link) :
    ruleFor? rules l =
      (rules.find? fun r => FitsTarget l r).or (rules.find? fun r => FitsHandle l r) := by
  unfold ruleFor?
  have htarget : (rules.find? fun r => FitsTarget l r) =
      rules.find? (·.targetId = some l.target) := rfl
  rw [htarget]
  cases rules.find? (·.targetId = some l.target) with
  | some r => rfl
  | none =>
    -- Nothing fits a handle that is missing or empty.
    have hnothing : l.sourceHandle.getD "" = "" →
        (rules.find? fun r => FitsHandle l r) = none := by
      intro hempty
      rw [List.find?_eq_none]
      simp [FitsHandle, hempty]
    cases hhandle : l.sourceHandle with
    | none => simp [hnothing, hhandle]
    | some handle =>
      by_cases hne : handle = ""
      · simp [hnothing, hhandle, hne]
      · simp [FitsHandle, hhandle, hne]

theorem chooses_ruleFor? (rules : List BranchRule) (l : Link) :
    Chooses rules l (ruleFor? rules l) := by
  rw [ruleFor?_eq]
  cases htarget : rules.find? fun r => FitsTarget l r with
  | some r => exact .byTarget (isFirst_iff_find?.2 htarget)
  | none =>
    have hnone : ∀ q ∈ rules, ¬ FitsTarget l q := by simpa using htarget
    cases hhandle : rules.find? fun r => FitsHandle l r with
    | some r => exact .byHandle hnone (isFirst_iff_find?.2 hhandle)
    | none => exact .nothing hnone (by simpa using hhandle)

theorem chooses_iff : Chooses rules l choice ↔ choice = ruleFor? rules l := by
  constructor
  · intro h
    rw [ruleFor?_eq]
    cases h with
    | byTarget hfirst => rw [isFirst_iff_find?.1 hfirst, Option.some_or]
    | byHandle htarget hfirst =>
      have hnone : (rules.find? fun q => FitsTarget l q) = none := by simpa using htarget
      rw [hnone, Option.none_or, isFirst_iff_find?.1 hfirst]
    | nothing htarget hhandle =>
      have hnone : (rules.find? fun q => FitsTarget l q) = none := by simpa using htarget
      have hnone' : (rules.find? fun q => FitsHandle l q) = none := by simpa using hhandle
      rw [hnone, Option.none_or, hnone']
  · rintro rfl
    exact chooses_ruleFor? rules l

/-! ## §3 The condition of a hop -/

/-- **What a hop waits for**, given the rule that it follows: what the rule says; if there is none
or it says nothing, what the handle says; and if there is no handle either, for nothing. -/
inductive HopBy (choice : Option BranchRule) (l : Link) : Hop → Prop where
  | rule {r : BranchRule} (h : choice = some r) (htext : r.text ≠ "") :
      HopBy choice l (.named r.text)
  | handle {handle : String} (hsilent : ∀ r, choice = some r → r.text = "")
      (hhandle : l.sourceHandle = some handle) (hne : handle ≠ "") :
      HopBy choice l (.named (BranchRule.handleText handle))
  | unconditional (hsilent : ∀ r, choice = some r → r.text = "")
      (hhandle : l.sourceHandle.getD "" = "") : HopBy choice l .unconditional

theorem hopBy_hopOf (rules : List BranchRule) (l : Link) :
    HopBy (ruleFor? rules l) l (hopOf rules l) := by
  unfold hopOf
  dsimp only
  by_cases htext : ((ruleFor? rules l).map BranchRule.text).getD "" = ""
  · have hsilent : ∀ r, ruleFor? rules l = some r → r.text = "" := by
      intro r hr
      simpa [hr] using htext
    by_cases hhandle : l.sourceHandle.getD "" = ""
    · simpa [htext, hhandle] using HopBy.unconditional hsilent hhandle
    · cases hsome : l.sourceHandle with
      | none => exact absurd (by rw [hsome]; rfl) hhandle
      | some handle =>
        have hne : handle ≠ "" := by simpa [hsome] using hhandle
        simpa [htext, hne] using HopBy.handle hsilent hsome hne
  · cases hr : ruleFor? rules l with
    | none => exact absurd (by rw [hr]; rfl) htext
    | some r =>
      have hne : r.text ≠ "" := by simpa [hr] using htext
      simpa [hne] using HopBy.rule (l := l) rfl hne

theorem HopBy.ne_named_empty (h : HopBy choice l hop) : hop ≠ .named "" := by
  rintro rfl
  generalize hempty : Hop.named "" = hop at h
  cases h with
  | rule _ htext => exact htext (Hop.named.inj hempty).symm
  | handle _ _ _ => exact BranchRule.handleText_ne _ (Hop.named.inj hempty).symm
  | unconditional => cases hempty

/-- A hop is made at once just in case nothing is said about it. -/
theorem HopBy.eq_unconditional_iff (h : HopBy choice l hop) :
    hop = .unconditional ↔
      l.sourceHandle.getD "" = "" ∧ ∀ r, choice = some r → r.text = "" := by
  cases h with
  | @rule r hr htext => exact iff_of_false nofun fun ⟨_, hsilent⟩ => htext (hsilent r hr)
  | handle hsilent hhandle hne =>
    exact iff_of_false nofun fun ⟨hnone, _⟩ => hne (by rw [hhandle] at hnone; exact hnone)
  | unconditional hsilent hhandle => exact iff_of_true rfl ⟨hhandle, hsilent⟩

/-- Without a handle, a link follows a rule just in case it is the first that leads to its
target. -/
theorem Chooses.eq_some_iff (h : Chooses rules l choice) (hhandle : l.sourceHandle.getD "" = "")
    {r : BranchRule} : choice = some r ↔ IsFirst (FitsTarget l) rules r := by
  cases h with
  | byTarget hfirst => rw [isFirst_iff_find?, isFirst_iff_find?.1 hfirst]
  | byHandle _ hfirst =>
    obtain ⟨before, after, -, ⟨hne, -⟩, -⟩ := hfirst
    exact absurd hhandle hne
  | nothing htarget _ =>
    refine iff_of_false nofun ?_
    rintro ⟨before, after, rfl, hfits, -⟩
    exact htarget r (by simp) hfits

/-! ## §4 Hops by their first rule -/

theorem gives_resolve {id : String} {branch : Step} (hbranch : f.step? id = some branch)
    (hlist : (branch.setting "conditions").Listable) (hentered : ∃ l ∈ f.links, l.target = id)
    (leaving : Link) : (f.resolve id leaving).Gives (hopOf branch.rules leaving) := by
  unfold resolve
  rw [linksInto_isEmpty hentered, if_neg Bool.false_ne_true, hbranch]
  exact gives_bind.2 ⟨_, BranchRule.gives_parse hlist, gives_pure.2 rfl⟩

theorem gives_resolve_of_not_entered {id : String} (h : ¬ ∃ l ∈ f.links, l.target = id)
    (leaving : Link) : (f.resolve id leaving).Gives .blocked := by
  have hnone : (f.linksInto id).isEmpty = true := by
    rw [List.isEmpty_iff, linksInto, List.filter_eq_nil_iff]
    intro l hl htarget
    exact h ⟨l, hl, of_decide_eq_true htarget⟩
  unfold resolve
  rw [if_pos hnone]
  exact gives_pure.2 rfl

/-- Where a hop is not blocked, the branch is declared, and its rules have been read. -/
theorem exists_rules_of_gives {id : String} {leaving : Link}
    (h : (f.resolve id leaving).Gives hop) (hne : hop ≠ .blocked) :
    ∃ branch, f.step? id = some branch ∧ hop = hopOf branch.rules leaving := by
  by_cases hentered : ∃ l ∈ f.links, l.target = id
  · cases hbranch : f.step? id with
    | none =>
      unfold resolve at h
      rw [linksInto_isEmpty hentered, if_neg Bool.false_ne_true, hbranch] at h
      exact absurd h not_gives_fail
    | some branch =>
      by_cases hlist : (branch.setting "conditions").Listable
      · exact ⟨branch, rfl, h.unique (gives_resolve hbranch hlist hentered leaving)⟩
      · exact absurd ((fails_resolve hbranch hentered).2 ⟨rfl, hlist⟩) (h.not_fails _)
  · exact absurd (h.unique (gives_resolve_of_not_entered hentered leaving)) hne

/-- **The condition of a hop out of a branch** whose rules are a list, or nothing. The hop is
blocked just in case no link enters the branch. Otherwise the link follows the first rule that leads
to its target, or else the first one that fits its handle, and the hop waits for what this rule
says, or else for what the handle says. It waits for nothing just in case the link has no handle and
the first rule that leads to its target, if there is one, says nothing; and it never waits for an
empty text. Nothing of this depends on entries that are no rules: in a flow with the same links,
where the branch lists the same rules in the same order and anything else between them, the hop is
the same. -/
theorem hop_by_first_rule (f : Flow) {id : String} {branch : Step}
    (hbranch : f.step? id = some branch) (hlist : (branch.setting "conditions").Listable)
    (leaving : Link) :
    ∃ hop, (f.resolve id leaving).Gives hop ∧
      (hop = .blocked ↔ ∀ l ∈ f.links, l.target ≠ id) ∧
      hop ≠ .named "" ∧
      ((∃ l ∈ f.links, l.target = id) →
        (∃ choice, Chooses branch.rules leaving choice ∧ HopBy choice leaving hop) ∧
        (hop = .unconditional ↔ leaving.sourceHandle.getD "" = "" ∧
          ∀ r, IsFirst (FitsTarget leaving) branch.rules r → r.text = "")) ∧
      ∀ (g : Flow) (other : Step), g.links = f.links → g.step? id = some other →
        (other.setting "conditions").Listable →
        (other.setting "conditions").entries.filter BranchRule.isRule =
          (branch.setting "conditions").entries.filter BranchRule.isRule →
        (g.resolve id leaving).Gives hop := by
  by_cases hentered : ∃ l ∈ f.links, l.target = id
  · have hby := hopBy_hopOf branch.rules leaving
    have hchooses := chooses_ruleFor? branch.rules leaving
    refine ⟨hopOf branch.rules leaving, gives_resolve hbranch hlist hentered leaving,
      iff_of_false (hopOf_ne_blocked _ _) ?_, hby.ne_named_empty,
      fun _ => ⟨⟨_, hchooses, hby⟩, ?_⟩, ?_⟩
    · obtain ⟨l, hl, htarget⟩ := hentered
      exact fun hnone => hnone l hl htarget
    · rw [hby.eq_unconditional_iff]
      exact and_congr_right fun hhandle =>
        forall_congr' fun r => by rw [hchooses.eq_some_iff hhandle]
    · intro g other hlinks hother hlist' hrules
      have hsame : other.rules = branch.rules := by
        rw [Step.rules, ← BranchRule.among_filter, hrules, BranchRule.among_filter, Step.rules]
      rw [← hsame]
      exact gives_resolve hother hlist' (hlinks ▸ hentered) leaving
  · have hnone : ∀ l ∈ f.links, l.target ≠ id := by
      intro l hl htarget
      exact hentered ⟨l, hl, htarget⟩
    refine ⟨.blocked, gives_resolve_of_not_entered hentered leaving, iff_of_true rfl hnone, nofun,
      fun h => absurd h hentered, ?_⟩
    intro g other hlinks _ _ _
    exact gives_resolve_of_not_entered (hlinks ▸ hentered) leaving

/-- A branch among whose entries are a number, a text and a rule that is not well-formed. An earlier
rule fits the handle of the link, and a later one its target. -/
def cluttered : Flow where
  steps := [
    { id := "a", type := some "question" },
    { id := "c", type := some "condition", data := { config := [("conditions", .arr [
      .int 7, .obj [("id", .str "yes"), ("description", .str "The caller agrees")], .str "b",
      .obj [("id", .arr []), ("targetNodeId", .str "b")],
      .obj [("targetNodeId", .str "b"), ("description", .str "The caller wants to go on")]])] } },
    { id := "b", type := some "end" }]
  links := [
    { id := "e1", source := "a", target := "c" },
    { id := "e2", source := "c", target := "b", sourceHandle := some "yes" }]

/-- The same branch without the clutter. -/
def uncluttered : Flow where
  steps := [
    { id := "c", type := some "condition", data := { config := [("conditions", .arr [
      .obj [("id", .str "yes"), ("description", .str "The caller agrees")],
      .obj [("targetNodeId", .str "b"), ("description", .str "The caller wants to go on")]])] } }]
  links := cluttered.links

/-- The hop waits for what the later rule says, with the clutter and without. -/
theorem hop_by_first_rule_cluttered :
    ∃ branch leaving, cluttered.step? "c" = some branch ∧
      (branch.setting "conditions").Listable ∧ leaving ∈ cluttered.links ∧
      (cluttered.resolve "c" leaving).Gives (.named "The caller wants to go on") ∧
      (uncluttered.resolve "c" leaving).Gives (.named "The caller wants to go on") := by
  let leaving : Link := { id := "e2", source := "c", target := "b", sourceHandle := some "yes" }
  have hlist : (cluttered.steps[1].setting "conditions").Listable := by decide
  have hbranch : cluttered.step? "c" = some cluttered.steps[1] := rfl
  obtain ⟨hop, hgives, -, -, -, hsame⟩ := hop_by_first_rule cluttered hbranch hlist leaving
  have hnamed : (cluttered.resolve "c" leaving).outcome =
      .ok (.named "The caller wants to go on") := by decide +kernel
  obtain rfl := Except.ok.inj (hgives.symm.trans hnamed)
  exact ⟨_, leaving, rfl, hlist, .tail _ (.head _), hgives,
    hsame uncluttered _ rfl rfl (by decide) rfl⟩

end Flow

end CallFlow
