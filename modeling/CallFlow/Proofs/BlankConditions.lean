import CallFlow.Proofs.Accounting
import CallFlow.Proofs.CompletionPhrases
import CallFlow.Proofs.Connections
import CallFlow.Proofs.HopConditions
import CallFlow.Proofs.Routes
import Mathlib.Data.List.TakeWhile

/-!
# Blank Conditions

A condition of nothing but spaces tells nobody when to go on. What the compiler words itself is
never blank, and a text that an author has written on a link counts only if it is not. The
descriptions of branch rules are the exception: all that is asked of them is not to be empty. A
description of spaces becomes the condition of its hop, and that of a whole route, if nothing else
is said there.

## Sections

1. Blank texts
2. Texts of links
3. Texts of rules and hops
4. Texts of routes
5. Texts of edges
6. Blank conditions
-/

namespace CallFlow

open Attempt

/-! ## §1 Blank texts -/

namespace Text

/-- The text has no characters but spaces. -/
def Blank (text : String) : Prop := ∀ c ∈ text.toList, isSpace c = true

instance : DecidablePred Blank := fun text =>
  decidable_of_iff (text.toList.all isSpace = true) List.all_eq_true

theorem trimWhere_eq_nil {p : Char → Bool} {cs : List Char} :
    trimWhere p cs = [] ↔ ∀ c ∈ cs, p c = true := by
  unfold trimWhere
  rw [List.reverse_eq_nil_iff, List.dropWhile_eq_nil_iff]
  constructor
  · intro h c hc
    rw [← List.takeWhile_append_dropWhile (p := p) (l := cs)] at hc
    rcases List.mem_append.1 hc with hbefore | hafter
    · exact List.mem_takeWhile_imp hbefore
    · exact h c (List.mem_reverse.2 hafter)
  · intro h c hc
    exact h c (List.dropWhile_subset p (List.mem_reverse.1 hc))

/-- A text is blank just in case nothing is left when it is stripped. -/
theorem strip_eq_empty_iff {text : String} : strip text = "" ↔ Blank text := by
  unfold strip
  rw [← String.toList_inj, String.toList_ofList]
  exact trimWhere_eq_nil

/-- What begins with something is not blank. -/
theorem not_blank_of_prefix {start text : String} (h : start.toList <+: text.toList)
    (hstart : ¬ Blank start) : ¬ Blank text :=
  fun hblank => hstart fun c hc => hblank c (h.subset hc)

end Text

open Text (Blank)

variable {text : String}

/-! ## §2 Texts of links -/

theorem Link.not_blank_of_explicitCondition {l : Link} (h : l.explicitCondition = some text) :
    ¬ Blank text := by
  unfold explicitCondition at h
  split at h
  · split at h
    · cases h
    · rename_i hstrip
      obtain rfl := Option.some.inj h
      rwa [String.isEmpty_iff, Text.strip_eq_empty_iff] at hstrip
  · cases h

namespace Transition

theorem not_blank_of_handleMeaning? {handle : Option String}
    (h : handleMeaning? handle = some text) : ¬ Blank text := by
  unfold handleMeaning? at h
  obtain ⟨m, hm, rfl⟩ := Option.map_eq_some_iff.1 h
  have hall : ∀ m ∈ handleMeanings, ¬ Blank m.2 := by decide +kernel
  exact hall m (List.mem_of_find?_eq_some hm)

theorem not_blank_waitText (c : Category) (config : Members) : ¬ Blank (waitText c config) := by
  have hagent : ¬ Blank "The agent has said '" := by decide
  have huser : ¬ Blank "The user" := by decide
  unfold waitText
  -- Questions and messages are quoted if they can be; forms and appointments have fixed phrases.
  split
  case h_1 =>
    split
    · exact Text.not_blank_of_prefix (prefix_questionCondition _) (by decide)
    · exact Text.not_blank_of_prefix prefix_questionAnswered huser
  case h_5 => exact Text.not_blank_of_prefix prefix_appointmentComplete hagent
  case h_6 | h_7 =>
    split
    · exact Text.not_blank_of_prefix (prefix_messageCondition _) (by decide)
    · exact Text.not_blank_of_prefix prefix_anyResponse huser
  case h_8 => exact Text.not_blank_of_prefix prefix_anyResponse huser
  all_goals exact Text.not_blank_of_prefix prefix_formComplete hagent

/-- **A direct link** never waits for a blank text. -/
theorem not_blank_of_ofLink {source : Option Step} {l : Link} (h : ofLink source l = .llm text) :
    ¬ Blank text := by
  unfold ofLink at h
  split at h
  · rename_i hexplicit
    obtain rfl := Condition.llm.inj h
    exact Link.not_blank_of_explicitCondition hexplicit
  · split at h
    · rename_i hhandle
      obtain rfl := Condition.llm.inj h
      exact not_blank_of_handleMeaning? hhandle
    · dsimp only at h
      split at h
      · obtain rfl := Condition.llm.inj h
        exact not_blank_waitText _ _
      · cases h

end Transition

/-! ## §3 Texts of rules and hops -/

namespace BranchRule

theorem not_blank_mentioned (what : String) : ¬ Blank (mentioned what) :=
  Text.not_blank_of_prefix (prefix_mentioned what) (by decide)

theorem not_blank_handleText (handle : String) : ¬ Blank (handleText handle) := by
  unfold handleText
  split
  -- The texts besides the last are fixed.
  case h_8 => exact not_blank_mentioned handle
  all_goals decide

/-- What is said about a word is not blank, unless nothing is said. -/
theorem not_blank_said {type : Option String} {word : String} (h : said type word ≠ "") :
    ¬ Blank (said type word) := by
  unfold said at h ⊢
  split
  · rename_i fixed hfixed
    have hall : ∀ fixed ∈ meanings, ¬ Blank fixed := by decide
    exact hall fixed (mem_of_valueText? hfixed)
  · rename_i hnone
    rw [hnone] at h
    split
    · rename_i hempty
      exact absurd (if_pos hempty) h
    · exact not_blank_mentioned word

/-- A rule says its description, if it has one that is not empty. -/
theorem text_of_description {r : BranchRule} (h : r.description = some text) (hne : text ≠ "") :
    r.text = text := by
  simp [BranchRule.text, h, hne]

/-- **A rule says something blank only by its description.** -/
theorem description_of_blank {r : BranchRule} (hne : r.text ≠ "") (hblank : Blank r.text) :
    r.description = some r.text := by
  by_cases hmissing : r.description.getD "" = ""
  · -- The text is made from the value or the label.
    rw [text_eq_said hmissing] at hne hblank
    exact absurd hblank (not_blank_said hne)
  · cases hdescription : r.description with
    | none => exact absurd (by rw [hdescription]; rfl) hmissing
    | some description =>
      rw [hdescription] at hmissing
      rw [text_of_description hdescription hmissing]

end BranchRule

namespace Flow

variable {f : Flow} {l : Link} {hop : Hop}

/-- The link follows a rule that has the text, which is not empty, for a description. -/
def Describes (f : Flow) (l : Link) (text : String) : Prop :=
  text ≠ "" ∧ ∃ branch r, f.step? l.source = some branch ∧
    Chooses branch.rules l (some r) ∧ r.description = some text

/-- Nothing is said about the link: it has no handle, and the rule that it follows, if there is one,
says nothing. -/
def Silent (f : Flow) (l : Link) : Prop :=
  l.sourceHandle.getD "" = "" ∧ ∀ branch r, f.step? l.source = some branch →
    Chooses branch.rules l (some r) → r.text = ""

theorem describes_iff (h : (f.resolve l.source l).Gives hop) (hne : hop ≠ .blocked)
    (hblank : Blank text) : f.Describes l text ↔ hop = .named text := by
  obtain ⟨branch, hbranch, rfl⟩ := exists_rules_of_gives h hne
  have hby := hopBy_hopOf branch.rules l
  constructor
  · rintro ⟨htext, branch', r, hbranch', hchooses, hdescription⟩
    obtain rfl := Option.some.inj (hbranch.symm.trans hbranch')
    have hr := chooses_iff.1 hchooses
    have htold := BranchRule.text_of_description hdescription htext
    rw [← hr] at hby
    generalize hopOf branch.rules l = hop at hby
    cases hby with
    | rule hchoice _ =>
      obtain rfl := Option.some.inj hchoice
      rw [htold]
    | handle hsilent => exact absurd (htold.symm.trans (hsilent r rfl)) htext
    | unconditional hsilent => exact absurd (htold.symm.trans (hsilent r rfl)) htext
  · intro hnamed
    rw [hnamed] at hby
    generalize hhop : Hop.named text = hop at hby
    cases hby with
    | @rule r hchoice htext =>
      obtain rfl := Hop.named.inj hhop
      exact ⟨htext, branch, r, hbranch, chooses_iff.2 hchoice.symm,
        BranchRule.description_of_blank htext hblank⟩
    | @handle handle _ _ _ =>
      rw [Hop.named.inj hhop] at hblank
      exact absurd hblank (BranchRule.not_blank_handleText handle)
    | unconditional => cases hhop

theorem silent_iff (h : (f.resolve l.source l).Gives hop) (hne : hop ≠ .blocked) :
    f.Silent l ↔ hop = .unconditional := by
  obtain ⟨branch, hbranch, rfl⟩ := exists_rules_of_gives h hne
  rw [(hopBy_hopOf branch.rules l).eq_unconditional_iff, Silent, hbranch]
  refine and_congr_right fun _ => ?_
  constructor
  · intro hsilent r hr
    exact hsilent branch r rfl (chooses_iff.2 hr.symm)
  · intro hsilent branch' r hbranch' hchooses
    obtain rfl := Option.some.inj hbranch'
    exact hsilent r (chooses_iff.1 hchooses).symm

/-! ## §4 Texts of routes -/

/-- One link of the route has the text for a description, and nothing is said about the others. -/
inductive SaysOnly (f : Flow) (text : String) : List (Fin f.links.length) → Prop where
  | here {i : Fin f.links.length} {rest : List (Fin f.links.length)}
      (h : f.Describes (f.link i) text) (hrest : ∀ j ∈ rest, f.Silent (f.link j)) :
      SaysOnly f text (i :: rest)
  | later {i : Fin f.links.length} {rest : List (Fin f.links.length)}
      (h : f.Silent (f.link i)) (hrest : SaysOnly f text rest) : SaysOnly f text (i :: rest)

theorem SaysOnly.exists_describes {route : List (Fin f.links.length)}
    (h : f.SaysOnly text route) : ∃ l ∈ f.links, f.Describes l text := by
  induction h with
  | @here i _ h _ => exact ⟨f.link i, List.getElem_mem _, h⟩
  | later _ _ ih => exact ih

variable {route : List (Fin f.links.length)} {hops : List Hop}

theorem silent_route_iff (h : f.HopsAlong route hops) :
    (∀ i ∈ route, f.Silent (f.link i)) ↔ hops.filterMap Hop.text? = [] := by
  induction h with
  | nil => simp
  | @cons i hop _ _ hhop _ ih =>
    obtain ⟨hgives, hne⟩ := hhop
    rw [List.forall_mem_cons, ih, silent_iff hgives hne, List.filterMap_cons]
    -- A hop that is neither blocked nor made at once has a text.
    cases hop with
    | blocked => exact absurd rfl hne
    | unconditional => simp [Hop.text?]
    | named text => simp [Hop.text?]

/-- **A route says only a blank text** just in case no other text comes of its hops. -/
theorem saysOnly_iff (h : f.HopsAlong route hops) (hblank : Blank text) :
    f.SaysOnly text route ↔ hops.filterMap Hop.text? = [text] := by
  induction h with
  | nil => exact iff_of_false nofun nofun
  | @cons i hop rest hops hhop hhops ih =>
    obtain ⟨hgives, hne⟩ := hhop
    have hdescribes := describes_iff hgives hne hblank
    have hsilent := silent_iff hgives hne
    constructor
    · intro honly
      cases honly with
      | here hhere hrest =>
        rw [hdescribes.1 hhere, List.filterMap_cons]
        exact congrArg _ ((silent_route_iff hhops).1 hrest)
      | later hhere hrest =>
        rw [hsilent.1 hhere, List.filterMap_cons]
        exact ih.1 hrest
    · intro htexts
      rw [List.filterMap_cons] at htexts
      cases hop with
      | blocked => exact absurd rfl hne
      | unconditional => exact .later (hsilent.2 rfl) (ih.2 htexts)
      | named said =>
        obtain ⟨rfl, hnone⟩ := List.cons.inj htexts
        exact .here (hdescribes.2 rfl) ((silent_route_iff hhops).2 hnone)

end Flow

/-- Of the conditions of chains, the blank ones consist of a single text: between two texts there is
a word. -/
theorem Hop.combine_eq_blank_iff {hops : List Hop} (hblank : Blank text) :
    combine hops = .llm text ↔ hops.filterMap text? = [text] := by
  unfold combine
  cases hops.filterMap text? with
  | nil => exact iff_of_false nofun nofun
  | cons first rest =>
    cases rest with
    | nil => simp
    | cons second more =>
      refine iff_of_false ?_ (by simp)
      intro hcombined
      have hjoined := Condition.llm.inj hcombined
      have hword : 'A' ∈ text.toList := by
        rw [← hjoined, String.toList_intercalate, List.map_cons, List.map_cons,
          List.intercalate_cons_cons]
        have hseparator : 'A' ∈ separator.toList := by decide
        simp [hseparator]
      exact absurd (hblank 'A' hword) (by decide)

/-! ## §5 Texts of edges -/

/-- The text that a condition asks about, if it asks about one. -/
def Condition.text? : Condition → Option String
  | llm text => some text
  | _ => none

theorem Condition.text?_eq_some {condition : Condition} :
    condition.text? = some text ↔ condition = .llm text := by
  cases condition <;> simp [text?]

namespace Flow

variable {f : Flow} {s : Settings} {source target : String}

/-- **An edge with a text** is one that the plan calls for between two nodes. -/
theorem Passes.exists_edge_saying_iff (p : Passes f) :
    (∃ e ∈ (p.result s).workflow.edges, e.2 = ⟨source, target, .llm text⟩) ↔
      (Table.has (p.result s).workflow.nodes source = true ∧
        Table.has (p.result s).workflow.nodes target = true) ∧
      ∃ c ∈ p.plan, c.source = source ∧ c.target = target ∧ c.condition = .llm text := by
  constructor
  · rintro ⟨e, he, hedge⟩
    rcases Assembly.of_mem_placeAll he with hfirst | ⟨c, hc, hkept, hmade⟩
    · have hcondition := p.condition_of_mem_entered s hfirst
      rw [hedge] at hcondition
      cases hcondition
    · rw [p.lost?_entered, Workflow.joins, Bool.and_eq_true] at hkept
      obtain ⟨rfl, rfl, htext⟩ := Edge.mk.inj (hedge.symm.trans hmade)
      exact ⟨hkept, c, hc, rfl, rfl, htext.symm⟩
  · rintro ⟨hends, c, hc, rfl, rfl, hcondition⟩
    have hjoins : (p.result s).workflow.joins c = true := by
      rw [Workflow.joins, Bool.and_eq_true]
      exact hends
    obtain ⟨n, hedges⟩ := (p.records_result s).edges
    obtain ⟨i, hi⟩ := exists_mem_madeEntries (List.mem_filter.2 ⟨hc, hjoins⟩) n
    refine ⟨_, Table.mem_of_get?_eq_some (hedges _ hi), ?_⟩
    rw [← hcondition]
    rfl

/-! ## §6 Blank conditions -/

/-- The link is followed and enters a branch, and some route from there, to the given target, says
only the text. -/
def SaysOnlyAlong (f : Flow) (l : Link) (target text : String) : Prop :=
  f.Followed l ∧ f.HasBranch l.target ∧ ∃ route, f.IsRoute l.target route ∧
    (∃ i, route.getLast? = some i ∧ (f.link i).target = target) ∧ f.SaysOnly text route

theorem StandsFor.exists_saying_iff {l : Link} {cs : List Connection} (h : f.StandsFor l cs)
    (hl : l ∈ f.links) (hblank : Blank text) :
    (∃ c ∈ cs, c.source = source ∧ c.target = target ∧ c.condition = .llm text) ↔
      l.source = source ∧ f.SaysOnlyAlong l target text := by
  cases h with
  | nothing hnot =>
    refine iff_of_false ?_ fun ⟨_, hfollowed, _⟩ => hnot hfollowed
    rintro ⟨c, hc, -⟩
    cases hc
  | itself _ hdirect =>
    refine iff_of_false ?_ fun ⟨_, _, hbranch, _⟩ => hdirect hbranch
    rintro ⟨c, hc, -, -, hcondition⟩
    rw [List.mem_singleton.1 hc] at hcondition
    exact Transition.not_blank_of_ofLink hcondition hblank
  | chains hfollowed hbranch hchains =>
    have hroutes := chains_follow_routes ⟨l, hl, rfl⟩ hchains
    constructor
    · rintro ⟨c, hc, rfl, rfl, hcondition⟩
      obtain ⟨chain, hchain, rfl⟩ := List.mem_map.1 hc
      obtain ⟨route, hroute, hfollows⟩ := exists_of_mem_right hroutes hchain
      obtain ⟨i, hi, htarget⟩ := hfollows.target
      exact ⟨rfl, hfollowed, hbranch, route, mem_routes.1 hroute, ⟨i, hi, htarget.symm⟩,
        (saysOnly_iff hfollows.hops hblank).2 ((Hop.combine_eq_blank_iff hblank).1 hcondition)⟩
    · rintro ⟨rfl, -, -, route, hroute, ⟨i, hi, rfl⟩, honly⟩
      obtain ⟨chain, hchain, hfollows⟩ := exists_of_mem_left hroutes (mem_routes.2 hroute)
      obtain ⟨j, hj, htarget⟩ := hfollows.target
      obtain rfl := Option.some.inj (hi.symm.trans hj)
      exact ⟨_, List.mem_map_of_mem hchain, rfl, htarget,
        (Hop.combine_eq_blank_iff hblank).2 ((saysOnly_iff hfollows.hops hblank).1 honly)⟩

theorem Passes.exists_planned_saying_iff (p : Passes f) (hblank : Blank text) :
    (∃ c ∈ p.plan, c.source = source ∧ c.target = target ∧ c.condition = .llm text) ↔
      ∃ l ∈ f.links, l.source = source ∧ f.SaysOnlyAlong l target text := by
  constructor
  · rintro ⟨c, hc, hsaying⟩
    obtain ⟨cs, hcs, hmem⟩ := List.mem_flatten.1 hc
    obtain ⟨l, hl, hgives⟩ := exists_of_mem_right p.calls hcs
    have hstands := standsFor_of_gives hgives
    exact ⟨l, hl, (hstands.exists_saying_iff hl hblank).1 ⟨c, hmem, hsaying⟩⟩
  · rintro ⟨l, hl, honly⟩
    obtain ⟨cs, hcs, hgives⟩ := exists_of_mem_left p.calls hl
    have hstands := standsFor_of_gives hgives
    obtain ⟨c, hc, hsaying⟩ := (hstands.exists_saying_iff hl hblank).2 honly
    exact ⟨c, List.mem_flatten.2 ⟨cs, hcs, hc⟩, hsaying⟩

theorem Passes.exists_blank_edge_iff (p : Passes f) (hstrip : Text.strip text = "") :
    (∃ e ∈ (p.result s).workflow.edges, e.2 = ⟨source, target, .llm text⟩) ↔
      (Table.has (p.result s).workflow.nodes source = true ∧
        Table.has (p.result s).workflow.nodes target = true) ∧
      ∃ l ∈ f.links, l.source = source ∧ f.SaysOnlyAlong l target text := by
  rw [p.exists_edge_saying_iff, p.exists_planned_saying_iff (Text.strip_eq_empty_iff.1 hstrip)]

/-- **Where blank conditions come from**, whatever the settings are. Two nodes are joined by an edge
with a blank text just in case some link leaves the first one for a branch, and a route from there
to the second one says nothing but this text, which describes the rule of one of its links. So if no
link follows a rule with a blank description, every text of an edge has more than spaces. -/
theorem blank_text_iff_description (f : Flow) (s : Settings) {c : Compilation}
    (h : f.Returns s c) :
    (∀ source target text, Text.strip text = "" →
      ((∃ e ∈ c.workflow.edges, e.2 = ⟨source, target, .llm text⟩) ↔
        (Table.has c.workflow.nodes source = true ∧ Table.has c.workflow.nodes target = true) ∧
          ∃ l ∈ f.links, l.source = source ∧ f.SaysOnlyAlong l target text)) ∧
    ((∀ l ∈ f.links, ∀ text, f.Describes l text → Text.strip text ≠ "") →
      ∀ e ∈ c.workflow.edges, ∀ text, e.2.condition = .llm text →
        Text.strip text ≠ "") := by
  obtain ⟨p, hp⟩ := h.passes
  have hworkflow : c.workflow = (p.result s).workflow := by rw [hp]
  rw [hworkflow]
  refine ⟨fun source target text hstrip => p.exists_blank_edge_iff hstrip, ?_⟩
  intro hwritten e he text hcondition hstrip
  have hedge : ∃ e' ∈ (p.result s).workflow.edges,
      e'.2 = ⟨e.2.source, e.2.target, .llm text⟩ := ⟨e, he, by rw [← hcondition]⟩
  obtain ⟨-, -, -, -, -, -, route, -, -, honly⟩ := (p.exists_blank_edge_iff hstrip).1 hedge
  obtain ⟨l, hl, hdescribes⟩ := honly.exists_describes
  exact hwritten l hl text hdescribes hstrip

/-- Two branches one after the other. Nothing is said at the first one, and the rule of the other
one has a space for a description. -/
def murmuring : Flow where
  steps := [
    { id := "a", type := some "message" },
    { id := "c", type := some "condition" },
    { id := "d", type := some "condition", data := { config := [("conditions", .arr [
      .obj [("targetNodeId", .str "b"), ("description", .str " ")]])] } },
    { id := "b", type := some "end" }]
  links := [
    { id := "e1", source := "a", target := "c" },
    { id := "e2", source := "c", target := "d" },
    { id := "e3", source := "d", target := "b" }]

/-- The route from the first branch on says only a space, so that is what the edge waits for. -/
theorem blank_text_iff_description_murmuring :
    Text.strip " " = "" ∧ ∃ c, murmuring.Returns {} c ∧
      ∃ e ∈ c.workflow.edges, e.2 = ⟨"a", "b", .llm " "⟩ := by
  obtain ⟨c, hgives⟩ := gives_of_succeeds (a := murmuring.compile {}) (by decide +kernel)
  have hreturns : murmuring.Returns {} c := .plain hgives
  have hstrip : Text.strip " " = "" := by decide
  have hnodes : (murmuring.compile {}).outcome.map (fun c => Table.names c.workflow.nodes) =
      .ok ["start_node", "a", "b"] := by decide +kernel
  rw [hgives] at hnodes
  have hnode : ∀ id ∈ ["start_node", "a", "b"], Table.has c.workflow.nodes id = true := by
    rw [← Except.ok.inj hnodes]
    exact fun id hid => (Table.has_iff_mem_names _ _).2 hid
  let first : Fin murmuring.links.length := ⟨1, by decide⟩
  let second : Fin murmuring.links.length := ⟨2, by decide⟩
  have hfirst : murmuring.HasBranch "c" := by decide +kernel
  have hsecond : murmuring.HasBranch "d" := by decide +kernel
  have hends : ¬ murmuring.HasBranch "b" := by decide +kernel
  have hlast : murmuring.IsRoute "d" [second] := isRoute_cons.2 ⟨rfl, Or.inl ⟨rfl, hends⟩⟩
  have hroute : murmuring.IsRoute "c" [first, second] :=
    isRoute_cons.2 ⟨rfl, Or.inr ⟨hsecond, hlast, by decide⟩⟩
  have hsilent : murmuring.Silent (murmuring.link first) := by
    refine ⟨rfl, fun branch r hbranch hchooses => ?_⟩
    obtain rfl := Option.some.inj hbranch
    exact absurd (chooses_iff.1 hchooses) nofun
  have hdescribes : murmuring.Describes (murmuring.link second) " " :=
    ⟨by decide, _, _, rfl, chooses_iff.2 rfl, rfl⟩
  let entering : Link := { id := "e1", source := "a", target := "c" }
  have hfollowed : murmuring.Followed entering :=
    { source := by decide +kernel, target := by decide +kernel, branch := by decide +kernel }
  have hways : murmuring.SaysOnlyAlong entering "b" " " :=
    ⟨hfollowed, hfirst, [first, second], hroute, ⟨second, rfl, rfl⟩,
      .later hsilent (.here hdescribes nofun)⟩
  obtain ⟨hedges, -⟩ := blank_text_iff_description murmuring {} hreturns
  exact ⟨hstrip, c, hreturns, (hedges "a" "b" " " hstrip).2
    ⟨⟨hnode "a" (by decide), hnode "b" (by decide)⟩, entering, .head _, rfl, hways⟩⟩

/-- Not every compiled flow is free of blank conditions. -/
theorem murmuring_blank :
    ∃ c, murmuring.Returns {} c ∧
      ∃ e ∈ c.workflow.edges, ∃ text, e.2.condition = .llm text ∧ Text.strip text = "" := by
  obtain ⟨c, hgives⟩ := gives_of_succeeds (a := murmuring.compile {}) (by decide +kernel)
  have htexts : (murmuring.compile {}).outcome.map (fun c =>
      c.workflow.edges.filterMap fun e => e.2.condition.text?) = .ok [" "] := by decide +kernel
  rw [hgives] at htexts
  have hspace : (c.workflow.edges.filterMap fun e => e.2.condition.text?) = [" "] :=
    Except.ok.inj htexts
  obtain ⟨e, he, htext⟩ := List.mem_filterMap.1 (hspace ▸ List.mem_singleton_self " ")
  exact ⟨c, .plain hgives, e, he, " ", Condition.text?_eq_some.1 htext, by decide⟩

end Flow

end CallFlow
