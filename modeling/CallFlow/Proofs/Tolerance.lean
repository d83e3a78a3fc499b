import CallFlow.Proofs.DocumentNumbers
import CallFlow.Proofs.Failing

/-!
# Which Flows Are Compiled

A lenient compilation puts up with nearly everything: unknown categories, links that lead
nowhere, entries of lists that are malformed, texts where numbers are expected. It does not put
up with a list that is no list, nor with a delay without end, and these are the only things
that stop it. A list of rules stops it only if it is read, that is, if an expansion comes to its
branch and finds a link to follow there.

All this is said of flows whose numbers can be written, as those of every flow from a document can.
A whole number with more digits than a document may have has no text, so a flow that holds one is
not called compilable, whether or not the number would ever be made part of a text.

## Sections

1. Steps that are compiled
2. Rules that are read
3. Flows that are compiled
-/

namespace CallFlow

open Attempt

/-! ## §1 Steps that are compiled -/

/-- What a step needs to be compiled: fields that can be walked through, and a finite delay. -/
structure Step.Compilable (s : Step) : Prop where
  fields : s.category.isForm = true → (s.setting "fields").Listable
  delay : s.category.isAgentTransfer = true → (s.setting "delay_ms").isEndless = false

instance (s : Step) : Decidable s.Compilable :=
  decidable_of_iff ((s.category.isForm = true → (s.setting "fields").Listable) ∧
      (s.category.isAgentTransfer = true → (s.setting "delay_ms").isEndless = false))
    ⟨fun h => ⟨h.1, h.2⟩, fun h => ⟨h.fields, h.delay⟩⟩

theorem Step.exists_gives_compile {s : Step} : (∃ c, s.compile.Gives c) ↔ s.Compilable := by
  constructor
  · rintro ⟨c, hc⟩
    refine ⟨fun hform => ?_, fun htransfer => ?_⟩
    · by_contra hfields
      exact hc.not_fails _ (fails_compile.2 (Or.inl ⟨hform, rfl, hfields⟩))
    · by_contra hdelay
      have hendless := Bool.not_eq_false _ ▸ hdelay
      exact hc.not_fails _ (fails_compile.2 (Or.inr ⟨htransfer, rfl, hendless⟩))
  · rintro ⟨hfields, hdelay⟩
    rcases s.compile.gives_or_fails with hgives | ⟨e, he⟩
    · exact hgives
    · -- Both ways to fail are ruled out.
      rcases fails_compile.1 he with ⟨hform, -, hbad⟩ | ⟨htransfer, -, hbad⟩
      · exact absurd (hfields hform) hbad
      · rw [hdelay htransfer] at hbad
        cases hbad

namespace Flow

variable {f : Flow}

/-! ## §2 Rules that are read -/

/-- Chains that leave a branch take every link there. -/
theorem exists_hop_of_chains {left : List String} {branchId : String} {chains : List Chain}
    (h : (f.chainsFrom left branchId).Gives chains) {l : Link} (hl : l ∈ f.linksFrom branchId) :
    ∃ hop, (f.resolve branchId l).Gives hop := by
  obtain ⟨parts, hparts, -⟩ := chainsOver_of_gives h
  obtain ⟨part, -, hover⟩ := exists_of_mem_left hparts hl
  cases hover with
  | blocked h => exact ⟨_, h⟩
  | ends h => exact ⟨_, h⟩
  | passes h => exact ⟨_, h⟩
  | turnsBack h => exact ⟨_, h⟩

/-- The search for chains comes to every branch that a walk through those that are left leads to. -/
theorem exists_chains_of_walk {left : List String} {branchId id : String} {chains : List Chain}
    (hleft : ∀ id ∈ left, f.HasBranch id) (hentered : ∃ l ∈ f.links, l.target = branchId)
    (hid : id ∈ left) (w : f.Walk (· ∈ left) branchId id)
    (h : (f.chainsFrom left branchId).Gives chains) :
    ∃ left' chains', (f.chainsFrom left' id).Gives chains' := by
  induction hn : left.length using Nat.strongRecOn
    generalizing left branchId chains with
  | _ n ih =>
    -- The first link of the walk leads to a branch that is left, so the search goes on there.
    have hfirst : ∀ l ∈ f.links, l.source = branchId → l.target ∈ left →
        ∃ more, (f.chainsFrom (left.erase l.target) l.target).Gives more := by
      intro l hl hsource hmem
      obtain ⟨parts, hparts, -⟩ := chainsOver_of_gives h
      obtain ⟨part, -, hover⟩ := exists_of_mem_left hparts (mem_linksFrom.2 ⟨hl, hsource⟩)
      cases hover with
      | blocked h => exact absurd rfl (ne_blocked_of_entered hentered h)
      | ends _ _ hnot => exact absurd (hleft _ hmem) hnot
      | turnsBack _ _ _ hnot => exact absurd hmem hnot
      | passes _ _ _ _ hmore => exact ⟨_, hmore⟩
    cases w with
    | @link _ _ l hl hsource htarget =>
      subst htarget
      obtain ⟨more, hmore⟩ := hfirst l hl hsource hid
      exact ⟨_, more, hmore⟩
    | @step _ _ l hl hsource hmem rest =>
      obtain ⟨more, hmore⟩ := hfirst l hl hsource hmem
      by_cases hsame : id = l.target
      · exact ⟨_, more, hsame ▸ hmore⟩
      · -- The rest of the walk need not come back to the branch that it begins with.
        have hrest := rest.through_erase
        have hshorter : (left.erase l.target).length < n := hn ▸ length_erase_lt hmem
        exact ih _ hshorter (fun id hid => hleft id (List.mem_of_mem_erase hid)) ⟨l, hl, rfl⟩
          ((List.mem_erase_of_ne hsame).2 hid) hrest hmore rfl

/-- A search for chains among all branches has read the rules of every branch on the way. -/
theorem exists_hop_of_onTheWay {first id : String} {leaving : Link} {chains : List Chain}
    (hentered : ∃ l ∈ f.links, l.target = first)
    (h : (f.chainsFrom (f.branchIds.erase first) first).Gives chains)
    (hway : f.OnTheWay first id) (hleaving : leaving ∈ f.linksFrom id) :
    ∃ hop, (f.resolve id leaving).Gives hop := by
  by_cases hsame : id = first
  · subst hsame
    exact exists_hop_of_chains h hleaving
  · obtain ⟨hid, hwalk⟩ := hway.resolve_left hsame
    have hleft : id ∈ f.branchIds.erase first :=
      (List.mem_erase_of_ne hsame).2 (mem_branchIds.2 hid)
    obtain ⟨left, more, hmore⟩ := exists_chains_of_walk hasBranch_of_mem_erase hentered hleft
      hwalk.through_branchIds h
    exact exists_hop_of_chains hmore hleaving

/-- An expansion that goes through has read the rules of every branch on the way. -/
theorem exists_hop_of_expanded {l leaving : Link} {cs : List Connection} {id : String}
    (hl : l ∈ f.links) (hexpanded : f.Expanded l) (hcs : (f.connectionsOf l).Gives cs)
    (hway : f.OnTheWay l.target id) (hleaving : leaving ∈ f.linksFrom id) :
    ∃ hop, (f.resolve id leaving).Gives hop := by
  have hchains : ∃ chains,
      (f.chainsFrom (f.branchIds.erase l.target) l.target).Gives chains := by
    rcases gives_or_fails (f.chainsFrom (f.branchIds.erase l.target) l.target) with
      hgives | ⟨e, he⟩
    · exact hgives
    · exact absurd (fails_connectionsOf.2 ⟨hexpanded, he⟩) (hcs.not_fails e)
  obtain ⟨chains, hchains⟩ := hchains
  exact exists_hop_of_onTheWay ⟨l, hl, rfl⟩ hchains hway hleaving

/-! ## §3 Flows that are compiled -/

/-- What a flow needs to be compiled besides having steps. -/
structure Compilable (f : Flow) : Prop where
  numbers : f.isWritable = true
  steps : ∀ t ∈ f.steps, t.Compilable
  rules : ∀ id branch, f.Consults id → f.step? id = some branch →
    (branch.setting "conditions").Listable

/-- A flow that has gone through the passes lacks nothing. -/
theorem Passes.compilable (p : Passes f) (hwritable : f.isWritable = true) : f.Compilable where
  numbers := hwritable
  steps := by
    intro t ht
    obtain ⟨c, -, hc⟩ := exists_of_mem_left p.compiles ht
    exact Step.exists_gives_compile.1 ⟨c, hc⟩
  rules := by
    intro id branch hconsults hbranch
    have hentered := hconsults.entered
    obtain ⟨⟨l, hl, hexpanded, hway⟩, leaving, hmem, hsource⟩ := hconsults
    obtain ⟨cs, -, hcs⟩ := exists_of_mem_left p.calls hl
    obtain ⟨hop, hhop⟩ :=
      exists_hop_of_expanded hl hexpanded hcs hway (mem_linksFrom.2 ⟨hmem, hsource⟩)
    by_contra hrules
    exact hhop.not_fails _ ((fails_resolve hbranch hentered).2 ⟨rfl, hrules⟩)

/-- A lenient compilation fails for want of something, and the failure says of what kind. -/
theorem FailsAt.lenient {s : Settings} {e : Failure} (h : f.FailsAt s e)
    (hne : f.steps ≠ []) (hs : s.strictDanglingEdges = false) :
    ¬ f.Compilable ∧ (e = .notAListing ∨ e = .infiniteDelay) := by
  cases h with
  | noSteps hnone => exact absurd hnone hne
  | @step t e ht hfails =>
    refine ⟨fun h => ?_, ?_⟩
    · obtain ⟨c, hc⟩ := Step.exists_gives_compile.2 (h.steps t ht)
      exact hc.not_fails e hfails
    · exact (Step.fails_compile.1 hfails).imp (fun h => h.2.1) fun h => h.2.1
  | link hl hfails =>
    obtain ⟨he, id, branch, hconsults, hbranch, hrules⟩ := exists_consults_of_fails hl hfails
    exact ⟨fun h => hrules (h.rules id branch hconsults hbranch), Or.inl he⟩
  | lost hstrict =>
    rw [hs] at hstrict
    cases hstrict

/-- **Which flows are compiled.** A lenient compilation of a flow with steps, whose numbers can all
be written, returns a result just in case the fields of every form, and the rules of every branch
that is consulted, can be walked through, and no transfer has an infinite delay. If it fails, then
for one of these two reasons. -/
theorem compiles_iff (f : Flow) (hne : f.steps ≠ []) (s : Settings)
    (hs : s.strictDanglingEdges = false) :
    (f.isWritable = true ∧ (∃ c, (f.compile s).Gives c) ↔ f.Compilable) ∧
      (f.isWritable = true →
        ∀ e, (f.compile s).Fails e → e = .notAListing ∨ e = .infiniteDelay) := by
  refine ⟨⟨?_, fun h => ⟨h.numbers, ?_⟩⟩,
    fun _ e he => ((failsAt_of_fails he).lenient hne hs).2⟩
  · rintro ⟨hwritable, c, hc⟩
    obtain ⟨-, p, -⟩ := Passes.of_gives s hc
    exact p.compilable hwritable
  · rcases gives_or_fails (f.compile s) with hgives | ⟨e, he⟩
    · exact hgives
    · exact absurd h ((failsAt_of_fails he).lenient hne hs).1

/-- A flow full of scribbles: fields of every kind, an object in the place of rules, a delay in
words, and rules that are a number at a branch where nobody reads them. -/
def scribbles : Flow where
  steps := [
    { id := "f", type := some "form",
      data := { config := [("formId", .int 7), ("fields", .arr [.null, .int 3, .obj []])] } },
    { id := "c", type := some "condition",
      data := { config := [("conditions", .obj [("id", .arr [])])] } },
    { id := "d", type := some "condition", data := { config := [("conditions", .int 5)] } },
    { id := "x", type := some "agent_transfer",
      data := { config := [("delay_ms", .str "soon"), ("agentId", .bool true)] } },
    { id := "?", type := some "no such thing" }]
  links := [
    { id := "e1", source := "f", target := "c", sourceHandle := some "" },
    { id := "e2", source := "c", target := "x", sourceHandle := some "maybe" },
    { id := "e3", source := "c", target := "d" },
    { id := "e4", source := "nowhere", target := "?" }]

/-- The scribbles are compiled. -/
theorem compiles_iff_scribbles :
    scribbles.steps ≠ [] ∧ Settings.strictDanglingEdges {} = false ∧
      ∃ c, (scribbles.compile {}).Gives c := by
  have hne : scribbles.steps ≠ [] := by decide
  have hs : Settings.strictDanglingEdges {} = false := rfl
  have hsteps : ∀ t ∈ scribbles.steps, t.Compilable := by decide +kernel
  have hread : ∀ l ∈ scribbles.links, ∀ t ∈ scribbles.steps, t.id = l.source →
      (t.setting "conditions").Listable := by decide +kernel
  have hwritable : scribbles.isWritable = true := by decide +kernel
  refine ⟨hne, hs, ((compiles_iff scribbles hne {} hs).1.2 ⟨hwritable, hsteps, ?_⟩).2⟩
  -- Only a branch that some link leaves is consulted.
  rintro id branch ⟨-, l, hl, rfl⟩ hbranch
  obtain ⟨hmem, hid⟩ := mem_of_step?_eq_some hbranch
  exact hread l hl branch hmem hid

/-- A form whose fields are a number. -/
def numberedForm : Flow where
  steps := [{ id := "f", type := some "form", data := { config := [("fields", .int 5)] } }]

/-- Not everything malformed is put up with: the number of fields is no list of fields. -/
theorem numberedForm_fails :
    numberedForm.steps ≠ [] ∧ ¬ ∃ c, (numberedForm.compile {}).Gives c := by
  have hfails : (numberedForm.compile {}).outcome.map (fun _ => ()) = .error .notAListing := by
    decide +kernel
  refine ⟨by decide, ?_⟩
  rintro ⟨c, hc⟩
  rw [hc] at hfails
  cases hfails

end Flow

end CallFlow
