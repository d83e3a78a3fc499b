import CallFlow.Proofs.Tables
import CallFlow.Workflow.Report
import Mathlib.Logic.Relation

/-!
# What a Search Reaches

The validator searches a workflow breadth first. Nodes that have been found leave the list of
unseen nodes, so the search never looks at a node twice. Nothing is missed by that: a path that
comes to a node found before can be taken up at that node, and it need not come back there.

## Sections

1. Searching with a queue
2. Searching from a root
-/

namespace CallFlow.Workflow

open Relation

/-! ## §1 Searching with a queue -/

/-- One step ahead: to an unseen node. -/
def Ahead (leads : String → String → Bool) (unseen : List String) (a b : String) : Prop :=
  leads a b = true ∧ b ∈ unseen

variable {leads : String → String → Bool} {unseen queue : List String} {a b id : String}

theorem mem_found : b ∈ found leads a unseen ↔ b ∈ unseen ∧ leads a b = true := by
  simp [found]

theorem mem_notFound : b ∈ notFound leads a unseen ↔ b ∈ unseen ∧ leads a b = false := by
  simp [notFound]

/-- A path can be taken up at the last node on it that has just been found, if there is one. -/
theorem path_of_notFound (first : String) (h : ReflTransGen (Ahead leads unseen) a b) :
    ReflTransGen (Ahead leads (notFound leads first unseen)) a b ∨
      ∃ next ∈ found leads first unseen,
        ReflTransGen (Ahead leads (notFound leads first unseen)) next b := by
  induction h with
  | refl => exact Or.inl .refl
  | @tail b c _ hstep ih =>
    obtain ⟨hleads, hunseen⟩ := hstep
    cases hfirst : leads first c with
    | true =>
      -- The path has come to a node that is found now, and begins anew there.
      exact Or.inr ⟨c, mem_found.2 ⟨hunseen, hfirst⟩, .refl⟩
    | false =>
      have hlater : Ahead leads (notFound leads first unseen) b c :=
        ⟨hleads, mem_notFound.2 ⟨hunseen, hfirst⟩⟩
      rcases ih with hpath | ⟨next, hnext, hpath⟩
      · exact Or.inl (hpath.tail hlater)
      · exact Or.inr ⟨next, hnext, hpath.tail hlater⟩

/-- **A search visits what paths of unseen nodes lead to** from the nodes in its queue. -/
theorem mem_explore :
    id ∈ explore leads unseen queue ↔
      ∃ first ∈ queue, ReflTransGen (Ahead leads unseen) first id := by
  fun_induction explore leads unseen queue with
  | case1 unseen => simp
  | case2 unseen first rest ih =>
    rw [List.mem_cons, ih]
    constructor
    · rintro (rfl | ⟨next, hnext, hpath⟩)
      · exact ⟨id, List.mem_cons_self .., .refl⟩
      · have hwider : ReflTransGen (Ahead leads unseen) next id := by
          refine ReflTransGen.mono ?_ _ _ hpath
          intro x y hstep
          exact ⟨hstep.1, (mem_notFound.1 hstep.2).1⟩
        rcases List.mem_append.1 hnext with hrest | hfound
        · exact ⟨next, List.mem_cons_of_mem _ hrest, hwider⟩
        · -- The first node of the queue leads to what it finds.
          obtain ⟨hunseen, hleads⟩ := mem_found.1 hfound
          exact ⟨first, List.mem_cons_self .., .head ⟨hleads, hunseen⟩ hwider⟩
    · rintro ⟨start, hstart, hpath⟩
      rcases path_of_notFound first hpath with hlate | ⟨next, hnext, hlate⟩
      · rcases List.mem_cons.1 hstart with rfl | hrest
        · -- A path from the first node ends there, or its second node would be found now.
          rcases hlate.cases_head with heq | ⟨next, hstep, -⟩
          · exact Or.inl heq.symm
          · obtain ⟨-, hnot⟩ := mem_notFound.1 hstep.2
            rw [hstep.1] at hnot
            cases hnot
        · exact Or.inr ⟨start, List.mem_append_left _ hrest, hlate⟩
      · exact Or.inr ⟨next, List.mem_append_right _ hnext, hlate⟩

/-! ## §2 Searching from a root -/

variable {w : Workflow} {root : String}

theorem leads_iff : w.leads a b = true ↔ ∃ e ∈ w.edges, e.2.source = a ∧ e.2.target = b := by
  simp [leads]

/-- One step along an edge to a node. -/
def LeadsToNode (w : Workflow) (a b : String) : Prop :=
  (∃ e ∈ w.edges, e.2.source = a ∧ e.2.target = b) ∧ Table.has w.nodes b = true

/-- A path need not come back to its root. -/
theorem path_of_leads (h : ReflTransGen w.LeadsToNode root id) :
    ReflTransGen (Ahead w.leads ((Table.names w.nodes).filter (· ≠ root))) root id := by
  induction h with
  | refl => exact .refl
  | @tail b c _ hstep ih =>
    by_cases hroot : c = root
    · rw [hroot]
    · refine ih.tail ⟨leads_iff.2 hstep.1, ?_⟩
      simpa [hroot] using (Table.has_iff_mem_names ..).1 hstep.2

/-- **A node is reached just in case a path of edges between nodes leads to it** from the root,
which is a node itself. -/
theorem mem_reachableFrom :
    id ∈ w.reachableFrom root ↔
      Table.has w.nodes root = true ∧ ReflTransGen w.LeadsToNode root id := by
  unfold reachableFrom
  cases hroot : Table.has w.nodes root with
  | false => simp
  | true =>
    simp only [if_true, mem_explore, List.mem_singleton, exists_eq_left, true_and]
    constructor
    · intro h
      refine ReflTransGen.mono ?_ _ _ h
      rintro x y ⟨hleads, hmem⟩
      refine ⟨leads_iff.1 hleads, ?_⟩
      exact (Table.has_iff_mem_names ..).2 (List.mem_filter.1 hmem).1
    · exact path_of_leads

end CallFlow.Workflow
