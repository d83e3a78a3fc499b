import CallFlow.Proofs.BranchElimination

/-!
# What Becomes of a Link

A link stands for connections, and every one of them becomes an edge or is recorded as dropped. So
a link is accounted for as soon as it stands for any connection at all. Links between steps always
do. A link into a branch is paired with what leaves the branch, and where no walk leads out of the
branches again, there is nothing to pair it with: such a link stands for nothing, neither an edge
nor a record.

## Sections

1. Made edges are kept
2. Records of connections
3. What links stand for
4. Links that are accounted for
-/

namespace CallFlow

open Attempt

/-! ## §1 Made edges are kept -/

namespace Assembly

/-- Placing connections leaves the edges alone that have been made before. -/
theorem get?_placeAll_of_made {a : Assembly} {n : Nat} (hn : n ≤ a.made) (source target : String)
    (cs : List Flow.Connection) :
    Table.get? (a.placeAll cs).edges (edgeId n source target) =
      Table.get? a.edges (edgeId n source target) := by
  let Kept : Assembly → Prop := fun b =>
    n ≤ b.made ∧ Table.get? b.edges (edgeId n source target) =
      Table.get? a.edges (edgeId n source target)
  have hstep : ∀ b c, Kept b → Kept (b.place c) := by
    rintro b c ⟨hmade, hkept⟩
    unfold place
    split
    · exact ⟨hmade, hkept⟩
    · -- The next id has a higher counter.
      have hne : edgeId (b.made + 1) c.source c.target ≠ edgeId n source target := by
        intro hsame
        have hcounter := edgeId_counter_injective hsame
        omega
      exact ⟨Nat.le_succ_of_le hmade, (Table.get?_set_of_ne _ hne _).trans hkept⟩
  exact (placeAll_invariant hstep (⟨hn, rfl⟩ : Kept a) cs).2

/-- **Every connection that is not lost has its edge**, whatever edges have been there before. -/
theorem get?_of_mem_madeEntries {a : Assembly} {cs : List Flow.Connection} {e : String × Edge}
    (he : e ∈ madeEntries a.made (cs.filter fun c => (a.lost? c).isNone)) :
    Table.get? (a.placeAll cs).edges e.1 = some e.2 := by
  induction cs generalizing a with
  | nil => simp [madeEntries] at he
  | cons c rest ih =>
    rw [placeAll_cons]
    cases hc : a.lost? c with
    | some d =>
      -- A lost connection takes no number.
      have hmade : (a.place c).made = a.made := by
        simp [place, hc]
      refine ih ?_
      rw [hmade, lost?_place]
      simpa [hc] using he
    | none =>
      have hplace : a.place c = a.addMade ⟨c.source, c.target, c.condition⟩ := by
        simp [place, hc]
      have hmade : (a.place c).made = a.made + 1 := by
        rw [hplace]
        rfl
      simp only [List.filter_cons, hc, Option.isNone_none, if_true, madeEntries,
        List.zipIdx_cons, List.map_cons, List.mem_cons] at he
      rcases he with rfl | hlater
      · -- The edge is made now, and kept from then on.
        rw [madeEntry, get?_placeAll_of_made (hmade ▸ Nat.le_refl _), hplace]
        exact Table.get?_set_self ..
      · refine ih ?_
        rw [hmade, lost?_place]
        exact hlater

end Assembly

/-! ## §2 Records of connections -/

/-- Of a list of connections, those between nodes have edges of their own, which are numbered one
after the other, and the others are recorded as dropped, in order. -/
structure Compilation.Records (c : Compilation) (plan : List Flow.Connection) : Prop where
  edges : ∃ n, ∀ e ∈ Assembly.madeEntries n (plan.filter c.workflow.joins),
    Table.get? c.workflow.edges e.1 = some e.2
  dropped : (c.dropped.map fun d => (d.linkId, d.source, d.target)) =
    (plan.filter fun x => !c.workflow.joins x).map fun x => (some x.linkId, x.source, x.target)

/-- The connection has an edge, or it is recorded as dropped under the id of a link. -/
def Compilation.Accounts (c : Compilation) (linkId : String) (x : Flow.Connection) : Prop :=
  (∃ id, Table.get? c.workflow.edges id =
    some { source := x.source, target := x.target, condition := x.condition }) ∨
  ∃ d ∈ c.dropped, d.linkId = some linkId ∧ d.source = x.source ∧ d.target = x.target

namespace Flow

variable {f : Flow}

/-- Whatever the settings are, a result records its plan. -/
theorem Passes.records_result (p : Passes f) (s : Settings) : (p.result s).Records p.plan where
  edges := by
    refine ⟨(p.entered s).made, fun e he => ?_⟩
    rw [← p.kept_eq_joins] at he
    exact Assembly.get?_of_mem_madeEntries he
  dropped := by
    rw [p.dropped_result, List.map_map]
    rfl

theorem exists_mem_madeEntries {cs : List Connection} {c : Connection} (hc : c ∈ cs) (n : Nat) :
    ∃ i, Assembly.madeEntry c i ∈ Assembly.madeEntries n cs := by
  obtain ⟨i, hi, rfl⟩ := List.getElem_of_mem hc
  refine ⟨n + 1 + i, List.mem_map.2 ⟨(cs[i], n + 1 + i), ?_, rfl⟩⟩
  rw [List.mk_mem_zipIdx_iff_le_and_getElem?_sub]
  simp

/-! ## §3 What links stand for -/

theorem Calls.linkId_eq {l : Link} {cs : List Connection} (h : f.Calls l cs) {c : Connection}
    (hc : c ∈ cs) : c.linkId = l.id := by
  cases h with
  | atTrigger => simp at hc
  | leavesBranch => simp at hc
  | direct => rw [List.mem_singleton.1 hc]
  | entersBranch =>
    obtain ⟨e, -, rfl⟩ := List.mem_map.1 hc
    rfl

/-- The link leads to an id that is no branch, at once or by a walk through branches. -/
def LeadsOut (f : Flow) (l : Link) : Prop :=
  ¬ f.HasBranch l.target ∨ ∃ id, ¬ f.HasBranch id ∧ f.Walk f.HasBranch l.target id

/-- **A link stands for connections just in case it leads out of the branches.** -/
theorem Calls.ne_nil_iff (hf : f.DistinctIds) {l : Link} (hl : l ∈ f.links)
    {cs : List Connection} (h : f.Calls l cs) (hfrom : ¬ f.HasTrigger l.source)
    (hsource : ¬ f.HasBranch l.source) (hto : ¬ f.HasTrigger l.target) :
    cs ≠ [] ↔ f.LeadsOut l := by
  constructor
  · intro hne
    cases h with
    | atTrigger => exact absurd rfl hne
    | leavesBranch => exact absurd rfl hne
    | direct _ _ htarget => exact Or.inl htarget
    | entersBranch _ _ htarget hexpand =>
      obtain ⟨chains, hchains, rfl⟩ := chains_of_expand hf hfrom hsource htarget hexpand
      obtain ⟨chain, hchain⟩ := List.exists_mem_of_ne_nil chains (by simpa using hne)
      exact Or.inr ⟨chain.target, not_hasBranch_of_mem_chainsFrom hchains hchain,
        walk_of_mem_chainsFrom hchains hchain⟩
  · intro hleads
    by_cases htarget : f.HasBranch l.target
    · obtain ⟨id, hid, hwalk⟩ := hleads.resolve_left (not_not_intro htarget)
      obtain ⟨c, hc, -⟩ := h.exists_of_walk hf hl hfrom hsource htarget hid hwalk
      exact List.ne_nil_of_mem hc
    · -- The link joins two ids that are no branches, and stands for itself.
      cases h with
      | atTrigger hskip => exact absurd hskip (not_or.2 ⟨hfrom, hto⟩)
      | leavesBranch hskip => exact absurd hskip hsource
      | entersBranch _ _ hbranch => exact absurd hbranch htarget
      | direct => exact List.cons_ne_nil _ _

/-! ## §4 Links that are accounted for -/

/-- **What is recorded accounts for every connection.** -/
theorem accounts_of_records {c : Compilation} {plan : List Connection} (h : c.Records plan)
    {x : Connection} (hx : x ∈ plan) : c.Accounts x.linkId x := by
  cases hjoins : c.workflow.joins x with
  | true =>
    -- Both ends are nodes, so an edge has been made.
    obtain ⟨n, hedges⟩ := h.edges
    obtain ⟨i, hi⟩ := exists_mem_madeEntries (List.mem_filter.2 ⟨hx, hjoins⟩) n
    exact Or.inl ⟨_, hedges _ hi⟩
  | false =>
    -- An end is missing, so the connection is on record.
    have hmem : (some x.linkId, x.source, x.target) ∈
        c.dropped.map fun d => (d.linkId, d.source, d.target) := by
      rw [h.dropped]
      exact List.mem_map_of_mem (List.mem_filter.2 ⟨hx, by simp [hjoins]⟩)
    obtain ⟨d, hd, hsame⟩ := List.mem_map.1 hmem
    simp only [Prod.mk.injEq] at hsame
    exact Or.inr ⟨d, hd, hsame⟩

/-- **Links that lead out of the branches are accounted for.** The links of a flow call for a plan
that the result records in full, whatever the settings are. A link between steps that are no
triggers, and from a step that is no branch, calls for something just in case it leads out of the
branches, and everything that it calls for has an edge or a record with the id of the link. -/
theorem links_accounted (f : Flow) (s : Settings) (hf : f.DistinctIds) {c : Compilation}
    (h : f.Returns s c) :
    ∃ called : List (List Connection), List.Forall₂ f.Calls f.links called ∧
      c.Records called.flatten ∧
      ∀ l cs, (l, cs) ∈ f.links.zip called →
        ¬ f.HasTrigger l.source → ¬ f.HasBranch l.source → ¬ f.HasTrigger l.target →
        (cs ≠ [] ↔ f.LeadsOut l) ∧ ∀ x ∈ cs, c.Accounts l.id x := by
  obtain ⟨p, hp⟩ := h.passes
  have hcalls : List.Forall₂ f.Calls f.links p.called :=
    p.calls.imp fun l cs hcs => calls_of_gives hf hcs
  have hrecords : c.Records p.called.flatten := by
    rw [hp]
    exact ⟨(p.records_result s).edges, (p.records_result s).dropped⟩
  refine ⟨p.called, hcalls, hrecords, fun l cs hmem hfrom hsource hto => ?_⟩
  have hcs : f.Calls l cs := (List.forall₂_iff_zip.1 hcalls).2 hmem
  obtain ⟨hl, hcalled⟩ := List.of_mem_zip hmem
  refine ⟨hcs.ne_nil_iff hf hl hfrom hsource hto, fun x hx => ?_⟩
  rw [← hcs.linkId_eq hx]
  exact accounts_of_records hrecords (List.mem_flatten.2 ⟨cs, hcalled, hx⟩)

/-- On the crossroads the walk out of the branches that leads nowhere is accounted for by a record,
and the other by an edge. -/
theorem links_accounted_crossroads :
    crossroads.DistinctIds ∧ ∃ c, crossroads.Returns {} c ∧
      ∃ called : List (List Connection),
        List.Forall₂ crossroads.Calls crossroads.links called ∧
        ∃ l cs, l ∈ crossroads.links ∧ l.id = "e2" ∧ (l, cs) ∈ crossroads.links.zip called ∧
          cs ≠ [] ∧ ∀ x ∈ cs, c.Accounts "e2" x := by
  have hids : crossroads.DistinctIds := by decide
  obtain ⟨c, hgives⟩ := gives_of_succeeds (a := crossroads.compile {}) (by decide +kernel)
  have hreturns : crossroads.Returns {} c := .plain hgives
  obtain ⟨called, hcalls, -, haccounts⟩ := links_accounted crossroads {} hids hreturns
  let l : Link := { id := "e2", source := "a", target := "c" }
  have hl : l ∈ crossroads.links := List.mem_of_getElem? (i := 1) rfl
  have hzip : (crossroads.links.zip called).map Prod.fst = crossroads.links :=
    List.map_fst_zip (Nat.le_of_eq hcalls.length_eq)
  obtain ⟨cs, hmem⟩ : ∃ cs, (l, cs) ∈ crossroads.links.zip called := by
    rw [← hzip, List.mem_map] at hl
    obtain ⟨⟨_, cs⟩, hmem, rfl⟩ := hl
    exact ⟨cs, hmem⟩
  obtain ⟨hiff, hall⟩ := haccounts l cs hmem (by decide +kernel) (by decide +kernel)
    (by decide +kernel)
  have hd : crossroads.HasBranch "d" := by decide +kernel
  have hb : ¬ crossroads.HasBranch "b" := by decide +kernel
  have hlast : crossroads.Walk crossroads.HasBranch "d" "b" :=
    .link (List.mem_of_getElem? (i := 5) rfl) rfl rfl
  have hwalk : crossroads.Walk crossroads.HasBranch "c" "b" :=
    .step (List.mem_of_getElem? (i := 2) rfl) rfl hd hlast
  exact ⟨hids, c, hreturns, called, hcalls, l, cs, hl, rfl, hmem,
    hiff.2 (Or.inr ⟨"b", hb, hwalk⟩), hall⟩

/-- A flow in which a branch leads nowhere. -/
def deadEnd : Flow where
  steps := [{ id := "a", type := some "message" }, { id := "c", type := some "condition" }]
  links := [{ id := "e1", source := "a", target := "c" }]

/-- The link into the dead end is neither an edge nor recorded as dropped: all there is in the
result is the edge from the start. -/
theorem deadEnd_unaccounted :
    deadEnd.DistinctIds ∧ deadEnd.KeepsClear Workflow.defaultStartId ∧
      ¬ deadEnd.HasTrigger "a" ∧ ¬ deadEnd.HasBranch "a" ∧ ¬ deadEnd.HasTrigger "c" ∧
      ∃ c, deadEnd.Returns {} c ∧ Table.names c.workflow.edges = ["start_to_entry"] ∧
        c.dropped = [] := by
  obtain ⟨c, hgives⟩ := gives_of_succeeds (a := deadEnd.compile {}) (by decide +kernel)
  have hresult : (deadEnd.compile {}).outcome.map
      (fun c => (Table.names c.workflow.edges, c.dropped)) = .ok (["start_to_entry"], []) := by
    decide +kernel
  rw [hgives] at hresult
  obtain ⟨hedges, hdropped⟩ := Prod.mk.inj (Except.ok.inj hresult)
  exact ⟨by decide, ⟨by decide, by decide⟩, by decide +kernel, by decide +kernel,
    by decide +kernel, c, .plain hgives, hedges, hdropped⟩

end Flow

end CallFlow
