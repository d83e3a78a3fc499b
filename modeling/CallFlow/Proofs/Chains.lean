import CallFlow.Proofs.Declared
import CallFlow.Proofs.Outcome

/-!
# Chains Through Branches

A caller who reaches a branch may walk through any number of branches, round and round, before
arriving at a step with a node. The compiler follows chains instead, which pass every branch at
most once. Chains and walks lead to the same places, because what a walk does between two
visits to one branch can be cut out of it.

## Sections

1. Walks
2. Cutting loops
3. Chains link by link
4. Chains lead where walks lead
5. The chains of an expansion
-/

namespace CallFlow.Flow

open Attempt

variable {f : Flow}

/-! ## §1 Walks -/

/-- One or more links lead from one id to another, and all ids in between are of a kind. -/
inductive Walk (f : Flow) (through : String → Prop) : String → String → Prop where
  | link {a b : String} {l : Link} (hl : l ∈ f.links) (ha : l.source = a) (hb : l.target = b) :
      Walk f through a b
  | step {a b : String} {l : Link} (hl : l ∈ f.links) (ha : l.source = a)
      (hthrough : through l.target) (rest : Walk f through l.target b) : Walk f through a b

namespace Walk

variable {through through' : String → Prop} {a b : String}

theorem imp (himp : ∀ id, through id → through' id) (w : f.Walk through a b) :
    f.Walk through' a b := by
  induction w with
  | link hl ha hb => exact .link hl ha hb
  | step hl ha hthrough _ ih => exact .step hl ha (himp _ hthrough) ih

/-- A walk ends with a link. -/
theorem exists_last (w : f.Walk through a b) : ∃ l ∈ f.links, l.target = b := by
  induction w with
  | link hl _ hb => exact ⟨_, hl, hb⟩
  | step _ _ _ _ ih => exact ih

/-- Walks may be put together where both of them meet an id of the kind. -/
theorem append {c : String} (w : f.Walk through a b) (hb : through b) (w' : f.Walk through b c) :
    f.Walk through a c := by
  induction w with
  | link hl ha htarget => exact .step hl ha (htarget ▸ hb) (htarget ▸ w')
  | step hl ha hthrough _ ih => exact .step hl ha hthrough (ih hb w')

/-! ## §2 Cutting loops -/

/-- A walk passes an id or it does not; if it does, it goes on from the last visit without
passing the id again. -/
theorem cut {x : String} (w : f.Walk through a b) :
    f.Walk (fun id => through id ∧ id ≠ x) a b ∨ f.Walk (fun id => through id ∧ id ≠ x) x b := by
  induction w with
  | link hl ha hb => exact Or.inl (.link hl ha hb)
  | @step a b l hl ha hthrough _ ih =>
    rcases ih with hrest | hlast
    · -- The rest does not pass the id, but the link may lead to it.
      by_cases hx : l.target = x
      · exact Or.inr (hx ▸ hrest)
      · exact Or.inl (.step hl ha ⟨hthrough, hx⟩ hrest)
    · -- The last visit is in the rest already.
      exact Or.inr hlast

/-- A walk need not come back to where it began. -/
theorem avoid_start (w : f.Walk through a b) : f.Walk (fun id => through id ∧ id ≠ a) a b :=
  w.cut.elim id id

theorem through_erase {left : List String} (w : f.Walk (· ∈ left) a b) :
    f.Walk (· ∈ left.erase a) a b :=
  w.avoid_start.imp fun _ ⟨hid, hne⟩ => (List.mem_erase_of_ne hne).2 hid

/-- A walk out of a branch need not come back to it, so the other branches are enough. -/
theorem through_branchIds (w : f.Walk f.HasBranch a b) : f.Walk (· ∈ f.branchIds.erase a) a b :=
  (w.imp fun _ hid => mem_branchIds.2 hid).through_erase

end Walk

theorem hasBranch_of_mem_erase {first : String} : ∀ id ∈ f.branchIds.erase first, f.HasBranch id :=
  fun _ hid => mem_branchIds.1 (List.mem_of_mem_erase hid)

/-! ## §3 Chains link by link -/

/-- The chains that begin with one of the links that leave a branch. -/
inductive ChainsOver (f : Flow) (left : List String) (branchId : String) (l : Link) :
    List Chain → Prop where
  | blocked (h : (f.resolve branchId l).Gives .blocked) : ChainsOver f left branchId l []
  | ends {hop : Hop} (h : (f.resolve branchId l).Gives hop) (hhop : hop ≠ .blocked)
      (htarget : ¬ f.HasBranch l.target) :
      ChainsOver f left branchId l [{ target := l.target, hops := [hop], via := [branchId] }]
  | passes {hop : Hop} {more : List Chain} (h : (f.resolve branchId l).Gives hop)
      (hhop : hop ≠ .blocked) (htarget : f.HasBranch l.target) (hleft : l.target ∈ left)
      (hmore : (f.chainsFrom (left.erase l.target) l.target).Gives more) :
      ChainsOver f left branchId l (more.map (Chain.extend hop branchId))
  /-- The link leads back to a branch that has been passed. -/
  | turnsBack {hop : Hop} (h : (f.resolve branchId l).Gives hop) (hhop : hop ≠ .blocked)
      (htarget : f.HasBranch l.target) (hleft : l.target ∉ left) :
      ChainsOver f left branchId l []

/-- The chains that leave a branch are those over each of its links, link by link. -/
theorem chainsOver_of_gives {left : List String} {branchId : String} {chains : List Chain}
    (h : (f.chainsFrom left branchId).Gives chains) :
    ∃ parts, List.Forall₂ (fun l part => f.ChainsOver left branchId l part)
      (f.linksFrom branchId) parts ∧ chains = parts.flatten := by
  rw [chainsFrom, gives_bind] at h
  obtain ⟨parts, hparts, hchains⟩ := h
  refine ⟨parts, (gives_mapM.1 hparts).imp fun l part hpart => ?_, gives_pure.1 hchains⟩
  obtain ⟨hop, hresolve, hpart⟩ := gives_bind.1 hpart
  split at hpart
  · rw [gives_pure.1 hpart]
    exact .blocked hresolve
  · rename_i hhop
    have hne : hop ≠ .blocked := fun heq => hhop heq
    split at hpart
    · rename_i htarget
      have hbranch := isBranch_iff.1 htarget
      split at hpart
      · rename_i hleft
        obtain ⟨more, hmore, hpart⟩ := gives_bind.1 hpart
        rw [gives_pure.1 hpart]
        exact .passes hresolve hne hbranch hleft hmore
      · rename_i hleft
        rw [gives_warn_bind, gives_pure] at hpart
        rw [hpart]
        exact .turnsBack hresolve hne hbranch hleft
    · rename_i htarget
      rw [gives_pure.1 hpart]
      exact .ends hresolve hne fun hbranch => htarget (isBranch_iff.2 hbranch)

theorem mem_linksFrom {l : Link} {id : String} :
    l ∈ f.linksFrom id ↔ l ∈ f.links ∧ l.source = id := by
  simp [linksFrom]

theorem hopOf_ne_blocked (rules : List BranchRule) (l : Link) : hopOf rules l ≠ .blocked := by
  unfold hopOf
  dsimp only
  split
  · nofun
  · split <;> nofun

theorem linksInto_isEmpty {id : String} (hentered : ∃ l ∈ f.links, l.target = id) :
    (f.linksInto id).isEmpty = false := by
  obtain ⟨entering, hmem, htarget⟩ := hentered
  rw [List.isEmpty_eq_false_iff_exists_mem]
  exact ⟨entering, List.mem_filter.2 ⟨hmem, decide_eq_true htarget⟩⟩

/-- Where a link leads in, a hop leads out. -/
theorem ne_blocked_of_entered {branchId : String} (hentered : ∃ l ∈ f.links, l.target = branchId)
    {l : Link} {hop : Hop} (h : (f.resolve branchId l).Gives hop) : hop ≠ .blocked := by
  -- Hops are blocked only at branches that no link enters.
  unfold resolve at h
  rw [linksInto_isEmpty hentered, if_neg Bool.false_ne_true] at h
  split at h
  · exact absurd h not_gives_fail
  · obtain ⟨rules, -, hhop⟩ := gives_bind.1 h
    rw [gives_pure.1 hhop]
    exact hopOf_ne_blocked rules l

/-! ## §4 Chains lead where walks lead -/

/-- Taking a branch off leaves fewer. -/
theorem length_erase_lt {left : List String} {id : String} (h : id ∈ left) :
    (left.erase id).length < left.length := by
  have hpos := List.length_pos_of_mem h
  rw [List.length_erase_of_mem h]
  omega

/-- **What can be said of a chain link by link**: if it holds of a link that ends at no branch, and
can be carried back over a link that enters one, it holds of every chain from beginning to end. -/
theorem chainsFrom_induction {P : String → String → Prop}
    (hends : ∀ l ∈ f.links, ¬ f.HasBranch l.target → P l.source l.target)
    (hpasses : ∀ l ∈ f.links, f.HasBranch l.target → ∀ target, P l.target target →
      P l.source target)
    {left : List String} {branchId : String} {chains : List Chain}
    (h : (f.chainsFrom left branchId).Gives chains) {c : Chain} (hc : c ∈ chains) :
    P branchId c.target := by
  -- Every further branch is taken off those that are left.
  induction hn : left.length using Nat.strongRecOn
    generalizing left branchId chains c with
  | _ n ih =>
    obtain ⟨parts, hparts, rfl⟩ := chainsOver_of_gives h
    obtain ⟨part, hpart, hcpart⟩ := List.mem_flatten.1 hc
    obtain ⟨l, hl, hover⟩ := exists_of_mem_right hparts hpart
    obtain ⟨hmem, rfl⟩ := mem_linksFrom.1 hl
    cases hover with
    | blocked => simp at hcpart
    | turnsBack => simp at hcpart
    | ends _ _ htarget =>
      obtain rfl := List.mem_singleton.1 hcpart
      exact hends l hmem htarget
    | passes _ _ htarget hleft hmore =>
      obtain ⟨c', hc', rfl⟩ := List.mem_map.1 hcpart
      have hshorter : (left.erase l.target).length < n := hn ▸ length_erase_lt hleft
      have hrest : P l.target c'.target := ih _ hshorter hmore hc' rfl
      exact hpasses l hmem htarget _ hrest

/-- **A chain leads where a walk through branches leads.** -/
theorem walk_of_mem_chainsFrom {left : List String} {branchId : String} {chains : List Chain}
    (h : (f.chainsFrom left branchId).Gives chains) {c : Chain} (hc : c ∈ chains) :
    f.Walk f.HasBranch branchId c.target :=
  chainsFrom_induction (P := f.Walk f.HasBranch) (fun _ hl _ => .link hl rfl rfl)
    (fun _ hl hbranch _ hrest => .step hl rfl hbranch hrest) h hc

/-- A chain goes on until it is out of the branches. -/
theorem not_hasBranch_of_mem_chainsFrom {left : List String} {branchId : String}
    {chains : List Chain} (h : (f.chainsFrom left branchId).Gives chains) {c : Chain}
    (hc : c ∈ chains) : ¬ f.HasBranch c.target :=
  chainsFrom_induction (P := fun _ target => ¬ f.HasBranch target) (fun _ _ hnot => hnot)
    (fun _ _ _ _ hnot => hnot) h hc

/-- **Where a walk through the branches that are left leads, a chain leads.** -/
theorem exists_chain_of_walk {left : List String} {branchId target : String}
    {chains : List Chain} (hleft : ∀ id ∈ left, f.HasBranch id) (htarget : ¬ f.HasBranch target)
    (hentered : ∃ l ∈ f.links, l.target = branchId) (w : f.Walk (· ∈ left) branchId target)
    (h : (f.chainsFrom left branchId).Gives chains) : ∃ c ∈ chains, c.target = target := by
  induction hn : left.length using Nat.strongRecOn
    generalizing left branchId chains with
  | _ n ih =>
    obtain ⟨parts, hparts, rfl⟩ := chainsOver_of_gives h
    cases w with
    | @link _ _ l hl ha hb =>
      -- The link ends at a step with a node, so it is a chain of one hop.
      obtain ⟨part, hpart, hover⟩ := exists_of_mem_left hparts (mem_linksFrom.2 ⟨hl, ha⟩)
      subst hb
      cases hover with
      | blocked h => exact absurd rfl (ne_blocked_of_entered hentered h)
      | passes _ _ hbranch => exact absurd hbranch htarget
      | turnsBack _ _ hbranch => exact absurd hbranch htarget
      | ends => exact ⟨_, List.mem_flatten.2 ⟨_, hpart, List.mem_singleton_self _⟩, rfl⟩
    | @step _ _ l hl ha hmem rest =>
      obtain ⟨part, hpart, hover⟩ := exists_of_mem_left hparts (mem_linksFrom.2 ⟨hl, ha⟩)
      have hbranch := hleft _ hmem
      cases hover with
      | blocked h => exact absurd rfl (ne_blocked_of_entered hentered h)
      | ends _ _ hnot => exact absurd hbranch hnot
      | turnsBack _ _ _ hnot => exact absurd hmem hnot
      | @passes hop more _ _ _ _ hmore =>
        -- The rest of the walk need not come back to this branch, so the chain may go on.
        have hrest := rest.through_erase
        have hshorter : (left.erase l.target).length < n := hn ▸ length_erase_lt hmem
        obtain ⟨c, hc, hctarget⟩ := ih _ hshorter
          (fun id hid => hleft id (List.mem_of_mem_erase hid)) ⟨l, hl, rfl⟩ hrest hmore rfl
        exact ⟨c.extend hop branchId,
          List.mem_flatten.2 ⟨_, hpart, List.mem_map_of_mem hc⟩, hctarget⟩

/-! ## §5 The chains of an expansion -/

/-- The edges of an expansion are those of the chains that leave the entered branch. -/
theorem exists_chains_of_expand {l : Link} (htrigger : f.isTrigger l.source = false)
    (hsource : ¬ f.HasBranch l.source) (htarget : f.HasBranch l.target)
    {edges : List ExpandedEdge} (h : (f.expand l).Gives edges) :
    ∃ chains, (f.chainsFrom (f.branchIds.erase l.target) l.target).Gives chains ∧
      edges = chains.map (Chain.edge l) := by
  unfold expand at h
  rw [if_neg (by simp [isBranch_iff, htrigger, hsource, htarget])] at h
  obtain ⟨chains, hchains, hedges⟩ := gives_bind.1 h
  exact ⟨chains, hchains, gives_pure.1 hedges⟩

theorem gives_expand {l : Link} (htrigger : f.isTrigger l.source = false)
    (hsource : ¬ f.HasBranch l.source) (htarget : f.HasBranch l.target) {chains : List Chain}
    (h : (f.chainsFrom (f.branchIds.erase l.target) l.target).Gives chains) :
    (f.expand l).Gives (chains.map (Chain.edge l)) := by
  unfold expand
  rw [if_neg (by simp [isBranch_iff, htrigger, hsource, htarget])]
  exact gives_bind.2 ⟨chains, h, gives_pure.2 rfl⟩

/-- Only links that enter a branch from outside are expanded to any edges. -/
theorem ends_of_mem_expand {l : Link} {edges : List ExpandedEdge} {e : ExpandedEdge}
    (h : (f.expand l).Gives edges) (he : e ∈ edges) :
    f.isTrigger l.source = false ∧ ¬ f.HasBranch l.source ∧ f.HasBranch l.target := by
  unfold expand at h
  split at h
  · rw [gives_pure.1 h] at he
    cases he
  · rename_i hexpanded
    have hinto : (f.HasBranch l.target ∧ ¬ f.HasBranch l.source) ∧
        f.isTrigger l.source = false := by simpa [isBranch_iff] using hexpanded
    obtain ⟨⟨htarget, hsource⟩, htrigger⟩ := hinto
    exact ⟨htrigger, hsource, htarget⟩

end CallFlow.Flow
