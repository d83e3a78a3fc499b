import CallFlow.Proofs.Connections

/-!
# Flows Without Their Dangling Links

A link with an end that no step declares cannot become an edge between steps. Taking all such links
out of a flow leaves the rest of its plan as it is: chains through branches that come to a declared
end are the same as before. Only branches pass chains on, and branches are declared, so a link that
is taken out can only be the last of a chain, or enter the first branch from nowhere.

## Sections

1. Flows without dangling links
2. Lists with items left out
3. Chains without dangling links
4. Plans without dangling links
-/

namespace CallFlow

open Attempt

namespace Flow

/-! ## §1 Flows without dangling links -/

/-- Whether some step has the id. -/
def declares (f : Flow) (id : String) : Bool := (f.step? id).isSome

/-- Whether both ends of a link are declared. -/
def keeps (f : Flow) (l : Link) : Bool := f.declares l.source && f.declares l.target

/-- The flow without the links that have an end which no step declares. -/
def withoutDangling (f : Flow) : Flow := { f with links := f.links.filter f.keeps }

variable {f : Flow} {id : String}

theorem declares_of_mem {t : Step} (ht : t ∈ f.steps) (hid : t.id = id) : f.declares id = true :=
  hid ▸ step?_isSome ht

theorem declares_of_hasBranch (h : f.HasBranch id) : f.declares id = true := by
  obtain ⟨t, ht, hid, -⟩ := h
  exact declares_of_mem ht hid

theorem declares_of_hasActionable (h : f.HasActionable id) : f.declares id = true := by
  obtain ⟨t, ht, hid, -⟩ := h
  exact declares_of_mem ht hid

theorem mem_withoutDangling {l : Link} :
    l ∈ f.withoutDangling.links ↔ l ∈ f.links ∧ f.keeps l = true :=
  List.mem_filter

theorem linksFrom_withoutDangling :
    f.withoutDangling.linksFrom id = (f.linksFrom id).filter f.keeps :=
  List.filter_comm ..

/-! ## §2 Lists with items left out -/

/-- If items that are left out yield nothing of a kind, and all others yield what they yield of
that kind, the whole yields what it yields of that kind. -/
theorem flatten_filter_of_forall₂ {α β : Type} {R R' : α → List β → Prop} {keep : α → Bool}
    {kind : β → Bool} {items : List α}
    (hkept : ∀ x ∈ items, keep x = true → ∀ ys ys', R x ys → R' x ys' → ys' = ys.filter kind)
    (hleft : ∀ x ∈ items, keep x = false → ∀ ys, R x ys → ys.filter kind = [])
    {parts parts' : List (List β)} (h : List.Forall₂ R items parts)
    (h' : List.Forall₂ R' (items.filter keep) parts') :
    parts'.flatten = parts.flatten.filter kind := by
  induction h generalizing parts' with
  | nil =>
    cases h'
    rfl
  | @cons x ys rest more hx _ ih =>
    have hrest : ∀ more', List.Forall₂ R' (rest.filter keep) more' →
        more'.flatten = more.flatten.filter kind := by
      intro more'
      exact ih (fun x' hx' => hkept x' (List.mem_cons_of_mem _ hx'))
        (fun x' hx' => hleft x' (List.mem_cons_of_mem _ hx'))
    rw [List.flatten_cons, List.filter_append]
    cases hkeep : keep x with
    | true =>
      rw [List.filter_cons_of_pos hkeep] at h'
      obtain ⟨ys', more', hx', hmore', rfl⟩ := List.forall₂_cons_left_iff.1 h'
      rw [List.flatten_cons, hrest more' hmore', hkept x (List.mem_cons_self ..) hkeep ys ys' hx hx']
    | false =>
      rw [List.filter_cons_of_neg (by simp [hkeep])] at h'
      rw [hrest parts' h', hleft x (List.mem_cons_self ..) hkeep ys hx, List.nil_append]

/-! ## §3 Chains without dangling links -/

theorem entered_of_withoutDangling (h : ∃ l ∈ f.withoutDangling.links, l.target = id) :
    ∃ l ∈ f.links, l.target = id := by
  obtain ⟨l, hl, htarget⟩ := h
  exact ⟨l, (mem_withoutDangling.1 hl).1, htarget⟩

/-- A branch that is still entered sends its links the same way as before. -/
theorem resolve_withoutDangling (hentered : ∃ l ∈ f.withoutDangling.links, l.target = id)
    (l : Link) : f.withoutDangling.resolve id l = f.resolve id l := by
  unfold resolve
  -- Entering links matter only by being there, and the branch itself is declared as before.
  rw [linksInto_isEmpty hentered, linksInto_isEmpty (entered_of_withoutDangling hentered)]
  rfl

/-- A link that is in both flows is followed in the same way in both, if chains from the branch
behind it are. -/
theorem ChainsOver.kept {left : List String} {l : Link} {part part' : List Chain}
    (hentered : ∃ l ∈ f.withoutDangling.links, l.target = id) (hl : f.declares l.target = true)
    (h : f.ChainsOver left id l part) (h' : f.withoutDangling.ChainsOver left id l part')
    (hmore : f.HasBranch l.target → l.target ∈ left → ∀ more more',
      (f.chainsFrom (left.erase l.target) l.target).Gives more →
      (f.withoutDangling.chainsFrom (left.erase l.target) l.target).Gives more' →
      more' = more.filter fun c => f.declares c.target) :
    part' = part.filter fun c => f.declares c.target := by
  have hbefore := entered_of_withoutDangling hentered
  have hsame : ∀ {hop hop'}, (f.resolve id l).Gives hop →
      (f.withoutDangling.resolve id l).Gives hop' → hop' = hop := by
    intro hop hop' hhop hhop'
    rw [resolve_withoutDangling hentered] at hhop'
    exact hhop'.unique hhop
  cases h with
  | blocked hhop => exact absurd rfl (ne_blocked_of_entered hbefore hhop)
  | ends hhop _ htarget =>
    cases h' with
    | blocked hhop' => exact absurd rfl (ne_blocked_of_entered hentered hhop')
    | ends hhop' => simp [hsame hhop hhop', hl]
    | passes _ _ htarget' => exact absurd htarget' htarget
    | turnsBack _ _ htarget' => exact absurd htarget' htarget
  | turnsBack _ _ htarget hnot =>
    cases h' with
    | blocked => rfl
    | ends _ _ htarget' => exact absurd htarget htarget'
    | passes _ _ _ hleft => exact absurd hleft hnot
    | turnsBack => rfl
  | passes hhop _ htarget hleft hgives =>
    cases h' with
    | blocked hhop' => exact absurd rfl (ne_blocked_of_entered hentered hhop')
    | ends _ _ htarget' => exact absurd htarget htarget'
    | turnsBack _ _ _ hnot => exact absurd hleft hnot
    | passes hhop' _ _ _ hgives' =>
      -- A hop in front does not change where a chain ends.
      rw [hsame hhop hhop', hmore htarget hleft _ _ hgives hgives', List.filter_map]
      rfl

/-- A link that leaves a branch and is taken out has no chain to a declared end. -/
theorem ChainsOver.leftOut {left : List String} {l : Link} {part : List Chain}
    (hsource : f.HasBranch l.source) (hl : f.keeps l = false) (h : f.ChainsOver left id l part) :
    (part.filter fun c => f.declares c.target) = [] := by
  -- The source is a branch, so it is the target that is not declared.
  have htarget : f.declares l.target = false := by
    simpa [keeps, declares_of_hasBranch hsource] using hl
  cases h with
  | blocked => rfl
  | turnsBack => rfl
  | ends => simp [htarget]
  | passes _ _ hinto =>
    rw [declares_of_hasBranch hinto] at htarget
    cases htarget

/-- **Chains to declared ends stay.** -/
theorem chains_withoutDangling {left : List String} {branchId : String}
    {chains chains' : List Chain} (hbranch : f.HasBranch branchId)
    (hentered : ∃ l ∈ f.withoutDangling.links, l.target = branchId)
    (h : (f.chainsFrom left branchId).Gives chains)
    (h' : (f.withoutDangling.chainsFrom left branchId).Gives chains') :
    chains' = chains.filter fun c => f.declares c.target := by
  -- Every further branch is taken off those that are left.
  induction hn : left.length using Nat.strongRecOn
    generalizing left branchId chains chains' with
  | _ n ih =>
    obtain ⟨parts, hparts, rfl⟩ := chainsOver_of_gives h
    obtain ⟨parts', hparts', rfl⟩ := chainsOver_of_gives h'
    rw [linksFrom_withoutDangling] at hparts'
    apply flatten_filter_of_forall₂ _ _ hparts hparts'
    · intro l hl hkeep part part' hover hover'
      have hmem : l ∈ f.withoutDangling.links :=
        mem_withoutDangling.2 ⟨(mem_linksFrom.1 hl).1, hkeep⟩
      refine hover.kept hentered (Bool.and_eq_true_iff.1 hkeep).2 hover' ?_
      intro htarget hleft more more' hmore hmore'
      have hshorter : (left.erase l.target).length < n := hn ▸ length_erase_lt hleft
      exact ih _ hshorter htarget ⟨l, hmem, rfl⟩ hmore hmore' rfl
    · intro l hl hkeep part hover
      exact hover.leftOut ((mem_linksFrom.1 hl).2 ▸ hbranch) hkeep

/-! ## §4 Plans without dangling links -/

/-- Whether both ends of a connection are declared. -/
def declaresEnds (f : Flow) (c : Connection) : Bool := f.declares c.source && f.declares c.target

/-- A link that is in both flows stands for the same connections between declared ends. -/
theorem StandsFor.kept {l : Link} {cs cs' : List Connection} (hl : l ∈ f.links)
    (hkeep : f.keeps l = true) (h : f.StandsFor l cs) (h' : f.withoutDangling.StandsFor l cs') :
    cs' = cs.filter f.declaresEnds := by
  obtain ⟨hsource, htarget⟩ := Bool.and_eq_true_iff.1 hkeep
  -- Whether a link is followed depends on the steps alone.
  have hsame : f.withoutDangling.Followed l ↔ f.Followed l :=
    ⟨fun h => ⟨h.source, h.target, h.branch⟩, fun h => ⟨h.source, h.target, h.branch⟩⟩
  cases h with
  | nothing hnot =>
    cases h' with
    | nothing => rfl
    | itself hfollowed => exact absurd (hsame.1 hfollowed) hnot
    | chains hfollowed => exact absurd (hsame.1 hfollowed) hnot
  | itself hfollowed hinto =>
    cases h' with
    | nothing hnot => exact absurd (hsame.2 hfollowed) hnot
    | chains _ hbranch => exact absurd hbranch hinto
    | itself =>
      simp only [List.filter_cons, declaresEnds, hsource, htarget, Bool.and_self, if_true,
        List.filter_nil]
      rfl
  | chains hfollowed hbranch hchains =>
    cases h' with
    | nothing hnot => exact absurd (hsame.2 hfollowed) hnot
    | itself _ hinto => exact absurd hbranch hinto
    | chains _ _ hchains' =>
      have hmem : l ∈ f.withoutDangling.links := mem_withoutDangling.2 ⟨hl, hkeep⟩
      rw [chains_withoutDangling hbranch ⟨l, hmem, rfl⟩ hchains hchains', List.filter_map]
      -- All connections begin at the source of the link, which is declared.
      congr 1
      apply List.filter_congr
      intro chain _
      simp [declaresEnds, hsource]

/-- A link that is taken out stands for no connection between declared ends. -/
theorem StandsFor.leftOut {l : Link} {cs : List Connection} (hkeep : f.keeps l = false)
    (h : f.StandsFor l cs) : cs.filter f.declaresEnds = [] := by
  rw [List.filter_eq_nil_iff]
  intro c hc hends
  obtain ⟨hsource, htarget⟩ := Bool.and_eq_true_iff.1 hends
  rw [h.source_eq hc] at hsource
  -- If the target of the link is not declared, it is no branch, and the connection ends there.
  rcases (h.landsAt hc).2.2 with heq | ⟨hbranch, -⟩
  · rw [← heq] at htarget
    simp [keeps, hsource, htarget] at hkeep
  · simp [keeps, hsource, declares_of_hasBranch hbranch] at hkeep

/-- **Connections between declared ends stay**, and nothing else does. -/
theorem plan_withoutDangling (p : Passes f) (p' : Passes f.withoutDangling) :
    p'.plan = p.plan.filter f.declaresEnds := by
  apply flatten_filter_of_forall₂ _ _ p.calls p'.calls
  · intro l hl hkeep cs cs' hcs hcs'
    exact (standsFor_of_gives hcs).kept hl hkeep (standsFor_of_gives hcs')
  · intro l hl hkeep cs hcs
    exact (standsFor_of_gives hcs).leftOut hkeep

end Flow

end CallFlow
