import CallFlow.Proofs.Chains
import CallFlow.Proofs.Compiling

/-!
# Flows With the Same Roads

Whoever follows the links of a flow asks its steps a few questions on the way: whether an id is
that of a trigger or of a branch, how a branch sends a link on, and what a link out of a step waits
for. Two flows that have the same links and give the same answers stand for the same connections,
in the same order. In what order the flows declare their branches does not matter, because the
search for chains asks only whether a branch is left.

## Sections

1. The same answers
2. The same chains
3. The same plan
-/

namespace CallFlow.Flow

open Attempt

/-! ## §1 The same answers -/

/-- Two flows have the same links and say the same to whoever follows them. -/
structure SameRoads (f g : Flow) : Prop where
  links : g.links = f.links
  isTrigger : ∀ id, g.isTrigger id = f.isTrigger id
  isBranch : ∀ id, g.isBranch id = f.isBranch id
  resolve : ∀ id l, g.resolve id l = f.resolve id l
  ofLink : ∀ l, Transition.ofLink (g.step? l.source) l = Transition.ofLink (f.step? l.source) l

theorem nodup_eraseDups (ids : List String) : ids.eraseDups.Nodup := by
  induction hn : ids.length using Nat.strongRecOn generalizing ids with
  | _ n ih =>
    cases ids with
    | nil => exact List.nodup_nil
    | cons id rest =>
      -- What is equal to the first id is left out of the rest.
      have hshorter : (rest.filter fun other => !other == id).length < n := by
        rw [← hn]
        exact Nat.lt_succ_of_le (List.length_filter_le ..)
      rw [List.eraseDups_cons, List.nodup_cons]
      refine ⟨?_, ih _ hshorter _ rfl⟩
      simp [List.mem_eraseDups]

variable {f g : Flow}

/-- No branch is listed twice. -/
theorem nodup_branchIds : f.branchIds.Nodup := nodup_eraseDups _

namespace SameRoads

variable (h : f.SameRoads g)

include h

theorem branchIds : g.branchIds.Perm f.branchIds := by
  rw [List.perm_ext_iff_of_nodup nodup_branchIds nodup_branchIds]
  intro id
  rw [mem_branchIds, mem_branchIds, ← isBranch_iff, ← isBranch_iff, h.isBranch]

theorem linksFrom (id : String) : g.linksFrom id = f.linksFrom id := by
  rw [Flow.linksFrom, Flow.linksFrom, h.links]

/-! ## §2 The same chains -/

/-- **The same chains are found** in both flows, in whatever order the branches are listed that may
still be passed. -/
theorem chainsFrom {left left' : List String} (hleft : left'.Perm left) (branchId : String) :
    g.chainsFrom left' branchId = f.chainsFrom left branchId := by
  -- Every further branch is taken off those that are left.
  induction hn : left.length using Nat.strongRecOn generalizing left left' branchId with
  | _ n ih =>
    rw [Flow.chainsFrom, Flow.chainsFrom, h.linksFrom]
    congr 2
    funext leaving
    have hmore : leaving.target ∈ left →
        g.chainsFrom (left'.erase leaving.target) leaving.target =
          f.chainsFrom (left.erase leaving.target) leaving.target := by
      intro hmem
      have hshorter : (left.erase leaving.target).length < n := hn ▸ length_erase_lt hmem
      exact ih _ hshorter (hleft.erase _) _ rfl
    rw [h.resolve]
    apply bind_congr
    intro hop
    simp only [h.isBranch, hleft.mem_iff]
    cases hop with
    | blocked => rfl
    | _ =>
      dsimp only
      split
      · split
        · rw [hmore ‹_›]
        · rfl
      · rfl

/-! ## §3 The same plan -/

/-- A link stands for the same connections in both flows. -/
theorem connectionsOf (l : Link) : g.connectionsOf l = f.connectionsOf l := by
  have hexpand : g.expand l = f.expand l := by
    simp only [expand, h.isBranch, h.isTrigger,
      h.chainsFrom (h.branchIds.erase l.target) l.target]
  simp only [Flow.connectionsOf, hexpand, h.isTrigger, h.isBranch, h.ofLink]

/-- **Both flows have the same plan.** -/
theorem plan (p : Passes f) (p' : Passes g) : p'.plan = p.plan := by
  have hcalls : f.CallsFor p'.called := by
    have hcalls' := p'.calls
    rw [CallsFor, h.links] at hcalls'
    exact hcalls'.imp fun l cs hcs => h.connectionsOf l ▸ hcs
  have hcalled : p'.called = p.called := by
    refine List.right_unique_forall₂' ?_ hcalls p.calls
    intro l cs cs' hcs hcs'
    exact Gives.unique hcs hcs'
  rw [Passes.plan, hcalled, Passes.plan]

end SameRoads

end CallFlow.Flow
