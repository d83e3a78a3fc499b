import CallFlow.Branch.Rule

/-!
# Expansion of Branches

Branch steps have no nodes. A link that enters a branch is replaced by one edge for every chain
of hops that leads through branches, each at most once, to a step that is no branch.

## Sections

1. One hop
2. Chains
3. Expansion
-/

namespace CallFlow

namespace Flow

/-! ## §1 One hop -/

/-- The rule that a link follows: the first one that names its target, or else the first one
whose id or label is its handle. -/
def ruleFor? (rules : List BranchRule) (leaving : Link) : Option BranchRule :=
  match rules.find? (·.targetId = some leaving.target) with
  | some r => some r
  | none =>
    match leaving.sourceHandle with
    | some handle =>
      if handle.isEmpty then none
      else rules.find? fun r => r.id = some handle || r.label = some handle
    | none => none

/-- The condition of a hop among the given rules: the text of its rule, or else of its handle. -/
def hopOf (rules : List BranchRule) (leaving : Link) : Hop :=
  let ruleText := ((ruleFor? rules leaving).map BranchRule.text).getD ""
  let handle := leaving.sourceHandle.getD ""
  if !ruleText.isEmpty then .named ruleText
  else if !handle.isEmpty then .named (BranchRule.handleText handle)
  else .unconditional

/-- The condition of a link that leaves a branch. -/
def resolve (f : Flow) (branchId : String) (leaving : Link) : Attempt Hop :=
  if (f.linksInto branchId).isEmpty then return .blocked
  else
    match f.step? branchId with
    | none => .fail (.undeclaredBranch branchId)
    | some branch => do return hopOf (← BranchRule.parse branch.config) leaving

/-! ## §2 Chains -/

/-- A chain of hops: where it ends, the conditions on the way, and the branches it leaves. -/
structure Chain where
  target : String
  hops : List Hop
  via : List String

/-- A chain with one more hop in front. -/
def Chain.extend (hop : Hop) (branchId : String) (c : Chain) : Chain :=
  { target := c.target, hops := hop :: c.hops, via := branchId :: c.via }

/-- The chains that leave a branch and pass through the given branches only, each at most once.
Every further branch is taken off those that are left, so the chains end. -/
def chainsFrom (f : Flow) (left : List String) (branchId : String) : Attempt (List Chain) := do
  let chains ← (f.linksFrom branchId).mapM fun leaving => do
    match ← f.resolve branchId leaving with
    | .blocked => return []
    | hop =>
      if f.isBranch leaving.target then
        -- A branch that is not left has been passed already: the chain would go round.
        if leaving.target ∈ left then
          return (← chainsFrom f (left.erase leaving.target) leaving.target).map
            (Chain.extend hop branchId)
        else
          Attempt.warn ("Branch cycle through " ++ leaving.target ++ " ignored at edge " ++
            leaving.id)
          return []
      else return [{ target := leaving.target, hops := [hop], via := [branchId] }]
  return chains.flatten
termination_by left.length
decreasing_by
  have := List.length_erase_of_mem ‹leaving.target ∈ left›
  have := List.length_pos_of_mem ‹leaving.target ∈ left›
  omega

/-! ## §3 Expansion -/

/-- An edge that replaces a link into a branch. -/
structure ExpandedEdge where
  source : String
  target : String
  condition : Condition
  enteringId : String
  via : List String

/-- The edge that a chain makes of the link that enters it. -/
def Chain.edge (entering : Link) (c : Chain) : ExpandedEdge :=
  { source := entering.source
    target := c.target
    condition := Hop.combine c.hops
    enteringId := entering.id
    via := c.via }

/-- The edges that replace a link into a branch. Links out of branches and triggers are replaced
elsewhere. -/
def expand (f : Flow) (entering : Link) : Attempt (List ExpandedEdge) :=
  if !f.isBranch entering.target || f.isBranch entering.source || f.isTrigger entering.source
  then return []
  else do
    let chains ← f.chainsFrom (f.branchIds.erase entering.target) entering.target
    return chains.map (Chain.edge entering)

end Flow

end CallFlow
