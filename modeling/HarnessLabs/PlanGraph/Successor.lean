import HarnessLabs.PlanGraph.Attempt
import HarnessLabs.PlanGraph.Plan

/-!
# Repair successors

How a new attempt begins: on a fresh plan, or as the repair successor of an attempt that failed or
is blocked. A successor launches the retry frontier and everything behind it again; it reuses the
other sealed nodes whose candidates the predecessor has custody of.

* `repairSelection` — the nodes that are launched again and those that are reused.
* `openSuccessor` — the audit of the new attempt.
* `carryBarriers` — the custody that the new attempt takes over.
-/

namespace HarnessLabs.PlanGraph

universe u

variable {C : Type u}

/-! ## Selection -/

/-- One pass over the nodes: a node that depends on an invalidated one is invalidated. -/
def invalidatePass (nodes : Dict String (Node C)) (invalidated : List String) : List String :=
  nodes.items.foldl (fun acc p =>
    if p.1 ∉ acc ∧ p.2.dependsOn.any (· ∈ acc) then acc ++ [p.1] else acc) invalidated

/-- The passes end when one of them changes nothing; every other one invalidates a node. -/
def invalidated (nodes : Dict String (Node C)) (frontier : List String) : List String :=
  (invalidatePass nodes)^[nodes.items.length] frontier

variable [DecidableEq C]

/-- The predecessor's barrier or its reuse receipt binds the candidate. -/
def custodyMatches (barriers : List (Barrier C)) (inherited : Dict String C) (nodeId : String)
    (candidate : C) : Bool :=
  barriers.any (fun b => b.nodeId = nodeId ∧ b.integratedCommit = some candidate) ||
    inherited.get? nodeId = some candidate

/-- The candidate that a node can be reused with. -/
def reusableCandidate (state : AttemptState C) (inherited : Dict String C) (again : List String)
    (reusable : Dict String C) (nodeId : String) (node : Node C) : Option C :=
  if nodeId ∈ reusable.keys ∨ nodeId ∈ again ∨ node.status ≠ .succeeded then none
  else node.candidateCommit.bind fun candidate =>
    if custodyMatches state.integrationBarriers inherited nodeId candidate ∧
        node.dependsOn.all (· ∈ reusable.keys) then some candidate
    else none

/-- One pass over the nodes: a sealed node in custody is reusable behind its dependencies. -/
def reusePass (state : AttemptState C) (inherited : Dict String C) (again : List String)
    (reusable : Dict String C) : Dict String C :=
  state.nodes.items.foldl (fun acc p =>
    match reusableCandidate state inherited again acc p.1 p.2 with
    | some candidate => acc.set p.1 candidate
    | none => acc) reusable

/-- The nodes that the successor launches again, and those that it reuses. -/
structure RepairSelection (C : Type u) where
  invalidatedNodeIds : List String
  reusedCompleted : Dict String C

/-- `repair_selection`, for blocker evidence that the predecessor recorded. -/
def repairSelection (state : AttemptState C) (inherited : Dict String C) (frontier : List String) :
    Except String (RepairSelection C) :=
  if frontier = [] ∨ ¬ frontier.Nodup ∨ frontier.any (· ∉ state.nodes.keys) then
    .error "repair resume requires an explicit retry frontier"
  else
    let again := invalidated state.nodes frontier
    .ok
      { invalidatedNodeIds := state.nodes.keys.filter (· ∈ again)
        reusedCompleted := (reusePass state inherited again)^[state.nodes.items.length] ∅ }

/-! ## Opening -/

/-- A node of a new attempt. -/
def initialNode (reused : Dict String C) (predecessor : Option String) (run : PlanRun) : Node C where
  status := if run.id ∈ reused.keys then .succeeded else .queued
  dependsOn := run.dependsOn
  candidateCommit := reused.get? run.id
  reusedFromAttempt := if run.id ∈ reused.keys then predecessor else none

/-- `_initial_state`. -/
def initialState (plan : PlanGraphPlan C) (graphRunId : String) (reused : Dict String C)
    (predecessor : Option String) : AttemptState C where
  graphRunId := graphRunId
  nodes := Dict.ofList (plan.ordered.map fun run => (run.id, initialNode reused predecessor run))
  currentCandidateCommit := plan.baseCommit

/-- The predecessor's barrier of a reused node. -/
def carriedBarrier (checkpoint : AttemptState C) (nodeId : String) (node : Node C) :
    Option (Barrier C) :=
  if node.reusedFromAttempt.isNone then none
  else checkpoint.integrationBarriers.find? fun b =>
    b.nodeId = nodeId ∧ b.integratedCommit = node.candidateCommit

/-- The custody part of `_open_or_create` in a new directory. -/
def carryBarriers (checkpoint state : AttemptState C) : AttemptState C :=
  { state with
    integrationBarriers := state.integrationBarriers ++
      state.nodes.items.filterMap fun p => carriedBarrier checkpoint p.1 p.2 }

/-- A repair successor with the nodes it reuses. -/
structure Successor (C : Type u) where
  audit : AttemptState C
  reused : Dict String C

/-- `PlanGraph.resume`, of a predecessor with the same plan. -/
def openSuccessor (plan : PlanGraphPlan C) (predecessor : AttemptState C) (inherited : Dict String C)
    (frontier : List String) (attemptId : String) : Except String (Successor C) :=
  if predecessor.terminalGraphStatus ∉ [some .failed, some .blocked] then
    .error "predecessor is not a matching failed or blocked attempt"
  else
    (repairSelection predecessor inherited frontier).map fun selection =>
      { audit := carryBarriers predecessor
          (initialState plan attemptId selection.reusedCompleted (some predecessor.graphRunId))
        reused := selection.reusedCompleted }

/-- `_load_finding_obligations`. -/
def loadFindingObligations (audit : AttemptState C) : Obligations := audit.findingObligations

end HarnessLabs.PlanGraph
