import HarnessLabs.Lib.Dict
import HarnessLabs.Lib.Json

/-!
# The state of an attempt

What a PlanGraph attempt keeps in the checkpoint of its audit, the transitions of the audit, and the
result that is read back from a finished attempt.

* `AttemptState` — the nodes, the candidate sealed last, the finding obligations, the outcome.
* `AttemptState.nodeCompleted`, … — the transitions.
* `resultFromAudit` — the result of a finished attempt.
-/

namespace HarnessLabs.PlanGraph

universe u

/-! ## State -/

inductive NodeStatus where
  | queued
  | reserved
  | running
  | succeeded
  | failed
  | blocked
  deriving DecidableEq, Repr

/-- `failed` and `blocked`. -/
def NodeStatus.stopped : NodeStatus → Bool
  | .failed | .blocked => true
  | _ => false

/-- A node of the checkpoint. `pendingTransfer` is the candidate of
`candidate_verified_pending_transfer`. -/
structure Node (C : Type u) where
  status : NodeStatus
  dependsOn : List String := []
  candidateCommit : Option C := none
  inputCommit : Option C := none
  integratedCommit : Option C := none
  pendingTransfer : Option C := none
  reusedFromAttempt : Option String := none
  allocationId : Option String := none
  logicalAttempt : Option ℕ := none
  parentCandidateCommit : Option C := none

/-- A finding that a node owes, under the key that its record names. -/
structure Obligation where
  key : String
  record : Json
  names : record.get? "key" = some (.str key)
  deriving DecidableEq

/-- `origin_node`. -/
def Obligation.source (o : Obligation) : Option Json := o.record.get? "origin_node"

abbrev Obligations := Dict String (List Obligation)

/-- What a node owes. -/
def Obligations.owed (obligations : Obligations) (node : String) : List Obligation :=
  obligations.getD node []

/-- An integration barrier. One that a reservation writes has no integrated commit. -/
structure Barrier (C : Type u) where
  barrierId : String
  nodeId : String
  attemptId : String
  inputCommit : C
  expectedStagingHead : Option C := none
  integratedCommit : Option C := none

/-- An allocation, as `successor_attempts` keeps it. -/
structure SuccessorAttempt (C : Type u) where
  graphId : String
  nodeId : String
  logicalAttempt : ℕ
  allocationId : String
  checkpointRevision : ℕ
  expectedStagingHead : C
  parentCandidateCommit : C

/-- A record of `attempt_lineage`. -/
structure LineageRecord (C : Type u) where
  attemptId : String
  nodeId : String
  logicalAttempt : ℕ
  allocationId : String
  inputCommit : C
  predecessorAttemptId : Option String

structure Invalidation where
  attemptId : String
  nodeId : String
  allocationId : String
  reason : String

/-- A replacement, as `retry_state` keeps it under `reuse`. -/
structure Replacement where
  nodeId : String
  reusedFromAttemptId : String
  replacementAttemptId : String

structure RetryState where
  invalidations : List Invalidation := []
  reuse : List Replacement := []

/-- What an identity has in the place of an allocation id. -/
def allocationSuffix (allocationId : Option String) : String :=
  if allocationId.getD "" = "" then "serial" else allocationId.getD ""

/-- `_attempt_id`. -/
def attemptIdOf (graphRunId : String) (allocationId : Option String) : String :=
  graphRunId ++ ":attempt:" ++ allocationSuffix allocationId

/-- `_barrier_id`. -/
def barrierIdOf (nodeId : String) (allocationId : Option String) : String :=
  nodeId ++ ":integration:" ++ allocationSuffix allocationId

inductive GraphStatus where
  | running
  | succeeded
  | failed
  | blocked
  | completedWithDeviations
  | completedUnderFullAutonomy
  deriving DecidableEq, Repr

def GraphStatus.text : GraphStatus → String
  | .running => "running"
  | .succeeded => "succeeded"
  | .failed => "failed"
  | .blocked => "blocked"
  | .completedWithDeviations => "completed_with_deviations"
  | .completedUnderFullAutonomy => "completed_under_full_autonomy"

/-- `functionality_test`. -/
inductive FunctionalityTest where
  | unavailable
  | succeeded (command : String)
  | failed (command error : String)

def FunctionalityTest.error? : FunctionalityTest → Option String
  | .failed _ error => some error
  | _ => none

/-- The state in the checkpoint of the audit. -/
structure AttemptState (C : Type u) where
  graphRunId : String
  nodes : Dict String (Node C)
  currentCandidateCommit : C
  currentNodeId : Option String := none
  findingObligations : Obligations := ∅
  activeNodeIds : List String := []
  successorAttempts : List (SuccessorAttempt C) := []
  attemptLineage : List (LineageRecord C) := []
  integrationBarriers : List (Barrier C) := []
  retryState : RetryState := {}
  functionalityTest : FunctionalityTest := .unavailable
  terminalGraphStatus : Option GraphStatus := none

namespace AttemptState

variable {C : Type u} (state : AttemptState C)

/-! ## Transitions -/

/-- `_transition` on a node of the checkpoint. -/
def transition (nodeId : String) (updates : Node C → Node C) (running : Bool) : AttemptState C :=
  match state.nodes.get? nodeId with
  | none => state
  | some node =>
    { state with
      nodes := state.nodes.set nodeId (updates node)
      currentNodeId := if running then some nodeId else none }

def withObligations (obligations : Option Obligations) : AttemptState C :=
  { state with findingObligations := obligations.getD state.findingObligations }

def nodeStarted (nodeId : String) : AttemptState C :=
  state.transition nodeId (fun node =>
    { node with
      status := .running
      inputCommit := some (node.inputCommit.getD state.currentCandidateCommit) }) true

def candidateVerifiedPendingTransfer (nodeId : String) (candidate : C) : AttemptState C :=
  state.transition nodeId (fun node => { node with pendingTransfer := some candidate }) true

/-- The barrier of a node's completion. -/
def completionBarrier (nodeId : String) (candidate : C) : Barrier C where
  barrierId := barrierIdOf nodeId ((state.nodes.get? nodeId).bind (·.allocationId))
  nodeId := nodeId
  attemptId := attemptIdOf state.graphRunId ((state.nodes.get? nodeId).bind (·.allocationId))
  inputCommit :=
    ((state.nodes.get? nodeId).bind (·.inputCommit)).getD state.currentCandidateCommit
  integratedCommit := some candidate

def nodeCompleted (nodeId : String) (candidate : C) (obligations : Obligations) :
    AttemptState C :=
  let barrier := state.completionBarrier nodeId candidate
  let barriers :=
    if state.integrationBarriers.any (·.barrierId = barrier.barrierId) then
      state.integrationBarriers
    else state.integrationBarriers ++ [barrier]
  let next := state.transition nodeId (fun node =>
    { node with
      status := .succeeded
      candidateCommit := some candidate
      inputCommit := some barrier.inputCommit
      integratedCommit := some candidate }) false
  { next with
    currentCandidateCommit := candidate
    integrationBarriers := barriers
    findingObligations := obligations }

def nodeFailed (nodeId : String) (status : NodeStatus) (obligations : Option Obligations) :
    AttemptState C :=
  (state.transition nodeId (fun node => { node with status := status }) false).withObligations
    obligations

def transferConflictBlocked (nodeId : String) (obligations : Option Obligations) :
    AttemptState C :=
  (state.transition nodeId (fun node => { node with status := .blocked }) false).withObligations
    obligations

def functionalityCompleted (command : String) : AttemptState C :=
  { state with functionalityTest := .succeeded command }

def functionalityFailed (command error : String) : AttemptState C :=
  { state with functionalityTest := .failed command error }

/-- `finalize`, of a status that the journal accepts. -/
def finalize (status : GraphStatus) : AttemptState C :=
  { state with currentNodeId := none, terminalGraphStatus := some status }

/-! ## Reading -/

/-- The candidate of a sealed node. -/
def sealedCandidate (node : Node C) : Option C :=
  if node.status = .succeeded then node.candidateCommit else none

/-- `_load_audit_completed`. -/
def loadAuditCompleted : Except String (Dict String C) :=
  if state.nodes.values.any fun node => node.status = .succeeded && node.candidateCommit.isNone then
    .error "successful PlanGraph audit node has no candidate commit"
  else .ok (state.nodes.filterMap fun _ node => sealedCandidate node)

/-- `_pending_candidate_commit`. -/
def pendingCandidateCommit (nodeId : String) : Option C :=
  (state.nodes.get? nodeId).bind (·.pendingTransfer)

/-- The nodes that failed or are blocked, in the key order of the checkpoint. -/
def stoppedNodes : List String :=
  ((state.nodes.items.filter fun p => p.2.status.stopped).map Prod.fst).mergeSort fun a b => a ≤ b

end AttemptState

/-! ## Results -/

/-- A record of `deviation_records`, from the retry budget's ledger. -/
inductive DeviationRecord where
  | recoveryDecision (decision : Json)
  | planVersionTransition (transition : Json)

/-- `_completion_status`. -/
def completionStatus (records : List DeviationRecord) : GraphStatus :=
  if records.isEmpty then .succeeded
  else if records.any fun | .planVersionTransition _ => true | _ => false then
    .completedWithDeviations
  else .completedUnderFullAutonomy

theorem completionStatus_eq_succeeded {records : List DeviationRecord} :
    completionStatus records = .succeeded ↔ records = [] := by
  rw [completionStatus]
  cases records with
  | nil => exact iff_of_true rfl rfl
  | cons record records =>
    refine iff_of_false ?_ (List.cons_ne_nil _ _)
    rw [if_neg (by simp)]
    split_ifs <;> exact nofun

structure PlanGraphResult (C : Type u) where
  status : GraphStatus
  candidateCommit : Option C
  completed : Dict String C
  failedRunId : Option String := none
  functionalityFailure : Option String := none
  deviationRecords : List DeviationRecord := []

def GraphStatus.success : GraphStatus → Bool
  | .succeeded | .completedWithDeviations | .completedUnderFullAutonomy => true
  | _ => false

/-- `PlanGraphResult.__post_init__`. -/
def PlanGraphResult.check {C : Type u} (result : PlanGraphResult C) :
    Except String (PlanGraphResult C) :=
  if result.status.success ∧ result.status ≠ completionStatus result.deviationRecords then
    .error "successful terminal status does not match recovery deviation records"
  else .ok result

/-- `_result_from_audit`, of an attempt with a terminal status. -/
def resultFromAudit {C : Type u} (state : AttemptState C) (status : GraphStatus)
    (records : List DeviationRecord) : Except String (PlanGraphResult C) :=
  let failed := state.stoppedNodes.head?
  let candidate :=
    match status, failed with
    | .blocked, some nodeId => state.pendingCandidateCommit nodeId
    | _, _ => some state.currentCandidateCommit
  PlanGraphResult.check
    { status := status
      candidateCommit := candidate
      completed := state.nodes.filterMap fun _ node => AttemptState.sealedCandidate node
      failedRunId := failed
      functionalityFailure := state.functionalityTest.error?
      deviationRecords := records }

end HarnessLabs.PlanGraph
