import HarnessLabs.Controller.Command

/-!
# The state of a controller run

The authoritative state, the events that change it, and `_apply`. An event that names an entity the
state does not have is not applicable.

* `State.apply` — one event; `none` where the source's lookup fails.
-/

namespace HarnessLabs.Controller

/-! ## Entities -/

inductive Adjudication where
  | claimed
  | deterministicVerification
  deriving DecidableEq

structure Criterion where
  id : String
  statement : String
  source : String
  rationale : String
  satisfied : Bool
  evidenceRefs : List String
  satisfiedBy : List String
  minimumSatisfiers : ℕ
  adjudication : Adjudication
  deriving DecidableEq

inductive TaskStatus where
  | ready
  | running
  | settled (status : AttemptStatus)
  deriving DecidableEq

structure Task where
  id : String
  role : String
  objective : String
  context : String
  detailsSchema : String
  requiredCapabilities : List String
  acceptanceCriteria : List String
  dependencies : List String
  parentTaskId : Option String
  supersedesTaskId : Option String
  optional : Bool
  mayDelegate : Bool
  depth : ℕ
  status : TaskStatus
  attemptId : String
  maxParallelism : ℤ
  result : Option Json := none
  evidence : List String := []
  summary : Option String := none
  orphaned : Bool := false
  deriving DecidableEq

structure Disposition where
  findingId : String
  disposition : String
  rationale : String
  resolutionRefs : List String
  actor : CommandActor
  deriving DecidableEq

structure Finding where
  id : String
  localId : String
  producerTaskId : String
  statement : String
  category : String
  severity : String
  requiresDisposition : Bool
  evidenceRefs : List String
  sourceFindingIds : List String
  disposition : Option Disposition
  deriving DecidableEq

structure Decision where
  id : String
  question : String
  choice : String
  alternatives : List String
  rationale : String
  evidenceRefs : List String
  actor : CommandActor
  deriving DecidableEq

structure Segment where
  id : String
  phases : List String
  maxAttempts : Option ℤ
  deriving DecidableEq

structure CoordinatorSchema where
  protocol : String
  schemaId : String
  sha256 : String
  phases : List String
  segments : List Segment
  deriving DecidableEq

structure Session where
  sessionId : String
  segmentId : String
  attempt : ℤ
  startingPhase : String
  backendId : String
  deriving DecidableEq

inductive RunStatus where
  | running
  | paused
  | blocked
  | succeeded
  | failed
  | cancelled
  deriving DecidableEq

structure SessionRecord where
  session : Session
  outcome : String
  endingPhase : String
  runStatus : RunStatus
  resultStatus : String
  reason : String
  orphanedTaskIds : List String
  deriving DecidableEq

/-- One covered criterion of a semantic result. -/
structure Coverage where
  criterionId : String
  status : String
  evidenceRefs : List String
  deriving DecidableEq

structure Artifact where
  ref : String
  kind : String
  sha256 : String
  mediaType : String
  producerTaskId : String
  deriving DecidableEq

/-- What a task's result brings into the state. -/
structure Promotions where
  summary : String
  artifacts : List Artifact
  findings : List Finding
  criterionCoverage : List Coverage
  deriving DecidableEq

inductive RecoveryKind where
  | retry
  | replan
  deriving DecidableEq

/-! ## Events -/

/-- The type and the payload of an event. -/
inductive EventBody where
  | criterionRegistered (criterion : Criterion)
  | criterionGateVerified (criterionId evidenceRef : String)
  | taskRegistered (task : Task)
  | taskStarted (taskId : String)
  | taskOrphaned (taskId attemptId sessionId sessionOutcome : String) (evidence : List String)
  | taskResultRecorded (taskId : String) (result : TaskResult) (promotions : Option Promotions)
  | decisionRecorded (decision : Decision)
  | findingDispositionRecorded (disposition : Disposition)
  | phaseAdvanced (prior next : String)
  | operatorInputRequested (id question : String)
  | runCompleted
  | runGateVerificationFailed (criterionIds : List String) (evidenceRef : String)
  | runBlocked (reason : String)
  | runPaused (reason : Json)
  | runResumed (reason : Json)
  | runCancelled (reason : Json)
  | budgetChanged (name : String) (value : ℤ)
  | coordinatorSchemaRegistered (schema : CoordinatorSchema)
  | coordinatorSessionStarted (session : Session)
  | coordinatorSessionEnded (record : SessionRecord)
  | recoveryRequested (kind : RecoveryKind) (reason : String) (payload : Json)
  | administrative (type : CommandType) (payload : Json)

structure KernelEvent where
  eventId : String
  runId : String
  revision : ℕ
  actor : CommandActor
  commandId : String
  body : EventBody

/-! ## State -/

/-- The fields of the state that change; the contract holds the others. -/
structure State where
  revision : ℕ
  kernelEventCount : ℕ
  status : RunStatus
  blocker : Option String := none
  phase : String
  criteria : Dict String Criterion
  tasks : Dict String Task
  decisions : Dict String Decision
  findings : Dict String Finding
  artifacts : Dict String Artifact
  operatorQuestions : List (String × String)
  anomalies : List (RecoveryKind × String × Json)
  budgets : Dict String ℤ
  receipts : Dict String CommandReceipt
  schema : Option CoordinatorSchema
  activeSession : Option Session
  sessions : List SessionRecord
  rejectedTaskDispatchRefs : List String

namespace State

/-- Change an entity that must exist. -/
def updateTask (s : State) (id : String) (f : Task → Task) : Option State :=
  (s.tasks.get? id).map fun task => { s with tasks := s.tasks.set id (f task) }

def updateCriterion (s : State) (id : String) (f : Criterion → Criterion) : Option State :=
  (s.criteria.get? id).map fun c => { s with criteria := s.criteria.set id (f c) }

def updateFinding (s : State) (id : String) (f : Finding → Finding) : Option State :=
  (s.findings.get? id).map fun x => { s with findings := s.findings.set id (f x) }

end State

/-- `sorted(set(refs).union(more))`. -/
def unionRefs (refs more : List String) : List String :=
  (refs ++ more).dedup.insertionSort (· ≤ ·)

def Criterion.gateVerified (c : Criterion) (ref : String) : Criterion :=
  { c with
    satisfiedBy :=
      if "verification-owner" ∈ c.satisfiedBy then c.satisfiedBy
      else c.satisfiedBy ++ ["verification-owner"]
    evidenceRefs := unionRefs c.evidenceRefs [ref]
    satisfied := true }

/-- A task's claim that it satisfies the criterion. -/
def Criterion.covered (c : Criterion) (taskId : String) (coverage : Coverage) : Criterion :=
  if coverage.status = "satisfied" then
    let satisfiedBy := if taskId ∈ c.satisfiedBy then c.satisfiedBy else c.satisfiedBy ++ [taskId]
    { c with
      satisfiedBy := satisfiedBy
      evidenceRefs := unionRefs c.evidenceRefs coverage.evidenceRefs
      satisfied := c.satisfied || decide (c.minimumSatisfiers ≤ satisfiedBy.length) }
  else c

def orphanResult (sessionId outcome : String) : Json :=
  Json.ofMembers [("error", .str ("coordinator session ended while the task was still running: " ++
      "session " ++ sessionId ++ " (" ++ outcome ++ ")")),
    ("error_type", .str "OrphanedTaskError")]

namespace State

def coverCriteria (s : State) (taskId : String) : List Coverage → Option State
  | [] => some s
  | coverage :: rest =>
    (s.updateCriterion coverage.criterionId (·.covered taskId coverage)).bind
      (·.coverCriteria taskId rest)

def promote (s : State) (p : Promotions) : State :=
  { s with
    artifacts := p.artifacts.foldl (fun acc (a : Artifact) => acc.set a.ref a) s.artifacts
    findings := p.findings.foldl (fun acc (f : Finding) => acc.set f.id f) s.findings }

/-- `_apply_promotions`. -/
def applyPromotions (s : State) (taskId : String) (p : Promotions) : Option State :=
  (s.updateTask taskId fun task => { task with summary := some p.summary }).bind fun s =>
    (s.promote p).coverCriteria taskId p.criterionCoverage

def recordResult (s : State) (taskId : String) (result : TaskResult)
    (promotions : Option Promotions) : Option State :=
  (s.updateTask taskId fun task =>
    { task with status := .settled result.status, result := some result.payload
                evidence := result.evidence }).bind fun s =>
    match promotions with
    | none => some s
    | some p => s.applyPromotions taskId p

/-- The dispatch of `_apply` on the event's type. -/
def applyBody (s : State) : EventBody → Option State
  | .criterionRegistered c => some { s with criteria := s.criteria.set c.id c }
  | .criterionGateVerified id ref => s.updateCriterion id (·.gateVerified ref)
  | .taskRegistered task => some { s with tasks := s.tasks.set task.id task }
  | .taskStarted id => s.updateTask id fun task => { task with status := .running }
  | .taskOrphaned id _ sessionId outcome evidence =>
    s.updateTask id fun task =>
      { task with status := .settled .failed, orphaned := true
                  result := some (orphanResult sessionId outcome), evidence := evidence }
  | .taskResultRecorded id result promotions => s.recordResult id result promotions
  | .decisionRecorded d => some { s with decisions := s.decisions.set d.id d }
  | .findingDispositionRecorded d =>
    s.updateFinding d.findingId fun f => { f with disposition := some d }
  | .phaseAdvanced _ next => some { s with phase := next }
  | .operatorInputRequested id question =>
    some { s with
      operatorQuestions := s.operatorQuestions ++ [(id, question)]
      status := .blocked }
  | .runCompleted => some { s with status := .succeeded }
  | .runGateVerificationFailed ids _ =>
    some (if s.status = .succeeded then
      { s with
        status := .blocked
        blocker := some ("deterministic verification failed for gate-backed criteria: " ++
          ", ".intercalate ids) }
    else s)
  | .runBlocked reason => some { s with status := .blocked, blocker := some reason }
  | .runPaused _ => some { s with status := .paused }
  | .runResumed _ => some { s with status := .running }
  | .runCancelled _ => some { s with status := .cancelled }
  | .budgetChanged name value => some { s with budgets := s.budgets.set name value }
  | .coordinatorSchemaRegistered schema => some { s with schema := some schema }
  | .coordinatorSessionStarted session => some { s with activeSession := some session }
  | .coordinatorSessionEnded record =>
    some { s with sessions := s.sessions ++ [record], activeSession := none }
  | .recoveryRequested kind reason payload =>
    some { s with anomalies := s.anomalies ++ [(kind, reason, payload)] }
  | .administrative _ _ => some s

/-- `_apply`: the event is counted after it took effect. -/
def apply (s : State) (e : KernelEvent) : Option State :=
  (s.applyBody e.body).map fun t => { t with kernelEventCount := t.kernelEventCount + 1 }

end State

end HarnessLabs.Controller
