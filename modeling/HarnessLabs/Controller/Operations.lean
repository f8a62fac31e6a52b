import HarnessLabs.Controller.Handlers
import HarnessLabs.Lib.EventLog
import HarnessLabs.Lib.Text

/-!
# Kernel operations

What a caller can ask of the kernel: a command, and the trusted operations that record results,
starts and gate verifications. Each either leaves the kernel as it is or applies its events in
order; the durable writes of `_persist` and `_reject` are listed with the outcome.

* `Kernel.step` — one operation.
* `Outcome.writes` — what is written, in the order it is written.
-/

namespace HarnessLabs.Controller

open EventLog

/-- A kernel in memory. The receipts are those of the state. -/
structure Kernel where
  state : State
  events : List KernelEvent

/-- `controller-event-{n:06d}`. -/
def eventId (n : ℕ) : String := String.ofList ("controller-event-".toList ++ Text.padded 6 n)

/-- `_new_event` for each body, with the command id it carries, behind `count` events. -/
def newEvents (runId : String) (revision : ℕ) (actor : CommandActor) :
    ℕ → List (String × EventBody) → List KernelEvent
  | _, [] => []
  | count, (commandId, body) :: rest =>
    ⟨eventId (count + 1), runId, revision, actor, commandId, body⟩ ::
      newEvents runId revision actor (count + 1) rest

/-! ## Durable writes -/

/-- One durable write. -/
inductive Write where
  | controllerEvent (event : KernelEvent)
  | commandProcessed (key : String) (receipt : CommandReceipt)
  | commandRejected (receipt : CommandReceipt)
  | checkpoint (state : State)

/-- `_persist`. -/
def persist (events : List KernelEvent) (processed : Option (String × CommandReceipt))
    (state : State) : List Write :=
  events.map .controllerEvent ++ (processed.map fun p => .commandProcessed p.1 p.2).toList ++
    [.checkpoint state]

/-- What an operation leaves: the kernel, what was written, and the answer or the error raised. -/
structure Outcome where
  kernel : Kernel
  writes : List Write
  answer : Except String (Option CommandReceipt)

def Kernel.raises (k : Kernel) (message : String) : Outcome := ⟨k, [], .error message⟩

/-! ## Commands -/

/-- `_reject`: an invalid dispatch leaves a reference that later commands may cite. -/
def Kernel.reject (k : Kernel) (command : CommandEnvelope) (code message : String) : Outcome :=
  let receipt : CommandReceipt :=
    { commandId := command.commandId, runId := command.runId, status := .rejected
      revision := k.state.revision, errorCode := some code, message }
  if code = "invalid_command" ∧ command.type = .taskDispatch then
    let state := { k.state with
      rejectedTaskDispatchRefs :=
        k.state.rejectedTaskDispatchRefs ++ ["command:" ++ command.commandId] }
    ⟨⟨state, k.events⟩, [.commandRejected receipt, .checkpoint state], .ok (some receipt)⟩
  else ⟨k, [.commandRejected receipt], .ok (some receipt)⟩

/-- `_commit`. -/
def Kernel.commit (k : Kernel) (contract : RunContract) (command : CommandEnvelope)
    (effects : Effects) : Outcome :=
  let revision := k.state.revision + 1
  let events := newEvents contract.runId revision command.actor k.events.length
    (effects.1.map fun body => (command.commandId, body))
  match replay State.apply k.state events with
  | none => k.raises "event is not applicable"
  | some applied =>
    let receipt : CommandReceipt :=
      { commandId := command.commandId, runId := command.runId, status := .accepted, revision
        eventIds := events.map (·.eventId), effectRefs := effects.2 }
    let state := { applied with
      revision
      receipts := applied.receipts.set command.idempotencyKey receipt }
    ⟨⟨state, k.events ++ events⟩, persist events (some (command.idempotencyKey, receipt)) state,
      .ok (some receipt)⟩

def duplicateReceipt (command : CommandEnvelope) (receipt : CommandReceipt) : CommandReceipt :=
  { commandId := command.commandId, runId := command.runId, status := .duplicate
    revision := receipt.revision, eventIds := receipt.eventIds, effectRefs := receipt.effectRefs
    message := "idempotent command already accepted" }

/-- `handle`. -/
def Kernel.handle (k : Kernel) (contract : RunContract) (catalog : EvidenceCatalog)
    (command : CommandEnvelope) : Outcome :=
  match k.state.receipts.get? command.idempotencyKey with
  | some receipt => ⟨k, [], .ok (some (duplicateReceipt command receipt))⟩
  | none =>
    match k.state.validateEnvelope contract catalog k.events command with
    | some (code, message) => k.reject command code message
    | none =>
      match k.state.evaluate contract catalog command with
      | .error message => k.reject command "invalid_command" message
      | .ok effects => k.commit contract command effects

/-! ## Trusted operations -/

/-- Apply the events of a trusted operation under one new revision. -/
def Kernel.record (k : Kernel) (contract : RunContract) (actor : CommandActor)
    (bodies : List (String × EventBody)) : Outcome :=
  let revision := k.state.revision + 1
  let events := newEvents contract.runId revision actor k.events.length bodies
  match replay State.apply k.state events with
  | none => k.raises "event is not applicable"
  | some applied =>
    let state := { applied with revision }
    ⟨⟨state, k.events ++ events⟩, persist events none state, .ok none⟩

def kernelActor : CommandActor := ⟨"kernel", .other "controller_kernel", none⟩

def verificationOwner : CommandActor := ⟨"verification-owner", .other "verification_owner", none⟩

def systemId (kind taskId : String) (revision : ℕ) : String :=
  kind ++ ":" ++ taskId ++ ":" ++ toString revision

/-- The first task of the list that is not ready. -/
def Kernel.markTasksRunning (k : Kernel) (contract : RunContract) (ids : List String) : Outcome :=
  if ids = [] then k.raises "at least one task must be marked running"
  else
    match ids.find? fun id => (k.state.tasks.get? id).all fun t => t.status ≠ .ready with
    | some id => k.raises ("task is not ready: " ++ id)
    | none =>
      k.record contract kernelActor (ids.map fun id =>
        (systemId "system-start" id (k.state.revision + 1), .taskStarted id))

def gateVerificationEvidenceKind : String := "deterministic-verification-output"

def gateVerificationOwner : String := "verification-owner"

/-- `_verification_owner_evidence`. -/
def verificationOwnerEvidence (catalog : EvidenceCatalog) (ref : String) (expectPassing : Bool) :
    Except String Unit :=
  match catalog.records.get? ref with
  | none => .error "gate verification references unknown evidence"
  | some record =>
    if record.kind ≠ gateVerificationEvidenceKind then
      .error "gate verification evidence has the wrong kind"
    else if record.producerTaskId ≠ gateVerificationOwner then
      .error "gate verification evidence was not produced by the verification owner"
    else
      match ((catalog.content.get? ref).bind (·.get? "exit_code")).bind pyInt? with
      | none => .error "gate verification evidence has no exit_code"
      | some code =>
        if expectPassing ∧ code ≠ 0 then
          .error "gate verification evidence is not a passing command result"
        else if ¬ expectPassing ∧ code = 0 then
          .error "gate verification failure evidence is not a failing command result"
        else .ok ()

/-- Every id names a criterion that is gate-backed. -/
def State.checkGateCriteria (s : State) : List String → Except String Unit
  | [] => .ok ()
  | id :: rest =>
    match s.criteria.get? id with
    | none => .error ("unknown gate criterion: " ++ id)
    | some c =>
      if c.adjudication ≠ .deterministicVerification then
        .error ("criterion is not gate-backed: " ++ id)
      else s.checkGateCriteria rest

/-- `record_gate_verification`. -/
def Kernel.recordGateVerification (k : Kernel) (contract : RunContract) (catalog : EvidenceCatalog)
    (criterionIds : List String) (evidenceRef : String) : Outcome :=
  if criterionIds = [] then k.raises "gate verification requires at least one criterion"
  else
    match verificationOwnerEvidence catalog evidenceRef true with
    | .error e => k.raises e
    | .ok () =>
      match k.state.checkGateCriteria criterionIds.eraseDups with
      | .error e => k.raises e
      | .ok () =>
        k.record contract verificationOwner (criterionIds.eraseDups.map fun id =>
          (systemId "system-gate-verification" id (k.state.revision + 1),
            .criterionGateVerified id evidenceRef))

/-- `record_gate_verification_failure`. -/
def Kernel.recordGateVerificationFailure (k : Kernel) (contract : RunContract)
    (catalog : EvidenceCatalog) (criterionIds : List String) (evidenceRef : String) : Outcome :=
  if criterionIds = [] then k.raises "gate verification failure requires at least one criterion"
  else
    match verificationOwnerEvidence catalog evidenceRef false with
    | .error e => k.raises e
    | .ok () =>
      match k.state.checkGateCriteria criterionIds.eraseDups with
      | .error e => k.raises e
      | .ok () =>
        k.record contract verificationOwner
          [("system-gate-verification-failed:" ++ toString (k.state.revision + 1),
            .runGateVerificationFailed criterionIds.eraseDups evidenceRef)]

/-! ## Results -/

structure SemanticFinding where
  id : String
  statement : String
  category : String
  severity : String
  requiresDisposition : Bool
  evidenceRefs : List String
  sourceFindingIds : List String

structure SemanticArtifact where
  ref : String
  kind : String
  sha256 : String
  mediaType : String

/-- What the kernel reads of a validated semantic result. -/
structure SemanticResult where
  summary : String
  claimRefs : List String
  findings : List SemanticFinding
  artifacts : List SemanticArtifact
  criterionCoverage : List Coverage

/-- `validate_semantic_result`: a result against the details schema of its task. -/
abbrev SemanticValidator := TaskResult → String → Except String SemanticResult

/-- The artifact is the one that the catalog has, and the task's own. -/
def checkArtifact (catalog : EvidenceCatalog) (taskId : String) (a : SemanticArtifact) :
    Except String Unit :=
  match catalog.records.get? a.ref with
  | none => .error ("unknown evidence reference: " ++ a.ref)
  | some record =>
    if record.sha256 ≠ a.sha256 then .error "semantic result artifact digest does not match"
    else if record.kind ≠ a.kind then .error "semantic result artifact kind does not match"
    else if record.producerTaskId ≠ taskId then
      .error "semantic result artifact producer does not match"
    else .ok ()

def checkCoverage (s : State) (task : Task) (coverage : Coverage) : Except String Unit :=
  match s.criteria.get? coverage.criterionId with
  | none => .error ("result covers unknown criterion: " ++ coverage.criterionId)
  | some criterion =>
    if coverage.criterionId ∉ task.acceptanceCriteria then
      .error ("task was not assigned criterion: " ++ coverage.criterionId)
    else if coverage.status = "satisfied" ∧ criterion.adjudication = .deterministicVerification then
      .error ("criterion is gate-backed and cannot be claimed satisfied: " ++ coverage.criterionId)
    else .ok ()

/-- `_validate_result_references`. -/
def State.validateResultReferences (s : State) (catalog : EvidenceCatalog) (task : Task)
    (semantic : SemanticResult) : Except String Unit :=
  let refs := semantic.claimRefs ++ semantic.findings.flatMap (·.evidenceRefs) ++
    semantic.criterionCoverage.flatMap (·.evidenceRefs)
  match (semantic.findings.flatMap (·.sourceFindingIds)).find? fun id => !s.findings.contains id with
  | some id => .error ("finding references unknown source finding: " ++ id)
  | none =>
    match refs.find? fun ref => !catalog.contains ref with
    | some ref => .error ("semantic result references unknown evidence: " ++ ref)
    | none =>
      match semantic.artifacts.mapM (checkArtifact catalog task.id) with
      | .error e => .error e
      | .ok _ =>
        match semantic.findings.find? fun f => s.findings.contains (task.id ++ "/" ++ f.id) with
        | some f => .error ("duplicate promoted finding: " ++ task.id ++ "/" ++ f.id)
        | none =>
          match semantic.criterionCoverage.mapM (checkCoverage s task) with
          | .error e => .error e
          | .ok _ => .ok ()

/-- `_semantic_promotions`. -/
def semanticPromotions (taskId : String) (semantic : SemanticResult) : Promotions where
  summary := semantic.summary
  artifacts := semantic.artifacts.map fun a => ⟨a.ref, a.kind, a.sha256, a.mediaType, taskId⟩
  findings := semantic.findings.map fun f =>
    { id := taskId ++ "/" ++ f.id, localId := f.id, producerTaskId := taskId
      statement := f.statement, category := f.category, severity := f.severity
      requiresDisposition := f.requiresDisposition, evidenceRefs := f.evidenceRefs
      sourceFindingIds := f.sourceFindingIds, disposition := none }
  criterionCoverage := semantic.criterionCoverage

/-- The result that is recorded when the semantic contract is not met. -/
def failedResult (result : TaskResult) (message : String) : TaskResult :=
  { result with
    status := .failed
    payload := Json.ofMembers [("error", .str message), ("error_type", .str "SemanticResultError")] }

/-- The checks on one result, and the event that records it. -/
def State.prepareResult (s : State) (validate : SemanticValidator) (catalog : EvidenceCatalog)
    (taskId : String) (result : TaskResult) : Except String EventBody :=
  match s.tasks.get? taskId with
  | none => .error ("unknown task result target: " ++ taskId)
  | some task =>
    if task.status ≠ .running then .error ("task is not running: " ++ taskId)
    else if result.attemptId ≠ task.attemptId then
      .error ("task result attempt mismatch: " ++ taskId)
    else if result.status ≠ .succeeded then .ok (.taskResultRecorded taskId result none)
    else
      match validate result task.detailsSchema with
      | .error message => .ok (.taskResultRecorded taskId (failedResult result message) none)
      | .ok semantic =>
        match s.validateResultReferences catalog task semantic with
        | .error e => .error e
        | .ok () =>
          .ok (.taskResultRecorded taskId result (some (semanticPromotions taskId semantic)))

/-- `record_task_results`: every result is checked before any is applied. -/
def Kernel.recordTaskResults (k : Kernel) (contract : RunContract) (validate : SemanticValidator)
    (catalog : EvidenceCatalog) (results : List (String × TaskResult)) : Outcome :=
  match results.mapM fun r => k.state.prepareResult validate catalog r.1 r.2 with
  | .error e => k.raises e
  | .ok bodies =>
    k.record contract kernelActor
      ((results.map fun r => systemId "system-result" r.1 (k.state.revision + 1)).zip bodies)

/-! ## Steps -/

/-- An operation, with the evidence catalog as it is at that moment. -/
inductive Operation where
  | handle (catalog : EvidenceCatalog) (command : CommandEnvelope)
  | recordTaskResults (catalog : EvidenceCatalog) (results : List (String × TaskResult))
  | markTasksRunning (taskIds : List String)
  | recordGateVerification (catalog : EvidenceCatalog) (criterionIds : List String)
      (evidenceRef : String)
  | recordGateVerificationFailure (catalog : EvidenceCatalog) (criterionIds : List String)
      (evidenceRef : String)

/-- What stays fixed over a run. -/
structure Setting where
  contract : RunContract
  validate : SemanticValidator

def Kernel.step (k : Kernel) (setting : Setting) : Operation → Outcome
  | .handle catalog command => k.handle setting.contract catalog command
  | .recordTaskResults catalog results =>
    k.recordTaskResults setting.contract setting.validate catalog results
  | .markTasksRunning ids => k.markTasksRunning setting.contract ids
  | .recordGateVerification catalog ids ref =>
    k.recordGateVerification setting.contract catalog ids ref
  | .recordGateVerificationFailure catalog ids ref =>
    k.recordGateVerificationFailure setting.contract catalog ids ref

/-- The state of a kernel that has just been created. -/
def initialState (contract : RunContract) (criteria : Dict String Criterion)
    (artifacts : Dict String Artifact) : State where
  revision := 0
  kernelEventCount := 0
  status := .running
  phase := contract.phases.headD ""
  criteria := criteria
  tasks := ∅
  decisions := ∅
  findings := ∅
  artifacts := artifacts
  operatorQuestions := []
  anomalies := []
  budgets := ∅
  receipts := ∅
  schema := none
  activeSession := none
  sessions := []
  rejectedTaskDispatchRefs := []

end HarnessLabs.Controller
