import HarnessLabs.Controller.State

/-!
# Command handlers

What an accepted command does: the events that its handler returns, with the references of its
effects. A handler only reads the state; every refusal carries the source's message.

* `validateEnvelope` — the checks before a handler is chosen.
* `State.evaluate` — the handler of each command.
* `State.completionFailures` — what stands between a run and its completion.
-/

namespace HarnessLabs.Controller

structure RunLimits where
  maxDepth : ℕ
  maxSubagents : ℕ
  maxParallelism : Option ℤ
  maxTasks : Option ℕ

structure RunContract where
  runId : String
  objective : String
  phases : List String
  terminalArtifactKinds : List String
  limits : RunLimits

/-- The events of an accepted command and the references of its effects. -/
abbrev Effects := List EventBody × List String

/-! ## The envelope -/

def provenanceRefShapes : List String :=
  ["artifact:sha256:<hex>", "command:<id>", "task:<id>", "system-result:<id>:<n>", "decision:<id>"]

/-- What follows a prefix of the text. -/
def afterPrefix (start text : String) : Option String :=
  if start.toList.isPrefixOf text.toList then
    some (String.ofList (text.toList.drop start.toList.length))
  else none

/-- `_resolves_kernel_entity_ref`. -/
def State.resolvesKernelEntityRef (s : State) (events : List KernelEvent) (ref : String) : Bool :=
  match afterPrefix "task:" ref with
  | some id => s.tasks.contains id
  | none =>
    match afterPrefix "decision:" ref with
    | some id => s.decisions.contains id
    | none =>
      (afterPrefix "system-result:" ref).isSome && events.any fun e =>
        match e.body with
        | .taskResultRecorded .. => e.commandId == ref
        | _ => false

/-- `_validate_envelope`: the code and the message of a rejection. -/
def State.validateEnvelope (s : State) (contract : RunContract) (catalog : EvidenceCatalog)
    (events : List KernelEvent) (command : CommandEnvelope) : Option (String × String) :=
  if command.runId ≠ contract.runId then
    some ("run_mismatch", "command run_id does not match the kernel")
  else if command.expectedRevision ≠ s.revision then
    some ("stale_revision", "command expected_revision is stale")
  else if s.status ∈ [.succeeded, .failed, .cancelled] ∧ command.type ≠ .coordinatorSessionEnd then
    some ("terminal_run", "terminal run cannot accept commands")
  else
    match allowedCommands command.actor.role with
    | none => some ("unauthorized_actor", "actor role may not issue commands")
    | some allowed =>
      if command.type ∉ allowed then
        some ("unauthorized_command", "actor may not issue this command")
      else
        (command.evidenceRefs.find? fun ref =>
          !(catalog.contains ref || decide (ref ∈ s.rejectedTaskDispatchRefs) ||
            s.resolvesKernelEntityRef events ref)).map fun ref =>
          ("unknown_evidence", "unknown provenance reference: " ++ ref ++
            " (accepted ref shapes: " ++ ", ".intercalate provenanceRefShapes ++ ")")

/-! ## Coordinator sessions -/

/-- One segment of a schema, behind segments with the given ids. -/
def readSegment (seen : List String) (item : Json) : Except String Segment := do
  if item.asMembers?.isNone then throw "coordinator schema segments must be objects"
  let id ← payloadText item "id" "coordinator segment"
  if id ∈ seen then throw "coordinator segment ids must be unique"
  let phases ← stringList item "phases"
  match item.get? "max_attempts" with
  | none => return ⟨id, phases, none⟩
  | some .null => return ⟨id, phases, none⟩
  | some (.int n) =>
    if n < 1 then throw "coordinator segment max_attempts must be positive or unbounded"
    else return ⟨id, phases, some n⟩
  | some _ => throw "coordinator segment max_attempts must be positive or unbounded"

def readSegments : List Segment → List Json → Except String (List Segment)
  | earlier, [] => .ok earlier
  | earlier, item :: rest =>
    match readSegment (earlier.map (·.id)) item with
    | .error e => .error e
    | .ok segment => readSegments (earlier ++ [segment]) rest

def coordinatorSchemaRegister (s : State) (contract : RunContract) (payload : Json) :
    Except String Effects := do
  let protocol ← payloadText payload "protocol" "coordinator schema"
  if protocol ≠ "coordinator-dispatch-schema/1" then throw "coordinator schema protocol is invalid"
  let schemaId ← payloadText payload "schema_id" "coordinator schema"
  let digest ← payloadText payload "sha256" "coordinator schema"
  if digest.toList.length ≠ 64 ∨ ¬ digest.toList.all ("0123456789abcdef".toList.contains ·) then
    throw "coordinator schema sha256 is invalid"
  let phases ← stringList payload "phases"
  if phases ≠ contract.phases then throw "coordinator schema phases do not match the run"
  let items := ((payload.get? "segments").bind Json.asArr?).getD []
  if items = [] then throw "coordinator schema segments must be non-empty"
  let segments ← readSegments [] items
  if segments.flatMap (·.phases) ≠ contract.phases then
    throw "coordinator segments must exactly cover run phases in order"
  if s.schema.any (·.sha256 ≠ digest) then
    throw "a different coordinator schema is already registered"
  return ([.coordinatorSchemaRegistered ⟨protocol, schemaId, digest, phases, segments⟩],
    ["coordinator-schema:" ++ schemaId])

def coordinatorSessionStart (s : State) (payload : Json) : Except String Effects :=
  match s.schema with
  | none => .error "coordinator schema is not registered"
  | some schema => do
    if s.activeSession.isSome then throw "a coordinator session is already active"
    let sessionId ← payloadText payload "session_id" "coordinator session"
    let segmentId ← payloadText payload "segment_id" "coordinator session"
    match (payload.get? "attempt").bind Json.asInt? with
    | none => throw "coordinator session attempt must be positive"
    | some attempt =>
      if attempt < 1 then throw "coordinator session attempt must be positive"
      match schema.segments.find? (·.id == segmentId) with
      | none => throw "coordinator session segment is unknown"
      | some segment =>
        if s.phase ∉ segment.phases then
          throw "coordinator segment does not own the current phase"
        if attempt ≠ (s.sessions.countP (·.session.segmentId == segmentId) : ℤ) + 1 then
          throw "coordinator session attempt is not sequential"
        if segment.maxAttempts.any (· < attempt) then
          throw "coordinator session exceeds segment attempts"
        return ([.coordinatorSessionStarted ⟨sessionId, segmentId, attempt, s.phase,
          textOr payload "backend_id" "unspecified"⟩], ["coordinator-session:" ++ sessionId])

/-- The tasks that a session's end leaves without an owner. -/
def State.runningTaskIds (s : State) : List String :=
  ((s.tasks.items.filter fun p => p.2.status = .running).map Prod.fst).insertionSort (· ≤ ·)

/-- The event that fails a task whose session ended; its evidence is kept. -/
def orphanEvent (s : State) (catalog : EvidenceCatalog) (sessionId outcome taskId : String) :
    EventBody :=
  match s.tasks.get? taskId with
  | some task =>
    .taskOrphaned taskId task.attemptId sessionId outcome
      (unionRefs (catalog.producedBy taskId) task.evidence)
  | none => .taskOrphaned taskId "" sessionId outcome []

def sessionOutcomes : List String :=
  ["boundary", "terminal", "recoverable_failure", "blocked", "interrupted"]

def coordinatorSessionEnd (s : State) (catalog : EvidenceCatalog) (payload : Json) :
    Except String Effects :=
  match s.activeSession with
  | none => .error "no coordinator session is active"
  | some active => do
    let sessionId ← payloadText payload "session_id" "coordinator session"
    if sessionId ≠ active.sessionId then throw "coordinator session identity does not match"
    let outcome ← payloadText payload "outcome" "coordinator session"
    if outcome ∉ sessionOutcomes then throw "coordinator session outcome is invalid"
    return (s.runningTaskIds.map (orphanEvent s catalog sessionId outcome) ++
      [.coordinatorSessionEnded ⟨active, outcome, s.phase, s.status,
        textOr payload "result_status" "", textOr payload "reason" "", s.runningTaskIds⟩],
      s.runningTaskIds.map ("task:" ++ ·) ++ ["coordinator-session:" ++ sessionId])

/-! ## Criteria and tasks -/

/-- `_criterion`, with the adjudications that may be declared. -/
def readCriterion (item : Json) (allowGate : Bool) : Except String Criterion := do
  let id ← payloadText item "id" "criterion"
  let statement ← payloadText item "statement" "criterion"
  let source ← payloadText item "source" "criterion"
  if source ∉ ["operator", "repository", "coordinator", "plan"] then
    throw "criterion source is invalid"
  let minimum := (item.get? "minimum_satisfiers").map pyInt? |>.getD (some 1)
  if minimum.all (· < 1) then throw "criterion minimum_satisfiers must be positive"
  let adjudication ← match item.get? "adjudication" with
    | none => pure Adjudication.claimed
    | some (.str "claimed") => pure Adjudication.claimed
    | some (.str "deterministic_verification") => pure Adjudication.deterministicVerification
    | some _ => throw "criterion adjudication is invalid"
  if adjudication = .deterministicVerification ∧ ¬ allowGate then
    throw ("deterministic-verification adjudication may only be declared by " ++
      "a run-contract criterion")
  return { id, statement, source, rationale := textOr item "rationale" "", satisfied := false
           evidenceRefs := [], satisfiedBy := [], minimumSatisfiers := (minimum.getD 1).toNat
           adjudication }

def criterionPropose (s : State) (payload : Json) : Except String Effects := do
  let criterion ← readCriterion payload false
  if s.criteria.contains criterion.id then
    throw ("criterion already exists: " ++ criterion.id)
  return ([.criterionRegistered criterion], ["criterion:" ++ criterion.id])

/-- An optional task id of a task description. -/
def optionalTaskId (item : Json) (name : String) : Except String (Option String) :=
  match item.get? name with
  | none => .ok none
  | some .null => .ok none
  | some (.str id) =>
    if isBlank id then .error ("task " ++ name ++ " must be non-empty when supplied")
    else .ok (some id)
  | some _ => .error ("task " ++ name ++ " must be non-empty when supplied")

def flagOr (item : Json) (name : String) : Except String Bool :=
  match item.get? name with
  | none => .ok false
  | some (.bool b) => .ok b
  | some _ => .error "task optional and may_delegate must be boolean"

/-- `_task`. -/
def readTask (item : Json) : Except String Task := do
  if item.asMembers?.isNone then throw "task.dispatch tasks must be objects"
  let parentTaskId ← optionalTaskId item "parent_task_id"
  let supersedesTaskId ← optionalTaskId item "supersedes_task_id"
  let requiredCapabilities ← stringList item "required_capabilities"
  let acceptanceCriteria ← stringList item "acceptance_criteria"
  let dependencies ← stringList item "dependencies"
  let optional ← flagOr item "optional"
  let mayDelegate ← flagOr item "may_delegate"
  let id ← payloadText item "id" "task"
  let role ← payloadText item "role" "task"
  let objective ← payloadText item "objective" "task"
  let detailsSchema ← payloadText item "details_schema" "task"
  return { id, role, objective, context := textOr item "context" "", detailsSchema
           requiredCapabilities, acceptanceCriteria, dependencies, parentTaskId, supersedesTaskId
           optional, mayDelegate, depth := 0, status := .ready, attemptId := ""
           maxParallelism := 0 }

def dropBlanks (cs : List Char) : List Char :=
  ((cs.dropWhile (·.isWhitespace)).reverse.dropWhile (·.isWhitespace)).reverse

/-- The part before the first colon that a blank follows. -/
def beforeColon : List Char → List Char
  | ':' :: ' ' :: _ => []
  | c :: rest => c :: beforeColon rest
  | [] => []

/-- `_parse_criterion_ref`. -/
def parseCriterionRef (value : String) : Except String String :=
  let id := String.ofList (dropBlanks (beforeColon value.toList))
  if id = "" then .error "acceptance_criteria entry must declare a criterion id" else .ok id

/-- `_resolve_task_criteria`: a declared id is taken literally. -/
def resolveTaskCriteria (s : State) (entries : List String) : Except String (List String) :=
  entries.mapM fun value =>
    if s.criteria.contains value then .ok value else parseCriterionRef value

/-- The authority that a superseding task must keep; the message names the first field changed. -/
def frozenAuthority (task old : Task) : Except String Unit :=
  let changed := "superseding task changes frozen authority: "
  if task.role ≠ old.role then .error (changed ++ "role")
  else if task.detailsSchema ≠ old.detailsSchema then .error (changed ++ "details_schema")
  else if task.acceptanceCriteria ≠ old.acceptanceCriteria then
    .error (changed ++ "acceptance_criteria")
  else if task.dependencies ≠ old.dependencies then .error (changed ++ "dependencies")
  else if task.parentTaskId ≠ old.parentTaskId then .error (changed ++ "parent_task_id")
  else if task.optional ≠ old.optional then .error (changed ++ "optional")
  else if task.mayDelegate ≠ old.mayDelegate then .error (changed ++ "may_delegate")
  else if ¬ task.requiredCapabilities ⊆ old.requiredCapabilities then
    .error (changed ++ "required_capabilities")
  else .ok ()

def checkSupersedes (s : State) (task : Task) : Except String Unit :=
  match task.supersedesTaskId with
  | none => .ok ()
  | some id =>
    match s.tasks.get? id with
    | none => .error ("unknown superseded task: " ++ id)
    | some old =>
      if old.status ≠ .settled .failed then .error ("superseded task is not failed: " ++ id)
      else frozenAuthority task old

/-- The depth of a new task below its parent. -/
def taskDepth (s : State) (actor : CommandActor) (task : Task) : Except String ℕ :=
  match task.parentTaskId with
  | none =>
    if actor.role = .worker then .error "worker delegation requires parent_task_id" else .ok 1
  | some id =>
    match s.tasks.get? id with
    | none => .error ("unknown parent task: " ++ id)
    | some parent =>
      if ¬ parent.mayDelegate then .error ("parent task may not delegate: " ++ id)
      else if actor.role = .worker ∧ actor.id ≠ id then
        .error "worker may delegate only from its own task"
      else if actor.role = .worker ∧ parent.status ≠ .running then
        .error "worker may delegate only while running"
      else .ok (parent.depth + 1)

/-- Tasks at the root count as siblings of a parent that no task is named after. -/
def siblingKey (parent : Option String) : String := parent.getD "<root>"

def checkDependencies (s : State) : List String → Except String Unit
  | [] => .ok ()
  | id :: rest =>
    match s.tasks.get? id with
    | none => .error ("task dependency is not satisfied: " ++ id)
    | some task =>
      if task.status = .settled .succeeded then checkDependencies s rest
      else .error ("task dependency is not satisfied: " ++ id)

/-- One task of a dispatch, behind the tasks of the same command. -/
def admitTask (s : State) (limits : RunLimits) (actor : CommandActor) (maxParallelism : ℤ)
    (earlier : List Task) (item : Json) : Except String Task := do
  let described ← readTask item
  let criteria ← resolveTaskCriteria s described.acceptanceCriteria
  let task := { described with acceptanceCriteria := criteria }
  if task.id ∈ earlier.map (·.id) ∨ s.tasks.contains task.id then
    throw ("duplicate task id: " ++ task.id)
  checkSupersedes s task
  let depth ← taskDepth s actor task
  if limits.maxDepth < depth then throw "task.dispatch exceeds max_depth"
  let key := siblingKey task.parentTaskId
  let siblings := (s.tasks.values ++ earlier).countP fun t => siblingKey t.parentTaskId == key
  if limits.maxSubagents < siblings + 1 then throw "task.dispatch exceeds parent max_subagents"
  checkDependencies s task.dependencies
  match task.acceptanceCriteria.find? fun id => !s.criteria.contains id with
  | some id => throw ("unknown task criterion: " ++ id)
  | none =>
    return { task with
      depth, status := .ready, attemptId := task.id ++ "/attempt-1", maxParallelism }

def admitTasks (s : State) (limits : RunLimits) (actor : CommandActor) (maxParallelism : ℤ) :
    List Task → List Json → Except String (List Task)
  | earlier, [] => .ok earlier
  | earlier, item :: rest =>
    match admitTask s limits actor maxParallelism earlier item with
    | .error e => .error e
    | .ok task => admitTasks s limits actor maxParallelism (earlier ++ [task]) rest

def taskDispatch (s : State) (contract : RunContract) (actor : CommandActor) (payload : Json) :
    Except String Effects := do
  let items := ((payload.get? "tasks").bind Json.asArr?).getD []
  if items = [] then throw "task.dispatch requires a non-empty tasks list"
  match (payload.get? "max_parallelism").map pyInt? |>.getD (some 1) with
  | none => throw "task.dispatch max_parallelism must be positive"
  | some maxParallelism =>
    if maxParallelism < 1 then throw "task.dispatch max_parallelism must be positive"
    if contract.limits.maxParallelism.any (· < maxParallelism) then
      throw "task.dispatch exceeds max_parallelism"
    if contract.limits.maxSubagents < items.length then
      throw "task.dispatch exceeds max_subagents"
    if contract.limits.maxTasks.any (· < s.tasks.items.length + items.length) then
      throw "task.dispatch exceeds max_tasks"
    let tasks ← admitTasks s contract.limits actor maxParallelism [] items
    return (tasks.map .taskRegistered, tasks.map fun t => "task:" ++ t.id)

/-! ## Decisions, findings and phases -/

def decisionRecord (s : State) (command : CommandEnvelope) : Except String Effects := do
  let id ← payloadText command.payload "id" "decision"
  if s.decisions.contains id then throw ("decision already exists: " ++ id)
  let question ← payloadText command.payload "question" "decision"
  let choice ← payloadText command.payload "choice" "decision"
  let alternatives ← stringList command.payload "alternatives"
  let rationale ← payloadText command.payload "rationale" "decision"
  return ([.decisionRecorded ⟨id, question, choice, alternatives, rationale,
    command.evidenceRefs, command.actor⟩], ["decision:" ++ id])

def findingDisposition (s : State) (catalog : EvidenceCatalog) (command : CommandEnvelope) :
    Except String Effects := do
  let id ← payloadText command.payload "finding_id" "disposition"
  if ¬ s.findings.contains id then throw ("unknown finding: " ++ id)
  let disposition ← payloadText command.payload "disposition" "disposition"
  if disposition ∉ ["resolved", "rejected", "duplicate", "deferred", "accepted"] then
    throw "finding disposition is invalid"
  let rationale ← payloadText command.payload "rationale" "disposition"
  let refs ← stringList command.payload "resolution_refs"
  match refs.find? fun ref => !catalog.contains ref with
  | some ref => throw ("unknown resolution reference: " ++ ref)
  | none =>
    if disposition = "resolved" ∧ refs = [] then
      throw "resolved finding requires resolution evidence"
    return ([.findingDispositionRecorded ⟨id, disposition, rationale, refs, command.actor⟩],
      ["finding:" ++ id])

/-- The phase declared after a phase. -/
def nextPhase (phases : List String) (phase : String) : Option String :=
  phases[phases.idxOf phase + 1]?

def phaseAdvance (s : State) (contract : RunContract) (payload : Json) : Except String Effects := do
  let target ← payloadText payload "target" "phase request"
  if nextPhase contract.phases s.phase ≠ some target then
    throw "phase request must target the next declared phase"
  if s.tasks.values.any fun t => t.status = .ready ∨ t.status = .running then
    throw "phase cannot advance while tasks are active"
  return ([.phaseAdvanced s.phase target], ["phase:" ++ target])

/-! ## The run -/

/-- The tasks that a succeeded task supersedes. -/
def State.supersededTaskIds (s : State) : List String :=
  (s.tasks.values.filter fun t => t.status = .settled .succeeded).filterMap (·.supersedesTaskId)

def taskFailure (superseded : List String) (t : Task) : List String :=
  if t.id ∈ superseded then []
  else if t.status = .ready ∨ t.status = .running then ["task is still active: " ++ t.id]
  else if t.status ≠ .settled .succeeded ∧ ¬ t.optional then
    ["required task did not succeed: " ++ t.id]
  else []

def findingFailure (f : Finding) : List String :=
  if ¬ f.requiresDisposition then []
  else
    match f.disposition with
    | none => ["finding is unresolved: " ++ f.id]
    | some d =>
      (if d.disposition = "accepted" then ["finding is unresolved: " ++ f.id] else []) ++
      (if f.severity = "critical" ∧ d.disposition = "deferred" then
        ["critical finding is deferred: " ++ f.id] else [])

/-- `completion_failures`: a gate-backed criterion is no obligation of the coordinator. -/
def State.completionFailures (s : State) (contract : RunContract) : List String :=
  (s.criteria.values.filter fun c => !c.satisfied && c.adjudication == .claimed).map
    (fun c => "criterion " ++ c.id ++ " is not satisfied") ++
  (contract.terminalArtifactKinds.filter fun kind =>
    !(s.artifacts.values.any (·.kind == kind))).map ("terminal artifact is missing: " ++ ·) ++
  s.tasks.values.flatMap (taskFailure s.supersededTaskIds) ++
  s.findings.values.flatMap findingFailure

def runComplete (s : State) (contract : RunContract) : Except String Effects :=
  if s.completionFailures contract ≠ [] then
    .error ("completion gates failed: " ++ "; ".intercalate (s.completionFailures contract))
  else .ok ([.runCompleted], ["run:" ++ contract.runId])

def recoveryRequest (kind : RecoveryKind) (payload : Json) : Except String Effects := do
  let reason ← payloadText payload "reason" "recovery request"
  return ([.recoveryRequested kind reason payload], [])

def operatorInputRequest (payload : Json) : Except String Effects := do
  let question ← payloadText payload "question" "operator request"
  let id ← payloadText payload "id" "operator request"
  return ([.operatorInputRequested id question], ["operator-question:" ++ id])

def runBlock (contract : RunContract) (payload : Json) : Except String Effects := do
  let reason ← payloadText payload "reason" "block request"
  return ([.runBlocked reason], ["run:" ++ contract.runId])

def reasonOf (payload : Json) : Json := (payload.get? "reason").getD (.str "")

def runPause (s : State) (payload : Json) : Except String Effects :=
  if s.status ≠ .running then .error "only a running run may be paused"
  else .ok ([.runPaused (reasonOf payload)], [])

def runResume (s : State) (payload : Json) : Except String Effects :=
  if s.status ≠ .paused ∧ s.status ≠ .blocked then
    .error "only a paused or blocked run may be resumed"
  else .ok ([.runResumed (reasonOf payload)], [])

def budgetChange (payload : Json) : Except String Effects := do
  let name ← payloadText payload "name" "budget change"
  match (payload.get? "value").bind pyInt? with
  | none => throw "budget value must be a non-negative number"
  | some value =>
    if value < 0 then throw "budget value must be a non-negative number"
    return ([.budgetChanged name value], [])

/-- `_evaluate`. -/
def State.evaluate (s : State) (contract : RunContract) (catalog : EvidenceCatalog)
    (command : CommandEnvelope) : Except String Effects :=
  match command.type with
  | .criterionPropose => criterionPropose s command.payload
  | .taskDispatch => taskDispatch s contract command.actor command.payload
  | .decisionRecord => decisionRecord s command
  | .findingDisposition => findingDisposition s catalog command
  | .phaseAdvanceRequest => phaseAdvance s contract command.payload
  | .retryRequest => recoveryRequest .retry command.payload
  | .replanRequest => recoveryRequest .replan command.payload
  | .operatorInputRequest => operatorInputRequest command.payload
  | .runCompleteRequest => runComplete s contract
  | .runBlockRequest => runBlock contract command.payload
  | .runPause => runPause s command.payload
  | .runResume => runResume s command.payload
  | .runCancel => .ok ([.runCancelled (reasonOf command.payload)], [])
  | .budgetChange => budgetChange command.payload
  | .permissionGrant => .ok ([.administrative .permissionGrant command.payload], [])
  | .permissionRevoke => .ok ([.administrative .permissionRevoke command.payload], [])
  | .decisionApprove => .ok ([.administrative .decisionApprove command.payload], [])
  | .decisionReject => .ok ([.administrative .decisionReject command.payload], [])
  | .coordinatorSchemaRegister => coordinatorSchemaRegister s contract command.payload
  | .coordinatorSessionStart => coordinatorSessionStart s command.payload
  | .coordinatorSessionEnd => coordinatorSessionEnd s catalog command.payload
  | .unknown name => .error ("unknown command: " ++ name)

end HarnessLabs.Controller
