import HarnessLabs.FeatureQueue.Queue

/-!
# Operations on the feature queue

What the controller does with the queue before a feature is acknowledged: it adopts pending features,
adds planning inputs, dispatches the first unfinished feature under a lease, parks it and resumes it
under another lease, and migrates the controller package of a parked one.

The files that an operation looks at (the artifacts of a run, a migration's journal, the controller
package) are answers of a `QueueHost`.

* `prepareDispatch` — launches, reattaches, or selects a resumed launch.
* `blockFeature`, `resumeBlockedFeature`, `consumeResumedLaunch` — a feature with a blocker.
* `adoptPendingEngine`, `addPlanningInput`, `migrateFeature` — what leaves the statuses alone.
-/

namespace HarnessLabs.FeatureQueue

open Audit (require)

/-! ## The host -/

/-- What `validate_committed_migration` reads from a journal. -/
structure MigrationJournal where
  migrationId : String
  newPackageDigest : String
  rolloverPath : String

/-- The files behind the queue. -/
structure QueueHost where
  /-- The manifest of the package that `_bind_fresh_controller_package` copies. -/
  freshPackage : Feature → Except String (List (String × String))
  /-- `validate_committed_migration`. -/
  committedMigration : Feature → MigrationClaim → Except String MigrationJournal
  /-- `_validate_resume_artifacts`. -/
  resumeArtifacts : Queue → Feature → ResolutionEvidence → Except String Unit
  /-- `_validate_delta_scope_binding`. -/
  deltaScope : Feature → Json → Except String Unit

/-- `_migration_evidence`. -/
def QueueHost.migrationEvidence (host : QueueHost) (f : Feature) (claim : Option MigrationClaim) :
    Except String (MigrationClaim × MigrationJournal) :=
  match claim with
  | none => .error "resolution evidence requires a committed controller migration"
  | some claim => do
    let journal ← host.committedMigration f claim
    require (some journal.migrationId = f.controller.get? "controller_migration_id" ∧
        some claim.migrationId = f.controller.get? "controller_migration_id" ∧
        some journal.newPackageDigest = f.controller.get? "controller_package_digest")
      "controller migration identity does not match the blocked feature"
    return (claim, journal)

/-! ## Adoption and planning inputs -/

/-- `adopt_pending_engine`. -/
def adoptPendingEngine (q : Queue) (fromEngine token now newId : String) : Except String Queue := do
  q.validate
  q.assertNotPaused
  require (fromEngine ≠ "" ∧ fromEngine ≠ engineName) "from_engine must name a foreign engine"
  require (token = "adopt-pending:" ++ fromEngine ++ ":" ++ engineName) "invalid adoption token"
  require (∀ f ∈ q.features, (f.status = .inProgress ∨ f.status = .blocked) →
      f.effectiveEngine = engineName)
    "cannot adopt pending entries while a foreign feature is active"
  let q ← q.ensureIdentity newId
  let adoption : EngineAdoption := ⟨fromEngine, digest token, now⟩
  let adopts (f : Feature) : Bool :=
    f.status = .pending && f.engine = fromEngine && f.effectiveEngine ≠ engineName
  require (q.features.countP adopts ≠ 0) s!"no pending features use engine '{fromEngine}'"
  return { q with
    features := q.features.map fun f =>
      if adopts f then
        { f with codexEngine := true, runner := some runnerName, adoption := some adoption }
      else f
    engineAdoptions := q.engineAdoptions ++ [⟨adoption, q.features.countP adopts⟩] }

/-- The checks of `add_planning_input` on its input. -/
def PlanningInput.check (input : PlanningInput) : Except String Unit := do
  require (isSafeName ['_', '-'] input.id = true) "planning input id must be path-safe"
  require (input.role ∈ ["governing", "background", "acceptance", "seed_plan"])
    "planning input role is invalid"
  require (input.revision ∈ ["latest_on_base", "exact_sha256", "snapshot"])
    "planning input revision is invalid"
  require (input.updatePolicy ∈ ["immutable", "verify_only", "reconcile_if_affected"])
    "planning input update_policy is invalid"
  require (input.path ≠ "") "planning input path must be nonempty"

/-- An input in the place of the one with its id, or behind the others. -/
def putPlanningInput (values : List PlanningInput) (input : PlanningInput) :
    Except String (List PlanningInput) := do
  require (values.countP (·.id = input.id) ≤ 1) ("duplicate planning input id: " ++ input.id)
  return if values.any (·.id = input.id) then
      values.map fun value => if value.id = input.id then input else value
    else values ++ [input]

/-- `add_planning_input`, for the queue or for one feature. -/
def addPlanningInput (q : Queue) (input : PlanningInput) (featureIndex : Option Json) :
    Except String Queue := do
  q.validate
  q.assertNotPaused
  require (q.features.all (·.status ≠ .inProgress))
    "planning inputs cannot change while a feature is active"
  input.check
  match featureIndex with
  | none => do
    let inputs ← putPlanningInput q.planningInputs input
    return { q with planningInputs := inputs }
  | some index =>
    match q.atIndex index with
    | none => .error "feature index not found"
    | some (before, f, behind) => do
      require (f.status = .pending) "feature planning input can change only while pending"
      let inputs ← putPlanningInput f.planningInputs input
      return q.withFeature before { f with planningInputs := inputs } behind

/-- `resolve_planning_inputs`: those of the queue, and those of the feature in their place. -/
def resolvePlanningInputs (q : Queue) (f : Feature) : Except String (List PlanningInput) := do
  q.planningInputs.forM fun input =>
    require (q.planningInputs.countP (·.id = input.id) = 1)
      ("duplicate queue planning input id: " ++ input.id)
  return f.planningInputs.foldl (fun merged input =>
    if merged.any (·.id = input.id) then
      merged.map fun value => if value.id = input.id then input else value
    else merged ++ [input]) q.planningInputs

/-- `resolve_run_directives`. -/
def resolveRunDirectives (q : Queue) (f : Feature) : Except String (List String) := do
  require (∀ d ∈ q.activeRunDirectives, Controller.isBlank d = false)
    "queue.active_run_directives must be a list of nonempty strings"
  require (∀ d ∈ f.runDirectives, Controller.isBlank d = false)
    "feature.run_directives must be a list of nonempty strings"
  return q.activeRunDirectives ++ f.runDirectives

/-! ## Dispatch -/

/-- The arguments of `prepare_dispatch`, with the ids that `new_id` gives. -/
structure DispatchCall where
  baseWorktreePath : String
  coordinatorId : String
  clearPause : Bool := false
  leaseId : Option String := none
  now : String
  newQueueRunId : String
  newFeatureRunId : String
  newLeaseId : String
  bindControllerPackage : Bool := false

inductive DispatchAction where
  | launch
  | reattach
  | resumeExistingRun
  deriving DecidableEq

structure DispatchPayload where
  queueRunId : String
  featureRunId : String
  featureIndex : Json
  description : String
  baseBranch : String
  baseWorktreePath : String
  dispatchAction : DispatchAction
  coordinatorId : String
  leaseId : String
  decisionKey : String
  decisionRecord : String
  planningInputs : List PlanningInput
  runDirectives : List String
  controller : Dict String String
  controllerEntrypoint : Option String
  migration : Option ControllerMigration
  paths : Dict String String

/-- The id of the lease that a dispatch puts on a pending feature. -/
def DispatchCall.issuedLeaseId (call : DispatchCall) : String :=
  (call.leaseId.filter (· ≠ "")).getD call.newLeaseId

def launchLease (call : DispatchCall) (others : List Feature) : Except String DispatchLease := do
  assertLeaseAvailable others call.issuedLeaseId
  newDispatchLease call.coordinatorId call.issuedLeaseId call.now false

/-- A pending feature that is launched. -/
def launchFeature (call : DispatchCall) (others : List Feature) (f : Feature) :
    Except String Feature := do
  let (key, record) ← decisionValues f call.now
  let lease ← launchLease call others
  return { f with
    status := .inProgress
    featureRunId := some (f.featureRunId.getD call.newFeatureRunId)
    attempt := some (f.attempt.getD 1)
    resumeCount := some (f.resumeCount.getD 0)
    runner := some (f.runner.getD runnerName)
    decisionKey := some key
    decisionRecord := some record
    startedAt := some (f.startedAt.getD call.now)
    dispatchLease := some lease }

/-- An active feature that its coordinator comes back to, with what becomes of its lease. -/
def reattachLease (call : DispatchCall) (f : Feature) (lease : DispatchLease) :
    Except String (DispatchLease × DispatchAction) :=
  let popped := { lease with launchAuthorized := false }
  if lease.launchAuthorized then
    if lease.resumed ∧ f.controllerMigration.isSome then do
      require (lease.launchSelectedAt = none) "resumed launch was already selected"
      return ({ popped with launchSelectedAt := some call.now }, .resumeExistingRun)
    else .ok (popped, .launch)
  else .ok (popped, .reattach)

/-- The feature of a dispatch under its lease, and what the payload is told to do. -/
def leaseFeature (call : DispatchCall) (others : List Feature) (f : Feature) :
    Except String (Feature × DispatchAction) :=
  match f.status with
  | .pending => (launchFeature call others f).map fun f => (f, .launch)
  | .inProgress => do
    let lease ← requireLease f call.coordinatorId call.leaseId
    let (lease, action) ← reattachLease call f lease
    return ({ f with dispatchLease := some lease }, action)
  | _ => .error "cannot dispatch status"

/-- The names and paths that a dispatch gives its feature. -/
def nameFeature (call : DispatchCall) (queueRunId : String) (f : Feature) :
    Except String Feature := do
  require (f.runner = some runnerName) "active feature runner does not match implement-v13-codex"
  require (f.featureRunId.getD "" ≠ "") "active feature is missing feature_run_id"
  let (key, record) ← decisionValues f call.now
  let paths ← applyFeaturePaths (featurePaths queueRunId (f.featureRunId.getD "") f.index
    (f.startedAt.getD call.now)) f.paths
  return { f with decisionKey := some key, decisionRecord := some record, paths := paths }

/-- The controller package of a feature that was pending. -/
def bindPackage (host : QueueHost) (call : DispatchCall) (wasPending : Bool) (f : Feature) :
    Except String Feature :=
  if wasPending && call.bindControllerPackage then do
    let manifest ← host.freshPackage f
    return { f with
      controller := manifest.foldl (fun acc p => acc.set p.1 p.2) f.controller }
  else .ok f

/-- A resumed launch looks at its committed migration again. -/
def checkMigration (host : QueueHost) (action : DispatchAction) (f : Feature) :
    Except String Unit :=
  match action with
  | .resumeExistingRun => do
    let _ ← host.migrationEvidence f (f.controllerMigration.map (·.claim))
    return ()
  | _ => .ok ()

/-- The payload of a dispatch. -/
def dispatchPayload (call : DispatchCall) (q : Queue) (f : Feature) (lease : DispatchLease)
    (action : DispatchAction) : Except String DispatchPayload := do
  let planningInputs ← resolvePlanningInputs q f
  let runDirectives ← resolveRunDirectives q f
  return {
    queueRunId := q.queueRunId.getD ""
    featureRunId := f.featureRunId.getD ""
    featureIndex := f.index
    description := f.description
    baseBranch := q.baseBranch.getD ""
    baseWorktreePath := call.baseWorktreePath
    dispatchAction := action
    coordinatorId := lease.coordinatorId
    leaseId := lease.leaseId
    decisionKey := f.decisionKey.getD ""
    decisionRecord := f.decisionRecord.getD ""
    planningInputs := planningInputs
    runDirectives := runDirectives
    controller := f.controller
    controllerEntrypoint := ((f.controller.get? "controller_package_path").filter (· ≠ "")).map
      fun path => call.baseWorktreePath ++ "/" ++ path ++ "/implement-v13-codex/scripts/" ++
        if action = .resumeExistingRun then "run_feature.py" else "start_planning.py"
    migration := if action = .resumeExistingRun then f.controllerMigration else none
    paths := f.paths }

/-- What a dispatch does with the first unfinished feature of a queue with its identity. -/
def dispatchFeature (host : QueueHost) (call : DispatchCall) (q : Queue)
    (before : List Feature) (f : Feature) (behind : List Feature) :
    Except String (Queue × DispatchPayload) := do
  require (f.status ≠ .blocked) "feature is blocked and requires authorized resume"
  require (f.effectiveEngine = engineName) "explicit pending adoption is required"
  let (leased, action) ← leaseFeature call (before ++ behind) f
  let named ← nameFeature call (q.queueRunId.getD "") leased
  let bound ← bindPackage host call (f.status = .pending) named
  checkMigration host action bound
  match bound.dispatchLease with
  | none => .error "active feature has no active dispatch lease"
  | some lease => do
    let next := { q.withFeature before bound behind with currentIndex := some bound.index }
    let payload ← dispatchPayload call next bound lease action
    return (next, payload)

/-- The queue that a dispatch looks at. -/
def openForDispatch (call : DispatchCall) (q : Queue) : Except String Queue :=
  if call.clearPause then q.clearPauseForDispatch call.now
  else q.assertNotPaused.map fun _ => q

/-- `prepare_dispatch`. -/
def prepareDispatch (host : QueueHost) (call : DispatchCall) (q : Queue) :
    Except String (Queue × DispatchPayload) := do
  require (call.baseWorktreePath.toList.head? = some '/') "base_worktree_path must be absolute"
  q.validate
  let opened ← openForDispatch call q
  let identified ← opened.ensureIdentity call.newQueueRunId
  match identified.unfinished with
  | none => .error "queue is complete"
  | some (before, f, behind) => dispatchFeature host call identified before f behind

/-! ## Resumed launches, blocks and resumes -/

structure ConsumeCall where
  featureRunId : String
  coordinatorId : String
  leaseId : String
  migrationId : String
  packageDigest : String
  now : String

/-- `consume_resumed_launch`. -/
def consumeResumedLaunch (call : ConsumeCall) (q : Queue) : Except String Queue := do
  q.validate
  require (q.features.countP (·.featureRunId = some call.featureRunId) = 1)
    "resumed launch feature identity is ambiguous"
  match splitFirst (fun f => f.featureRunId = some call.featureRunId) q.features with
  | none => .error "resumed launch feature identity is ambiguous"
  | some (before, f, behind) => do
    require (f.status = .inProgress) "resumed launch feature is not in progress"
    let lease ← requireLease f call.coordinatorId (some call.leaseId)
    require (lease.resumed = true ∧ lease.launchSelectedAt.isSome = true ∧
        lease.launchConsumedAt = none)
      "resumed launch lease is absent or already consumed"
    require (f.controller.get? "controller_migration_id" = some call.migrationId ∧
        f.controller.get? "controller_package_digest" = some call.packageDigest)
      "resumed launch controller identity mismatch"
    return q.withFeature before
      { f with dispatchLease := some { lease with launchConsumedAt := some call.now } } behind

structure BlockCall where
  index : Json
  coordinatorId : String
  leaseId : String
  blockerClass : String
  reason : String
  resumeCondition : String
  document : Json
  resumeToken : String
  now : String

/-- `block_feature`, outside a coordinator's child. -/
def blockFeature (call : BlockCall) (q : Queue) : Except String Queue := do
  q.validate
  q.assertNotPaused
  match q.unfinished with
  | none => .error "only the first unfinished feature may be blocked"
  | some (_, unfinished, _) => do
    require (unfinished.index = call.index) "only the first unfinished feature may be blocked"
    require (unfinished.status = .inProgress) "only an in-progress feature may be blocked"
    let _ ← requireLease unfinished call.coordinatorId (some call.leaseId)
    require (Controller.isBlank call.blockerClass = false ∧ Controller.isBlank call.reason = false ∧
        Controller.isBlank call.resumeCondition = false)
      "blocker requires blocker_class, reason, and resume_condition"
    require (call.resumeToken ≠ "") "a nonempty resume token is required"
    match q.atIndex call.index with
    | none => .error "only the first unfinished feature may be blocked"
    | some (before, target, behind) =>
      let blocked := { target with
        status := .blocked
        blocker := some ⟨call.blockerClass, call.reason, call.resumeCondition, call.now,
          digest call.resumeToken, call.document⟩
        dispatchLease := target.dispatchLease.map fun lease =>
          { lease with state := .blocked, releasedAt := some call.now } }
      .ok { q.withFeature before blocked behind with currentIndex := some target.index }

structure ResumeCall where
  index : Json
  token : String
  evidence : ResolutionEvidence
  coordinatorId : String
  leaseId : String
  now : String
  newQueueRunId : String
  requireControllerMigration : Bool := false
  deltaScope : Option Json := none

/-- `_expected_resume_identity`. -/
def expectedResumeIdentity (q : Queue) (f : Feature) : ResumeIdentity where
  queueRunId := q.queueRunId
  featureRunId := f.featureRunId
  featureIndex := f.index
  baseBranch := q.baseBranch
  worktreePath := f.paths.get? "worktree_path"
  checkpointPath := f.paths.get? "checkpoint_path"
  transactionPath := f.paths.get? "transaction_path"
  controllerPackageDigest := f.controller.get? "controller_package_digest"
  controllerMigrationId := f.controller.get? "controller_migration_id"

/-- The migration of a resume, where one is needed. -/
def resumeMigration (host : QueueHost) (call : ResumeCall) (f : Feature) :
    Except String (Option ControllerMigration) :=
  if call.requireControllerMigration ∨ f.controller.get? "controller_package_digest" ≠ none then do
    let (claim, journal) ← host.migrationEvidence f call.evidence.migration
    return some ⟨claim, journal.rolloverPath⟩
  else .ok f.controllerMigration

/-- The checks of a resume on the blocked feature. -/
def checkResume (host : QueueHost) (call : ResumeCall) (q : Queue) (f : Feature) :
    Except String Unit := do
  require (f.effectiveEngine = engineName ∧ f.runner = some runnerName)
    "blocked feature belongs to a foreign runner"
  require (f.blocker.map (·.resumeTokenSha256) = some (digest call.token))
    "resume token does not match blocked feature"
  require (call.evidence.identity = expectedResumeIdentity q f)
    "resolution evidence identity does not match blocked feature"
  host.resumeArtifacts q f call.evidence
  call.deltaScope.forM (host.deltaScope f)

/-- A feature that goes on under a new lease. -/
def resumedFeature (call : ResumeCall) (f : Feature) (migration : Option ControllerMigration)
    (lease : DispatchLease) : Feature :=
  { f with
    blockedHistory := f.blockedHistory ++ [⟨f.blocker, f.dispatchLease, call.now⟩]
    resumeAuthorization := some ⟨digest call.token, call.evidence, call.now, call.deltaScope⟩
    controllerMigration := migration
    status := .inProgress
    attempt := some (f.attempt.getD 1 + 1)
    resumeCount := some (f.resumeCount.getD 0 + 1)
    dispatchLease := some { lease with launchAuthorized := true }
    blocker := none }

/-- `resume_blocked_feature`. -/
def resumeBlockedFeature (host : QueueHost) (call : ResumeCall) (q : Queue) :
    Except String Queue := do
  q.validate
  q.assertNotPaused
  let identified ← q.ensureIdentity call.newQueueRunId
  match identified.atIndex call.index with
  | none => .error "feature index not found"
  | some (before, f, behind) => do
    require (f.status = .blocked) "only a blocked feature can be resumed"
    require (identified.unfinished.map (·.1.length) = some before.length)
      "only the first unfinished feature may be resumed"
    require (identified.features.all (·.status ≠ .inProgress))
      "cannot resume while another feature is in progress"
    checkResume host call identified f
    let migration ← resumeMigration host call f
    assertLeaseAvailable (before ++ behind) call.leaseId
    let lease ← newDispatchLease call.coordinatorId call.leaseId call.now true
    return { identified.withFeature before (resumedFeature call f migration lease) behind with
      currentIndex := some f.index }

/-! ## Migration -/

structure MigrateCall where
  index : Json
  binding : Dict String String
  allowRebind : Bool := false

/-- The members that a migration binds. -/
def bindingKeys : List String :=
  ["controller_package_protocol", "controller_package_version", "controller_package_digest",
    "controller_package_path", "controller_migration_id"]

/-- `migrated_queue_document`, up to its revision. -/
def migrateFeature (call : MigrateCall) (q : Queue) : Except String Queue := do
  q.validate
  require (call.binding.keys.toFinset = bindingKeys.toFinset)
    "queue migration binding is incomplete or overbroad"
  match q.atIndex call.index with
  | none => .error "queue migration feature identity is ambiguous"
  | some (before, f, behind) => do
    require (q.features.countP (·.index = call.index) = 1)
      "queue migration feature identity is ambiguous"
    require (f.status = .blocked) "queue migration requires a blocked feature"
    require (call.allowRebind = true ∨ ∀ p ∈ call.binding.items,
        ∀ existing ∈ f.controller.get? p.1, existing = p.2)
      "queue migration conflicts with an existing binding"
    let updated := q.withFeature before { f with controller := f.controller.update call.binding }
      behind
    updated.validate
    return updated

end HarnessLabs.FeatureQueue
