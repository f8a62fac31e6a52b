import HarnessLabs.Core.AuditJournal
import HarnessLabs.FeatureRun.ReviewFinding

/-!
# The feature queue

The document that the feature controller works through: features in the order in which they are to
be done, each with a status, the lease of the coordinator that works on it, and the paths of its run.

* `Queue.validate` — the compatibility envelope.
* `Queue.ensureIdentity`, `applyFeaturePaths` — what is written once and compared from then on.
* `requireLease`, `assertLeaseAvailable` — the guards on leases.
-/

namespace HarnessLabs.FeatureQueue

open Audit (require)
open Controller (pyStr)

def engineName : String := "v13-codex"

def runnerName : String := "implement-v13-codex"

def protocolVersion : String := "1.0"

def packageProtocol : String := "implement-v13-codex/controller-package-manifest/1"

def packageVersion : String := "1"

/-- `_digest`. -/
def digest (value : String) : String := Sha256.hexdigest (Json.utf8 value.toList)

/-! ## Records -/

inductive FeatureStatus where
  | pending
  | inProgress
  | done
  | blocked
  deriving DecidableEq, Repr

inductive LeaseState where
  | active
  | blocked
  | complete
  deriving DecidableEq

/-- `dispatch_lease`. A launch that was selected or consumed has the time of it. -/
structure DispatchLease where
  coordinatorId : String
  leaseId : String
  state : LeaseState
  issuedAt : String
  resumed : Bool
  launchAuthorized : Bool := false
  launchSelectedAt : Option String := none
  launchConsumedAt : Option String := none
  releasedAt : Option String := none
  completedAt : Option String := none
  deriving DecidableEq

/-- The coordinator of a lease with its id. -/
def DispatchLease.holder (lease : DispatchLease) : String × String :=
  (lease.coordinatorId, lease.leaseId)

structure PlanningInput where
  id : String
  path : String
  role : String
  revision : String
  updatePolicy : String

/-- A committed controller migration, as the evidence of a resolution names it. -/
structure MigrationClaim where
  journalPath : String
  controllerPackageDigest : String
  migrationReceiptSha256 : String
  migrationId : String
  deriving DecidableEq

structure ControllerMigration where
  claim : MigrationClaim
  rolloverSummaryPath : String
  deriving DecidableEq

/-- Why a feature is blocked. -/
structure Blocker where
  blockerClass : String
  reason : String
  resumeCondition : String
  blockedAt : String
  resumeTokenSha256 : String
  document : Json

/-- An entry of `blocked_history`. -/
structure BlockedRecord where
  blocker : Option Blocker
  lease : Option DispatchLease
  resumedAt : String

/-- `_expected_resume_identity`. -/
structure ResumeIdentity where
  queueRunId : Option String
  featureRunId : Option String
  featureIndex : Json
  baseBranch : Option String
  worktreePath : Option String
  checkpointPath : Option String
  transactionPath : Option String
  controllerPackageDigest : Option String
  controllerMigrationId : Option String
  deriving DecidableEq

/-- What a resume is given about the resolution of a block. -/
structure ResolutionEvidence where
  identity : ResumeIdentity
  artifacts : Json
  migration : Option MigrationClaim

structure ResumeAuthorization where
  authorizationSha256 : String
  resolutionEvidence : ResolutionEvidence
  authorizedAt : String
  deltaScope : Option Json

structure EngineAdoption where
  fromEngine : String
  authorizationSha256 : String
  adoptedAt : String

/-- A feature. `paths` are the members that `_feature_paths` names, and `controller` those of a
controller package and a migration. -/
structure Feature where
  index : Json
  description : String
  status : FeatureStatus
  engine : String := "legacy"
  codexEngine : Bool := false
  runner : Option String := none
  adoption : Option EngineAdoption := none
  featureRunId : Option String := none
  attempt : Option ℤ := none
  resumeCount : Option ℤ := none
  decisionKey : Option String := none
  decisionRecord : Option String := none
  startedAt : Option String := none
  completedAt : Option String := none
  dispatchLease : Option DispatchLease := none
  paths : Dict String String := ∅
  planningInputs : List PlanningInput := []
  runDirectives : List String := []
  controller : Dict String String := ∅
  controllerMigration : Option ControllerMigration := none
  blocker : Option Blocker := none
  blockedHistory : List BlockedRecord := []
  resumeAuthorization : Option ResumeAuthorization := none

/-- `queue_identity`. -/
structure QueueIdentity where
  baseBranch : String
  protocolVersion : String
  dispatcher : String
  queueRunId : String
  deriving DecidableEq

/-- A cleared pause. -/
structure PauseRecord where
  featureIndex : Json
  pauseReason : Option String
  clearedAt : String

/-- An adoption of pending features, with their number. -/
structure QueueAdoption where
  adoption : EngineAdoption
  count : ℕ

structure Queue where
  features : List Feature
  results : List (Dict String Json) := []
  baseBranch : Option String := none
  protocolVersion : Option String := none
  dispatcher : Option String := none
  queueRunId : Option String := none
  queueIdentity : Option QueueIdentity := none
  paused : Bool := false
  pauseReason : Option String := none
  pauseHistory : List PauseRecord := []
  planningInputs : List PlanningInput := []
  activeRunDirectives : List String := []
  engineAdoptions : List QueueAdoption := []
  currentIndex : Option Json := none
  stateRevision : ℕ := 0

/-! ## Selection -/

/-- The first element with `p`, with what comes before and behind it. -/
def splitFirst {α : Type} (p : α → Bool) : List α → Option (List α × α × List α)
  | [] => none
  | a :: rest =>
    if p a then some ([], a, rest) else (splitFirst p rest).map fun s => (a :: s.1, s.2)

theorem splitFirst_eq_some {α : Type} {p : α → Bool} {l before behind : List α} {a : α} :
    splitFirst p l = some (before, a, behind) →
      l = before ++ a :: behind ∧ p a = true ∧ ∀ b ∈ before, p b = false := by
  induction l generalizing before with
  | nil => exact nofun
  | cons c rest ih =>
    intro h
    rw [splitFirst] at h
    by_cases hc : p c = true
    · rw [if_pos hc] at h
      obtain ⟨rfl, htail⟩ := Prod.mk.inj (Option.some.inj h)
      obtain ⟨rfl, rfl⟩ := Prod.mk.inj htail
      exact ⟨rfl, hc, List.forall_mem_nil _⟩
    · rw [if_neg hc] at h
      obtain ⟨s, hs, hsame⟩ := Option.map_eq_some_iff.1 h
      obtain ⟨rfl, htail⟩ := Prod.mk.inj hsame
      rw [← Prod.eta s, htail] at hs
      obtain ⟨hrest, ha, hbefore⟩ := ih hs
      refine ⟨congrArg (c :: ·) hrest, ha, List.forall_mem_cons.2 ⟨?_, hbefore⟩⟩
      exact Bool.eq_false_of_not_eq_true hc

namespace Queue

variable (q : Queue)

/-- The first feature that is not done. -/
def unfinished : Option (List Feature × Feature × List Feature) :=
  splitFirst (fun f => f.status ≠ .done) q.features

/-- The first feature with an index. -/
def atIndex (index : Json) : Option (List Feature × Feature × List Feature) :=
  splitFirst (fun f => f.index = index) q.features

def withFeature (before : List Feature) (f : Feature) (behind : List Feature) : Queue :=
  { q with features := before ++ f :: behind }

end Queue

/-! ## The envelope -/

def isDigest (text : String) : Bool :=
  text.length = 64 && text.toList.all fun c => c.isDigit || ('a' ≤ c && c ≤ 'f')

/-- `_effective_engine`. -/
def Feature.effectiveEngine (f : Feature) : String := if f.codexEngine then engineName else f.engine

/-- The checks of `validate_queue` on the controller package of a feature. -/
def Feature.validateController (f : Feature) : Except String Unit := do
  require (∀ d ∈ f.controller.get? "controller_package_digest", isDigest d = true ∧
      f.controller.get? "controller_package_protocol" = some packageProtocol ∧
      f.controller.get? "controller_package_version" = some packageVersion)
    "feature controller package binding is invalid"
  require (f.controller.get? "controller_package_digest" = none ∨
      ∃ path ∈ f.controller.get? "controller_package_path", path ≠ "")
    "feature controller package path is missing"
  require (∀ m ∈ f.controller.get? "controller_migration_id",
      isDigest m = true ∧ f.controller.get? "controller_package_digest" ≠ none)
    "feature controller migration binding is invalid"

namespace Queue

/-- `validate_queue`, of a document with the types of its envelope. -/
def validate (q : Queue) : Except String Unit := do
  require (q.baseBranch ≠ some "") "queue.base_branch must be a nonempty string"
  require (q.protocolVersion = none ∨ q.protocolVersion = some FeatureQueue.protocolVersion)
    "unsupported immutable protocol_version"
  require (q.dispatcher = none ∨ q.dispatcher = some runnerName)
    "queue belongs to immutable dispatcher"
  require (∀ identity ∈ q.queueIdentity, identity.baseBranch = q.baseBranch.getD "main" ∧
      some identity.protocolVersion = q.protocolVersion ∧
      some identity.dispatcher = q.dispatcher ∧ some identity.queueRunId = q.queueRunId)
    "immutable queue identity does not match current queue fields"
  require (q.features.map (·.index)).Nodup "duplicate feature index"
  q.features.forM (·.validateController)
  require (q.features.countP (·.status = .inProgress) ≤ 1)
    "queue has more than one in-progress feature"

/-- `_assert_not_paused`. -/
def assertNotPaused (q : Queue) : Except String Unit :=
  require (q.paused = false)
    ("queue is paused: " ++ ((q.pauseReason.filter (· ≠ "")).getD "no pause reason recorded"))

/-- `_clear_pause_for_dispatch`. -/
def clearPauseForDispatch (q : Queue) (now : String) : Except String Queue := do
  require (q.paused = true) "--clear-pause requires a paused queue"
  match q.unfinished with
  | none => .error "queue is complete"
  | some (_, f, _) => do
    require (f.status = .pending) "--clear-pause requires the current feature to be pending"
    return { q with
      pauseHistory := q.pauseHistory ++ [⟨f.index, q.pauseReason, now⟩]
      paused := false
      pauseReason := none }

/-- `_ensure_queue_identity`, where a new id is `newId`. -/
def ensureIdentity (q : Queue) (newId : String) : Except String Queue := do
  let identity : QueueIdentity :=
    { baseBranch := q.baseBranch.getD "main"
      protocolVersion := q.protocolVersion.getD FeatureQueue.protocolVersion
      dispatcher := q.dispatcher.getD runnerName
      queueRunId := q.queueRunId.getD newId }
  require (identity.queueRunId ≠ "") "queue_run_id must be a nonempty string"
  require (∀ existing ∈ q.queueIdentity, existing = identity)
    "immutable queue identity cannot be changed"
  return { q with
    baseBranch := some identity.baseBranch
    protocolVersion := some identity.protocolVersion
    dispatcher := some identity.dispatcher
    queueRunId := some identity.queueRunId
    queueIdentity := some identity }

end Queue

/-! ## Names -/

/-- `_slug`. -/
def slug (value : Json) : String :=
  let hyphenated := hyphenateSlug ((pyStr value).toList.map Char.toLower)
  let text := String.ofList (FeatureRun.stripChars (· = '-') hyphenated)
  if text = "" then "feature" else text
where
  /-- A run of characters that are not letters or digits becomes one hyphen. -/
  hyphenateSlug : List Char → List Char
    | [] => []
    | c :: rest =>
      if isSlugChar c then c :: hyphenateSlug rest
      else if rest.head?.any fun d => !isSlugChar d then hyphenateSlug rest
      else '-' :: hyphenateSlug rest
  isSlugChar (c : Char) : Bool := c.isDigit || ('a' ≤ c && c ≤ 'z')

/-- A letter or a digit, with letters, digits and the characters of `others` behind it. -/
def isSafeName (others : List Char) (name : String) : Bool :=
  match name.toList with
  | [] => false
  | c :: rest => c.isAlphanum && rest.all fun d => d.isAlphanum || d ∈ others

/-- `_decision_values`. -/
def decisionValues (f : Feature) (now : String) : Except String (String × String) := do
  let key := f.decisionKey.getD (match f.index with
    | .int n => "Q" ++ toString (n + 1)
    | other => "Q" ++ pyStr other)
  require (isSafeName ['_', '.', '-'] key = true) "decision_key must be a safe nonempty identifier"
  let record := f.decisionRecord.getD ("docs/development/decisions/" ++ String.ofList
    (now.toList.take 7) ++ "-" ++ slug (.str key) ++ "-decisions.md")
  require ("docs/development/decisions/".toList.isPrefixOf record.toList = true ∧
      "-decisions.md".toList.isSuffixOf record.toList = true ∧
      "..".toList ∉ record.toList.splitOn '/')
    "decision_record must be a decisions Markdown path"
  return (key, record)

/-- `_feature_paths`. -/
def featurePaths (queueRunId featureRunId : String) (index : Json) (startedAt : String) :
    List (String × String) :=
  let worktreeName := "impl-codex-" ++ featureRunId
  let worktreePath := ".claude/worktrees/" ++ worktreeName
  let artifactDir := "handoff/serial-runs/" ++ queueRunId ++ "/" ++ featureRunId
  [("branch", worktreeName),
    ("worktree_name", worktreeName),
    ("worktree_path", worktreePath),
    ("artifact_dir", artifactDir),
    ("artifact_root", artifactDir),
    ("checkpoint", "docs/development/current_implementation_checkpoint.json"),
    ("checkpoint_path", worktreePath ++ "/docs/development/current_implementation_checkpoint.json"),
    ("transaction_path", artifactDir ++ "/feature-transaction.v1.json"),
    ("feature_result_path", artifactDir ++ "/feature-result.v1.json"),
    ("merge_receipt", artifactDir ++ "/merge-receipt.v1.json"),
    ("cleanup_proof", artifactDir ++ "/cleanup-proof.v1.json"),
    ("clearance_report", "handoff/serial-reports/" ++ String.ofList (startedAt.toList.take 10) ++
      "-f" ++ slug index ++ "-" ++ featureRunId ++ ".md")]

/-- `_apply_feature_paths`, of the expected paths. -/
def applyFeaturePaths : List (String × String) → Dict String String →
    Except String (Dict String String)
  | [], paths => .ok paths
  | (key, value) :: rest, paths => do
    require (∀ existing ∈ paths.get? key, existing = value)
      ("immutable feature path changed: " ++ key)
    applyFeaturePaths rest (paths.set key value)

/-! ## Leases -/

/-- `_new_dispatch_lease`. -/
def newDispatchLease (coordinatorId leaseId now : String) (resumed : Bool) :
    Except String DispatchLease := do
  require (coordinatorId ≠ "" ∧ leaseId ≠ "") "coordinator_id and lease_id must be nonempty"
  return { coordinatorId, leaseId, state := .active, issuedAt := now, resumed }

/-- `_require_lease`: the lease of the feature. -/
def requireLease (f : Feature) (coordinatorId : String) (leaseId : Option String) :
    Except String DispatchLease :=
  match f.dispatchLease with
  | none => .error "active feature has no active dispatch lease"
  | some lease => do
    require (lease.state = .active) "active feature has no active dispatch lease"
    require (leaseId.getD "" ≠ "") "lease_id is required to reattach to an active feature"
    require (lease.coordinatorId = coordinatorId ∧ some lease.leaseId = leaseId)
      "coordinator identity or dispatch lease does not match"
    return lease

/-- `_assert_lease_available`, against the other features. -/
def assertLeaseAvailable (others : List Feature) (leaseId : String) : Except String Unit :=
  require (∀ f ∈ others, ∀ lease ∈ f.dispatchLease, lease.leaseId ≠ leaseId)
    "lease_id is already assigned to another feature"

end HarnessLabs.FeatureQueue
