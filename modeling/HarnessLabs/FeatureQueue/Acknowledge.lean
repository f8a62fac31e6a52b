import HarnessLabs.FeatureQueue.Operations

/-!
# Acknowledging a feature

The end of a feature: the queue marks it done with its result, and the transaction is acknowledged.
The two documents are written one after the other under one lock, the queue first.

* `acknowledgeQueue` — what the queue becomes.
* `acknowledgeTransaction` — what the transaction becomes, which names the queue's revision.
* `acknowledge` — one call; a crash between its writes leaves the first document.
-/

namespace HarnessLabs.FeatureQueue

open Audit (require)

/-! ## Documents -/

/-- `dispatcher_ack`. -/
structure AckEvidence where
  dispatcher : String
  acknowledgedAt : String
  queueStateRevision : ℕ
  featureResultSha256 : String
  deriving DecidableEq

inductive HistoryEvidence where
  | ack (evidence : AckEvidence)
  | other (document : Json)
  deriving DecidableEq

structure HistoryEntry where
  state : String
  time : String
  evidence : HistoryEvidence
  deriving DecidableEq

def transactionReady : String := "feature_result_written"

def transactionAcked : String := "dispatcher_ack"

/-- A feature transaction. `proofs` are its digests of the artifacts. -/
structure FeatureTransaction where
  protocol : String
  queueRunId : Option String
  featureRunId : Option String
  featureIndex : Json
  baseBranch : Option String
  state : String
  history : List HistoryEntry
  baseHead : Option String := none
  featureResultSha256 : Option String := none
  proofs : Dict String String := ∅
  dispatcherAck : Option AckEvidence := none
  stateRevision : ℕ := 0
  deriving DecidableEq

abbrev FeatureResult := Dict String Json

def FeatureResult.text? (result : FeatureResult) (name : String) : Option String :=
  (result.get? name).bind Json.asStr?

/-- The arguments of `acknowledge_feature`: the base-relative paths of its files, the digest of the
result's bytes, and the revisions that are expected. -/
structure AckCall where
  transactionPath : String
  resultPath : String
  resultSha256 : String
  now : String
  expectedQueueRevision : Option ℕ := none
  expectedTransactionRevision : Option ℕ := none

/-- A file, with its digest and what `read_json` makes of it. -/
structure LocalFile where
  sha256 : String
  document : Except String Json

/-- The files under the base checkout, by their base-relative paths. -/
abbrev LocalFiles := String → Option LocalFile

/-! ## Validation -/

/-- `_check_revision`. -/
def checkRevision (current : ℕ) (expected : Option ℕ) : Except String Unit :=
  require (∀ revision ∈ expected, current = revision) "expected revision changed"

/-- The states of a transaction before it is acknowledged. -/
def requiredStates : List String :=
  ["prepared", "feature_committed", "manifest_committed", "merge_prepared", "merged",
    "cleanup_complete", "feature_result_written"]

def requiredResultFields : List String :=
  ["completed_at", "manifest", "merge_receipt", "clearance_report", "base_head", "cleanup_proof"]

/-- `_find_feature`. -/
def Queue.findFeature (q : Queue) (index : Json) :
    Except String (List Feature × Feature × List Feature) := do
  require (q.features.countP (·.index = index) = 1) "expected exactly one feature with the index"
  match q.atIndex index with
  | none => .error "expected exactly one feature with the index"
  | some split => .ok split

/-- `_resolve_local_artifact`, of the file that a field of the result names. -/
def LocalFiles.artifact (files : LocalFiles) (result : FeatureResult) (field : String) :
    Except String LocalFile :=
  match (result.text? field).bind files with
  | none => .error ("referenced " ++ field ++ " is missing or not a file")
  | some file => .ok file

/-- What the merge receipt of a run says. -/
def mergeExpected (result : FeatureResult) : List (String × Json) :=
  [("protocol", .str "implement-v13-codex/merge-receipt/1"),
    ("queue_run_id", (result.get? "queue_run_id").getD .null),
    ("feature_run_id", (result.get? "feature_run_id").getD .null),
    ("base_head_after", (result.get? "base_head").getD .null),
    ("manifest", (result.get? "manifest").getD .null),
    ("ancestry_verified", .bool true)]

/-- The checks of `_validate_local_proofs` on the merge receipt. -/
def validateMergeReceipt (result : FeatureResult) (manifestSha256 : String) (receipt : Json) :
    Except String Unit := do
  require (∀ p ∈ mergeExpected result, (receipt.get? p.1).getD .null = p.2)
    "merge receipt identity or ancestry proof is invalid"
  require (receipt.get? "manifest_sha256" = some (.str manifestSha256))
    "merge receipt manifest hash is invalid"
  require (∀ name ∈ ["cleanup", "guards"], ((receipt.get? name).bind Json.keys?).isSome = true)
    "merge receipt cleanup and guards proofs must be objects"

/-- `_validate_local_proofs`. -/
def validateLocalProofs (files : LocalFiles) (f : Feature) (t : FeatureTransaction)
    (result : FeatureResult) : Except String Unit := do
  ["merge_receipt", "clearance_report", "cleanup_proof"].forM fun field =>
    require (result.get? field = (f.paths.get? field).map Json.str)
      ("feature result " ++ field ++ " does not match dispatched path")
  let artifacts ← ["manifest", "merge_receipt", "clearance_report", "cleanup_proof"].mapM
    fun field => (files.artifact result field).map fun file => (field, file)
  let manifest ← files.artifact result "manifest"
  let path := ((result.text? "manifest").getD "").toList
  require ("docs/development/runs/".toList.isPrefixOf path = true ∧
      ".md".toList.isSuffixOf path = true)
    "manifest must be a run manifest under docs/development/runs"
  artifacts.forM fun artifact =>
    require (∀ expected ∈ t.proofs.get? (artifact.1 ++ "_sha256"), artifact.2.sha256 = expected)
      (artifact.1 ++ " hash does not match transaction proof")
  let receipt ← (← files.artifact result "merge_receipt").document
  validateMergeReceipt result manifest.sha256 receipt

/-- `_validate_ack`, of the feature that the result names. -/
def validateAck (files : LocalFiles) (q : Queue) (t : FeatureTransaction) (result : FeatureResult)
    (f : Feature) : Except String Unit := do
  q.validate
  q.assertNotPaused
  require (result.text? "protocol" = some "implement-v13-codex/feature-result/1" ∧
      result.text? "status" = some "done") "feature result protocol or status is invalid"
  require (t.protocol = "implement-v13-codex/feature-transaction/1")
    "feature transaction protocol is invalid"
  require (q.queueRunId.getD "" ≠ "" ∧ t.queueRunId = q.queueRunId ∧
      result.text? "queue_run_id" = q.queueRunId) "acknowledgment queue_run_id mismatch"
  require (f.featureRunId.getD "" ≠ "" ∧ t.featureRunId = f.featureRunId ∧
      result.text? "feature_run_id" = f.featureRunId) "acknowledgment feature_run_id mismatch"
  require (t.featureIndex = f.index) "acknowledgment feature_index mismatch"
  require (t.baseBranch = q.baseBranch) "acknowledgment base_branch mismatch"
  require (f.status = .inProgress ∨ f.status = .done)
    "feature must be in_progress or idempotently done"
  require (t.state = transactionReady ∨ t.state = transactionAcked)
    "transaction is not ready for dispatcher acknowledgment"
  require ((t.history.map (·.state)).take requiredStates.length = requiredStates)
    "transaction history lacks the required ordered terminal states"
  require (∀ field ∈ requiredResultFields, (result.text? field).getD "" ≠ "")
    "feature result is missing required proof fields"
  require (∀ head ∈ t.baseHead, result.text? "base_head" = some head)
    "feature result base_head does not match transaction proof"
  validateLocalProofs files f t result

/-! ## The two documents -/

/-- A result in the queue that belongs to a run. -/
def ofRun (runId : Option String) (item : FeatureResult) : Bool :=
  item.text? "feature_run_id" = runId

/-- The result as the queue keeps it. -/
def queueResult (result : FeatureResult) : FeatureResult := result.set "status" (.str "done")

/-- The lease of a feature that is done. -/
def completeLease (result : FeatureResult) (lease : DispatchLease) : DispatchLease :=
  if lease.state = .complete then lease
  else { lease with
    state := .complete
    completedAt := some ((result.text? "completed_at").getD "") }

/-- The feature and the results behind an acknowledgment. -/
def settleFeature (result : FeatureResult) (f : Feature) : Feature :=
  { f with
    status := .done
    completedAt := if f.status = .done then f.completedAt else result.text? "completed_at"
    dispatchLease := f.dispatchLease.map (completeLease result) }

/-- Whether the acknowledgment has anything to write to the queue. -/
def unsettled (f : Feature) : Prop :=
  f.status ≠ .done ∨ ∃ lease ∈ f.dispatchLease, lease.state ≠ .complete

instance (f : Feature) : Decidable (unsettled f) := inferInstanceAs (Decidable (_ ∨ _))

/-- Whether the results of a run in the queue are none, or the one that an acknowledgment puts there. -/
def agreesWith (result : FeatureResult) : List FeatureResult → Bool
  | [] => true
  | [only] => (queueResult result).items.all fun p => (only.get? p.1).getD .null = p.2
  | _ => false

/-- The queue behind an acknowledgment. -/
def acknowledgeQueue (q : Queue) (result : FeatureResult) (before : List Feature) (f : Feature)
    (behind : List Feature) : Except String Queue := do
  let matching := q.results.filter (ofRun f.featureRunId)
  require (f.status = .done → matching ≠ []) "done feature is missing its matching queue result"
  require (agreesWith result matching = true)
    "existing queue result does not match immutable feature result"
  return { q.withFeature before (settleFeature result f) behind with
    results := if f.status = .done then q.results else q.results ++ [queueResult result]
    stateRevision := if unsettled f then q.stateRevision + 1 else q.stateRevision }

/-- The transaction behind an acknowledgment that leaves the queue with a revision. -/
def acknowledgeTransaction (call : AckCall) (t : FeatureTransaction) (queueStateRevision : ℕ) :
    FeatureTransaction :=
  if t.state = transactionAcked then t
  else
    let evidence : AckEvidence :=
      ⟨runnerName, call.now, queueStateRevision, call.resultSha256⟩
    { t with
      state := transactionAcked
      dispatcherAck := some evidence
      history := t.history ++ [⟨transactionAcked, call.now, .ack evidence⟩]
      stateRevision := t.stateRevision + 1 }

/-- The checks of `acknowledge_feature` on a feature before it looks at the results. -/
def checkAck (files : LocalFiles) (call : AckCall) (q : Queue) (t : FeatureTransaction)
    (result : FeatureResult) (f : Feature) : Except String Unit := do
  require (f.paths.get? "transaction_path" = some call.transactionPath)
    "transaction path does not match dispatched metadata"
  require (f.paths.get? "feature_result_path" = some call.resultPath)
    "feature result path does not match dispatched metadata"
  validateAck files q t result f
  require (∀ expected ∈ t.featureResultSha256, call.resultSha256 = expected)
    "feature result hash does not match transaction proof"

/-- The feature that a result names. -/
def featureIndex (result : FeatureResult) : Json := (result.get? "feature_index").getD .null

/-- `acknowledge_feature`: the documents behind both writes. -/
def acknowledge (files : LocalFiles) (call : AckCall) (result : FeatureResult) (q : Queue)
    (t : FeatureTransaction) : Except String (Queue × FeatureTransaction) := do
  checkRevision q.stateRevision call.expectedQueueRevision
  checkRevision t.stateRevision call.expectedTransactionRevision
  let (before, f, behind) ← q.findFeature (featureIndex result)
  checkAck files call q t result f
  let updated ← acknowledgeQueue q result before f behind
  return (updated, acknowledgeTransaction call t updated.stateRevision)

end HarnessLabs.FeatureQueue
