import HarnessLabs.Campaign.Round
import HarnessLabs.Lib.Script

/-!
# The campaign driver

A campaign goes round by round through the steps measure, ingest, rule, plan, approve, run and
close. Every step reads the checkpoint, works on its own copy of the state and saves it in between
and behind; the ledger and the artifacts are stores of their own. So a step is a script of durable
writes, and a crash leaves a prefix of them.

* `CampaignState`, `Checkpoint`, `Disk` — what survives a crash.
* `ingest` — **merges the harvested findings into the audit**, and clears them behind the ledger.
* `close` — adopts a base and **replaces the harvested findings**; it may launch `measureFrom` and
  `evaluateFrom` on the state that it saved.
-/

namespace HarnessLabs.Campaign

open Audit (require)
open Controller (isBlank pyStr)
open PlanGraph (truthy)
open PlanGraph.Convergence (Key Record Campaign Summary field fold ingestAudit openCampaign
  recordRuling sortKeys)
open Durable (Script Store)

/-! ## Disk -/

inductive Lifecycle where
  | opened | measuring | measured | ingesting | ingested | ruling | ruled | planning | planned
  | approving | approved | running | runSucceeded | runBlocked | closing | closed | succeeded
  | blocked
  deriving DecidableEq

structure TerminationReport where
  success : Bool
  amendmentRatio : ℚ
  zeroNewRequiredFindings : Bool
  noUnobserved : Bool
  fullCoverage : Bool
  recallOk : Bool
  amendmentOk : Bool
  missingCoverageCells : List String
  deriving DecidableEq

structure CampaignState where
  round : ℕ := 0
  repairRoundsUsed : ℕ := 0
  currentBaseCommit : String
  priorRepairGrants : List String := []
  joinRegressionNodeId : Option String := none
  pendingAuditDigest : Option String := none
  lastIngestDigest : Option String := none
  harvestedFindings : List Json := []
  regressionSuspects : List Key := []
  lastIngestNewRequiredFindings : ℤ := 0
  recurrenceAnnotations : Dict String String := ∅
  blockedReason : Option String := none
  lastRunResult : Option Json := none
  nextRoundResumeArgv : Option (List String) := none
  termination : Option TerminationReport := none

structure Checkpoint where
  lifecycle : Lifecycle
  state : CampaignState

/-- The checkpoint, the journal of the ledger and the artifacts by digest. -/
structure Disk where
  checkpoint : Option Checkpoint := none
  journal : List Record := []
  artifacts : Dict String Json := ∅

inductive Write where
  | save (checkpoint : Checkpoint)
  | append (record : Record)
  | seal (digest : String) (content : Json)

/-- A sealed artifact is never replaced. -/
def Disk.write (d : Disk) : Write → Disk
  | .save checkpoint => { d with checkpoint := some checkpoint }
  | .append record => { d with journal := d.journal ++ [record] }
  | .seal digest content =>
    if (d.artifacts.get? digest).isSome then d
    else { d with artifacts := d.artifacts.set digest content }

instance : Store Disk Write := ⟨Disk.write⟩

abbrev Driver (α : Type) : Type := Script Disk Write String α

/-- What the driver is configured with, and the code outside: the digest of a document, the hook of
the campaign on a text, and the numbers in the documents. -/
structure Host where
  maxRepairRounds : ℕ
  digest : Json → String
  sanitizer : Json → List Char → Except String (List Char)
  recallThreshold : Json → ℚ
  amendmentRatioThreshold : Json → ℚ
  reportedRecall : Json → ℚ

def raise {α : Type} (message : String) : Driver α := Script.lift (.error message)

/-! ## Checkpoint and ledger -/

/-- `state`: nothing before the campaign is opened. -/
def loadState (head : Option String) : Driver (Option CampaignState) := do
  match (← Script.read).checkpoint with
  | none => return none
  | some checkpoint =>
    if head.any (· ≠ checkpoint.state.currentBaseCommit) then
      raise ("checkpoint base_commit '" ++ checkpoint.state.currentBaseCommit ++
        "' does not match repository head '" ++ head.getD "" ++ "' presented at load")
    else return some checkpoint.state

/-- `_save`. -/
def save (lifecycle : Lifecycle) (state : CampaignState) : Driver Unit := do
  require (state.currentBaseCommit ≠ "") "checkpoint state must carry current_base_commit"
  require (isBlank state.currentBaseCommit = false)
    "checkpoint base_commit must be a non-empty string"
  Script.put (.save ⟨lifecycle, state⟩)

/-- `_save`, of a state that may be the one before the campaign is opened. -/
def saveLoaded (lifecycle : Lifecycle) : Option CampaignState → Driver CampaignState
  | none => raise "checkpoint state must carry current_base_commit"
  | some state => do
    save lifecycle state
    return state

/-- Load the state, and save it under the lifecycle of the step. -/
def enter (head : Option String) (lifecycle : Lifecycle) : Driver CampaignState := do
  saveLoaded lifecycle (← loadState head)

/-- `campaign_config`. -/
def campaignConfig : Driver Json := do
  let journal := (← Script.read).journal
  let _ ← fold journal
  return (journal.findSome? fun record =>
    match record with
    | .campaignOpened campaign => some campaign.config
    | _ => none).getD (.obj [])

/-- The hook on a text, and the document that it leaves. -/
def Host.sanitized (host : Host) (config : Json) (text : List Char) : Except String Json :=
  (host.sanitizer config text).bind fun clean =>
    match Json.loads clean with
    | some document => .ok document
    | none => .error "JSONDecodeError"

/-- `open_bytes`, of a document. -/
def openArtifact (artifacts : Dict String Json) (digest : String) : Except String Json :=
  match artifacts.get? digest with
  | some content => .ok content
  | none => .error ("no artifact stored for digest '" ++ digest ++ "'")

/-- The evidence files that are sealed, and why the sealing stopped. -/
structure Evidence where
  sealed : List (String × Json) := []
  failure : Option String := none

def sealEvidence (evidence : Evidence) : Driver Unit := do
  evidence.sealed.forM fun item => Script.put (.seal item.1 item.2)
  match evidence.failure with
  | some message => raise message
  | none => return ()

/-! ## Open -/

structure OpenInput where
  campaign : Campaign
  /-- Whether the predecessor graph is resumable, where its run root is given. -/
  predecessorResumable : Option Bool := none

/-- A predecessor graph that is resumable is resumed instead. -/
def OpenInput.checkPredecessor (input : OpenInput) : Except String Unit :=
  if input.campaign.predecessorGraphId.any (· ≠ "") then do
    require input.predecessorResumable.isSome
      "predecessor_run_root is required whenever predecessor_graph_id is set"
    require (input.predecessorResumable ≠ some true) "predecessor graph is still resumable"
  else .ok ()

/-- `open_campaign`. -/
def openStep (input : OpenInput) : Driver Unit := do
  input.checkPredecessor
  let record ← openCampaign (← Script.read).journal input.campaign
  Script.put (.append record)
  save .opened { currentBaseCommit := input.campaign.baseCommit }

/-! ## Measure -/

structure Capture where
  exitCode : ℤ
  receipt : Option (List Char)

structure MeasureInput where
  capture : Except String Capture
  requirePreflightSuccess : Bool := true
  evidence : Evidence := {}

/-- `measure`, on a state. -/
def measureFrom (host : Host) (state : CampaignState) (input : MeasureInput) : Driver String := do
  save .measuring state
  let capture ← input.capture
  require (input.requirePreflightSuccess = false ∨ capture.exitCode = 0) "capture preflight exited"
  match capture.receipt with
  | none => raise "capture preflight wrote no receipt"
  | some receipt =>
    let auditResult ← host.sanitized (← campaignConfig) receipt
    let digest := host.digest auditResult
    Script.put (.seal digest auditResult)
    sealEvidence input.evidence
    save .measured { state with pendingAuditDigest := some digest }
    return digest

/-- `measure`. -/
def measure (host : Host) (head : Option String) (input : MeasureInput) : Driver Unit := do
  match ← loadState head with
  | none => raise "checkpoint state must carry current_base_commit"
  | some state =>
    let _ ← measureFrom host state input
    return ()

/-! ## Ingest -/

structure IngestInput where
  digest : Option String := none
  auditResult : Option Json := none
  /-- The annotation of a key that a prior campaign waived, where history roots are given. -/
  history : Option (Except String (Key → Option Json)) := none

/-- `digest or state.get("pending_audit_digest")`. -/
def IngestInput.digestOf (input : IngestInput) (state : CampaignState) : Option String :=
  (input.digest.filter (· ≠ "")).or state.pendingAuditDigest

/-- The audit result that is ingested: the one given, else the one sealed under the digest. -/
def IngestInput.document (input : IngestInput) (state : CampaignState)
    (artifacts : Dict String Json) : Except String Json :=
  match input.auditResult with
  | some auditResult => .ok auditResult
  | none =>
    match (input.digestOf state).filter (· ≠ "") with
    | none => .error "ingest requires a sealed digest or an explicit audit_result"
    | some digest => openArtifact artifacts digest

/-- The items of `*audit_result.get("findings", [])`. -/
def ownFindings (auditResult : Json) : Except String (List Json) :=
  match auditResult.get? "findings" with
  | none => .ok []
  | some .null | some (.bool _) | some (.int _) => .error "TypeError: object is not iterable"
  | some value => itemsOf value

/-- The audit result with the harvested findings behind its own. -/
def mergeHarvest (auditResult : Json) (harvested : List Json) : Except String Json :=
  if harvested = [] then .ok auditResult
  else do
    require auditResult.asMembers?.isSome "TypeError: object is not iterable"
    let findings ← ownFindings auditResult
    return PlanGraph.setField auditResult "findings" (.arr (findings ++ harvested))

/-- The audit result that the ledger is given. -/
def IngestInput.merged (input : IngestInput) (state : CampaignState)
    (artifacts : Dict String Json) : Except String Json := do
  mergeHarvest (← input.document state artifacts) state.harvestedFindings

def appendAll (records : List Record) : Driver Unit :=
  records.forM fun record => Script.put (.append record)

/-- `ingest_audit` on the ledger of the disk. -/
def ingestLedger (auditResult : Json) : Driver Summary := do
  let (records, summary) ← ingestAudit (← Script.read).journal auditResult
  appendAll records
  return summary

/-- The findings of an audit result whose keys are among those given. -/
def openedFindings (auditResult : Json) (opened : List Key) : List Json :=
  ((field auditResult "findings").asArr?.getD []).filter fun finding =>
    opened.any fun key => field finding "file" = .str key.1 ∧ field finding "subject" = .str key.2

/-- The keys that the ledger opened under a digest. -/
def keysOpenedBy (digest : String) (journal : List Record) : List Key :=
  journal.filterMap fun record =>
    match record with
    | .findingOpened opener finding => if opener = digest then some finding.key else none
    | _ => none

/-- The keys that annotations are looked up for: on a digest that was folded before, those that it
opened then. -/
def annotationKeys (summary : Summary) (journal : List Record) : List Key :=
  if summary.idempotent then keysOpenedBy summary.digest journal else summary.opened

def keyLabel (key : Key) : String := key.1 ++ ":" ++ key.2

/-- Seal the annotation of a key, where there is one. -/
def annotationSealed (host : Host) (history : Key → Option Json) (digests : Dict String String)
    (key : Key) : Driver (Dict String String) :=
  match history key with
  | none => pure digests
  | some payload => do
    Script.put (.seal (host.digest payload) payload)
    return digests.set (keyLabel key) (host.digest payload)

/-- `_seal_recurrence_annotations`. -/
def sealRecurrenceAnnotations (host : Host)
    (history : Option (Except String (Key → Option Json))) (keys : List Key) :
    Driver (Dict String String) :=
  match history with
  | none => pure ∅
  | some history =>
    if keys = [] then pure ∅
    else do
      let history ← history
      (sortKeys keys.dedup).foldlM (annotationSealed host history) ∅

/-- `merged.update(annotations)`, where there are any. -/
def CampaignState.annotate (state : CampaignState) (annotations : Dict String String) :
    Dict String String := state.recurrenceAnnotations.update annotations

/-- The state that `ingest` saves, on what the ledger opened. -/
def CampaignState.ingested (state : CampaignState) (digest : Option String) (opened : List Json)
    (annotations : Dict String String) : CampaignState :=
  { state with
    recurrenceAnnotations := state.annotate annotations
    pendingAuditDigest := none
    lastIngestDigest := digest
    harvestedFindings := []
    regressionSuspects := tagRegressionSuspects opened state.priorRepairGrants
    lastIngestNewRequiredFindings :=
      (opened.filter fun finding => truthy (field finding "requires_disposition")).length }

/-- `ingest`. -/
def ingest (host : Host) (head : Option String) (input : IngestInput) : Driver Unit := do
  let state ← enter head .ingesting
  let auditResult ← input.merged state (← Script.read).artifacts
  let summary ← ingestLedger auditResult
  let keys := annotationKeys summary (← Script.read).journal
  let annotations ← sealRecurrenceAnnotations host input.history keys
  save .ingested (state.ingested (input.digestOf state) (openedFindings auditResult summary.opened)
    annotations)

/-! ## Rule -/

structure RulingItem where
  key : Key
  disposition : String
  statement : String
  actor : String := "operator"

def ruleItem (item : RulingItem) : Driver Unit := do
  let record ← recordRuling (← Script.read).journal (.arr [.str item.key.1, .str item.key.2])
    item.disposition item.statement item.actor
  Script.put (.append record)

/-- The suspects without a disposition. -/
def unanswered (suspects : List Key) (dispositions : List RulingItem) : List Key :=
  sortKeys (suspects.filter (· ∉ dispositions.map RulingItem.key)).dedup

def keysText (keys : List Key) : String := String.intercalate ", " (keys.map keyLabel)

/-- `rule`. -/
def rule (head : Option String) (dispositions : List RulingItem) : Driver Unit := do
  let state ← enter head .ruling
  dispositions.forM ruleItem
  let missing := unanswered state.regressionSuspects dispositions
  if missing ≠ [] then
    let reason := "rule step blocks until every regression-suspect key is answered; missing: " ++
      keysText missing
    save .blocked { state with blockedReason := some reason }
    raise reason
  else save .ruled state

/-! ## Plan, approve and run -/

/-- What a decomposition that passed its checks comes to: its join node, and the paths that its
repair nodes may write. -/
structure RoundPlan where
  joinNodeId : String
  repairGrants : List String

/-- `guard_before_plan`: why no further round may be planned. -/
def guardBeforePlan (s : PlanGraph.Convergence.State) (maxRepairRounds used : ℕ) : Option String :=
  let stalled := sortKeys ((s.keys.items.filter fun item => item.2.stalled).map Prod.fst)
  if s.blocked then
    some "a target amendment with no stated invalidation_scope blocks further repair rounds"
  else if stalled ≠ [] then
    some ("stalled keys require operator escalation instead of another repair round: " ++
      keysText stalled)
  else if used < maxRepairRounds then none
  else some "repair-round bound reached with keys still open"

/-- `plan`. -/
def plan (host : Host) (head : Option String) (source : Except String RoundPlan) :
    Driver Unit := do
  let loaded ← loadState head
  require (1 ≤ host.maxRepairRounds) "repair-round bound must be positive"
  let s ← fold (← Script.read).journal
  match guardBeforePlan s host.maxRepairRounds ((loaded.map (·.repairRoundsUsed)).getD 0) with
  | some reason =>
    let _ ← saveLoaded .blocked
      (loaded.map fun state => { state with blockedReason := some reason })
    raise reason
  | none =>
    let state ← saveLoaded .planning loaded
    let roundPlan ← source
    save .planned { state with
      round := state.round + 1
      repairRoundsUsed := state.repairRoundsUsed + 1
      joinRegressionNodeId := some roundPlan.joinNodeId
      priorRepairGrants :=
        (state.priorRepairGrants ++ roundPlan.repairGrants).dedup.insertionSort (· ≤ ·) }

/-- `approve_prepare`; what it renders is not kept. -/
def approvePrepare (head : Option String) : Driver Unit := do
  let _ ← enter head .approving
  return ()

/-- `approve_issue`, behind the receipt. -/
def approveIssue (head : Option String) (receipt : Except String Unit) : Driver Unit := do
  receipt
  let _ ← enter head .approved
  return ()

/-- `run_graph`, where `argv` carries its bindings. -/
def runGraph (head : Option String) (result : Except String Json) : Driver Unit := do
  let state ← enter head .running
  let result ← result
  let flags ← objectOr (field result "status_flags")
  save (if truthy (field flags "success") then .runSucceeded else .runBlocked)
    { state with lastRunResult := some result }

/-! ## Termination -/

structure TerminationInput where
  requiredCells : List String := []
  newRequiredFindings : Option ℤ := none
  inspectorRecall : Option ℚ := none
  amendmentRatioAcknowledged : Bool := false

/-- `amendment_ratio`. -/
def amendmentRatio (s : PlanGraph.Convergence.State) : ℚ :=
  let amended := (s.keys.items.filter fun item => item.2.status = .amended).length
  let closed := (s.keys.items.filter fun item => !item.2.status.active).length
  if closed = 0 then 0 else amended / closed

/-- `evaluate_success_termination`. -/
def evaluateSuccessTermination (s : PlanGraph.Convergence.State) (input : TerminationInput)
    (newRequiredFindings : ℤ) (inspectorRecall recallThreshold ratioThreshold : ℚ) : TerminationReport :=
  let noUnobserved := s.success && decide (s.openSet = ∅)
  let missing := input.requiredCells.filter fun cell => s.coverageState.get? cell ≠ some .ok
  let recallOk := decide (recallThreshold ≤ inspectorRecall)
  let amendmentOk := decide (amendmentRatio s ≤ ratioThreshold) || input.amendmentRatioAcknowledged
  let zeroNew := decide (newRequiredFindings = 0)
  { success := zeroNew && noUnobserved && missing.isEmpty && recallOk && amendmentOk
    amendmentRatio := amendmentRatio s
    zeroNewRequiredFindings := zeroNew
    noUnobserved := noUnobserved
    fullCoverage := missing.isEmpty
    recallOk := recallOk
    amendmentOk := amendmentOk
    missingCoverageCells := missing }

/-- `_sealed_inspector_recall`. -/
def sealedInspectorRecall (host : Host) (config : Json) : Driver ℚ :=
  match field config "recall_report_digest" with
  | .str digest =>
    if digest = "" then pure 0
    else do
      let report ← openArtifact (← Script.read).artifacts digest
      return host.reportedRecall report
  | _ => pure 0

/-- `evaluate_termination`, on a state. -/
def evaluateFrom (host : Host) (state : Option CampaignState) (input : TerminationInput) :
    Driver TerminationReport := do
  let newRequired := input.newRequiredFindings.getD
    ((state.map (·.lastIngestNewRequiredFindings)).getD 0)
  let config ← campaignConfig
  let inspectorRecall ← match input.inspectorRecall with
    | some score => pure score
    | none => sealedInspectorRecall host config
  let s ← fold (← Script.read).journal
  let report := evaluateSuccessTermination s input newRequired inspectorRecall
    (host.recallThreshold config) (host.amendmentRatioThreshold config)
  if report.success then
    let _ ← saveLoaded .succeeded (state.map fun state => { state with termination := some report })
    return report
  else return report

/-- `evaluate_termination`. -/
def evaluateTermination (host : Host) (head : Option String) (input : TerminationInput) :
    Driver Unit := do
  let _ ← evaluateFrom host (← loadState head) input
  return ()

/-! ## Close -/

structure CloseInput where
  runResult : Json
  attemptDir : Option AttemptDir := none
  evidence : Evidence := {}
  measure : Option MeasureInput := none
  termination : Option TerminationInput := none
  /-- The arguments of the resumed run, where they are asked for. -/
  resume : Option (Except String (List String)) := none

/-- What a round came to: the findings harvested, the base adopted, whether the join node sealed. -/
structure Outcome where
  harvested : List HarvestedFinding
  newBase : Option String
  joinSealed : Bool

def CloseInput.graphSucceeded (input : CloseInput) : Bool :=
  statusSuccess (pyStr (field input.runResult "status"))

def CloseInput.outcome (input : CloseInput) (state : CampaignState) : Except String Outcome :=
  if input.graphSucceeded then
    .ok ⟨[], candidate? (field input.runResult "candidate_commit"), true⟩
  else
    match input.attemptDir with
    | none => .error "a blocked round's close step requires attempt_dir to harvest findings"
    | some attempt => do
      let harvested ← harvestUnroutedFindings attempt
      let newBase ← baseAdoptionDecision input.runResult attempt state.joinRegressionNodeId
      let joinSealed ← joinNodeSealed attempt state.joinRegressionNodeId
      return ⟨harvested, newBase, joinSealed⟩

/-- The findings, each through the hook of the campaign. -/
def Host.sanitizedFindings (host : Host) (config : Json) (harvested : List HarvestedFinding) :
    Except String (List Json) :=
  harvested.mapM fun item => host.sanitized config (Json.dumps item.finding)

def harvestPayload (host : Host) (harvested : List HarvestedFinding) (evidence : Evidence) :
    Driver (List Json) :=
  if harvested = [] then pure []
  else do
    let config ← campaignConfig
    let payload ← host.sanitizedFindings config harvested
    sealEvidence evidence
    return payload

/-- The arguments of the next round, where the round was blocked without a new base. -/
def CloseInput.resumeArgv (input : CloseInput) (outcome : Outcome) (state : CampaignState) :
    Except String (Option (List String)) :=
  match input.resume with
  | some argv =>
    if input.graphSucceeded = false ∧ outcome.newBase = none then argv.map some
    else .ok state.nextRoundResumeArgv
  | none => .ok state.nextRoundResumeArgv

/-- The state that `close` saves. -/
def CampaignState.closed (state : CampaignState) (outcome : Outcome) (payload : List Json)
    (argv : Option (List String)) : CampaignState :=
  { state with
    currentBaseCommit := outcome.newBase.getD state.currentBaseCommit
    harvestedFindings := payload
    nextRoundResumeArgv := argv }

/-- The measure that `close` launches, on the state that it saved. -/
def closeMeasure (host : Host) (outcome : Outcome) (input : CloseInput) (state : CampaignState) :
    Driver CampaignState :=
  match input.measure with
  | none => pure state
  | some measureInput =>
    if outcome.joinSealed then do
      let digest ← measureFrom host state measureInput
      return { state with pendingAuditDigest := some digest }
    else pure state

/-- `close`. -/
def close (host : Host) (head : Option String) (input : CloseInput) : Driver Unit := do
  let state ← enter head .closing
  let outcome ← input.outcome state
  let payload ← harvestPayload host outcome.harvested input.evidence
  let argv ← input.resumeArgv outcome state
  let state := state.closed outcome payload argv
  save .closed state
  let state ← closeMeasure host outcome input state
  match input.termination with
  | none => return ()
  | some termination =>
    let _ ← evaluateFrom host (some state) termination
    return ()

/-! ## Steps -/

inductive DriverInput where
  | openCampaign (input : OpenInput)
  | measure (head : Option String) (input : MeasureInput)
  | ingest (head : Option String) (input : IngestInput)
  | rule (head : Option String) (dispositions : List RulingItem)
  | plan (head : Option String) (source : Except String RoundPlan)
  | approvePrepare (head : Option String)
  | approveIssue (head : Option String) (receipt : Except String Unit)
  | runGraph (head : Option String) (result : Except String Json)
  | close (head : Option String) (input : CloseInput)
  | evaluateTermination (head : Option String) (input : TerminationInput)

def DriverInput.script (host : Host) : DriverInput → Driver Unit
  | .openCampaign input => openStep input
  | .measure head input => Campaign.measure host head input
  | .ingest head input => Campaign.ingest host head input
  | .rule head dispositions => Campaign.rule head dispositions
  | .plan head source => Campaign.plan host head source
  | .approvePrepare head => Campaign.approvePrepare head
  | .approveIssue head receipt => Campaign.approveIssue head receipt
  | .runGraph head result => Campaign.runGraph head result
  | .close head input => Campaign.close host head input
  | .evaluateTermination head input => Campaign.evaluateTermination host head input

end HarnessLabs.Campaign
