import HarnessLabs.FeatureRun.ReviewFinding
import HarnessLabs.Lib.Until

/-!
# The review ledger

The ledger gives every finding one record under one key, and moves the record through its outcomes.
A pass that raises leaves what it has done to the records before.

* `keyed` — the keys under which a batch of findings is reported.
* `ingest` — a batch: new records, later occurrences, the regression check and the screens.
* `transferScopeExpanding`, `escalateRecord` — findings that the node cannot fix itself.
* `markFixAttempt`, `markUnresolvable`, `markVerified` — what a fixer and its verifier report.
* `openRequired`, `escalatedRequired`, `openAll` — what is left to do.
-/

namespace HarnessLabs.FeatureRun

open PlanGraph (ownerForPath)
open Until (foldUntil visit)

/-! ## Ledgers -/

/-- `risk_tier`. -/
inductive RiskTier where
  | sensitive
  | mechanical
  deriving DecidableEq, Repr

/-- What the ledger keeps of a cycle. -/
structure CycleEntry where
  cycle : ℕ
  fixKeys : List String
  transferredFindingKeys : List String := []
  addressedFindingKeys : List String := []
  verifiedFindingKeys : List String := []

/-- `ReviewLedger`. -/
structure ReviewLedger where
  policy : ReviewFixPolicy
  riskTier : RiskTier
  allowedPaths : List String := []
  findings : Dict String FindingRecord := ∅
  cycles : List CycleEntry := []
  discoveryFrozen : Bool := false

def sortKeys (keys : List String) : List String := keys.insertionSort (· ≤ ·)

/-- Change the record of a key that the ledger has. -/
def updateKey (findings : Dict String FindingRecord) (key : String)
    (f : FindingRecord → FindingRecord) : Except String (Dict String FindingRecord) :=
  match findings.get? key with
  | none => .error s!"'{key}'"
  | some r => .ok (findings.set key (f r))

/-! ## Seeds -/

/-- What `seed_transferred` makes of an inherited record. -/
def FindingRecord.reopen (r : FindingRecord) : FindingRecord :=
  { r with
    outcome := .opened
    outcomeReason :=
      if r.transferredTo = "" then "inherited" else s!"inherited from {r.transferredTo}"
    transferredTo := ""
    transferEligible := r.transferEligible && r.transferredTo = ""
    escalationReason := ""
    inherited := true }

/-- One record of `seed_transferred`. -/
def seedTransferred (findings : Dict String FindingRecord) (r : FindingRecord) :
    Except String (Dict String FindingRecord) :=
  if r.key = "" ∨ r.key ∈ findings.keys then
    .error s!"transferred finding has an empty or duplicate key: '{r.key}'"
  else .ok (findings.set r.key r.reopen)

/-- One record of `seed_retained_transfers`. -/
def seedRetainedTransfer (findings : Dict String FindingRecord) (r : FindingRecord) :
    Except String (Dict String FindingRecord) :=
  if r.key = "" ∨ r.transferredTo = "" ∨ r.key ∈ findings.keys then
    .error "retained transfer must have a unique key and downstream owner"
  else .ok (findings.set r.key { r with outcome := .transferred, inherited := true })

/-! ## Batches -/

/-- A finding of a batch with its key. A duplicate repeats a key of the batch. -/
structure Report where
  key : String
  duplicate : Bool
  finding : Finding

/-- The key of the finding with this ordinal, behind the keys of the batch so far. -/
def batchKey (policy : ReviewFixPolicy) (cycle ordinal : ℕ) (current : List String) (f : Finding) :
    String :=
  let key := findingKey f.value
  if ¬ policy.ledgerEnabled then s!"cycle-{cycle}/{ordinal}/{key}"
  else if key ∈ current ∧ ¬ policy.deduplicationEnabled then
    s!"{key}#cycle-{cycle}-occurrence-{ordinal}"
  else key

/-- The keys of a batch, from the finding with this ordinal on. -/
def keyed (policy : ReviewFixPolicy) (cycle : ℕ) : ℕ → List String → List Finding → List Report
  | _, _, [] => []
  | ordinal, current, f :: rest =>
    let key := batchKey policy cycle ordinal current f
    let duplicate := decide (key ∈ current) && policy.deduplicationEnabled
    ⟨key, duplicate, f⟩ ::
      keyed policy cycle (ordinal + 1) (if duplicate then current else key :: current) rest

/-- What a report beside the first does to the outcome of a record. -/
def reconsider (policy : ReviewFixPolicy) (r : FindingRecord) (f : Finding) : FindingRecord :=
  if r.outcome = .transferred then r
  else if policy.reraiseGuardEnabled ∧ r.outcome ∈ [.fixed, .note, .scopeScreened, .debt] ∧
      ¬ f.flag "new_evidence" then r
  else if r.outcome ≠ .pendingReview then { r with outcome := .opened }
  else r

/-- The body of the loop over a batch. -/
def ingestReport (policy : ReviewFixPolicy) (frozen : Bool) (cycle : ℕ)
    (findings : Dict String FindingRecord) (report : Report) :
    Except String (Dict String FindingRecord) :=
  if report.duplicate then
    updateKey findings report.key (mergeOccurrence · report.finding cycle)
  else
    match findings.get? report.key with
    | none =>
      (newRecord report.key report.finding cycle).map fun r =>
        findings.set report.key
          (if 1 < cycle ∨ frozen then
            { r with
              outcome := .deferred
              outcomeReason := "discovery frozen after the first review" }
          else r)
    | some r =>
      .ok (findings.set report.key
        (reconsider policy (mergeOccurrence r report.finding cycle) report.finding))

/-! ## Regression check and screens -/

/-- A fix that awaits its review is undone by a report, and done without one. -/
def resolveAbsence (policy : ReviewFixPolicy) (current : List String) (key : String)
    (r : FindingRecord) : FindingRecord :=
  if policy.regressionReviewEnabled ∧ r.outcome = .pendingReview then
    if key ∈ current then { r with outcome := .opened, reopenedCount := r.reopenedCount + 1 }
    else { r with outcome := .fixed }
  else r

namespace FindingRecord

variable (r : FindingRecord)

/-- `anchor_scope_paths`. -/
def anchorScopePaths : List String :=
  appendNew [] ([normalizeAnchorPath r.file, r.anchorPath].filter (· ≠ ""))

/-- `anchor_out_of_grant`: the anchor is outside in every spelling. -/
def anchorOutside (allowedPaths : List String) : Except String Bool :=
  if r.anchorScopePaths = [] then .ok false
  else
    (r.anchorScopePaths.mapM fun path => pathsOutsideScope [path] allowedPaths).map fun outside =>
      outside.all fun paths => !paths.isEmpty

/-- The required paths name a place in the grant. -/
def fixableInGrant (allowedPaths : List String) : Except String Bool :=
  if r.requiredPaths = [] then .ok false
  else (pathsOutsideScope r.requiredPaths allowedPaths).map (·.isEmpty)

/-- The screens of `ingest`, once the place of the anchor is known. -/
def screened (policy : ReviewFixPolicy) : FindingRecord :=
  if policy.scopeExpansionGuardEnabled ∧ r.anchorOutOfGrant ∧ ¬ r.required then
    { r with
      outcome := .scopeScreened
      outcomeReason := "finding file anchor is outside the node's writable paths"
      scopeScreenClass := "anchor_out_of_grant" }
  else if policy.scopeExpansionGuardEnabled ∧ r.scopeExpanding ∧ ¬ r.required then
    { r with
      outcome := .scopeScreened
      outcomeReason := "finding grows the node's surface beyond its writable paths"
      scopeScreenClass := "scope_expanding" }
  else if policy.citationGuardEnabled ∧ policy.fixScoreThreshold ≤ r.score ∧ r.protects = "" ∧
      ¬ r.required then
    { r with outcome := .note, outcomeReason := "missing normative protects citation" }
  else if r.score < policy.fixScoreThreshold ∧ ¬ r.required then { r with outcome := .note }
  else r

end FindingRecord

/-- The body of the loop that screens. -/
def screenRecord (policy : ReviewFixPolicy) (allowedPaths : List String) (r : FindingRecord) :
    Except String FindingRecord :=
  if r.outcome ≠ .opened then .ok r
  else if r.originNode ≠ "" ∨ r.inherited then .ok { r with anchorOutOfGrant := false }
  else do
    let outside ← r.anchorOutside allowedPaths
    let fixable ← r.fixableInGrant allowedPaths
    .ok (FindingRecord.screened { r with anchorOutOfGrant := outside && !fixable } policy)

/-! ## Transfers and escalations -/

namespace FindingRecord

variable (r : FindingRecord)

/-- The paths that the finding needs beyond those of the node. -/
def downstreamPaths (currentPaths : List String) : List String :=
  let required := r.requiredPaths.filter (· ∉ currentPaths)
  if required = [] ∧ r.anchorOutOfGrant then
    [if r.anchorPath = "" then r.file else r.anchorPath].filter fun anchor =>
      anchor ≠ "" ∧ anchor ∉ currentPaths
  else required

/-- The one owner of all the paths. -/
def uniqueOwner (targets : Dict String String) (paths : List String) : Option String :=
  match (paths.map (ownerForPath targets)).dedup with
  | [some target] => some target
  | _ => none

/-- The downstream owner to which `transfer_scope_expanding` moves the finding. -/
def transferTarget (targets : Dict String String) (currentPaths : List String) : Option String :=
  if (r.outcome = .opened ∨ r.anchorOutOfGrant ∧ r.outcome = .scopeScreened) ∧
      (r.scopeExpanding ∨ r.anchorOutOfGrant) ∧ r.transferEligible then
    uniqueOwner targets (r.downstreamPaths currentPaths)
  else none

def transfer (targets : Dict String String) (originNode : String) (currentPaths : List String) :
    FindingRecord :=
  match r.transferTarget targets currentPaths with
  | none => r
  | some target =>
    { r with
      requiredPaths := r.downstreamPaths currentPaths
      outcome := .transferred
      outcomeReason := s!"transferred to downstream owner {target}"
      originNode := originNode
      transferredTo := target }

/-- `escalate_out_of_grant`. -/
def escalate (reason : String) : FindingRecord :=
  { r with
    outcome := .escalated
    outcomeReason := s!"escalated: {reason}"
    escalationReason := reason }

end FindingRecord

/-- The body of `_escalate_out_of_grant`. -/
def escalateRecord (allowedPaths : List String) (r : FindingRecord) :
    Except String FindingRecord :=
  if r.outcome = .opened ∧ r.requiredPaths ≠ [] then
    (pathsOutsideScope r.requiredPaths allowedPaths).map fun outside =>
      if outside = [] then r else r.escalate "required_paths_outside_grant"
  else .ok r

namespace ReviewLedger

variable (l : ReviewLedger)

def withFindings (findings : Dict String FindingRecord) : ReviewLedger :=
  { l with findings := findings }

/-! ## Keys and records -/

/-- The keys of the records that the test selects, in order. -/
def keysWhere (p : FindingRecord → Bool) : List String :=
  sortKeys ((l.findings.items.filter fun item => p item.2).map Prod.fst)

/-- The records that the test selects, in the order of their keys. -/
def recordsWhere (p : FindingRecord → Bool) : List FindingRecord :=
  (l.keysWhere p).filterMap l.findings.get?

def openRequired : List String := l.keysWhere fun r => r.isOpen && r.required

def escalatedRequired : List String := l.keysWhere fun r => r.outcome = .escalated && r.required

def openAll : List String := l.keysWhere (·.isOpen)

def openRecords : List FindingRecord := l.recordsWhere (·.isOpen)

def transferred : List FindingRecord := l.recordsWhere (·.outcome = .transferred)

def escalated : List FindingRecord := l.recordsWhere (·.outcome = .escalated)

/-- The technical debt that `_finish` reports. -/
def technicalDebtKeys : List String := l.keysWhere (·.outcome = .debt)

def hasOutcome (outcome : Disposition) (key : String) : Bool :=
  (l.findings.get? key).any (·.outcome = outcome)

/-! ## Operations -/

/-- `ingest`, with the keys to fix and the number of distinct findings. -/
def ingest (findings : List Finding) (cycle : ℕ) :
    ReviewLedger × Except String (List String × ℕ) :=
  let reports := keyed l.policy cycle 1 [] findings
  let current := (reports.map Report.key).dedup
  match foldUntil (ingestReport l.policy l.discoveryFrozen cycle) l.findings reports with
  | (ingested, some message) => (l.withFindings ingested, .error message)
  | (ingested, none) =>
    match visit (screenRecord l.policy l.allowedPaths)
        (ingested.mapValues (resolveAbsence l.policy current)) with
    | (screened, some message) => (l.withFindings screened, .error message)
    | (screened, none) =>
      let after := l.withFindings screened
      (after, .ok (sortKeys (current.filter (after.hasOutcome .opened)), current.length))

/-- `transfer_scope_expanding`, with the keys that it has moved. -/
def transferScopeExpanding (targets : Dict String String) (originNode : String)
    (currentPaths : List String) : ReviewLedger × List String :=
  (l.withFindings (l.findings.mapValues fun _ r => r.transfer targets originNode currentPaths),
    l.keysWhere fun r => (r.transferTarget targets currentPaths).isSome)

/-- `mark_fix_attempt`. -/
def markFixAttempt (requested addressed : List String) (cycle : ℕ) : ReviewLedger × Option String :=
  match sortKeys (addressed.filter (· ∉ requested)).dedup with
  | [] =>
    let attempt (findings : Dict String FindingRecord) (key : String) :=
      updateKey findings key fun r =>
        { r with fixAttempts := r.fixAttempts ++ [(cycle, decide (key ∈ addressed))] }
    let (findings, raised) := foldUntil attempt l.findings requested
    (l.withFindings findings, raised)
  | unknown =>
    (l, some ("fixer claimed findings outside its fix list: " ++ ", ".intercalate unknown))

/-- `mark_unresolvable`. -/
def markUnresolvable (requested unresolvable : List String) : ReviewLedger × Option String :=
  match sortKeys (unresolvable.filter (· ∉ requested)).dedup with
  | [] =>
    let declare (findings : Dict String FindingRecord) (key : String) :=
      updateKey findings key (·.escalate "fixer_declared_unresolvable")
    let (findings, raised) := foldUntil declare l.findings unresolvable
    (l.withFindings findings, raised)
  | unknown =>
    (l, some ("fixer declared findings unresolvable outside its fix list: " ++
      ", ".intercalate unknown))

/-- `mark_verified`. -/
def markVerified (addressed verified : List String) (closeImmediately : Bool) :
    ReviewLedger × Option String :=
  let done : Disposition :=
    if closeImmediately ∨ ¬ l.policy.regressionReviewEnabled then .fixed else .pendingReview
  let mark (findings : Dict String FindingRecord) (key : String) :=
    updateKey findings key fun r => { r with outcome := if key ∈ verified then done else .opened }
  let (findings, raised) := foldUntil mark l.findings addressed
  (l.withFindings findings, raised)

/-- What the debt sink does with a record. -/
def sink (policy : ReviewFixPolicy) (r : FindingRecord) : FindingRecord :=
  if ¬ r.isOpen then r
  else if r.required ∧ ¬ policy.allowRequiredTechnicalDebt then r
  else { r with outcome := .debt }

/-- `apply_debt_sink`. -/
def applyDebtSink : ReviewLedger :=
  l.withFindings (l.findings.mapValues fun _ r => sink l.policy r)

end ReviewLedger

end HarnessLabs.FeatureRun
