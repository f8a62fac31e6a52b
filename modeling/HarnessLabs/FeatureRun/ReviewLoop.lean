import HarnessLabs.FeatureRun.ReviewLedger

/-!
# The review/fix loop

A cycle reviews, fixes what the ledger has open, verifies the fixes and goes on with the next review,
until nothing is left to fix or one of the stops fires. The reviewer, the fixer and the verifier may
reply anything.

* `ReviewFixLoop` — what a loop is built from, with the checks of its constructor.
* `reviewPhase`, `fixPhase`, `verifyPhase` — the stages of a cycle.
* `cycleStep`, `boundedStep` — a cycle of the loop and the one cycle of the bounded loop.
* `start`, `step` — the loop as a transition system, with the replies of a cycle as its input.
-/

namespace HarnessLabs.FeatureRun

open PlanGraph (truthy)
open Until (visit)

/-! ## Configuration -/

def sensitiveMarkers : List String :=
  ["auth", "security", "schema", "migration", "store", "sql", "route", "template", "static/", ".js",
    ".ts", ".tsx", ".html"]

/-- `_risk_tier`. -/
def riskTierOf (paths : List String) (policy : ReviewFixPolicy) : RiskTier :=
  let sensitive (path : String) : Bool :=
    sensitiveMarkers.any fun marker => marker.toList <:+: path.toList.map Char.toLower
  if ¬ policy.riskTieringEnabled ∨ paths = [] ∨ paths.any sensitive then .sensitive
  else .mechanical

/-- `ReviewFixLoop`, with the checks of its `__init__`. -/
structure ReviewFixLoop where
  allowedPaths : List String := []
  changedPaths : List String := []
  policy : ReviewFixPolicy := .standard
  inheritedFindings : List FindingRecord := []
  retainedTransfers : List FindingRecord := []
  findingTransferTargets : Dict String String := ∅
  originNodeId : String
  inheritedLedgerFrozen : Bool := false
  resumedLedger : Option ReviewLedger := none
  resumeFromCycle : ℕ := 0
  additionalCycles : ℕ := 0
  boundedFixOnly : Bool := false
  seededFixKeys : List String := []
  fresh : resumedLedger = none → resumeFromCycle = 0 ∧ additionalCycles = 0 := by simp
  continued : resumedLedger ≠ none → 1 ≤ resumeFromCycle ∧ 1 ≤ additionalCycles ∧
    inheritedFindings = [] ∧ retainedTransfers = [] := by simp
  bounded : boundedFixOnly = true → seededFixKeys ≠ [] ∧ resumedLedger = none := by simp
  unbounded : boundedFixOnly = false → seededFixKeys = [] := by simp

/-! ## Results -/

inductive LoopStatus where
  | succeeded
  | blocked
  | failed
  | interrupted
  deriving DecidableEq, Repr

/-- `stop_reason`. -/
inductive StopReason where
  | disabled
  | cleared
  | requiredFindingsOpen
  | cycleLimit
  | noProgress
  | marginalYield
  | interrupted
  | failed
  deriving DecidableEq, Repr

/-- `ReviewFixResult`. -/
structure ReviewFixResult where
  status : LoopStatus
  reason : String
  cycles : ℕ
  riskTier : RiskTier
  openFindingKeys : List String
  technicalDebtKeys : List String
  transferredFindings : List FindingRecord
  openFindings : List FindingRecord
  stopReason : StopReason
  escalatedFindings : List FindingRecord

/-- The loop between two cycles, or at its end. -/
structure ReviewState where
  ledger : ReviewLedger
  cycle : ℕ
  lowYieldStreak : ℕ := 0
  result : Option ReviewFixResult := none

/-- `_finish`. -/
def finish (l : ReviewLedger) (status : LoopStatus) (reason : String) (cycle : ℕ)
    (stop : StopReason) : ReviewState where
  ledger := l
  cycle := cycle
  result := some
    { status := status
      reason := reason
      cycles := cycle
      riskTier := l.riskTier
      openFindingKeys := l.openAll
      technicalDebtKeys := l.technicalDebtKeys
      transferredFindings := l.transferred
      openFindings := l.openRecords
      stopReason := stop
      escalatedFindings := l.escalated }

/-! ## Stages -/

/-- How a stage attempt ends without a result. `unchanged` is the error of a writable worker that has
not changed the repository. -/
inductive StageFailure where
  | interrupted (message : String)
  | failed (message : String) (unchanged : Bool)

/-- What the executors reply in a cycle: the findings of the reviewer, the details of the fixer, of
the fixer that recovers, and of the verifier. -/
structure CycleReplies where
  review : Except StageFailure (List Json)
  fix : Except StageFailure Json
  recoveredFix : Except StageFailure Json
  verify : Except StageFailure Json

/-- The handlers of `run`. -/
def abort (l : ReviewLedger) (cycle : ℕ) : StageFailure → ReviewState
  | .interrupted message =>
    finish l .interrupted (if message = "" then "review-fix interrupted" else message) cycle
      .interrupted
  | .failed message _ => finish l .failed message cycle .failed

/-- An error of the ledger is one of the loop. -/
def raising {α : Type} : ReviewLedger × Option String → α → ReviewLedger × Except StageFailure α
  | (l, some message), _ => (l, .error (.failed message false))
  | (l, none), a => (l, .ok a)

/-- The paths that a finding requires. -/
def requiredPathsOf (value : Json) : Except String (List String) :=
  match value.get? "required_paths" with
  | none => .ok []
  | some (.arr items) =>
    match items.mapM Json.asStr? with
    | some paths => .ok paths
    | none => .error "required_paths must be paths"
  | some _ => .error "required_paths must be paths"

/-- The finding as the loop gives it to the ledger. -/
def scopeFinding (allowedPaths : List String) (value : Json) : Except String Finding :=
  match requiredPathsOf value with
  | .error message => .error message
  | .ok paths =>
    if ((value.get? "scope_expanding").map truthy).getD false then .ok ⟨value, paths, true⟩
    else (pathsOutsideScope paths allowedPaths).map fun outside =>
      ⟨value, paths, decide (outside ≠ [])⟩

/-- `_detail_keys`. -/
def detailKeys (details : Json) (name : String) : Except String (List String) :=
  match details.get? name with
  | some (.arr items) =>
    match items.mapM fun item => item.asStr?.filter (· ≠ "") with
    | some keys => .ok (appendNew [] keys)
    | none => .error s!"{name} must be a list of finding keys"
  | _ => .error s!"{name} must be a list of finding keys"

/-- `_detail_keys_optional`. -/
def detailKeysOptional (details : Json) (name : String) : Except String (List String) :=
  if details.get? name = none then .ok [] else detailKeys details name

namespace ReviewFixLoop

variable (loop : ReviewFixLoop)

/-- `cycle_budget`. -/
def cycleBudget (tier : RiskTier) : ℕ :=
  let base := match tier with
    | .sensitive => loop.policy.sensitiveCycleLimit
    | .mechanical => loop.policy.mechanicalCycleLimit
  max base loop.resumeFromCycle + loop.additionalCycles

/-- `_escalate_out_of_grant`. -/
def escalateOutOfGrant (l : ReviewLedger) : ReviewLedger × Option String :=
  if ¬ loop.policy.escalationEnabled then (l, none)
  else
    let (findings, raised) := visit (escalateRecord loop.allowedPaths) l.findings
    (l.withFindings findings, raised)

/-- `_apply_fixer_escalations`. -/
def applyFixerEscalations (l : ReviewLedger) (fixKeys : List String) (details : Json) :
    ReviewLedger × Option String :=
  if ¬ loop.policy.escalationEnabled then (l, none)
  else
    match detailKeysOptional details "unresolvable_finding_keys" with
    | .error message => (l, some message)
    | .ok unresolvable => l.markUnresolvable fixKeys unresolvable

/-- The keys that a cycle hands to its fixer: what the review has reported and what is still open. -/
def keysToFix (l : ReviewLedger) (reported : List String) : List String :=
  sortKeys ((reported ++ l.openAll).dedup.filter (l.hasOutcome .opened))

/-- The review of a cycle, with the keys to fix and the number of distinct findings. -/
def reviewPhase (l : ReviewLedger) (cycle : ℕ) (reply : Except StageFailure (List Json)) :
    ReviewLedger × Except StageFailure (List String × ℕ) :=
  match reply with
  | .error failure => (l, .error failure)
  | .ok values =>
    match values.mapM (scopeFinding loop.allowedPaths) with
    | .error message => (l, .error (.failed message false))
    | .ok findings =>
      match l.ingest findings cycle with
      | (ingested, .error message) => (ingested, .error (.failed message false))
      | (ingested, .ok (reported, distinct)) =>
        let (transferred, moved) := ingested.transferScopeExpanding loop.findingTransferTargets
          loop.originNodeId loop.allowedPaths
        match loop.escalateOutOfGrant transferred with
        | (escalated, some message) => (escalated, .error (.failed message false))
        | (escalated, none) =>
          let fixKeys := keysToFix escalated reported
          ({ escalated with
              cycles := escalated.cycles ++
                [{ cycle := cycle, fixKeys := fixKeys, transferredFindingKeys := moved }] },
            .ok (fixKeys, distinct))

/-- `_execute_fix_with_recovery`. -/
def executeFix (replies : CycleReplies) : Except StageFailure Json :=
  match replies.fix with
  | .error (.failed _ true) => replies.recoveredFix
  | reply => reply

/-- The fix of a cycle, with the keys that it has addressed. -/
def fixPhase (l : ReviewLedger) (cycle : ℕ) (fixKeys : List String) (replies : CycleReplies) :
    ReviewLedger × Except StageFailure (List String) :=
  match executeFix replies with
  | .error failure => (l, .error failure)
  | .ok details =>
    match detailKeys details "addressed_finding_keys" with
    | .error message => (l, .error (.failed message false))
    | .ok addressed =>
      match l.markFixAttempt fixKeys addressed cycle with
      | (attempted, some message) => (attempted, .error (.failed message false))
      | (attempted, none) => raising (loop.applyFixerEscalations attempted fixKeys details) addressed

/-- The verification of a cycle, with the keys that it has verified. -/
def verifyPhase (l : ReviewLedger) (addressed : List String) (targeted closeImmediately : Bool)
    (reply : Except StageFailure Json) : ReviewLedger × Except StageFailure (List String) :=
  if targeted then
    match reply with
    | .error failure => (l, .error failure)
    | .ok details =>
      match detailKeys details "verified_finding_keys" with
      | .error message => (l, .error (.failed message false))
      | .ok verified => raising (l.markVerified addressed verified closeImmediately) verified
  else raising (l.markVerified addressed addressed closeImmediately) addressed

/-! ## Exits -/

/-- The exit behind the last cycle, where nothing required may be left. -/
def cleared (l : ReviewLedger) (cycle : ℕ) (reason : String) : ReviewState :=
  if l.openRequired ≠ [] then
    finish l .blocked "required findings remain open" cycle .requiredFindingsOpen
  else if l.escalatedRequired ≠ [] then
    finish l .blocked "required findings escalated without discharge" cycle .requiredFindingsOpen
  else finish l .succeeded reason cycle .cleared

/-- `_limit_exit`. -/
def limitExit (l : ReviewLedger) (cycle : ℕ) (reason : String) (stop : StopReason) : ReviewState :=
  let l := if loop.policy.technicalDebtSinkEnabled then l.applyDebtSink else l
  if l.openAll ≠ [] then finish l .blocked reason cycle stop
  else if l.escalatedRequired ≠ [] then
    finish l .blocked "required findings escalated without discharge" cycle .requiredFindingsOpen
  else finish l .succeeded s!"{reason}; remaining items recorded as debt" cycle stop

/-! ## Cycles -/

/-- The last entry of the ledger, with what was addressed and verified. -/
def recordFix (l : ReviewLedger) (addressed verified : List String) : ReviewLedger :=
  { l with
    cycles := l.cycles.modifyLast fun entry =>
      { entry with addressedFindingKeys := addressed, verifiedFindingKeys := verified } }

/-- The end of a cycle that has addressed some of its distinct findings. -/
def closeCycle (l : ReviewLedger) (cycle streak addressed distinct : ℕ) : ReviewState :=
  if ¬ loop.policy.regressionReviewEnabled then
    cleared l cycle "verified fixes accepted without regression re-review"
  else
    let yieldValue : ℚ := addressed / max distinct 1
    let streak := if yieldValue < loop.policy.minimumYield then streak + 1 else 0
    if loop.policy.marginalYieldStopEnabled ∧ loop.policy.lowYieldCycles ≤ streak then
      loop.limitExit l cycle "marginal yield stop" .marginalYield
    else { ledger := l, cycle := cycle, lowYieldStreak := streak }

/-- A cycle of `run`. -/
def cycleStep (l : ReviewLedger) (cycle streak : ℕ) (replies : CycleReplies) : ReviewState :=
  match loop.reviewPhase l cycle replies.review with
  | (l, .error failure) => abort l cycle failure
  | (l, .ok (fixKeys, distinct)) =>
    if fixKeys = [] then cleared l cycle "review cleared"
    else if loop.policy.cycleLimitEnabled ∧ loop.cycleBudget l.riskTier ≤ cycle then
      loop.limitExit l cycle "cycle limit reached" .cycleLimit
    else
      match loop.fixPhase l cycle fixKeys replies with
      | (l, .error failure) => abort l cycle failure
      | (l, .ok addressed) =>
        if loop.policy.noProgressStopEnabled ∧ addressed = [] then
          loop.limitExit l cycle "fixer made no progress" .noProgress
        else
          match verifyPhase l addressed loop.policy.targetedVerificationEnabled false
              replies.verify with
          | (l, .error failure) => abort l cycle failure
          | (l, .ok verified) =>
            loop.closeCycle (recordFix l addressed verified) cycle streak addressed.length distinct

/-- The cycle of `_run_bounded_fix_only`. -/
def boundedStep (l : ReviewLedger) (cycle : ℕ) (replies : CycleReplies) : ReviewState :=
  let fixKeys := sortKeys loop.seededFixKeys
  match loop.fixPhase l cycle fixKeys replies with
  | (l, .error failure) => abort l cycle failure
  | (l, .ok addressed) =>
    match verifyPhase l addressed true true replies.verify with
    | (l, .error failure) => abort l cycle failure
    | (l, .ok verified) =>
      cleared
        { l with
          cycles := l.cycles ++
            [{ cycle := cycle
               fixKeys := fixKeys
               addressedFindingKeys := addressed
               verifiedFindingKeys := verified }] }
        cycle "bounded fix-only cleared"

/-! ## Runs -/

/-- The ledger with which a loop begins that resumes none. -/
def seededLedger (retained : List FindingRecord) (frozen : Bool) : Except String ReviewLedger :=
  match loop.inheritedFindings.foldlM seedTransferred ∅ with
  | .error message => .error message
  | .ok inherited =>
    match retained.foldlM seedRetainedTransfer inherited with
    | .error message => .error message
    | .ok findings =>
      .ok
        { policy := loop.policy
          riskTier := riskTierOf loop.changedPaths loop.policy
          allowedPaths := loop.allowedPaths
          findings := findings
          discoveryFrozen := frozen }

/-- The ledger with which the loop begins. -/
def initialLedger : Except String ReviewLedger :=
  if loop.boundedFixOnly then loop.seededLedger [] true
  else
    match loop.resumedLedger with
    | some l => .ok { l with allowedPaths := loop.allowedPaths }
    | none => loop.seededLedger loop.retainedTransfers loop.inheritedLedgerFrozen

/-- The loop before its first cycle. -/
def start : Except String ReviewState :=
  loop.initialLedger.map fun l =>
    if ¬ loop.boundedFixOnly ∧ ¬ loop.policy.enabled then
      finish l .succeeded "review-fix loop disabled" 0 .disabled
    else { ledger := l, cycle := loop.resumeFromCycle }

/-- The next cycle of a loop that has not ended. -/
def step (replies : CycleReplies) (s : ReviewState) : Option ReviewState :=
  if s.result.isSome then none
  else if loop.boundedFixOnly then some (loop.boundedStep s.ledger (s.cycle + 1) replies)
  else some (loop.cycleStep s.ledger (s.cycle + 1) s.lowYieldStreak replies)

end ReviewFixLoop

end HarnessLabs.FeatureRun
