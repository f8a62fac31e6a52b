import HarnessLabs.PlanGraph.Escalation
import HarnessLabs.PlanGraph.Join

/-!
# Sealing an outcome

What the controller records of a launch that came back: the node is sealed, or it stops and its
findings stay with the graph, or an escalation blocks the attempt.

* `Controller` — what the controller is set up with.
* `RunState` — the audit with the controller's own copies of the candidates and the obligations.
* `sealOutcome` — `_seal_outcome`.
-/

namespace HarnessLabs.PlanGraph

universe u

variable {C : Type u}

/-- `PlanGraph`. `transferTargets` are the path grants downstream of a run with their owners. -/
structure Controller (C : Type u) [PartialOrder C] where
  plan : PlanGraphPlan C
  graphRunId : String
  runRoot : String
  maxParallelism : ℕ
  positive : 1 ≤ maxParallelism
  continueIndependentAfterBlock : Bool
  escalationJudge : Option String
  transferTargets : PlanRun → Dict String String
  git : Git C

/-- What a run of the controller works on. `obligations` is its own copy of what nodes owe, and
`rejected` are the findings that the journals of the lineage have a rejection of. -/
structure RunState (C : Type u) where
  audit : AttemptState C
  completed : Dict String C
  obligations : Obligations
  rejected : List String := []
  requests : List (FeatureRunRequest C) := []

/-- What comes back of a launch: its outcome, the error of the ledger on importing its evidence, the
answers to its escalations, and the deviations that the ledger records by then. -/
structure Launched (C : Type u) where
  outcome : FeatureRunOutcome C
  importError : Option String := none
  answers : ℕ → EscalationAnswer := fun _ => ⟨.unavailable "no judge", none⟩
  deviationRecords : List DeviationRecord := []

/-- `_SealDecision`. -/
inductive SealDecision (C : Type u) where
  | sealed (obligations : Obligations)
  | blocked (result : PlanGraphResult C) (reason : String)
      (escalation : Option EscalationDisposition)
  | failed (result : PlanGraphResult C)

/-! ## Requests -/

section Requests

variable [PartialOrder C] (g : Controller C)

def featureRunId (nodeId : String) : String := s!"{g.graphRunId}-{nodeId}"

/-- `_request_for_run`. -/
def requestForRun (run : PlanRun) (candidate : C) (obligations : List Obligation) :
    FeatureRunRequest C where
  run := run
  baseCommit := candidate
  planGraphId := g.graphRunId
  planNodeId := run.id
  featureRunId := featureRunId g run.id
  runDir := s!"{g.runRoot}/{featureRunId g run.id}"
  findingObligations := obligations
  findingTransferTargets := g.transferTargets run
  inheritedLedgerFrozen :=
    obligations.any fun o => Controller.textOr o.record "origin_node" "" ≠ run.id
  boundedFixOnly := obligations.any fun o => ((o.record.get? "bounded_fix_only").map truthy).getD false

end Requests

/-! ## Stopping -/

def stoppedResult (s : RunState C) (run : PlanRun) (status : GraphStatus) (candidate : Option C)
    (deviationRecords : List DeviationRecord) : PlanGraphResult C where
  status := status
  candidateCommit := candidate
  completed := s.completed
  failedRunId := some run.id
  deviationRecords := deviationRecords

/-- `_review_fix_park_reason`. -/
def reviewFixParkReason (evidence : Json) : Option String :=
  match evidence.get? "review_fix" with
  | some (.obj members) =>
    match (Json.obj members).get? "park_disposition" with
    | some (.obj _) => ((Json.obj members).get? "reason").bind rationale?
    | _ => none
  | _ => none

/-- The reason of a block that the launch itself reported or that an escalation forces. -/
def stopReason (outcome : FeatureRunOutcome C) (escalation : EscalationDisposition) : String :=
  if outcome.status = "blocked" then
    match reviewFixParkReason outcome.evidence with
    | some why => s!"FeatureRun reported blocked: {why}"
    | none => "FeatureRun reported blocked"
  else escalation.reason

/-- What the nodes owe behind a launch that did not succeed; nothing where it is left as it is. -/
def stoppedObligations (run : PlanRun) (outcome : FeatureRunOutcome C)
    (escalation : EscalationDisposition) (current : Obligations) :
    Except String (Option Obligations) :=
  let carried := carriedFindingObligations run outcome current
  if escalation.advances = [] then .ok carried
  else
    match applyEscalationAdvances (carried.getD (current.erase run.id)) escalation.advances with
    | .error message => .error message
    | .ok merged => .ok (some merged)

/-- The part of `_seal_outcome` for a launch that did not succeed. -/
def sealStopped (run : PlanRun) (outcome : FeatureRunOutcome C) (launched : Launched C)
    (escalation : EscalationDisposition) (s : RunState C) :
    RunState C × Except String (SealDecision C) :=
  let blocks := outcome.status = "blocked" ∨ escalation.forcesBlock
  match stoppedObligations run outcome escalation s.obligations with
  | .error message => (s, .error message)
  | .ok merged =>
    let result := stoppedResult s run (if blocks then .blocked else .failed) none
      launched.deviationRecords
    ({ s with
        obligations := merged.getD s.obligations
        audit := s.audit.nodeFailed run.id (if blocks then .blocked else .failed) merged },
      .ok (if blocks then
        .blocked result (stopReason outcome escalation)
          (if escalation.noteworthy then some escalation else none)
      else .failed result))

/-! ## Sealing -/

/-- The part of `_seal_outcome` for a verified candidate. -/
def sealCandidate (run : PlanRun) (request : FeatureRunRequest C) (outcome : FeatureRunOutcome C)
    (candidate : C) (launched : Launched C) (escalation : EscalationDisposition) (s : RunState C) :
    RunState C × Except String (SealDecision C) :=
  let s := { s with audit := s.audit.candidateVerifiedPendingTransfer run.id candidate }
  let result := stoppedResult s run .blocked (some candidate) launched.deviationRecords
  match advanceFindingObligations run request outcome s.obligations s.completed
      escalation.advances with
  | .error message =>
    ({ s with audit := s.audit.transferConflictBlocked run.id none },
      .ok (.blocked result message none))
  | .ok advanced =>
    if escalation.forcesBlock then
      ({ s with audit := s.audit.transferConflictBlocked run.id (some advanced) },
        .ok (.blocked result escalation.reason (some escalation)))
    else
      ({ s with
          completed := s.completed.set run.id candidate
          audit := s.audit.nodeCompleted run.id candidate advanced },
        .ok (.sealed advanced))

/-- The outcome that is recorded: a result with another identity is a failure. -/
def recordedOutcome (request : FeatureRunRequest C) (outcome : FeatureRunOutcome C) :
    FeatureRunOutcome C :=
  if outcomeMatchesReservation outcome request then outcome
  else
    { status := "failed"
      evidence := .obj [("error", .str "launcher result does not match reserved child identity")] }

variable [PartialOrder C] (g : Controller C)

/-- `_seal_outcome`. A caller's copy of the obligations is rewritten where the launch did not
succeed; where it did, the decision has the new ones. -/
def sealOutcome (run : PlanRun) (request : FeatureRunRequest C) (launched : Launched C)
    (s : RunState C) : RunState C × Except String (SealDecision C) :=
  let outcome := recordedOutcome request launched.outcome
  match launched.importError, outcome.evidence with
  | some error, .obj _ => (s, .error error)
  | _, _ =>
    let (rejected, resolved) := resolveEscalations g.plan.runs g.escalationJudge run outcome
      s.completed s.rejected launched.answers
    let s := { s with rejected := rejected }
    match resolved with
    | .error message => (s, .error message)
    | .ok escalation =>
      if outcome.status ≠ "succeeded" then sealStopped run outcome launched escalation s
      else
        match outcome.candidateCommit with
        | none => (s, .error s!"successful FeatureRun '{run.id}' did not provide a candidate commit")
        | some candidate => sealCandidate run request outcome candidate launched escalation s

/-! ## Cases -/

/-- The status of a node that stopped. -/
def stopStatus (blocks : Bool) : NodeStatus := if blocks then .blocked else .failed

def stopGraphStatus (blocks : Bool) : GraphStatus := if blocks then .blocked else .failed

/-- What `sealOutcome` can do. -/
inductive Seals (run : PlanRun) (request : FeatureRunRequest C) (launched : Launched C)
    (s : RunState C) : RunState C → Except String (SealDecision C) → Prop
  | raised (rejected : List String) (message : String) :
    Seals run request launched s { s with rejected := rejected } (.error message)
  | stopped (rejected : List String) (escalation : EscalationDisposition)
      (merged : Option Obligations) (blocks : Bool) (decision : SealDecision C)
      (hmerged : stoppedObligations run (recordedOutcome request launched.outcome) escalation
        s.obligations = .ok merged)
      (hdecision : decision =
        let result := stoppedResult s run (stopGraphStatus blocks) none launched.deviationRecords
        if blocks then
          .blocked result (stopReason (recordedOutcome request launched.outcome) escalation)
            (if escalation.noteworthy then some escalation else none)
        else .failed result) :
    Seals run request launched s
      { s with
        rejected := rejected
        obligations := merged.getD s.obligations
        audit := s.audit.nodeFailed run.id (stopStatus blocks) merged }
      (.ok decision)
  | conflict (rejected : List String) (escalation : EscalationDisposition) (candidate : C)
      (message : String) :
    Seals run request launched s
      { s with
        rejected := rejected
        audit := (s.audit.candidateVerifiedPendingTransfer run.id candidate).transferConflictBlocked
          run.id none }
      (.ok (.blocked (stoppedResult s run .blocked (some candidate) launched.deviationRecords)
        message none))
  | escalated (rejected : List String) (escalation : EscalationDisposition) (candidate : C)
      (advanced : Obligations)
      (hadvanced : advanceFindingObligations run request (recordedOutcome request launched.outcome)
        s.obligations s.completed escalation.advances = .ok advanced) :
    Seals run request launched s
      { s with
        rejected := rejected
        audit := (s.audit.candidateVerifiedPendingTransfer run.id candidate).transferConflictBlocked
          run.id (some advanced) }
      (.ok (.blocked (stoppedResult s run .blocked (some candidate) launched.deviationRecords)
        escalation.reason (some escalation)))
  | sealed (rejected : List String) (escalation : EscalationDisposition) (candidate : C)
      (advanced : Obligations)
      (houtcome : (recordedOutcome request launched.outcome).status = "succeeded" ∧
        (recordedOutcome request launched.outcome).candidateCommit = some candidate)
      (hadvanced : advanceFindingObligations run request (recordedOutcome request launched.outcome)
        s.obligations s.completed escalation.advances = .ok advanced) :
    Seals run request launched s
      { s with
        rejected := rejected
        completed := s.completed.set run.id candidate
        audit := (s.audit.candidateVerifiedPendingTransfer run.id candidate).nodeCompleted run.id
          candidate advanced }
      (.ok (.sealed advanced))

theorem sealOutcome_cases (run : PlanRun) (request : FeatureRunRequest C) (launched : Launched C)
    (s : RunState C) : Seals run request launched s (sealOutcome g run request launched s).1
      (sealOutcome g run request launched s).2 := by
  have hresolved : ∀ (rejected : List String) (resolved : Except String EscalationDisposition),
      let outcome := recordedOutcome request launched.outcome
      let t : RunState C × Except String (SealDecision C) :=
        match resolved with
        | .error message => ({ s with rejected := rejected }, .error message)
        | .ok escalation =>
          if outcome.status ≠ "succeeded" then
            sealStopped run outcome launched escalation { s with rejected := rejected }
          else
            match outcome.candidateCommit with
            | none => ({ s with rejected := rejected },
              .error s!"successful FeatureRun '{run.id}' did not provide a candidate commit")
            | some candidate =>
              sealCandidate run request outcome candidate launched escalation
                { s with rejected := rejected }
      Seals run request launched s t.1 t.2 := by
    intro rejected resolved outcome
    cases resolved with
    | error message => exact .raised rejected message
    | ok escalation =>
      dsimp only
      by_cases hstatus : outcome.status ≠ "succeeded"
      · rw [if_pos hstatus, sealStopped]
        cases hmerged : stoppedObligations run outcome escalation s.obligations with
        | error message => exact .raised rejected message
        | ok merged =>
          by_cases hblocks : outcome.status = "blocked" ∨ escalation.forcesBlock
          · simp only [if_pos hblocks]
            exact .stopped rejected escalation merged true _ hmerged rfl
          · simp only [if_neg hblocks]
            exact .stopped rejected escalation merged false _ hmerged rfl
      · rw [if_neg hstatus]
        cases hcandidate : outcome.candidateCommit with
        | none => exact .raised rejected _
        | some candidate =>
          dsimp only
          rw [sealCandidate]
          cases hadvanced : advanceFindingObligations run request outcome s.obligations s.completed
              escalation.advances with
          | error message => exact .conflict rejected escalation candidate message
          | ok advanced =>
            dsimp only
            by_cases hblocks : escalation.forcesBlock = true
            · rw [if_pos hblocks]
              exact .escalated rejected escalation candidate advanced hadvanced
            · rw [if_neg hblocks]
              exact .sealed rejected escalation candidate advanced
                ⟨not_not.1 hstatus, hcandidate⟩ hadvanced
  rw [sealOutcome]
  split
  · exact .raised s.rejected _
  · exact hresolved _ _

end HarnessLabs.PlanGraph
