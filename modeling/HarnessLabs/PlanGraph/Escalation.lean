import HarnessLabs.PlanGraph.Findings

/-!
# Escalated findings

A launch may escalate findings that belong to another node. Each one is routed to the only owner of
its paths and judged; a confirmed finding becomes an obligation of its owner, a rejected one rides
back to the node that raised it.

* `resolveEscalations` — what is decided about the findings of one launch.
* `EscalationDisposition.forcesBlock` — the decisions that stop the attempt.
-/

namespace HarnessLabs.PlanGraph

universe u

/-- A judged finding in the escalation artifact. -/
structure EscalatedFinding where
  findingKey : String
  originNode : String
  ownerNode : String
  requiredPaths : List String
  verdict : String
  deriving DecidableEq

structure EscalationDisposition where
  advances : List (String × Obligation) := []
  escalationsPayload : List EscalatedFinding := []
  retryFrontierPrefix : List String := []
  /-- The finding and its candidate owners. -/
  unrouted : Option (String × List String) := none
  budgetError : Option String := none
  /-- The finding and its owner. -/
  alreadyRejected : Option (String × String) := none
  /-- The finding, its owner and the reason. -/
  judgeUnavailable : Option (String × String × String) := none

namespace EscalationDisposition

variable (d : EscalationDisposition)

/-- `escalation_forces_block`. -/
def forcesBlock : Bool :=
  d.unrouted.isSome || d.budgetError.isSome || !d.retryFrontierPrefix.isEmpty ||
    d.alreadyRejected.isSome || d.judgeUnavailable.isSome

/-- Something for the escalation artifact of a node that stopped by itself. -/
def noteworthy : Bool :=
  !d.escalationsPayload.isEmpty || d.unrouted.isSome || d.budgetError.isSome ||
    d.alreadyRejected.isSome || d.judgeUnavailable.isSome

/-- The reason of a forced block. -/
def reason : String :=
  match d.unrouted, d.budgetError, d.alreadyRejected, d.judgeUnavailable with
  | some (key, owners), _, _, _ =>
    s!"escalated finding {key} resolves to {owners.length} candidate owners"
  | none, some error, _, _ => error
  | none, none, some (key, _), _ =>
    s!"escalated finding {key} was already rejected by the escalation judge"
  | none, none, none, some (key, _, why) =>
    s!"escalation judge could not judge finding {key}: {why}"
  | none, none, none, none => "in-graph escalation unsealed a completed node"

end EscalationDisposition

/-! ## Judgments -/

def escalationJudgmentProtocol : String := "plan-graph-escalation-judgment/1"

inductive Verdict where
  | confirm
  | reject
  deriving DecidableEq, Repr

def Verdict.text : Verdict → String
  | .confirm => "confirm"
  | .reject => "reject"

structure Judgment where
  verdict : Verdict
  rationale : String
  evidenceRefs : List String

def verdict? : Json → Option Verdict
  | .str "confirm" => some .confirm
  | .str "reject" => some .reject
  | _ => none

/-- A text that is not blank. -/
def rationale? : Json → Option String
  | .str s => if s.toList.all (·.isWhitespace) then none else some s
  | _ => none

/-- `_validate_judgment`. -/
def validateJudgment (raw : Json) : Except String Judgment :=
  if raw.get? "protocol" ≠ some (.str escalationJudgmentProtocol) then
    .error s!"escalation judgment must carry protocol '{escalationJudgmentProtocol}'"
  else
    match (raw.get? "verdict").bind verdict?, (raw.get? "rationale").bind rationale?,
        (((raw.get? "evidence_refs").getD (.arr [])).asArr?).bind (·.mapM Json.asStr?) with
    | none, _, _ => .error "escalation judgment verdict must be 'confirm' or 'reject'"
    | some _, none, _ => .error "escalation judgment requires a non-empty rationale"
    | some _, some _, none => .error "escalation judgment evidence_refs must be a list of strings"
    | some verdict, some rationale, some refs => .ok ⟨verdict, rationale, refs⟩

/-- What calling the judge gives: an answer, `EscalationJudgeUnavailable`, or another error. -/
inductive JudgeAnswer where
  | answered (raw : Json)
  | unavailable (reason : String)
  | raised (message : String)

/-- The answers that one escalated finding gets: the judge's, and the error of the ledger when the
decision to unseal its owner is refused. -/
structure EscalationAnswer where
  judge : JudgeAnswer
  ledger : Option String := none

/-! ## Resolution -/

/-- The pass so far. `rejected` are the findings with a journaled rejection in the lineage. -/
structure Resolving where
  advances : List (String × Obligation) := []
  payload : List EscalatedFinding := []
  unsealed : List String := []
  rejected : List String := []

def Resolving.disposition (pass : Resolving) : EscalationDisposition where
  advances := pass.advances
  escalationsPayload := pass.payload

/-- The record as an open obligation of the run that raised it. -/
def rejectedRecord (run : PlanRun) (rationale : String) (o : Obligation) : Obligation :=
  (((o.withField "outcome" (.str "open")).withField "outcome_reason" (.str rationale)).withField
    "escalation_reason" (.str "")).withField "origin_node" (.str run.id) Obligation.key_ne_origin

/-- The record as an open obligation of its owner. -/
def confirmedRecord (run : PlanRun) (owner rationale : String) (boundedFixOnly : Bool)
    (o : Obligation) : Obligation :=
  ((rejectedRecord run rationale o).withField "transferred_to" (.str owner)
    Obligation.key_ne_transferred).withField "bounded_fix_only" (.bool boundedFixOnly)

/-- How the pass goes on behind a finding. -/
inductive Resolution where
  | next (pass : Resolving)
  | stop (pass : Resolving) (disposition : EscalationDisposition)
  | raised (pass : Resolving) (message : String)

/-- A finding with a judgment. -/
def applyJudgment (run : PlanRun) (completed : String → Bool) (ledger : Option String)
    (pass : Resolving) (o : Obligation) (owner : String) (paths : List String)
    (judgment : Judgment) : Resolution :=
  let pass := { pass with payload := pass.payload ++
    [⟨o.key, run.id, owner, paths, judgment.verdict.text⟩] }
  match judgment.verdict with
  | .reject =>
    .next { pass with
      advances := pass.advances ++ [(run.id, rejectedRecord run judgment.rationale o)]
      rejected := o.key :: pass.rejected }
  | .confirm =>
    if ¬ completed owner then
      .next { pass with advances :=
        pass.advances ++ [(owner, confirmedRecord run owner judgment.rationale false o)] }
    else
      match ledger with
      | some error => .stop pass { pass.disposition with budgetError := some error }
      | none =>
        .next { pass with
          advances := pass.advances ++ [(owner, confirmedRecord run owner judgment.rationale true o)]
          unsealed := if owner ∈ pass.unsealed then pass.unsealed else pass.unsealed ++ [owner] }

/-- A finding with its owner. -/
def judgeFinding (identity : String) (run : PlanRun) (completed : String → Bool)
    (answer : EscalationAnswer) (pass : Resolving) (o : Obligation) (owner : String)
    (paths : List String) : Resolution :=
  if o.key ∈ pass.rejected then
    .stop pass { pass.disposition with alreadyRejected := some (o.key, owner) }
  else if identity = run.id then
    .raised pass
      "escalation judge must be independent of the reviewer whose finding is being judged"
  else
    match answer.judge with
    | .unavailable why =>
      .stop pass { pass.disposition with judgeUnavailable := some (o.key, owner, why) }
    | .raised message => .raised pass message
    | .answered raw =>
      match validateJudgment raw with
      | .error message => .raised pass message
      | .ok judgment => applyJudgment run completed answer.ledger pass o owner paths judgment

/-- One escalated finding. -/
def resolveFinding (runs : List PlanRun) (identity : String) (run : PlanRun)
    (completed : String → Bool) (answer : EscalationAnswer) (pass : Resolving) (record : Json) :
    Resolution :=
  match Obligation.ofRecord? record with
  | none => .raised pass "escalated finding is missing its key"
  | some o =>
    match nonEmptyTexts? (record.get? "required_paths") with
    | none => .raised pass s!"escalated finding {o.key} has invalid required_paths"
    | some paths =>
      match ownerForPaths runs paths with
      | none =>
        .stop pass { pass.disposition with
          unrouted := some (o.key, candidateOwnersForPaths runs paths) }
      | some owner => judgeFinding identity run completed answer pass o owner paths

/-- `_plan_declaration_order`. -/
def planDeclarationOrder (runs : List PlanRun) (ids : List String) : List String :=
  (runIds runs).filter (· ∈ ids)

/-- The disposition behind the last finding. -/
def finalDisposition (runs : List PlanRun) (run : PlanRun) (pass : Resolving) :
    EscalationDisposition :=
  { pass.disposition with
    retryFrontierPrefix :=
      if pass.unsealed = [] then [] else planDeclarationOrder runs (pass.unsealed ++ [run.id]) }

/-- The findings one after the other; `answers` are numbered like the findings. -/
def resolveAll (runs : List PlanRun) (identity : String) (run : PlanRun)
    (completed : String → Bool) (answers : ℕ → EscalationAnswer) :
    ℕ → Resolving → List Json → Resolving × Except String EscalationDisposition
  | _, pass, [] => (pass, .ok (finalDisposition runs run pass))
  | n, pass, record :: rest =>
    match resolveFinding runs identity run completed (answers n) pass record with
    | .next pass => resolveAll runs identity run completed answers (n + 1) pass rest
    | .stop pass d => (pass, .ok d)
    | .raised pass message => (pass, .error message)

/-- `_resolve_escalations`, with the rejections that are journaled behind it. -/
def resolveEscalations {C : Type u} (runs : List PlanRun) (judge : Option String) (run : PlanRun)
    (outcome : FeatureRunOutcome C) (completed : Dict String C) (rejected : List String)
    (answers : ℕ → EscalationAnswer) : List String × Except String EscalationDisposition :=
  match judge, escalatedFindings outcome.evidence with
  | none, _ | _, [] => (rejected, .ok {})
  | some identity, findings =>
    let (pass, answer) := resolveAll runs identity run (· ∈ completed.keys) answers 0
      { rejected := rejected } findings
    (pass.rejected, answer)

end HarnessLabs.PlanGraph
