import HarnessLabs.Budget.Ledger
import HarnessLabs.Lib.Sha256
import Mathlib.Data.List.Sort
import Mathlib.Data.String.Basic

/-!
# The retry-budget ledger: operations

Each operation takes the lock, folds the ledger and appends events one at a time. An operation is
therefore a function from the folded state to the events it appends and to how it ends; a crash
leaves a prefix of these events.

* `State.register`, `State.reserve`, `State.applyRecoveryDecision`, … — the public methods.
* `State.run` — one operation.
-/

namespace HarnessLabs.Budget

/-- What one operation appends, and whether it raises `BudgetError`. -/
structure Outcome where
  appended : List Event
  result : Except String Unit

namespace Outcome

def refused (message : String) : Outcome := ⟨[], .error message⟩

def accepted (events : List Event) : Outcome := ⟨events, .ok ()⟩

@[simp] theorem refused_appended (m : String) : (refused m).appended = [] := rfl

@[simp] theorem accepted_appended (es : List Event) : (accepted es).appended = es := rfl

@[simp] theorem accepted_result (es : List Event) : (accepted es).result = .ok () := rfl

/-- Events appended before the rest of an operation. -/
def prepend (es : List Event) (o : Outcome) : Outcome := ⟨es ++ o.appended, o.result⟩

end Outcome

/-! ## Child evidence -/

/-- One recorded command attempt of a child, as far as the import reads it. -/
structure CommandFact where
  invocationId : Option String
  failureClassification : Option String
  deriving DecidableEq

/-- One recorded repair dispatch of a child. -/
structure RepairFact where
  invocationId : Option String
  classification : Option String
  failureKeys : List String
  deriving DecidableEq

/-- The `verification` object of a child's outcome evidence. -/
structure VerificationEvidence where
  commandAttempts : List CommandFact
  repairInvocationIds : List String
  repairInvocations : List RepairFact
  deriving DecidableEq

structure Fact where
  invocationId : String
  kind : FactKind
  classification : Option Classification
  failureKeys : List String
  deriving DecidableEq

/-- `_failure_keys`: sorted and without repetition, or the digest of the failure reason. -/
def failureKeys (keys : List String) (failureReason : Option String) : Except String (List String) :=
  if keys.any (· == "") then .error "failure_keys must be a sequence of non-empty strings"
  else
    let normalized := keys.dedup.insertionSort (· ≤ ·)
    if normalized ≠ [] then .ok normalized
    else
      match failureReason with
      | none => .ok []
      | some reason =>
        if reason = "" then .error "failure_reason must be a non-empty string when supplied"
        else .ok ["reason:" ++ Sha256.hexdigest (Json.utf8 reason.toList)]

def commandFact (c : CommandFact) : Except String Fact :=
  match c.invocationId with
  | none => .error "structured child command evidence lacks invocation_id"
  | some id =>
    if id = "" then .error "structured child command evidence lacks invocation_id"
    else
      match c.failureClassification with
      | none => .ok ⟨id, .gateInvocation, none, []⟩
      | some text =>
        match Classification.ofString? text with
        | some k => .ok ⟨id, .gateInvocation, some k, []⟩
        | none => .error "structured child command has invalid classification"

def repairFact (r : RepairFact) : Except String Fact :=
  match r.invocationId, r.classification.bind Classification.ofString? with
  | some id, some c =>
    if id = "" then .error "structured child repair evidence is invalid"
    else (failureKeys r.failureKeys none).map fun keys => ⟨id, .repairDispatch, some c, keys⟩
  | _, _ => .error "structured child repair evidence is invalid"

/-- The facts of one evidence batch, commands first. -/
def childFacts (e : VerificationEvidence) : Except String (List Fact) :=
  if e.repairInvocationIds ≠ [] ∧ e.repairInvocations = [] then
    .error "structured child repair evidence lacks classifications"
  else do
    let commands ← e.commandAttempts.mapM commandFact
    let repairs ← e.repairInvocations.mapM repairFact
    if e.repairInvocationIds ≠ repairs.map Fact.invocationId then
      .error "structured child repair evidence ids do not match dispatches"
    else .ok (commands ++ repairs)

/-- The import loop: a fact whose id is already in the ledger is skipped. -/
def importEvents (id : String) : Finset String → List Fact → List Event
  | _, [] => []
  | seen, f :: fs =>
    if f.invocationId ∈ seen then importEvents id seen fs
    else .evidenceImported id f.invocationId f.kind f.classification f.failureKeys ::
      importEvents id (insert f.invocationId seen) fs

namespace State

/-! ## Gate authorization and capacity -/

/-- `_assert_gate_change_authorized`: whether the gate of the node has to change. -/
def assertGateChangeAuthorized (s : State) (id gate : String) (allowNewNode : Bool) :
    Except String Bool :=
  match s.gates.get? id with
  | none =>
    if allowNewNode ∧ (s.node id).acceptGateChange then .ok true
    else .error s!"node {id} is not registered in retry lineage; operator relief required"
  | some known =>
    if known = gate then .ok false
    else if (s.node id).acceptGateChange then .ok true
    else .error "gate-change block (gate_identity_v1_incomplete); operator relief required"

/-- The first loop of a re-registration: every gate is checked before any authorization is
consumed. -/
def assertGateChanges (s : State) : List (String × String) → Except String Unit
  | [] => .ok ()
  | (id, gate) :: rest =>
    match s.assertGateChangeAuthorized id gate true with
    | .error e => .error e
    | .ok _ => s.assertGateChanges rest

/-- The second loop: record each change that is needed. -/
def recordGateChanges (s : State) : List (String × String) → Outcome
  | [] => .accepted []
  | (id, gate) :: rest =>
    match s.assertGateChangeAuthorized id gate true with
    | .error e => .refused e
    | .ok false => s.recordGateChanges rest
    | .ok true => ((s.gateChanged id gate).recordGateChanges rest).prepend [.gateChanged id gate]

/-- `_assert_capacity`. -/
def assertCapacity (s : State) (config : BudgetConfig) (id : String) (keys : List String)
    (c : Classification) : Except String Unit :=
  let n := s.node id
  if config.nodeGateLimit + n.extra ≤ n.launches then
    .error s!"retry budget exhausted for node {id}; operator relief required"
  else if config.classLimit c + n.extra ≤ n.counters c then
    .error s!"retry budget exhausted for node {id}; operator relief required"
  else if keys.any fun k => config.findingKeyLimit ≤ s.findingKeys k then
    .error s!"retry finding budget exhausted for node {id}; operator relief required"
  else .ok ()

/-! ## Operations -/

/-- The transition checks of `register`: the validated transition of a changed plan. -/
def checkTransition (s : State) (authority : AutomaticRecoveryAuthority) (plan : String)
    (gates : Dict String String) (transition : Option Json) :
    Except String (Option PlanVersionTransition) :=
  if s.changedPlan plan then
    match transition with
    | some value =>
      match validatePlanVersionTransition value authority with
      | .error _ => .error "plan-version transition is invalid"
      | .ok t =>
        if ¬ s.bindsTransition t plan gates then
          .error "plan-version transition does not bind the active lineage registration"
        else if authority.maxStructuralDecisions ≤ s.automaticRecoveryStructuralDecisions then
          .error "structural recovery allowance exhausted"
        else .ok (some t)
    | none =>
      if s.acceptedPlanSha256 ≠ some plan then
        .error ("changed-plan lineage registration is blocked; operator relief required for " ++
          "this plan digest")
      else .ok none
  else
    match transition with
    | some value =>
      -- A replay of the consumed transition authorizes nothing new.
      if s.consumedTransitions.get? plan = some value then .ok none
      else .error "plan-version transition requires a changed plan digest"
    | none => .ok none

/-- What a re-registration appends after its gate changes. -/
def registrationEvents (s : State) (authority : AutomaticRecoveryAuthority) (plan : String)
    (gates : Dict String String) : Option PlanVersionTransition → List Event
  | some t =>
    .structuralDecision t.authorizingDecision.value t.predecessorPlanSha256 ::
      .registered plan gates authority (some t.value) false ::
      t.budgetCarryover.items.map fun p => .transitionCarryover p.1 p.2 plan
  | none => if s.changedPlan plan then [.registered plan gates authority none true] else []

def register (s : State) (plan : String) (gates : Dict String String)
    (automaticRecovery transition : Option Json) : Outcome :=
  if plan = "" then .refused "invalid lineage registration"
  else
    match AutomaticRecoveryAuthority.fromMapping automaticRecovery with
    | .error e => .refused e
    | .ok authority =>
      if s.authority.isSome ∧ s.authority ≠ some authority then
        .refused "automatic recovery authority is registration-immutable; re-register a new lineage"
      else
        match s.checkTransition authority plan gates transition with
        | .error e => .refused e
        | .ok checked =>
          if s.planSha256 = ∅ then .accepted [.registered plan gates authority none false]
          else
            match s.assertGateChanges gates.items with
            | .error e => .refused e
            | .ok () =>
              let changes := s.recordGateChanges gates.items
              match changes.result with
              | .error _ => changes
              | .ok () => .accepted (changes.appended ++ s.registrationEvents authority plan gates checked)

def applyRecoveryDecision (s : State) (decision : Json) (priorDigest : String) : Outcome :=
  match s.authority with
  | none => .refused "retry lineage has no registered recovery authority"
  | some authority =>
    match validateRecoveryDecision decision authority false with
    | .error e => .refused e
    | .ok d =>
      if d.expectedPriorDigest ≠ priorDigest then
        .refused "recovery decision expected prior digest mismatch"
      else if d.action.IsStructural ∧
          authority.maxStructuralDecisions ≤ s.automaticRecoveryStructuralDecisions then
        .refused "structural recovery allowance exhausted"
      else if d.action.IsRevision then
        .refused "plan revision actions require a plan-version transition"
      else if d.target ∉ s.gates.keys then
        .refused "recovery decision target is not registered"
      else
        match d.payload with
        | .extendBudget launches =>
          if authority.maxExtraNodeLaunches < s.automaticRecoveryExtraLaunches + launches then
            .refused "recovery allowance exhausted"
          else .accepted [.recoveryDecision decision priorDigest,
            .extended d.target launches "registration-authorized recovery decision"]
        | .resume => .accepted [.recoveryDecision decision priorDigest, .resumed d.target]
        | .transferOwnership receiving =>
          if receiving ∉ s.gates.keys then
            .refused "recovery decision receiving node is not registered"
          else .accepted [.recoveryDecision decision priorDigest,
            .obligationTransferred d.target receiving]
        | .ratifyGateChange gate c =>
          .accepted [.recoveryDecision decision priorDigest,
            .gateLineage d.target (s.gates.getD d.target "") gate c]
        | .revision _ => .refused "recovery action has no v1 applicator"

/-- The launch part of `reserve`, after the gate change. -/
def reserveLaunch (s : State) (config : BudgetConfig) (id gate : String) (keys : List String)
    (c : Classification) (attempt : Option String) (rid : String) : Outcome :=
  if (s.node id).blocked then
    .refused s!"retry budget for node {id} is blocked; operator relief required"
  else
    match s.assertCapacity config id keys c with
    | .error e => .refused e
    | .ok () => .accepted [.reserved rid id gate keys c attempt (some (reservationAttemptCounters c))]

/-- `reserve`; `rid` is the fresh reservation id it draws. -/
def reserve (s : State) (config : BudgetConfig) (id gate : String) (keys : List String)
    (c : Classification) (failureReason attempt : Option String) (rid : String) : Outcome :=
  match failureKeys keys failureReason with
  | .error e => .refused e
  | .ok keys =>
    if attempt = some "" then
      .refused "graph_attempt_id must be a non-empty string when supplied"
    else
      match s.assertGateChangeAuthorized id gate false with
      | .error e => .refused e
      | .ok false => s.reserveLaunch config id gate keys c attempt rid
      | .ok true => ((s.gateChanged id gate).reserveLaunch config id gate keys c attempt rid).prepend
          [.gateChanged id gate]

/-- `started` and `completed`. -/
def transition (s : State) (rid : String) (sources : List ReservationState) (message : String)
    (event : Event) : Outcome :=
  match s.reservations.get? rid with
  | none => .refused "unknown retry reservation"
  | some r => if r.state ∈ sources then .accepted [event] else .refused message

def started (s : State) (rid : String) : Outcome :=
  s.transition rid [.reserved] "retry reservation is not reserved" (.started rid)

def completed (s : State) (rid : String) (status : CompletionStatus) (tokens : Option ℕ) :
    Outcome :=
  s.transition rid [.reserved, .started] "retry reservation is already terminal"
    (.completed rid status tokens)

/-- The reservations that are not terminal and meet `p`, in the order they were made. -/
def liveReservations (s : State) (p : Reservation → Bool) : List (String × Reservation) :=
  s.reservations.items.filter fun r => decide (r.2.state = .reserved ∨ r.2.state = .started) && p r.2

def abandonEvents (rs : List (String × Reservation)) (disposition : Disposition)
    (reason : String) : List Event :=
  rs.map fun r => .abandoned r.1 r.2.nodeId disposition reason r.2.graphAttemptId

def abandon (s : State) (id : String) (disposition : Disposition) (reason : String)
    (attempt : Option String) : Outcome :=
  if reason = "" then .refused "abandon requires an audit disposition and reason"
  else .accepted (abandonEvents (s.liveReservations fun r =>
    r.nodeId = id ∧ (attempt = none ∨ r.graphAttemptId = attempt)) disposition reason)

def reconcileAttempt (s : State) (attempt : String) (disposition : Disposition) (reason : String)
    (liveNodeIds : List String) : Outcome :=
  if attempt = "" then .refused "reconcile_attempt requires a graph_attempt_id"
  else if reason = "" then .refused "reconcile_attempt requires an audit disposition and reason"
  else if liveNodeIds.any (· == "") then
    .refused "live_node_ids must be a sequence of non-empty strings"
  else .accepted (abandonEvents (s.liveReservations fun r =>
    r.graphAttemptId = some attempt ∧ r.nodeId ∉ liveNodeIds) disposition reason)

/-- `import_child_evidence`; `none` is evidence without a verification object. -/
def importChildEvidence (s : State) (id : String) (evidence : Option VerificationEvidence) :
    Outcome :=
  match evidence with
  | none => .accepted []
  | some e =>
    match childFacts e with
    | .error m => .refused m
    | .ok facts => .accepted (importEvents id s.importedInvocations facts)

def extend (id : String) (launches : ℕ) (reason : String) : Outcome :=
  if launches < 1 ∨ reason = "" then .refused "extend requires positive launches and a reason"
  else .accepted [.extended id launches reason]

def resetOp (id reason : String) (acceptGateChange : Bool) (acceptPlan : Option String)
    (c : Carryover) : Outcome :=
  if reason = "" ∨ ¬ acceptPlan.all isSha256 then
    .refused ("reset requires a reason, valid optional plan digest, boolean gate-change " ++
      "authorization, and carryover full or reset")
  else .accepted [.reset id reason acceptGateChange acceptPlan c]

end State

/-- A call of one of the mutating methods of `RetryBudgetLedger`. -/
inductive Operation where
  | register (planSha256 : String) (gates : Dict String String)
      (automaticRecovery transition : Option Json)
  | reserve (nodeId gate : String) (failureKeys : List String) (classification : Classification)
      (failureReason graphAttemptId : Option String) (reservationId : String)
  | started (reservationId : String)
  | completed (reservationId : String) (status : CompletionStatus) (tokensTotal : Option ℕ)
  | abandon (nodeId : String) (disposition : Disposition) (reason : String)
      (graphAttemptId : Option String)
  | reconcileAttempt (graphAttemptId : String) (disposition : Disposition) (reason : String)
      (liveNodeIds : List String)
  | applyRecoveryDecision (decision : Json) (priorDigest : String)
  | importChildEvidence (nodeId : String) (evidence : Option VerificationEvidence)
  | extend (nodeId : String) (launches : ℕ) (reason : String)
  | reset (nodeId reason : String) (acceptGateChange : Bool) (acceptPlanSha256 : Option String)
      (carryover : Carryover)

/-- One operation on the folded state. -/
def State.run (s : State) (config : BudgetConfig) : Operation → Outcome
  | .register plan gates recovery transition => s.register plan gates recovery transition
  | .reserve id gate keys c reason attempt rid => s.reserve config id gate keys c reason attempt rid
  | .started rid => s.started rid
  | .completed rid status tokens => s.completed rid status tokens
  | .abandon id disposition reason attempt => s.abandon id disposition reason attempt
  | .reconcileAttempt attempt disposition reason live =>
    s.reconcileAttempt attempt disposition reason live
  | .applyRecoveryDecision decision prior => s.applyRecoveryDecision decision prior
  | .importChildEvidence id evidence => s.importChildEvidence id evidence
  | .extend id launches reason => State.extend id launches reason
  | .reset id reason acceptGate acceptPlan c => State.resetOp id reason acceptGate acceptPlan c

end HarnessLabs.Budget
