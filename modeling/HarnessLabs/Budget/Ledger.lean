import HarnessLabs.Budget.Authority
import HarnessLabs.Lib.EventLog
import Mathlib.Data.Fintype.Basic

/-!
# The retry-budget ledger: events and fold

A ledger is the list of events its lineage file holds. Every operation reads the state by folding
the whole file; a line the fold rejects makes the lineage unreadable.

* `Event` — one appended line. Fields that every writer sets to the same constant are left out.
* `State.apply` — one step of `_fold`; `none` is a corrupt ledger.
* `fold` — the state of a ledger.
-/

namespace HarnessLabs.Budget

/-- The failure classes that a reservation is charged to, the keys of `_CLASS_LIMITS`. -/
inductive Classification where
  | product
  | indeterminate
  | infrastructureTransient
  | harnessOrConfiguration
  | policyViolation
  | structuralDecision
  deriving DecidableEq, Repr

instance : Fintype Classification where
  elems := {.product, .indeterminate, .infrastructureTransient, .harnessOrConfiguration,
    .policyViolation, .structuralDecision}
  complete := by intro c; cases c <;> decide

def Classification.ofString? : String → Option Classification
  | "product" => some .product
  | "indeterminate" => some .indeterminate
  | "infrastructure_transient" => some .infrastructureTransient
  | "harness_or_configuration" => some .harnessOrConfiguration
  | "policy_violation" => some .policyViolation
  | "structural_decision" => some .structuralDecision
  | _ => none

structure BudgetConfig where
  nodeGateLimit : ℕ := 5
  findingKeyLimit : ℕ := 3
  infraLimit : ℕ := 3
  configPolicyLimit : ℕ := 1
  structuralDecisionLimit : ℕ := 2
  positive : 1 ≤ nodeGateLimit ∧ 1 ≤ findingKeyLimit ∧ 1 ≤ infraLimit ∧ 1 ≤ configPolicyLimit ∧
    1 ≤ structuralDecisionLimit := by decide

def BudgetConfig.standard : BudgetConfig := {}

/-- `_CLASS_LIMITS`. -/
def BudgetConfig.classLimit (config : BudgetConfig) : Classification → ℕ
  | .product | .indeterminate => config.nodeGateLimit
  | .infrastructureTransient => config.infraLimit
  | .harnessOrConfiguration | .policyViolation => config.configPolicyLimit
  | .structuralDecision => config.structuralDecisionLimit

/-! ## State -/

/-- `_ATTEMPT_COUNTERS`. -/
structure AttemptCounters where
  graphLaunches : ℕ := 0
  gateInvocations : ℕ := 0
  repairDispatches : ℕ := 0
  structuralDecisions : ℕ := 0
  deriving DecidableEq

def AttemptCounters.add (a b : AttemptCounters) : AttemptCounters where
  graphLaunches := a.graphLaunches + b.graphLaunches
  gateInvocations := a.gateInvocations + b.gateInvocations
  repairDispatches := a.repairDispatches + b.repairDispatches
  structuralDecisions := a.structuralDecisions + b.structuralDecisions

/-- `_reservation_attempt_counters`: a reservation is one launch. -/
def reservationAttemptCounters (c : Classification) : AttemptCounters where
  graphLaunches := 1
  structuralDecisions := if c = .structuralDecision then 1 else 0

/-- The account of one node. A counter that is not listed is zero. -/
@[ext] structure NodeAccount where
  launches : ℕ := 0
  extra : ℕ := 0
  counters : Classification → ℕ := fun _ => 0
  evidenceCounters : Classification → ℕ := fun _ => 0
  attemptCounters : AttemptCounters := {}
  findingKeys : String → ℕ := fun _ => 0
  blocked : Bool := false
  acceptGateChange : Bool := false
  reverificationRequired : Bool := false

instance : Inhabited NodeAccount := ⟨{}⟩

inductive ReservationState where
  | reserved
  | started
  | completed
  | abandoned
  deriving DecidableEq, Repr

structure Reservation where
  state : ReservationState
  nodeId : String
  graphAttemptId : Option String
  classification : Classification
  failureKeys : List String
  deriving DecidableEq

/-- The folded state. `findingKeys` counts a key that is not listed as zero. -/
structure State where
  planSha256 : Finset String := ∅
  activePlanSha256 : Option String := none
  gates : Dict String String := ∅
  nodes : Dict String NodeAccount := ∅
  reservations : Dict String Reservation := ∅
  findingKeys : String → ℕ := fun _ => 0
  acceptedPlanSha256 : Option String := none
  importedInvocations : Finset String := ∅
  authority : Option AutomaticRecoveryAuthority := none
  automaticRecoveryExtraLaunches : ℕ := 0
  automaticRecoveryStructuralDecisions : ℕ := 0
  pendingPlanTransitionDecision : Option Json := none
  consumedTransitions : Dict String Json := ∅
  obligationTransfers : List (String × String) := []

namespace State

/-- `_node`: the account of a node, a fresh one when it has none. -/
def node (s : State) (id : String) : NodeAccount := s.nodes.getD id {}

def setNode (s : State) (id : String) (n : NodeAccount) : State :=
  { s with nodes := s.nodes.set id n }

@[simp] theorem node_setNode (s : State) (id j : String) (n : NodeAccount) :
    (s.setNode id n).node j = if j = id then n else s.node j := by
  by_cases h : j = id <;> simp [node, setNode, Dict.getD, h]

/-- The shared part of the three resets: every counter of the node but its extra launches, and
its charges to the lineage-wide finding counts. -/
def resetCharges (s : State) (id : String) : State :=
  let n := s.node id
  { s.setNode id { n with
      launches := 0
      counters := fun _ => 0
      evidenceCounters := fun _ => 0
      attemptCounters := {}
      findingKeys := fun _ => 0 } with
    findingKeys := fun k => s.findingKeys k - n.findingKeys k }

/-- `_reset_node_accounting`. -/
def resetNodeAccounting (s : State) (id : String) : State :=
  let r := s.resetCharges id
  r.setNode id { r.node id with extra := 0 }

end State

/-! ## Events -/

inductive Disposition where
  | sealed
  | blocked
  | abandoned
  deriving DecidableEq, Repr

inductive CompletionStatus where
  | succeeded
  | failed
  | blocked
  deriving DecidableEq, Repr

inductive FactKind where
  | gateInvocation
  | repairDispatch
  deriving DecidableEq, Repr

/-- One line of the ledger. -/
inductive Event where
  | registered (planSha256 : String) (gates : Dict String String)
      (automaticRecovery : AutomaticRecoveryAuthority) (transition : Option Json)
      (consumesPlanChangeAuthorization : Bool)
  | gateChanged (nodeId gate : String)
  | reserved (reservationId nodeId gate : String) (failureKeys : List String)
      (classification : Classification) (graphAttemptId : Option String)
      (attemptCounters : Option AttemptCounters)
  | started (reservationId : String)
  | completed (reservationId : String) (status : CompletionStatus) (tokensTotal : Option ℕ)
  | abandoned (reservationId nodeId : String) (disposition : Disposition) (reason : String)
      (graphAttemptId : Option String)
  | evidenceImported (nodeId invocationId : String) (kind : FactKind)
      (classification : Option Classification) (failureKeys : List String)
  | blocked (nodeId : String)
  | extended (nodeId : String) (launches : ℕ) (reason : String)
  | recoveryDecision (decision : Json) (priorDigest : String)
  | structuralDecision (decision : Json) (priorDigest : String)
  | resumed (nodeId : String)
  | obligationTransferred (sourceNode receivingNode : String)
  | gateLineage (nodeId predecessorGate successorGate : String) (budgetCarryover : Carryover)
  | transitionCarryover (nodeId : String) (carryover : Carryover)
      (transitionSuccessorPlanSha256 : String)
  | reset (nodeId reason : String) (acceptGateChange : Bool) (acceptPlanSha256 : Option String)
      (carryover : Carryover)

namespace State

/-- The plan digest is a new version of a registered lineage. -/
def changedPlan (s : State) (plan : String) : Bool :=
  s.planSha256.Nonempty && plan ∉ s.planSha256

/-- `gate_changed`: the gate is bound and its authorization is consumed. -/
def gateChanged (s : State) (id gate : String) : State :=
  { s with gates := s.gates.set id gate }.setNode id { s.node id with acceptGateChange := false }

/-- What every accepted registration does last. -/
def bindPlan (s : State) (plan : String) (gates : Dict String String)
    (authority : AutomaticRecoveryAuthority) (changed : Bool) : State :=
  { s with
    authority := some authority
    planSha256 := insert plan s.planSha256
    activePlanSha256 := some plan
    gates := if changed then gates else s.gates.update gates }

/-- The transition binds the active registration and the gates of the new one. -/
def bindsTransition (s : State) (t : PlanVersionTransition) (plan : String)
    (gates : Dict String String) : Bool :=
  some t.predecessorPlanSha256 = s.activePlanSha256 ∧ t.successorPlanSha256 = plan ∧
    t.nodeCorrespondence.toFinset = gates.keySet ∧
    t.nodeCorrespondence.toFinset ⊆ s.gates.keySet

/-- `registered`. -/
def registered (s : State) (plan : String) (gates : Dict String String)
    (authority : AutomaticRecoveryAuthority) (transition : Option Json) (consumes : Bool) :
    Option State :=
  let changed := s.changedPlan plan
  if s.authority.isSome ∧ s.authority ≠ some authority then none
  else if ¬ changed then
    if transition.isSome then none else some (s.bindPlan plan gates authority false)
  else
    match transition with
    | some value =>
      match validatePlanVersionTransition value authority with
      | .error _ => none
      | .ok t =>
        if s.bindsTransition t plan gates ∧
            s.pendingPlanTransitionDecision = some t.authorizingDecision.value then
          some (State.bindPlan { s with
            pendingPlanTransitionDecision := none
            consumedTransitions := s.consumedTransitions.set plan value
            acceptedPlanSha256 := none } plan gates authority true)
        else none
    | none =>
      if consumes ∧ s.acceptedPlanSha256 = some plan then
        some (State.bindPlan { s with acceptedPlanSha256 := none } plan gates authority true)
      else none

/-- `reserved`: the launch is charged to the node, to its class and to every finding key. -/
def reserved (s : State) (rid id : String) (keys : List String) (c : Classification)
    (attempt : Option String) (counters : Option AttemptCounters) : Option State :=
  if counters.getD (reservationAttemptCounters c) ≠ reservationAttemptCounters c then none
  else
    let n := s.node id
    some { s.setNode id { n with
        launches := n.launches + 1
        attemptCounters := n.attemptCounters.add (reservationAttemptCounters c)
        counters := Function.update n.counters c (n.counters c + 1)
        findingKeys := fun k => n.findingKeys k + keys.count k } with
      findingKeys := fun k => s.findingKeys k + keys.count k
      reservations := s.reservations.set rid ⟨.reserved, id, attempt, c, keys⟩ }

/-- Move a reservation on when its state is one of `from`. -/
def moveReservation (s : State) (rid : String) (sources : List ReservationState)
    (target : ReservationState) : Option State :=
  match s.reservations.get? rid with
  | some r =>
    if r.state ∈ sources then
      some { s with reservations := s.reservations.set rid { r with state := target } }
    else none
  | none => none

def abandoned (s : State) (rid id reason : String) (attempt : Option String) : Option State :=
  match s.reservations.get? rid with
  | some r =>
    if r.nodeId = id ∧ r.graphAttemptId = attempt ∧ reason ≠ "" then
      s.moveReservation rid [.reserved, .started] .abandoned
    else none
  | none => none

/-- `evidence_imported`: a retroactive record, never a charge to the launch classes. -/
def evidenceImported (s : State) (id invocation : String) (kind : FactKind)
    (c : Option Classification) : Option State :=
  if invocation = "" ∨ invocation ∈ s.importedInvocations ∨
      (kind = .repairDispatch ∧ c = none) then none
  else
    let n := s.node id
    some { s.setNode id { n with
        attemptCounters := match kind with
          | .gateInvocation =>
            { n.attemptCounters with gateInvocations := n.attemptCounters.gateInvocations + 1 }
          | .repairDispatch =>
            { n.attemptCounters with repairDispatches := n.attemptCounters.repairDispatches + 1 }
        evidenceCounters := match c with
          | some c => Function.update n.evidenceCounters c (n.evidenceCounters c + 1)
          | none => n.evidenceCounters } with
      importedInvocations := insert invocation s.importedInvocations }

/-- `recovery_decision`: the decision is charged to the authority. -/
def recoveryDecision (s : State) (value : Json) (prior : String) : Option State :=
  match s.authority with
  | none => none
  | some authority =>
    match validateRecoveryDecision value authority false with
    | .error _ => none
    | .ok d =>
      if d.expectedPriorDigest ≠ prior then none
      else
        let extra := s.automaticRecoveryExtraLaunches + d.extraLaunches
        let structural := s.automaticRecoveryStructuralDecisions + d.structuralDecisions
        if authority.maxExtraNodeLaunches < extra ∨
            authority.maxStructuralDecisions < structural then none
        else some { s with
          automaticRecoveryExtraLaunches := extra
          automaticRecoveryStructuralDecisions := structural }

/-- `structural_decision`: charged, and pending until the registration that it authorizes. -/
def structuralDecision (s : State) (value : Json) (prior : String) : Option State :=
  match s.authority with
  | none => none
  | some authority =>
    match validateRecoveryDecision value authority true with
    | .error _ => none
    | .ok d =>
      if d.action.IsRevision = false ∨ d.expectedPriorDigest ≠ prior ∨
          authority.maxStructuralDecisions < s.automaticRecoveryStructuralDecisions + 1 ∨
          s.pendingPlanTransitionDecision.isSome then none
      else some { s with
        automaticRecoveryStructuralDecisions := s.automaticRecoveryStructuralDecisions + 1
        pendingPlanTransitionDecision := some value }

def gateLineage (s : State) (id predecessor successor : String) (c : Carryover) : Option State :=
  if s.gates.get? id ≠ some predecessor ∨ successor = "" then none
  else
    let bound := { s with gates := s.gates.set id successor }.setNode id { s.node id with
      acceptGateChange := false
      reverificationRequired := true }
    some (match c with
      | .reset => bound.resetNodeAccounting id
      | .full => bound)

def transitionCarryover (s : State) (id : String) (c : Carryover) (plan : String) : Option State :=
  if s.activePlanSha256 ≠ some plan ∨ id ∉ s.gates.keys then none
  else some (match c with
    | .reset => s.resetNodeAccounting id
    | .full => s)

def reset (s : State) (id : String) (acceptGateChange : Bool) (acceptPlan : Option String)
    (c : Carryover) : Option State :=
  if acceptPlan.all isSha256 then
    let opened := { s with acceptedPlanSha256 := acceptPlan }.setNode id { s.node id with
      blocked := false
      acceptGateChange := acceptGateChange }
    some (match c with
      | .reset => opened.resetCharges id
      | .full => opened)
  else none

/-- **What an accepted registration does**: bind the plan again, apply a transition whose decision
is pending, or consume the operator's authorization. -/
theorem registered_cases {s t : State} {plan : String} {gates : Dict String String}
    {authority : AutomaticRecoveryAuthority} {transition : Option Json} {consumes : Bool}
    (h : s.registered plan gates authority transition consumes = some t) :
    (s.authority = none ∨ s.authority = some authority) ∧
    ((s.changedPlan plan = false ∧ transition = none ∧ t = s.bindPlan plan gates authority false) ∨
    (∃ value v, s.changedPlan plan = true ∧ transition = some value ∧
      validatePlanVersionTransition value authority = .ok v ∧
      s.bindsTransition v plan gates = true ∧
      s.pendingPlanTransitionDecision = some v.authorizingDecision.value ∧
      t = State.bindPlan { s with
        pendingPlanTransitionDecision := none
        consumedTransitions := s.consumedTransitions.set plan value
        acceptedPlanSha256 := none } plan gates authority true) ∨
    (s.changedPlan plan = true ∧ transition = none ∧ s.acceptedPlanSha256 = some plan ∧
      t = State.bindPlan { s with acceptedPlanSha256 := none } plan gates authority true)) := by
  unfold registered at h
  by_cases ha : s.authority.isSome ∧ s.authority ≠ some authority
  · rw [if_pos ha] at h
    cases h
  rw [if_neg ha] at h
  refine ⟨?_, ?_⟩
  · cases hs : s.authority with
    | none => exact .inl rfl
    | some a =>
      rw [hs] at ha
      exact .inr (not_not.1 fun hne => ha ⟨rfl, hne⟩)
  cases hc : s.changedPlan plan with
  | false =>
    rw [hc, if_pos Bool.false_ne_true] at h
    cases transition with
    | none => cases h; exact .inl ⟨rfl, rfl, rfl⟩
    | some value => cases h
  | true =>
    rw [hc, if_neg (not_not.2 rfl)] at h
    cases transition with
    | none =>
      split_ifs at h with hp
      cases h
      exact .inr (.inr ⟨rfl, rfl, hp.2, rfl⟩)
    | some value =>
      dsimp only at h
      split at h
      · cases h
      · rename_i v hv
        split_ifs at h with hp
        cases h
        exact .inr (.inl ⟨value, v, rfl, rfl, hv, hp.1, hp.2, rfl⟩)

/-- What a recovery decision charges. -/
theorem recoveryDecision_cases {s t : State} {value : Json} {prior : String}
    (h : s.recoveryDecision value prior = some t) :
    ∃ authority d, s.authority = some authority ∧
      validateRecoveryDecision value authority false = .ok d ∧
      s.automaticRecoveryExtraLaunches + d.extraLaunches ≤ authority.maxExtraNodeLaunches ∧
      s.automaticRecoveryStructuralDecisions + d.structuralDecisions ≤
        authority.maxStructuralDecisions ∧
      t = { s with
        automaticRecoveryExtraLaunches := s.automaticRecoveryExtraLaunches + d.extraLaunches
        automaticRecoveryStructuralDecisions :=
          s.automaticRecoveryStructuralDecisions + d.structuralDecisions } := by
  unfold recoveryDecision at h
  split at h
  · cases h
  · rename_i authority ha
    split at h
    · cases h
    · rename_i d hd
      dsimp only at h
      split_ifs at h with hp hl
      cases h
      simp only [not_or, not_lt] at hl
      exact ⟨authority, d, ha, hd, hl.1, hl.2, rfl⟩

/-- What a structural decision charges. -/
theorem structuralDecision_cases {s t : State} {value : Json} {prior : String}
    (h : s.structuralDecision value prior = some t) :
    ∃ authority d, s.authority = some authority ∧
      validateRecoveryDecision value authority true = .ok d ∧
      s.pendingPlanTransitionDecision = none ∧
      s.automaticRecoveryStructuralDecisions + 1 ≤ authority.maxStructuralDecisions ∧
      t = { s with
        automaticRecoveryStructuralDecisions := s.automaticRecoveryStructuralDecisions + 1
        pendingPlanTransitionDecision := some value } := by
  unfold structuralDecision at h
  split at h
  · cases h
  · rename_i authority ha
    split at h
    · cases h
    · rename_i d hd
      split_ifs at h with hp
      cases h
      simp only [not_or, not_lt, Bool.not_eq_true, Option.isSome_eq_false_iff,
        Option.isNone_iff_eq_none] at hp
      exact ⟨authority, d, ha, hd, hp.2.2.2, hp.2.2.1, rfl⟩

/-- Moving a reservation changes its state and nothing else. -/
theorem moveReservation_cases {s t : State} {rid : String} {sources : List ReservationState}
    {target : ReservationState} (h : s.moveReservation rid sources target = some t) :
    ∃ r, s.reservations.get? rid = some r ∧ r.state ∈ sources ∧
      t = { s with reservations := s.reservations.set rid { r with state := target } } := by
  unfold moveReservation at h
  split at h
  · rename_i r hr
    split_ifs at h with hs
    cases h
    exact ⟨r, hr, hs, rfl⟩
  · cases h

theorem abandoned_cases {s t : State} {rid id reason : String} {attempt : Option String}
    (h : s.abandoned rid id reason attempt = some t) :
    ∃ r, s.reservations.get? rid = some r ∧
      t = { s with reservations := s.reservations.set rid { r with state := .abandoned } } := by
  unfold abandoned at h
  split at h
  · split_ifs at h with hs
    obtain ⟨r, hr, -, ht⟩ := moveReservation_cases h
    exact ⟨r, hr, ht⟩
  · cases h

/-- One step of `_fold`. -/
def apply (s : State) : Event → Option State
  | .registered plan gates authority transition consumes =>
    s.registered plan gates authority transition consumes
  | .gateChanged id gate => some (s.gateChanged id gate)
  | .reserved rid id _ keys c attempt counters => s.reserved rid id keys c attempt counters
  | .started rid => s.moveReservation rid [.reserved] .started
  | .completed rid _ _ => s.moveReservation rid [.reserved, .started] .completed
  | .abandoned rid id _ reason attempt => s.abandoned rid id reason attempt
  | .evidenceImported id invocation kind c _ => s.evidenceImported id invocation kind c
  | .blocked id => some (s.setNode id { s.node id with blocked := true })
  | .extended id launches _ =>
    some (s.setNode id { s.node id with
      extra := (s.node id).extra + launches
      blocked := false })
  | .recoveryDecision value prior => s.recoveryDecision value prior
  | .structuralDecision value prior => s.structuralDecision value prior
  | .resumed id =>
    if id ∈ s.gates.keys then
      some (s.setNode id { s.node id with blocked := false, reverificationRequired := true })
    else none
  | .obligationTransferred source receiving =>
    if source ∈ s.gates.keys ∧ receiving ∈ s.gates.keys ∧ source ≠ receiving then
      some ({ s with
        obligationTransfers := s.obligationTransfers ++ [(source, receiving)] }.setNode receiving
          { s.node receiving with reverificationRequired := true })
    else none
  | .gateLineage id predecessor successor c => s.gateLineage id predecessor successor c
  | .transitionCarryover id c plan => s.transitionCarryover id c plan
  | .reset id _ acceptGateChange acceptPlan c => s.reset id acceptGateChange acceptPlan c

/-- Fold events from a state. -/
abbrev applyAll (s : State) (es : List Event) : Option State := EventLog.replay State.apply s es

end State

/-- A ledger: the events of the lineage file, oldest first. -/
abbrev Ledger := List Event

/-- `_fold`. -/
def fold (ledger : Ledger) : Option State := State.applyAll {} ledger

end HarnessLabs.Budget
