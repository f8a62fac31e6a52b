import HarnessLabs.Lib.Dict
import HarnessLabs.Lib.Json
import Mathlib.Data.PNat.Basic

/-!
# The recovery authority of a lineage

The registration of a retry lineage fixes which recovery actions the controller may take on its
own, and how many. Decisions and plan-version transitions arrive as JSON mappings and are
validated against that authority; a validated one carries its checked fields.

* `AutomaticRecoveryAuthority.fromMapping`, `validateRecoveryDecision`,
  `validatePlanVersionTransition` — the validators of `plan_graph_authority.py`.
* `RecoveryDecision`, `PlanVersionTransition` — what they accept, as structures that carry the
  checks as fields.
-/

namespace HarnessLabs.Budget

def authorityProtocol : String := "plan-graph-automatic-recovery/1"

def decisionProtocol : String := "plan-graph-recovery-decision/1"

def transitionProtocol : String := "plan-graph-version-transition/1"

/-- The recovery actions, `ACTION_TYPES` in the source. -/
inductive Action where
  | resume
  | extendBudget
  | transferOwnership
  | ratifyGateChange
  | reviseAcceptance
  | reviseFunctionality
  | acceptContractDeviation
  deriving DecidableEq, Repr

namespace Action

def ofString? : String → Option Action
  | "resume" => some .resume
  | "extend_budget" => some .extendBudget
  | "transfer_ownership" => some .transferOwnership
  | "ratify_gate_change" => some .ratifyGateChange
  | "revise_acceptance" => some .reviseAcceptance
  | "revise_functionality" => some .reviseFunctionality
  | "accept_contract_deviation" => some .acceptContractDeviation
  | _ => none

/-- `REVISION_ACTIONS`. -/
def IsRevision : Action → Bool
  | .reviseAcceptance | .reviseFunctionality | .acceptContractDeviation => true
  | _ => false

/-- `STRUCTURAL_ACTIONS`. -/
def IsStructural (a : Action) : Bool :=
  a == .transferOwnership || a == .ratifyGateChange || a.IsRevision

end Action

/-- Whether a node keeps its accounting across a change or starts afresh. -/
inductive Carryover where
  | full
  | reset
  deriving DecidableEq, Repr

def Carryover.ofString? : String → Option Carryover
  | "full" => some .full
  | "reset" => some .reset
  | _ => none

def isHex (c : Char) : Bool :=
  ['0', '1', '2', '3', '4', '5', '6', '7', '8', '9', 'a', 'b', 'c', 'd', 'e', 'f'].contains c

/-- 64 lowercase hexadecimal characters. -/
def isSha256 (s : String) : Bool := s.toList.length == 64 && s.toList.all isHex

/-- The mapping has exactly the fields `required`. -/
def hasFields (value : Json) (required : List String) : Bool :=
  match value.keys? with
  | some keys => keys.all required.contains && required.all keys.contains
  | none => false

/-! ## The authority -/

structure AutomaticRecoveryAuthority where
  allowedActions : List Action
  maxExtraNodeLaunches : ℕ
  maxStructuralDecisions : ℕ
  nodup : allowedActions.Nodup
  deriving DecidableEq

namespace AutomaticRecoveryAuthority

/-- The authority of a registration that declares none. -/
def none : AutomaticRecoveryAuthority := ⟨[], 0, 0, List.nodup_nil⟩

def actionsOf (value : Json) : Option (List Action) :=
  match value.get? "allowed_actions" with
  | some (.arr items) => items.mapM fun item => item.asStr?.bind Action.ofString?
  | _ => Option.none

def limitOf (value : Json) (field : String) : Option ℕ :=
  match value.get? field with
  | some (.int n) => if 0 ≤ n then some n.toNat else Option.none
  | _ => Option.none

def fromMapping : Option Json → Except String AutomaticRecoveryAuthority
  | Option.none => .ok none
  | some value =>
    if ¬ hasFields value
        ["protocol", "allowed_actions", "max_extra_node_launches", "max_structural_decisions"] then
      .error "automatic_recovery must contain exactly its v1 fields"
    else if value.get? "protocol" ≠ some (.str authorityProtocol) then
      .error "unsupported automatic_recovery protocol"
    else
      match actionsOf value, limitOf value "max_extra_node_launches",
          limitOf value "max_structural_decisions" with
      | some actions, some limit, some structuralLimit =>
        if h : actions.Nodup then .ok ⟨actions, limit, structuralLimit, h⟩
        else .error "automatic_recovery is invalid"
      | _, _, _ => .error "automatic_recovery is invalid"

end AutomaticRecoveryAuthority

/-! ## Recovery decisions -/

/-- The payload of a decision, by action. -/
inductive DecisionPayload where
  | resume
  | extendBudget (launches : ℕ+)
  | transferOwnership (receivingNode : String)
  | ratifyGateChange (gate : { s : String // s ≠ "" }) (budgetCarryover : Carryover)
  | revision (action : { a : Action // a.IsRevision = true })

def DecisionPayload.action : DecisionPayload → Action
  | .resume => .resume
  | .extendBudget _ => .extendBudget
  | .transferOwnership _ => .transferOwnership
  | .ratifyGateChange _ _ => .ratifyGateChange
  | .revision a => a

/-- A validated decision: the mapping as it was supplied, and its checked fields. -/
structure RecoveryDecision where
  value : Json
  target : String
  expectedPriorDigest : String
  payload : DecisionPayload
  distinct : ∀ r, payload = .transferOwnership r → r ≠ target

def RecoveryDecision.action (d : RecoveryDecision) : Action := d.payload.action

/-- The launches that a decision draws from the allowance. -/
def RecoveryDecision.extraLaunches (d : RecoveryDecision) : ℕ :=
  match d.payload with
  | .extendBudget launches => launches
  | _ => 0

/-- The structural decisions that it draws. -/
def RecoveryDecision.structuralDecisions (d : RecoveryDecision) : ℕ :=
  if d.action.IsStructural then 1 else 0

/-- The payload checks of one action. -/
def validatePayload (action : Action) (target : String) (payload : Json)
    (allowPlanRevision : Bool) :
    Except String { p : DecisionPayload // ∀ r, p = .transferOwnership r → r ≠ target } :=
  match action with
  | .extendBudget =>
    match payload.get? "launches" with
    | some (.int n) =>
      if h : hasFields payload ["launches"] ∧ 1 ≤ n then
        .ok ⟨.extendBudget ⟨n.toNat, Int.pos_iff_toNat_pos.1 h.2⟩, nofun⟩
      else .error "extend_budget requires positive launches"
    | _ => .error "extend_budget requires positive launches"
  | .resume =>
    if hasFields payload [] then .ok ⟨.resume, nofun⟩
    else .error "resume requires an empty payload"
  | .transferOwnership =>
    match payload.get? "receiving_node" with
    | some (.str r) =>
      if h : hasFields payload ["receiving_node"] ∧ r ≠ "" ∧ r ≠ target then
        .ok ⟨.transferOwnership r, fun _ e => by cases e; exact h.2.2⟩
      else .error "transfer_ownership requires a distinct receiving_node"
    | _ => .error "transfer_ownership requires a distinct receiving_node"
  | .ratifyGateChange =>
    match payload.get? "gate", (payload.get? "budget_carryover").bind Json.asStr? with
    | some (.str gate), some carryover =>
      match Carryover.ofString? carryover with
      | some c =>
        if h : hasFields payload ["gate", "budget_carryover"] ∧ gate ≠ "" then
          .ok ⟨.ratifyGateChange ⟨gate, h.2⟩ c, nofun⟩
        else .error "ratify_gate_change requires gate and budget_carryover"
      | none => .error "ratify_gate_change requires gate and budget_carryover"
    | _, _ => .error "ratify_gate_change requires gate and budget_carryover"
  | .reviseAcceptance =>
    if allowPlanRevision then .ok ⟨.revision ⟨.reviseAcceptance, rfl⟩, nofun⟩
    else .error "plan revision actions require a plan-version transition"
  | .reviseFunctionality =>
    if allowPlanRevision then .ok ⟨.revision ⟨.reviseFunctionality, rfl⟩, nofun⟩
    else .error "plan revision actions require a plan-version transition"
  | .acceptContractDeviation =>
    if allowPlanRevision then .ok ⟨.revision ⟨.acceptContractDeviation, rfl⟩, nofun⟩
    else .error "plan revision actions require a plan-version transition"

def validateRecoveryDecision (value : Json) (authority : AutomaticRecoveryAuthority)
    (allowPlanRevision : Bool) : Except String RecoveryDecision :=
  if ¬ hasFields value ["protocol", "action", "target", "expected_prior_digest", "payload"] ∨
      value.get? "protocol" ≠ some (.str decisionProtocol) then
    .error "unsupported or malformed recovery decision"
  else
    match ((value.get? "action").bind Json.asStr?).bind Action.ofString?,
        (value.get? "target").bind Json.asStr?,
        (value.get? "expected_prior_digest").bind Json.asStr?, value.get? "payload" with
    | some action, some target, some prior, some (.obj payload) =>
      if action ∉ authority.allowedActions ∨ target = "" ∨ ¬ isSha256 prior then
        .error "recovery decision exceeds registration authority"
      else
        match validatePayload action target (.obj payload) allowPlanRevision with
        | .ok p => .ok ⟨value, target, prior, p.1, p.2⟩
        | .error e => .error e
    | _, _, _, _ => .error "recovery decision exceeds registration authority"

/-- The writer refuses a revision on the path that does not allow one. -/
theorem action_of_validatePayload {action : Action} {target : String} {payload : Json}
    {allow : Bool} {p : { p : DecisionPayload // ∀ r, p = .transferOwnership r → r ≠ target }}
    (h : validatePayload action target payload allow = .ok p) :
    p.1.action = action ∧ (allow = false → p.1.action.IsRevision = false) := by
  unfold validatePayload at h
  split at h
  all_goals first
    | split at h
      all_goals first
        | split at h
          all_goals first
            | split at h <;> cases h <;> exact ⟨rfl, fun _ => rfl⟩
            | cases h; exact ⟨rfl, fun _ => rfl⟩
            | cases h
        | cases h; exact ⟨rfl, fun _ => rfl⟩
        | cases h; exact ⟨rfl, fun hf => by simp_all⟩
        | cases h

theorem value_of_validateRecoveryDecision {value : Json} {authority : AutomaticRecoveryAuthority}
    {allow : Bool} {d : RecoveryDecision}
    (h : validateRecoveryDecision value authority allow = .ok d) : d.value = value := by
  unfold validateRecoveryDecision at h
  split at h
  · cases h
  · split at h
    · split at h
      · cases h
      · split at h
        · cases h; rfl
        · cases h
    · cases h

/-! ## Plan-version transitions -/

/-- A validated transition: the mapping as it was supplied, and its checked fields. The node
correspondence maps every listed node to itself, so only the list is kept. -/
structure PlanVersionTransition where
  value : Json
  action : Action
  predecessorPlanSha256 : String
  successorPlanSha256 : String
  nodeCorrespondence : List String
  budgetCarryover : Dict String Carryover
  authorizingDecision : RecoveryDecision
  sameNodes : ∀ n, n ∈ nodeCorrespondence ↔ n ∈ budgetCarryover.keys
  changed : predecessorPlanSha256 ≠ successorPlanSha256
  revision : authorizingDecision.action.IsRevision = true
  prior : authorizingDecision.expectedPriorDigest = predecessorPlanSha256

/-- The nodes of a correspondence in which every node maps to itself. -/
def identityNodes : List (String × Json) → Option (List String)
  | [] => some []
  | (node, mapped) :: rest =>
    if mapped = .str node then (identityNodes rest).map (node :: ·) else none

def carryoversOf (members : List (String × Json)) : Option (Dict String Carryover) :=
  (members.mapM fun (m : String × Json) =>
    (m.2.asStr?.bind Carryover.ofString?).map fun c => (m.1, c)).map Dict.ofList

def validatePlanVersionTransition (value : Json) (authority : AutomaticRecoveryAuthority) :
    Except String PlanVersionTransition :=
  if ¬ hasFields value ["protocol", "action", "predecessor_plan_sha256", "successor_plan_sha256",
        "node_correspondence", "budget_carryover", "authorizing_decision"] ∨
      value.get? "protocol" ≠ some (.str transitionProtocol) then
    .error "unsupported or malformed plan-version transition"
  else
    match ((value.get? "action").bind Json.asStr?).bind Action.ofString?,
        (value.get? "predecessor_plan_sha256").bind Json.asStr?,
        (value.get? "successor_plan_sha256").bind Json.asStr?,
        (value.get? "node_correspondence").bind Json.asMembers?,
        (value.get? "budget_carryover").bind Json.asMembers?,
        value.get? "authorizing_decision" with
    | some action, some predecessor, some successor, some correspondence, some carryover,
        some (.obj decision) =>
      if hc : action.IsRevision = false ∨ action ∉ authority.allowedActions ∨
          ¬ isSha256 predecessor ∨ ¬ isSha256 successor ∨ predecessor = successor then
        .error "plan-version transition exceeds registration authority"
      else
        match identityNodes correspondence, carryoversOf carryover with
        | some nodes, some carryovers =>
          if hn : nodes ≠ [] ∧ ∀ n ∈ nodes ++ carryovers.keys,
              n ∈ nodes ∧ n ∈ carryovers.keys then
            match validateRecoveryDecision (.obj decision) authority true with
            | .error _ => .error "transition authorizing decision is invalid"
            | .ok d =>
              if hd : d.action = action ∧ d.target = "plan_version" ∧
                  d.expectedPriorDigest = predecessor then
                .ok {
                  value := value
                  action := action
                  predecessorPlanSha256 := predecessor
                  successorPlanSha256 := successor
                  nodeCorrespondence := nodes
                  budgetCarryover := carryovers
                  authorizingDecision := d
                  sameNodes := fun n =>
                    ⟨fun h => (hn.2 n (List.mem_append_left _ h)).2,
                      fun h => (hn.2 n (List.mem_append_right _ h)).1⟩
                  changed := by simp only [not_or] at hc; exact hc.2.2.2.2
                  revision := by
                    simp only [not_or, Bool.not_eq_false] at hc; rw [hd.1]; exact hc.1
                  prior := hd.2.2 }
              else .error "transition authorizing decision action mismatch"
          else .error "plan-version transition only permits identical node_id correspondence"
        | none, _ => .error "plan-version transition only permits identical node_id correspondence"
        | _, none => .error "plan-version transition has invalid budget carryover"
    | _, _, _, _, _, _ => .error "plan-version transition exceeds registration authority"

theorem value_of_validatePlanVersionTransition {value : Json}
    {authority : AutomaticRecoveryAuthority} {t : PlanVersionTransition}
    (h : validatePlanVersionTransition value authority = .ok t) : t.value = value ∧
      validateRecoveryDecision t.authorizingDecision.value authority true =
        .ok t.authorizingDecision := by
  unfold validatePlanVersionTransition at h
  split at h
  · cases h
  · split at h
    · split at h
      · cases h
      · split at h
        · split at h
          · split at h
            · cases h
            · rename_i d hd
              split at h
              · cases h
                exact ⟨rfl, by rw [value_of_validateRecoveryDecision hd]; exact hd⟩
              · cases h
          · cases h
        · cases h
        · cases h
    · cases h

end HarnessLabs.Budget
