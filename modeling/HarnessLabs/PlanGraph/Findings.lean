import HarnessLabs.Controller.Command
import HarnessLabs.FeatureRun.Command
import HarnessLabs.PlanGraph.Attempt
import HarnessLabs.PlanGraph.Plan

/-!
# Findings and what nodes owe

What a launched node returns, the findings it reports, and how they become obligations: a finding
is transferred to the owner of the paths it requires, and a node that stops carries its open
findings itself.

* `transferredFindings`, `openFindings`, `escalatedFindings` — the readers of the evidence.
* `advanceFindingObligations` — the obligations behind a node that seals.
* `carriedFindingObligations` — the obligations behind a node that stops.
-/

namespace HarnessLabs.PlanGraph

universe u

open FeatureRun (pathParts pathsOutsideScope)

/-! ## Launches -/

structure FeatureRunRequest (C : Type u) where
  run : PlanRun
  baseCommit : C
  planGraphId : String
  planNodeId : String
  featureRunId : String
  runDir : String
  findingObligations : List Obligation
  findingTransferTargets : Dict String String
  inheritedLedgerFrozen : Bool
  boundedFixOnly : Bool

/-- What a launcher returns. The evidence is `null` when there is none. -/
structure FeatureRunOutcome (C : Type u) where
  status : String
  candidateCommit : Option C := none
  evidence : Json := .null
  planGraphId : Option String := none
  planNodeId : Option String := none
  featureRunId : Option String := none
  runDir : Option String := none

/-- `_outcome_matches_reservation`. -/
def outcomeMatchesReservation {C : Type u} (outcome : FeatureRunOutcome C)
    (request : FeatureRunRequest C) : Bool :=
  outcome.status ≠ "succeeded" ||
    (outcome.planGraphId = some request.planGraphId ∧
      outcome.planNodeId = some request.planNodeId ∧
      outcome.featureRunId = some request.featureRunId ∧ outcome.runDir = some request.runDir)

/-! ## Records -/

/-- `bool(value)`. -/
def truthy : Json → Bool
  | .null => false
  | .bool b => b
  | .int n => n ≠ 0
  | .str s => s ≠ ""
  | .arr xs => !xs.isEmpty
  | .obj members => !members.isEmpty

/-- A list of objects. -/
def mappings? : Json → Option (List Json)
  | .arr items => if items.all (·.asMembers?.isSome) then some items else none
  | _ => none

/-- A list of texts, with at least one text and no empty one. -/
def nonEmptyTexts? : Option Json → Option (List String)
  | some (.arr []) => none
  | some (.arr items) => items.mapM fun item => item.asStr?.filter (· ≠ "")
  | _ => none

theorem nonEmptyTexts?_ne_nil {value : Option Json} {paths : List String}
    (h : nonEmptyTexts? value = some paths) : paths ≠ [] := by
  rintro rfl
  unfold nonEmptyTexts? at h
  split at h
  · exact nomatch h
  · rename_i items hne
    cases items with
    | nil => exact hne rfl
    | cons item rest =>
      rw [List.mapM_cons] at h
      obtain ⟨text, -, hrest⟩ := Option.bind_eq_some_iff.1 h
      obtain ⟨texts, -, htexts⟩ := Option.bind_eq_some_iff.1 hrest
      exact nomatch htexts
  · exact nomatch h

def setField (record : Json) (name : String) (value : Json) : Json :=
  match record with
  | .obj members => .obj (Json.setMember name value members)
  | other => other

theorem get?_setField {record : Json} {name other : String} (value : Json) (h : other ≠ name) :
    (setField record name value).get? other = record.get? other := by
  cases record with
  | obj members =>
    simp only [setField, Json.get?]
    congr 1
    induction members with
    | nil => simp [Json.setMember, List.find?, Ne.symm h]
    | cons m rest ih =>
      obtain ⟨k, v⟩ := m
      rw [Json.setMember]
      by_cases hk : k = name
      · subst hk
        simp [Ne.symm h]
      · rw [if_neg hk]
        by_cases hless : name < k
        · rw [if_pos hless, List.find?_cons_of_neg (by simpa using Ne.symm h)]
        · rw [if_neg hless, List.find?_cons, List.find?_cons, ih]
  | _ => rfl

namespace Obligation

/-- The record with the key that it names. -/
def ofRecord? (record : Json) : Option Obligation :=
  match h : record.get? "key" with
  | some (.str key) => if key = "" then none else some ⟨key, record, h⟩
  | _ => none

/-- Set a field of the record. -/
def withField (o : Obligation) (name : String) (value : Json) (h : "key" ≠ name := by decide) :
    Obligation :=
  ⟨o.key, setField o.record name value, by rw [get?_setField value h]; exact o.names⟩

theorem key_ne_origin : "key" ≠ "origin_node" := by decide

theorem key_ne_transferred : "key" ≠ "transferred_to" := by decide

@[simp] theorem key_withField (o : Obligation) (name : String) (value : Json) (h : "key" ≠ name) :
    (o.withField name value h).key = o.key := rfl

end Obligation

/-! ## Evidence -/

/-- A list of findings in the review record of the evidence; none where it is malformed. -/
def reviewFindings (evidence : Json) (name : String) : List Json :=
  match evidence.get? "review_fix" with
  | some (.obj members) => (((Json.obj members).get? name).bind mappings?).getD []
  | _ => []

/-- `_open_findings`. -/
def openFindings (evidence : Json) : List Json := reviewFindings evidence "open_findings"

/-- `_escalated_findings`. -/
def escalatedFindings (evidence : Json) : List Json := reviewFindings evidence "escalated_findings"

/-- `_transferred_findings`. -/
def transferredFindings (evidence : Json) : Except String (List Json) :=
  let listed (raw : Json) : Except String (List Json) :=
    match mappings? raw with
    | some items => .ok items
    | none => .error "transferred_findings must be a list of objects"
  match evidence with
  | .null => .ok []
  | .obj members =>
    match ((Json.obj members).get? "transferred_findings").filter (· ≠ .null) with
    | some raw => listed raw
    | none =>
      match ((Json.obj members).get? "review_fix").getD (.obj []) with
      | .obj fix => listed (((Json.obj fix).get? "transferred_findings").getD (.arr []))
      | _ => .error "FeatureRun review_fix evidence must be an object"
  | _ => .error "FeatureRun evidence must be an object"

/-! ## Owners -/

/-- A grant matches the path itself and what lies beneath it. -/
def grantMatches (grant path : String) : Bool :=
  match pathsOutsideScope [path] [grant] with
  | .ok outside => outside.isEmpty
  | .error _ => false

/-- The owners among the deepest of the matches. -/
def deepestOwners (matching : List (ℕ × String)) : List String :=
  ((matching.filter fun m => matching.all fun other => other.1 ≤ m.1).map Prod.snd).dedup

/-- The member of a set with one member. -/
def theOnly : List String → Option String
  | [owner] => some owner
  | _ => none

/-- `owner_for_path`. -/
def ownerForPath (grants : Dict String String) (path : String) : Option String :=
  theOnly (deepestOwners ((grants.items.filter fun g => grantMatches g.1 path).map fun g =>
    ((pathParts g.1).length, g.2)))

/-- `_deepest_claimants`. -/
def deepestClaimants (runs : List PlanRun) (path : String) : List String :=
  deepestOwners (runs.flatMap fun run =>
    (run.allowedPaths.filter (grantMatches · path)).map fun grant =>
      ((pathParts grant).length, run.id))

/-- `_owner_for_paths`. -/
def ownerForPaths (runs : List PlanRun) (paths : List String) : Option String :=
  match (paths.map fun path => theOnly (deepestClaimants runs path)).dedup with
  | [some owner] => some owner
  | _ => none

/-- `_candidate_owners_for_paths`. -/
def candidateOwnersForPaths (runs : List PlanRun) (paths : List String) : List String :=
  (paths.flatMap (deepestClaimants runs)).dedup.mergeSort fun a b => a ≤ b

/-! ## Advancing -/

/-- Append an obligation, unless the node owes one of the same key. -/
def addObligation (message : String) (pending : Obligations) (target : String) (o : Obligation) :
    Except String Obligations :=
  if (pending.owed target).any (·.key = o.key) then .error message
  else .ok (pending.set target (pending.owed target ++ [o]))

/-- What `_advance_finding_obligations` does with one transferred finding. -/
def transferFinding {C : Type u} (run : PlanRun) (targets : Dict String String)
    (completed : Dict String C) (pending : Obligations) (finding : Json) :
    Except String Obligations :=
  match Obligation.ofRecord? finding, (finding.get? "transferred_to").bind Json.asStr?,
      nonEmptyTexts? (finding.get? "required_paths") with
  | some o, some target, some paths =>
    if target = "" then .error "child returned an invalid transferred finding"
    else if ¬ paths.all (fun path => ownerForPath targets path = some target) then
      .error s!"finding {o.key} did not resolve uniquely to '{target}'"
    else if target ∈ completed.keys ∨ target = run.id then
      .error s!"finding {o.key} was transferred to a completed or current node"
    else addObligation s!"duplicate transferred finding {o.key} for node {target}" pending target o
  | _, _, _ => .error "child returned an invalid transferred finding"

/-- `_apply_escalation_advances`. -/
def applyEscalationAdvances (pending : Obligations) (advances : List (String × Obligation)) :
    Except String Obligations :=
  advances.foldlM (fun acc advance =>
    addObligation s!"duplicate escalation-routed finding {advance.2.key} for node {advance.1}" acc
      advance.1 advance.2) pending

/-- `_advance_finding_obligations`. -/
def advanceFindingObligations {C : Type u} (run : PlanRun) (request : FeatureRunRequest C)
    (outcome : FeatureRunOutcome C) (current : Obligations) (completed : Dict String C)
    (advances : List (String × Obligation)) : Except String Obligations :=
  match transferredFindings outcome.evidence with
  | .error message => .error message
  | .ok transferred =>
    match transferred.foldlM (transferFinding run request.findingTransferTargets completed)
        (current.erase run.id) with
    | .error message => .error message
    | .ok pending => applyEscalationAdvances pending advances

/-! ## Carrying -/

/-- The open findings as obligations of the node itself; none where a key is missing or repeated. -/
def carriedObligations (runId : String) : List Obligation → List Json → Option (List Obligation)
  | carried, [] => some carried
  | carried, finding :: rest =>
    (Obligation.ofRecord? finding).bind fun o =>
      if carried.any (·.key = o.key) then none
      else carriedObligations runId (carried ++
        [(o.withField "origin_node" (.str runId) Obligation.key_ne_origin).withField
          "transferred_to" (.str "") Obligation.key_ne_transferred]) rest

/-- `_carried_finding_obligations`. -/
def carriedFindingObligations {C : Type u} (run : PlanRun) (outcome : FeatureRunOutcome C)
    (current : Obligations) : Option Obligations :=
  match openFindings outcome.evidence with
  | [] => none
  | openings =>
    (carriedObligations run.id [] openings).map fun carried =>
      (current.erase run.id).set run.id (carried ++
        (current.owed run.id).filter fun o => ¬ carried.any (·.key = o.key))

end HarnessLabs.PlanGraph
