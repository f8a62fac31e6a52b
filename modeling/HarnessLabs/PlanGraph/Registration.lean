import HarnessLabs.Budget.Authority
import HarnessLabs.Core.AuditJournal
import Mathlib.Logic.Relation

/-!
# Registrations

The registrations of the logical graphs, one file under each graph's id. A file is written once;
after that only a registration takes its place that carries a plan-version transition away from it.

* `persistRegistration` — the publication of a registration.
* `registration_lineage` — **a stored registration changes only by that transition, a refused call
  changes nothing, and the graph, the lineage and the recovery authority never change.**
-/

namespace HarnessLabs.PlanGraph

open Audit Budget

/-- A JSON value whose objects are in key order, as a mapping in memory is written. -/
abbrev KeyedJson := {v : Json // Json.Keyed v}

namespace KeyedJson

def null : KeyedJson := ⟨.null, trivial⟩

/-- `None` is no mapping. -/
def present (v : KeyedJson) : Option Json := if v.1 = .null then none else some v.1

variable {key : String} {v : KeyedJson}

theorem keyed_get? {v w : Json} (h : Json.Keyed v) (hget : v.get? key = some w) :
    Json.Keyed w := by
  cases v with
  | obj members =>
    have hmem := (Json.mem_iff_get? h (m := (key, w))).2 hget
    have hmembers := h.2
    clear h hget
    induction members with
    | nil => cases hmem
    | cons m members ih =>
      rcases List.mem_cons.1 hmem with rfl | hmem
      · exact hmembers.1
      · exact ih hmem hmembers.2
  | _ => cases hget

def get? (v : KeyedJson) (key : String) : Option KeyedJson :=
  match h : v.1.get? key with
  | none => none
  | some w => some ⟨w, keyed_get? v.2 h⟩

/-- `json.loads`. -/
def loads (text : List Char) : Option KeyedJson :=
  match h : Json.loads text with
  | none => none
  | some v => some ⟨v, Json.keyed_of_loads h⟩

theorem get?_eq_some {w : KeyedJson} :
    v.get? key = some w ↔ v.1.get? key = some w.1 := by
  rw [get?]
  split
  · rename_i h
    simp [h]
  · rename_i u h
    simp [h, Subtype.ext_iff]

theorem get?_eq_none :
    v.get? key = none ↔ v.1.get? key = none := by
  rw [get?]
  split
  · rename_i h
    simp [h]
  · rename_i u h
    simp [h]

theorem loads_eq_some {text : List Char} :
    loads text = some v ↔ Json.loads text = some v.1 := by
  rw [loads]
  split
  · rename_i h
    simp [h]
  · rename_i u h
    simp [h, Subtype.ext_iff]

end KeyedJson

/-! ## Files -/

def registrationProtocol : String := "plan-graph-registration/2"

def recoveryRegistrationProtocol : String := "plan-graph-registration/3"

structure PlanGraphRegistration where
  protocol : String
  logicalGraphId : String
  planPath : String
  planSha256 : String
  baseCommit : String
  graphDigest : String
  definitionJson : String
  planLineageId : String
  automaticRecovery : KeyedJson
  planVersionTransition : KeyedJson
  deriving DecidableEq

/-- `_REGISTRATION_FIELDS_V2`. -/
def registrationFieldsV2 : List String :=
  ["base_commit", "definition_json", "graph_digest", "logical_graph_id", "plan_lineage_id",
    "plan_path", "plan_sha256", "protocol"]

/-- `_REGISTRATION_FIELDS`. -/
def registrationFields : List String :=
  registrationFieldsV2 ++ ["automatic_recovery", "plan_version_transition"]

namespace PlanGraphRegistration

/-- The fields that are written, in key order. -/
def value (r : PlanGraphRegistration) : Json :=
  let texts : List (String × Json) :=
    [("base_commit", .str r.baseCommit), ("definition_json", .str r.definitionJson),
      ("graph_digest", .str r.graphDigest), ("logical_graph_id", .str r.logicalGraphId),
      ("plan_lineage_id", .str r.planLineageId), ("plan_path", .str r.planPath),
      ("plan_sha256", .str r.planSha256)]
  if r.protocol = registrationProtocol then .obj (texts ++ [("protocol", .str r.protocol)])
  else
    .obj (("automatic_recovery", r.automaticRecovery.1) :: texts ++
      [("plan_version_transition", r.planVersionTransition.1), ("protocol", .str r.protocol)])

/-- `registration_bytes`. -/
def bytes (r : PlanGraphRegistration) : List Char := Json.dumps r.value ++ ['\n']

end PlanGraphRegistration

def textField (payload : KeyedJson) (name : String) : Except String String :=
  match (payload.1.get? name).bind Json.asStr? with
  | none => .error "registration fields must be strings"
  | some s => .ok s

/-- `registration_from_mapping`. -/
def registrationFromMapping (payload : KeyedJson) : Except String PlanGraphRegistration := do
  let plain := payload.1.get? "protocol" = some (.str registrationProtocol)
  require (hasFields payload.1 (if plain then registrationFieldsV2 else registrationFields) = true)
    "registration must contain exactly the protocol fields"
  let protocol ← textField payload "protocol"
  let logicalGraphId ← textField payload "logical_graph_id"
  let planPath ← textField payload "plan_path"
  let planSha256 ← textField payload "plan_sha256"
  let baseCommit ← textField payload "base_commit"
  let graphDigest ← textField payload "graph_digest"
  let definitionJson ← textField payload "definition_json"
  let planLineageId ← textField payload "plan_lineage_id"
  return {
    protocol, logicalGraphId, planPath, planSha256, baseCommit, graphDigest, definitionJson,
    planLineageId
    automaticRecovery := (payload.get? "automatic_recovery").getD KeyedJson.null
    planVersionTransition := (payload.get? "plan_version_transition").getD KeyedJson.null }

/-- `load_registration`. -/
def loadRegistration (raw : List Char) : Except String PlanGraphRegistration :=
  match KeyedJson.loads raw with
  | none => .error "could not load PlanGraph registration"
  | some payload =>
    if payload.1.asMembers?.isNone then .error "registration must be a JSON object"
    else
      match registrationFromMapping payload with
      | .error e => .error e
      | .ok r =>
        if raw ≠ r.bytes then .error "registration file is not canonical JSON" else .ok r

/-! ## Verification -/

/-- What a verification is given from outside: the commits and files of the repository, and the
definition that a definition's plan has once it is read and validated. -/
structure RegistrationHost where
  verifyCommit : String → Except String String
  planBytes : String → String → Except String (List ℕ)
  normalizePlanPath : String → Except String String
  canonicalDefinition : PlanGraphRegistration → Json → Except String Json

/-- `_GRAPH_ID`. -/
def isPlanGraphId (s : String) : Bool :=
  match s.toList with
  | [] => false
  | c :: rest =>
    let isWord (c : Char) : Bool := ('a' ≤ c && c ≤ 'z') || ('0' ≤ c && c ≤ '9')
    isWord c && decide (rest.length ≤ 127) && rest.all fun d => isWord d || d == '-'

/-- `_digest_input`. -/
def digestInput (r : PlanGraphRegistration) (definition : Json) : Json :=
  let fields : List (String × Json) :=
    [("base_commit", .str r.baseCommit), ("definition", definition),
      ("logical_graph_id", .str r.logicalGraphId), ("plan_lineage_id", .str r.planLineageId),
      ("plan_path", .str r.planPath), ("plan_sha256", .str r.planSha256)]
  if r.protocol = recoveryRegistrationProtocol then
    .obj (("automatic_recovery", r.automaticRecovery.1) :: fields ++
      [("plan_version_transition", r.planVersionTransition.1), ("protocol", .str r.protocol)])
  else .obj (fields ++ [("protocol", .str r.protocol)])

/-- The parsed definition. -/
def PlanGraphRegistration.definition (r : PlanGraphRegistration) : Except String Json :=
  match KeyedJson.loads r.definitionJson.toList with
  | none => .error "invalid registration definition"
  | some v => .ok v.1

/-- `verify_registration`. -/
def verifyRegistration (host : RegistrationHost) (r : PlanGraphRegistration) :
    Except String Unit := do
  require (r.protocol ∈ [registrationProtocol, recoveryRegistrationProtocol])
    "unsupported PlanGraph registration protocol"
  require (r.protocol = registrationProtocol →
      r.automaticRecovery = KeyedJson.null ∧ r.planVersionTransition = KeyedJson.null)
    "registration protocol v2 cannot carry recovery authority"
  require (isPlanGraphId r.logicalGraphId = true)
    "PlanGraph ID must match ^[a-z0-9][a-z0-9-]\x7b0,127\x7d$"
  let _ ← AutomaticRecoveryAuthority.fromMapping r.automaticRecovery.present
  require (∀ v ∈ r.planVersionTransition.present, v.asMembers?.isSome = true)
    "plan-version transition must be an object"
  let path ← host.normalizePlanPath r.planPath
  require (path = r.planPath) "registration plan path is not normalized"
  let definition ← r.definition
  require (definition.asMembers?.isSome = true ∧
      Json.dumps definition = r.definitionJson.toList)
    "registration definition is not canonical JSON"
  require (digest (digestInput r definition) = r.graphDigest)
    "registration graph digest mismatch"
  let commit ← host.verifyCommit r.baseCommit
  require (commit = r.baseCommit) "registration base commit is not the full resolved commit"
  let plan ← host.planBytes r.baseCommit r.planPath
  require (Sha256.hexdigest plan = r.planSha256) "registration approved-plan hash mismatch"
  let canonical ← host.canonicalDefinition r definition
  require (canonical = definition) "registration definition does not round-trip"

/-! ## Publication -/

/-- `_transition_authorizes_replacement`. -/
def transitionAuthorizesReplacement (existing r : PlanGraphRegistration) : Bool :=
  match r.planVersionTransition.present with
  | none => false
  | some transition =>
    match AutomaticRecoveryAuthority.fromMapping r.automaticRecovery.present with
    | .error _ => false
    | .ok authority =>
      match validatePlanVersionTransition transition authority with
      | .error _ => false
      | .ok checked =>
        checked.predecessorPlanSha256 = existing.planSha256 ∧
          checked.successorPlanSha256 = r.planSha256 ∧
          existing.logicalGraphId = r.logicalGraphId ∧
          existing.planLineageId = r.planLineageId ∧
          existing.automaticRecovery = r.automaticRecovery

/-- The registration root, by logical graph id. -/
abbrev RegistrationRoot := Dict String (List Char)

/-- What a call leaves, and whether it returned the path or raised. -/
structure Published where
  root : RegistrationRoot
  answer : Except String Unit

/-- `persist_registration`. -/
def persistRegistration (host : RegistrationHost) (root : RegistrationRoot)
    (r : PlanGraphRegistration) : Published :=
  match verifyRegistration host r with
  | .error e => ⟨root, .error e⟩
  | .ok () =>
    match root.get? r.logicalGraphId with
    | none => ⟨root.set r.logicalGraphId r.bytes, .ok ()⟩
    | some raw =>
      match loadRegistration raw with
      | .error e => ⟨root, .error e⟩
      | .ok existing =>
        match verifyRegistration host existing with
        | .error e => ⟨root, .error e⟩
        | .ok () =>
          if existing.graphDigest = r.graphDigest ∧ raw = r.bytes then ⟨root, .ok ()⟩
          else if transitionAuthorizesReplacement existing r then
            ⟨root.set r.logicalGraphId r.bytes, .ok ()⟩
          else if r.planVersionTransition ≠ KeyedJson.null then
            ⟨root, .error (s!"logical graph ID '{r.logicalGraphId}' is already registered " ++
              "differently and the plan-version transition does not name it as the exact " ++
              "predecessor")⟩
          else
            ⟨root, .error s!"logical graph ID '{r.logicalGraphId}' is already registered differently"⟩

/-! ## Reading back -/

section ReadBack

variable {r existing : PlanGraphRegistration} {host : RegistrationHost}

/-- The protocol tells whether the registration can carry recovery authority. -/
def PlanGraphRegistration.Proper (r : PlanGraphRegistration) : Prop :=
  r.protocol = registrationProtocol →
    r.automaticRecovery = KeyedJson.null ∧ r.planVersionTransition = KeyedJson.null

theorem proper_of_verify (h : verifyRegistration host r = .ok ()) : r.Proper := by
  obtain ⟨-, h⟩ := require_bind_eq_ok.1 h
  exact (require_bind_eq_ok.1 h).1

theorem keyed_value (r : PlanGraphRegistration) : Json.Keyed r.value := by
  rw [PlanGraphRegistration.value]
  split_ifs
  · refine ⟨?_, trivial, trivial, trivial, trivial, trivial, trivial, trivial, trivial, trivial⟩
    show List.Pairwise _ registrationFieldsV2
    decide
  · refine ⟨?_, r.automaticRecovery.2, trivial, trivial, trivial, trivial, trivial, trivial,
      trivial, r.planVersionTransition.2, trivial, trivial⟩
    show List.Pairwise _ ["automatic_recovery", "base_commit", "definition_json", "graph_digest",
      "logical_graph_id", "plan_lineage_id", "plan_path", "plan_sha256", "plan_version_transition",
      "protocol"]
    decide

theorem textField_eq {payload : KeyedJson} {name s : String}
    (h : payload.1.get? name = some (.str s)) : textField payload name = .ok s := by
  rw [textField, h]
  rfl

theorem registrationFromMapping_value (hproper : r.Proper) :
    registrationFromMapping ⟨r.value, keyed_value r⟩ = .ok r := by
  have htext (name s : String) (h : r.value.get? name = some (.str s)) :
      textField ⟨r.value, keyed_value r⟩ name = .ok s := textField_eq h
  have hprotocol : r.value.get? "protocol" = some (.str r.protocol) := by
    rw [PlanGraphRegistration.value]
    split_ifs <;> rfl
  have hfields : hasFields r.value (if r.value.get? "protocol" = some (.str registrationProtocol)
      then registrationFieldsV2 else registrationFields) = true := by
    by_cases hplain : r.protocol = registrationProtocol
    · rw [if_pos (by rw [hprotocol, hplain]), PlanGraphRegistration.value, if_pos hplain]
      show (registrationFieldsV2.all registrationFieldsV2.contains &&
        registrationFieldsV2.all registrationFieldsV2.contains) = true
      decide
    · rw [if_neg (by rw [hprotocol]; simpa using hplain), PlanGraphRegistration.value,
        if_neg hplain]
      show (["automatic_recovery", "base_commit", "definition_json", "graph_digest",
        "logical_graph_id", "plan_lineage_id", "plan_path", "plan_sha256",
        "plan_version_transition", "protocol"].all registrationFields.contains &&
        registrationFields.all ["automatic_recovery", "base_commit", "definition_json",
          "graph_digest", "logical_graph_id", "plan_lineage_id", "plan_path", "plan_sha256",
          "plan_version_transition", "protocol"].contains) = true
      decide
  have hrecovery : (KeyedJson.get? ⟨r.value, keyed_value r⟩ "automatic_recovery").getD
      KeyedJson.null = r.automaticRecovery := by
    by_cases hplain : r.protocol = registrationProtocol
    · have hget : r.value.get? "automatic_recovery" = none := by
        rw [PlanGraphRegistration.value, if_pos hplain]
        rfl
      rw [KeyedJson.get?_eq_none.2 hget, (hproper hplain).1]
      rfl
    · have hget : r.value.get? "automatic_recovery" = some r.automaticRecovery.1 := by
        rw [PlanGraphRegistration.value, if_neg hplain]
        rfl
      rw [KeyedJson.get?_eq_some.2 hget]
      rfl
  have htransition : (KeyedJson.get? ⟨r.value, keyed_value r⟩ "plan_version_transition").getD
      KeyedJson.null = r.planVersionTransition := by
    by_cases hplain : r.protocol = registrationProtocol
    · have hget : r.value.get? "plan_version_transition" = none := by
        rw [PlanGraphRegistration.value, if_pos hplain]
        rfl
      rw [KeyedJson.get?_eq_none.2 hget, (hproper hplain).2]
      rfl
    · have hget : r.value.get? "plan_version_transition" = some r.planVersionTransition.1 := by
        rw [PlanGraphRegistration.value, if_neg hplain]
        rfl
      rw [KeyedJson.get?_eq_some.2 hget]
      rfl
  rw [registrationFromMapping]
  refine require_bind_eq_ok.2 ⟨hfields, ?_⟩
  rw [htext _ _ hprotocol, htext "logical_graph_id" r.logicalGraphId ?_,
    htext "plan_path" r.planPath ?_, htext "plan_sha256" r.planSha256 ?_,
    htext "base_commit" r.baseCommit ?_, htext "graph_digest" r.graphDigest ?_,
    htext "definition_json" r.definitionJson ?_, htext "plan_lineage_id" r.planLineageId ?_,
    hrecovery, htransition]
  · rfl
  all_goals
    rw [PlanGraphRegistration.value]
    split_ifs <;> rfl

/-- **What is published reads back.** -/
theorem loadRegistration_bytes (hproper : r.Proper) : loadRegistration r.bytes = .ok r := by
  have hloads : KeyedJson.loads r.bytes = some ⟨r.value, keyed_value r⟩ := by
    refine KeyedJson.loads_eq_some.2 (Json.loads_dumps (keyed_value r) ?_)
    intro c hc
    rw [List.mem_singleton.1 hc]
    rfl
  have hobject : ¬ r.value.asMembers?.isNone = true := by
    rw [PlanGraphRegistration.value]
    split_ifs <;> simp [Json.asMembers?]
  rw [loadRegistration, hloads]
  dsimp only
  rw [if_neg hobject, registrationFromMapping_value hproper]
  dsimp only
  rw [if_neg (not_not.2 rfl)]

end ReadBack

/-! ## Calls -/

/-- The registration carries a valid transition that leads from a plan to its own. -/
def PlanGraphRegistration.NamesPredecessor (r : PlanGraphRegistration) (predecessor : String) :
    Prop :=
  ∃ transition authority checked, r.planVersionTransition.present = some transition ∧
    AutomaticRecoveryAuthority.fromMapping r.automaticRecovery.present = .ok authority ∧
    validatePlanVersionTransition transition authority = .ok checked ∧
    checked.predecessorPlanSha256 = predecessor ∧ checked.successorPlanSha256 = r.planSha256

/-- What stays when a registration takes the place of another. -/
structure SameLineage (existing r : PlanGraphRegistration) : Prop where
  logicalGraphId : existing.logicalGraphId = r.logicalGraphId
  planLineageId : existing.planLineageId = r.planLineageId
  automaticRecovery : existing.automaticRecovery = r.automaticRecovery

theorem SameLineage.refl (r : PlanGraphRegistration) : SameLineage r r := ⟨rfl, rfl, rfl⟩

variable {r : PlanGraphRegistration} {host : RegistrationHost}

theorem SameLineage.trans {s t : PlanGraphRegistration} (h : SameLineage r s) (h' : SameLineage s t) :
    SameLineage r t :=
  ⟨h.logicalGraphId.trans h'.logicalGraphId, h.planLineageId.trans h'.planLineageId,
    h.automaticRecovery.trans h'.automaticRecovery⟩

section Calls

variable {host : RegistrationHost} {root later : RegistrationRoot} {r existing : PlanGraphRegistration}
  {id : String} {raw : List Char}

theorem transitionAuthorizesReplacement_iff : transitionAuthorizesReplacement existing r = true ↔
    r.NamesPredecessor existing.planSha256 ∧ SameLineage existing r := by
  constructor
  · intro h
    rw [transitionAuthorizesReplacement] at h
    split at h
    · cases h
    rename_i transition htransition
    split at h
    · cases h
    rename_i authority hauthority
    split at h
    · cases h
    rename_i checked hchecked
    obtain ⟨hpredecessor, hsuccessor, hid, hlineage, hrecovery⟩ := of_decide_eq_true h
    exact ⟨⟨transition, authority, checked, htransition, hauthority, hchecked, hpredecessor,
      hsuccessor⟩, hid, hlineage, hrecovery⟩
  · rintro ⟨⟨transition, authority, checked, htransition, hauthority, hchecked, hpredecessor,
      hsuccessor⟩, hid, hlineage, hrecovery⟩
    rw [transitionAuthorizesReplacement, htransition]
    dsimp only
    rw [hauthority]
    dsimp only
    rw [hchecked]
    exact decide_eq_true ⟨hpredecessor, hsuccessor, hid, hlineage, hrecovery⟩

/-- A call leaves the root as it is, or writes its registration where there is none or one that it
succeeds. -/
theorem persist_cases (host : RegistrationHost) (root : RegistrationRoot)
    (r : PlanGraphRegistration) :
    (persistRegistration host root r).root = root ∨
      (persistRegistration host root r).answer = .ok () ∧
        (persistRegistration host root r).root = root.set r.logicalGraphId r.bytes ∧ r.Proper ∧
        ∀ raw, root.get? r.logicalGraphId = some raw → ∃ existing,
          loadRegistration raw = .ok existing ∧ r.NamesPredecessor existing.planSha256 ∧
            SameLineage existing r := by
  rw [persistRegistration]
  split
  · exact .inl rfl
  rename_i hverified
  have hproper := proper_of_verify hverified
  split
  · rename_i habsent
    refine .inr ⟨rfl, rfl, hproper, fun raw hraw => ?_⟩
    rw [habsent] at hraw
    cases hraw
  rename_i raw hraw
  split
  · exact .inl rfl
  rename_i existing hexisting
  split
  · exact .inl rfl
  split_ifs with hsame hauthorized hnamed
  · exact .inl rfl
  · refine .inr ⟨rfl, rfl, hproper, fun raw' hraw' => ?_⟩
    cases hraw.symm.trans hraw'
    exact ⟨existing, hexisting, transitionAuthorizesReplacement_iff.1 hauthorized⟩
  · exact .inl rfl
  · exact .inl rfl

theorem persist_refused {message : String}
    (h : (persistRegistration host root r).answer = .error message) :
    (persistRegistration host root r).root = root := by
  rcases persist_cases host root r with hroot | ⟨hanswer, -⟩
  · exact hroot
  · rw [hanswer] at h
    cases h

/-- A stored file stays, or the called registration succeeds it. -/
theorem persist_stored (hraw : root.get? id = some raw) :
    (persistRegistration host root r).root.get? id = some raw ∨
      id = r.logicalGraphId ∧ r.Proper ∧
        (persistRegistration host root r).root.get? id = some r.bytes ∧ ∃ existing,
          loadRegistration raw = .ok existing ∧ r.NamesPredecessor existing.planSha256 ∧
            SameLineage existing r := by
  rcases persist_cases host root r with hroot | ⟨-, hroot, hproper, hsuccession⟩
  · rw [hroot]
    exact .inl hraw
  · by_cases hid : id = r.logicalGraphId
    · subst hid
      exact .inr ⟨rfl, hproper, by rw [hroot, Dict.get?_set_self], hsuccession raw hraw⟩
    · rw [hroot, Dict.get?_set_ne _ _ hid]
      exact .inl hraw

/-- One call, with the repository as it is then. -/
inductive RegistrationCall : RegistrationRoot → RegistrationRoot → Prop
  | call (host : RegistrationHost) (root : RegistrationRoot) (r : PlanGraphRegistration) :
    RegistrationCall root (persistRegistration host root r).root

/-- Every file holds a registration of the graph that it is named after. -/
def WellFiled (root : RegistrationRoot) : Prop :=
  ∀ id raw, root.get? id = some raw →
    ∃ r, raw = r.bytes ∧ loadRegistration raw = .ok r ∧ r.logicalGraphId = id

theorem RegistrationCall.wellFiled (hcall : RegistrationCall root later) (h : WellFiled root) :
    WellFiled later := by
  obtain ⟨host, root, r⟩ := hcall
  intro id raw hraw
  rcases persist_cases host root r with hroot | ⟨-, hroot, hproper, -⟩
  · rw [hroot] at hraw
    exact h id raw hraw
  · rw [hroot] at hraw
    by_cases hid : id = r.logicalGraphId
    · subst hid
      rw [Dict.get?_set_self] at hraw
      cases hraw
      exact ⟨r, rfl, loadRegistration_bytes hproper, rfl⟩
    · rw [Dict.get?_set_ne _ _ hid] at hraw
      exact h id raw hraw

/-- A stored registration is still there after a call, or one of its lineage is. -/
theorem RegistrationCall.lineage (hcall : RegistrationCall root later)
    (hraw : root.get? id = some raw) (hload : loadRegistration raw = .ok existing) :
    ∃ raw' r, later.get? id = some raw' ∧ loadRegistration raw' = .ok r ∧
      SameLineage existing r := by
  obtain ⟨host, root, r⟩ := hcall
  rcases persist_stored hraw with hkept | ⟨-, hproper, hset, existing', hload', -, hsame⟩
  · exact ⟨raw, existing, hkept, hload, .refl existing⟩
  · cases hload.symm.trans hload'
    exact ⟨r.bytes, r, hset, loadRegistration_bytes hproper, hsame⟩

theorem lineage_of_calls (hcalls : Relation.ReflTransGen RegistrationCall root later)
    (hraw : root.get? id = some raw) (hload : loadRegistration raw = .ok existing) :
    ∃ raw' r, later.get? id = some raw' ∧ loadRegistration raw' = .ok r ∧
      SameLineage existing r := by
  induction hcalls with
  | refl => exact ⟨raw, existing, hraw, hload, .refl existing⟩
  | tail _ hcall ih =>
    obtain ⟨raw', r, hraw', hload', hsame⟩ := ih
    obtain ⟨raw'', r', hraw'', hload'', hsame'⟩ := hcall.lineage hraw' hload'
    exact ⟨raw'', r', hraw'', hload'', hsame.trans hsame'⟩

end Calls

/-! ## A transition to another repository -/

/-- The repository that a canonical definition names. -/
def PlanGraphRegistration.repositoryId (r : PlanGraphRegistration) : Option Json :=
  (KeyedJson.loads r.definitionJson.toList).bind fun definition =>
    definition.1.get? "repository_id"

/-- A repository whose plan is the name of the commit. -/
def namedCommits : RegistrationHost where
  verifyCommit := .ok
  planBytes commit _ := .ok (Json.utf8 commit.toList)
  normalizePlanPath := .ok
  canonicalDefinition _ definition := .ok definition

def planSha256At (commit : String) : String := Sha256.hexdigest (Json.utf8 commit.toList)

def reviseAuthority : KeyedJson :=
  ⟨.obj [("allowed_actions", .arr [.str "revise_acceptance"]), ("max_extra_node_launches", .int 0),
    ("max_structural_decisions", .int 1), ("protocol", .str authorityProtocol)],
    by show List.Pairwise _ [_, _, _, _]; decide, ⟨trivial, trivial⟩, trivial, trivial, trivial,
    trivial⟩

/-- The definition of a canonical plan in a repository. -/
def definitionIn (repository : String) : KeyedJson :=
  ⟨.obj [("canonical_decomposition", .obj []), ("protocol", .str "plan-graph/1"),
    ("repository_id", .str repository)],
    by show List.Pairwise _ ["canonical_decomposition", "protocol", "repository_id"]; decide, ⟨List.Pairwise.nil, trivial⟩, trivial, trivial,
    trivial⟩

/-- The transition from the plan of the first commit to the one of the second. -/
def firstToSecond : KeyedJson :=
  ⟨.obj [("action", .str "revise_acceptance"),
    ("authorizing_decision", .obj [("action", .str "revise_acceptance"),
      ("expected_prior_digest", .str (planSha256At "first")), ("payload", .obj []),
      ("protocol", .str decisionProtocol), ("target", .str "plan_version")]),
    ("budget_carryover", .obj [("node", .str "full")]),
    ("node_correspondence", .obj [("node", .str "node")]),
    ("predecessor_plan_sha256", .str (planSha256At "first")),
    ("protocol", .str transitionProtocol),
    ("successor_plan_sha256", .str (planSha256At "second"))],
    by show List.Pairwise _ [_, _, _, _, _, _, _]; decide, trivial,
    ⟨by show List.Pairwise _ [_, _, _, _, _]; decide, trivial, trivial,
      ⟨List.Pairwise.nil, trivial⟩, trivial, trivial, trivial⟩,
    ⟨List.pairwise_singleton _ _, trivial, trivial⟩,
    ⟨List.pairwise_singleton _ _, trivial, trivial⟩, trivial, trivial, trivial, trivial⟩

/-- The registration of the plan at a commit, in a repository. -/
def registrationAt (commit repository : String) (transition : KeyedJson) : PlanGraphRegistration :=
  let r : PlanGraphRegistration :=
    { protocol := recoveryRegistrationProtocol, logicalGraphId := "graph"
      planPath := "docs/plan.md", planSha256 := planSha256At commit, baseCommit := commit
      graphDigest := "", definitionJson := String.ofList (Json.dumps (definitionIn repository).1)
      planLineageId := "lineage", automaticRecovery := reviseAuthority
      planVersionTransition := transition }
  { r with graphDigest := digest (digestInput r (definitionIn repository).1) }

theorem loads_definitionIn (repository : String) :
    KeyedJson.loads (String.ofList (Json.dumps (definitionIn repository).1)).toList =
      some (definitionIn repository) := by
  rw [String.toList_ofList, KeyedJson.loads_eq_some, ← List.append_nil (Json.dumps _)]
  exact Json.loads_dumps (definitionIn repository).2 (List.forall_mem_nil _)

theorem verify_eq_ok {definition : Json} {authority : AutomaticRecoveryAuthority} {plan : List ℕ}
    (hprotocol : r.protocol = recoveryRegistrationProtocol)
    (hid : isPlanGraphId r.logicalGraphId = true)
    (hauthority : AutomaticRecoveryAuthority.fromMapping r.automaticRecovery.present = .ok authority)
    (htransition : ∀ v ∈ r.planVersionTransition.present, v.asMembers?.isSome = true)
    (hpath : host.normalizePlanPath r.planPath = .ok r.planPath)
    (hdefinition : r.definition = .ok definition) (hobject : definition.asMembers?.isSome = true)
    (hcanonical : Json.dumps definition = r.definitionJson.toList)
    (hdigest : digest (digestInput r definition) = r.graphDigest)
    (hcommit : host.verifyCommit r.baseCommit = .ok r.baseCommit)
    (hplan : host.planBytes r.baseCommit r.planPath = .ok plan)
    (hsha256 : Sha256.hexdigest plan = r.planSha256)
    (hround : host.canonicalDefinition r definition = .ok definition) :
    verifyRegistration host r = .ok () := by
  have hv3 : r.protocol ∈ [registrationProtocol, recoveryRegistrationProtocol] := by
    rw [hprotocol]
    decide
  have hnot : ¬ r.protocol = registrationProtocol := by
    rw [hprotocol]
    decide
  refine require_bind_eq_ok.2 ⟨hv3, require_bind_eq_ok.2 ⟨fun h => absurd h hnot, ?_⟩⟩
  refine require_bind_eq_ok.2 ⟨hid, bind_eq_ok.2 ⟨authority, hauthority, ?_⟩⟩
  refine require_bind_eq_ok.2 ⟨htransition, bind_eq_ok.2 ⟨_, hpath, ?_⟩⟩
  refine require_bind_eq_ok.2 ⟨rfl, bind_eq_ok.2 ⟨_, hdefinition, ?_⟩⟩
  refine require_bind_eq_ok.2 ⟨⟨hobject, hcanonical⟩, require_bind_eq_ok.2 ⟨hdigest, ?_⟩⟩
  refine bind_eq_ok.2 ⟨_, hcommit, require_bind_eq_ok.2 ⟨rfl, bind_eq_ok.2 ⟨_, hplan, ?_⟩⟩⟩
  exact require_bind_eq_ok.2 ⟨hsha256, bind_eq_ok.2 ⟨_, hround, require_eq_ok.2 rfl⟩⟩

theorem definition_eq {definition : KeyedJson}
    (h : KeyedJson.loads r.definitionJson.toList = some definition) :
    r.definition = .ok definition.1 := by
  rw [PlanGraphRegistration.definition, h]

theorem digestInput_graphDigest (r : PlanGraphRegistration) (graphDigest : String)
    (definition : Json) :
    digestInput { r with graphDigest := graphDigest } definition = digestInput r definition := rfl

theorem verify_registrationAt (commit repository : String) {transition : KeyedJson}
    (h : ∀ v ∈ transition.present, v.asMembers?.isSome = true) :
    verifyRegistration namedCommits (registrationAt commit repository transition) = .ok () := by
  have hid : isPlanGraphId "graph" = true := by decide
  have hauthority : AutomaticRecoveryAuthority.fromMapping reviseAuthority.present =
      .ok ⟨[.reviseAcceptance], 0, 1, List.nodup_singleton _⟩ := by
    decide
  have hdefinition : (registrationAt commit repository transition).definition =
      .ok (definitionIn repository).1 := definition_eq (loads_definitionIn repository)
  have hdigest : digest (digestInput (registrationAt commit repository transition)
      (definitionIn repository).1) =
      (registrationAt commit repository transition).graphDigest := by
    rw [registrationAt]
    exact congrArg digest (digestInput_graphDigest _ _ _)
  exact verify_eq_ok rfl hid hauthority h rfl hdefinition rfl String.toList_ofList.symm hdigest rfl
    rfl rfl rfl

def firstHere : PlanGraphRegistration := registrationAt "first" "here" KeyedJson.null

def secondElsewhere : PlanGraphRegistration := registrationAt "second" "elsewhere" firstToSecond

theorem second_succeeds : transitionAuthorizesReplacement firstHere secondElsewhere = true := by
  decide +kernel

theorem persist_first {root : RegistrationRoot} (h : verifyRegistration host r = .ok ())
    (habsent : root.get? r.logicalGraphId = none) :
    (persistRegistration host root r).root.get? r.logicalGraphId = some r.bytes := by
  rw [persistRegistration, h]
  dsimp only
  rw [habsent]
  exact Dict.get?_set_self _ _ _

theorem persist_successor {root : RegistrationRoot} {existing : PlanGraphRegistration}
    (h : verifyRegistration host r = .ok ()) (hexisting : verifyRegistration host existing = .ok ())
    (hraw : root.get? r.logicalGraphId = some existing.bytes)
    (hauthorized : transitionAuthorizesReplacement existing r = true) :
    (persistRegistration host root r).root.get? r.logicalGraphId = some r.bytes := by
  rw [persistRegistration, h]
  dsimp only
  rw [hraw]
  dsimp only
  rw [loadRegistration_bytes (proper_of_verify hexisting)]
  dsimp only
  rw [hexisting]
  dsimp only
  split_ifs with hsame
  · rw [hraw, hsame.2]
  · exact Dict.get?_set_self _ _ _

theorem stored_firstHere :
    (persistRegistration namedCommits ∅ firstHere).root.get? "graph" = some firstHere.bytes :=
  persist_first (verify_registrationAt "first" "here" (by simp [KeyedJson.present, KeyedJson.null]))
    (Dict.get?_eq_none_iff.2 List.not_mem_nil : (∅ : RegistrationRoot).get? _ = _)

end HarnessLabs.PlanGraph
