import HarnessLabs.PlanGraph.GrantPaths
import HarnessLabs.PlanGraph.Validation

/-!
# Decompositions

A decomposition is admitted by two checks: the plan contract accepts its payload, and the controller
validates the plan that is read from it. What is accepted is returned as it was given.

* `canonicalPlanGraphPayload` — the check of the payload, run by run.
* `validatePlanGraphPlan` — the check of the plan.
* `CanonicalRun`, `ValidatedPlan` — what the checks establish.
* `validPlan_iff` — **a decomposition is admitted exactly when each of its runs is canonical and its
  plan is validated.**
-/

namespace HarnessLabs.PlanGraph

open Audit (require require_eq_ok require_bind_eq_ok unit_bind_eq_ok forM_eq_ok)
open HarnessLabs.Controller (isBlank)

/-- A `plan-graph-plan/1` payload. A run without a gate tuple has no gates. -/
structure Decomposition (F : Type) where
  plan : String
  planSections : Dict String String
  acceptanceCriteria : Dict String String
  runs : List (ContractRun F)
  functionalityTests : List (FunctionalityCommand F)
  referencedArtifacts : List String

/-! ## The payload -/

section Payload

variable {F : Type} [Zero F] [LT F] [DecidableLT F]

/-- `_nonempty_string`. -/
def nonemptyString (value field : String) : Except String Unit :=
  require (isBlank value = false) (field ++ " must be a non-empty string")

/-- `field[index]` for the values in turn. -/
def indexed {α : Type} (field : String) (values : List α) : List (α × String) :=
  values.zipIdx.map fun v => (v.1, field ++ "[" ++ toString v.2 ++ "]")

/-- `_string_array`. -/
def stringArray (values : List String) (field : String) (allowEmpty : Bool) :
    Except String Unit := do
  require (allowEmpty ∨ values ≠ [])
    (field ++ " must be " ++ if allowEmpty then "an array" else "a non-empty array")
  (indexed field values).forM fun v => nonemptyString v.1 v.2
  require values.Nodup (field ++ " contains duplicates")

/-- `_string_mapping`. -/
def stringMapping (values : Dict String String) (field : String) : Except String Unit := do
  require (values.items ≠ []) (field ++ " must be a non-empty object")
  values.items.forM fun item => do
    nonemptyString item.1 (field ++ " key")
    nonemptyString item.2 (field ++ "." ++ item.1)

/-- `_positive_number`. -/
def positiveNumber (value : F) (field : String) : Except String Unit :=
  require (0 < value) (field ++ " must be a positive number")

/-- `normalize_repository_path`, whose value is the path itself. -/
def repositoryPath (path field : String) : Except String Unit :=
  (normalizeRepositoryPath (.str path) field).map fun _ => ()

/-- `_canonical_required_path`. -/
def canonicalRequiredPath (required : RequiredPath) (field : String) : Except String Unit := do
  if required.availability = "base" then
    require (required.producerRunId = none)
      (field ++ " has invalid keys (missing=[], extra=['producer_run_id'])")
  else
    require (required.availability = "created_by")
      (field ++ ".availability must be 'base' or 'created_by'")
    match required.producerRunId with
    | none => .error (field ++ " has invalid keys (missing=['producer_run_id'], extra=[])")
    | some producer => nonemptyString producer (field ++ ".producer_run_id")
  repositoryPath required.path (field ++ ".path")

/-- `_canonical_path_intent`. -/
def canonicalPathIntent (intent : PathIntent) (field : String) : Except String Unit := do
  require (intent.action = "create" ∨ intent.action = "modify")
    (field ++ ".action must be 'create' or 'modify'")
  repositoryPath intent.path (field ++ ".path")

/-- `_canonical_gate`. -/
def canonicalGate (gate : VerificationGate F) (field : String) : Except String Unit := do
  nonemptyString gate.name (field ++ ".name")
  stringArray gate.argv (field ++ ".argv") false
  positiveNumber gate.timeoutSeconds (field ++ ".timeout_seconds")

/-- `_canonical_gate_tuple`. -/
def canonicalGateTuple (gates : List (VerificationGate F)) (field : String) :
    Except String Unit := do
  (indexed field gates).forM fun g => canonicalGate g.1 g.2
  require (gates.map (·.name)).Nodup (field ++ " contains duplicate gate names")

/-- `_canonical_command`. -/
def canonicalCommand (command : FunctionalityCommand F) (field : String) : Except String Unit :=
  match command with
  | .shell _ => .error (field ++ " must be an object")
  | .command argv timeoutSeconds requiredPaths => do
    stringArray argv (field ++ ".argv") false
    positiveNumber timeoutSeconds (field ++ ".timeout_seconds")
    (indexed (field ++ ".required_paths") requiredPaths).forM fun r =>
      canonicalRequiredPath r.1 r.2

/-- `_canonical_run`. -/
def canonicalRun (run : ContractRun F) (field : String) : Except String Unit := do
  nonemptyString run.id (field ++ ".id")
  nonemptyString run.objective (field ++ ".objective")
  stringArray run.planSections (field ++ ".plan_sections") false
  stringArray run.criteria (field ++ ".criteria") false
  stringArray run.dependsOn (field ++ ".depends_on") true
  require (run.allowedPaths ≠ []) (field ++ ".allowed_paths must be a non-empty array")
  (indexed (field ++ ".allowed_paths") run.allowedPaths).forM fun p => repositoryPath p.1 p.2
  require run.allowedPaths.Nodup (field ++ ".allowed_paths contains duplicates")
  (indexed (field ++ ".path_intents") run.pathIntents).forM fun i => canonicalPathIntent i.1 i.2
  run.pathIntents.forM fun intent =>
    require (pathIsAllowed intent.path run.allowedPaths)
      (field ++ " path intent '" ++ intent.path ++ "' is outside allowed_paths")
  stringArray run.verificationArgv (field ++ ".verification_argv")
    (decide (run.verificationGates.length ≠ 0))
  positiveNumber run.verificationTimeoutSeconds (field ++ ".verification_timeout_seconds")
  (indexed (field ++ ".verification_required_paths") run.verificationRequiredPaths).forM fun r =>
    canonicalRequiredPath r.1 r.2
  if run.verificationGates.length ≠ 0 then
    require (run.verificationArgv = [])
      (field ++ " may declare verification_argv or verification_gates, not both")
    canonicalGateTuple run.verificationGates (field ++ ".verification_gates")

/-- `canonical_plan_graph_payload`. -/
def canonicalPlanGraphPayload (d : Decomposition F) : Except String Unit := do
  repositoryPath d.plan "plan.plan"
  stringMapping d.planSections "plan.plan_sections"
  stringMapping d.acceptanceCriteria "plan.acceptance_criteria"
  require (d.runs.length ≠ 0) "plan.runs must be a non-empty array"
  (indexed "plan.runs" d.runs).forM fun r => canonicalRun r.1 r.2
  (indexed "plan.functionality_tests" d.functionalityTests).forM fun t => canonicalCommand t.1 t.2
  (indexed "plan.referenced_artifacts" d.referencedArtifacts).forM fun a => repositoryPath a.1 a.2
  require d.referencedArtifacts.Nodup "plan.referenced_artifacts contains duplicates"

/-- `plan_from_mapping`. -/
def planFromMapping (d : Decomposition F) (baseCommit : String) : ContractPlan F where
  plan := d.plan
  baseCommit := baseCommit
  runs := d.runs
  planSections := d.planSections
  acceptanceCriteria := d.acceptanceCriteria
  functionalityTests := d.functionalityTests

end Payload

/-! ## The plan -/

section Plan

variable {F : Type} [Zero F] [LT F] [DecidableLT F]

/-- The words of a command are not empty. -/
def wordsFilled (words : List String) : Bool := words.all (· ≠ "")

def validateGate (run : ContractRun F) (gate : VerificationGate F) : Except String Unit := do
  require (isBlank gate.name = false) s!"run '{run.id}' verification_gates has an empty name"
  require (gate.argv ≠ [] ∧ wordsFilled gate.argv)
    (s!"run '{run.id}' verification_gates['{gate.name}'] " ++ "argv contains an empty value")
  require (0 < gate.timeoutSeconds)
    (s!"run '{run.id}' verification_gates['{gate.name}'] " ++ "timeout must be positive")

/-- What `validate_plan_graph_plan` checks of a run behind the runs with the ids `seen`. -/
def validatePlanRun (p : ContractPlan F) (seen : List String) (run : ContractRun F) :
    Except String Unit := do
  require (run.id ≠ "" ∧ run.id ∉ seen) s!"duplicate or empty run id: '{run.id}'"
  require (isBlank run.objective = false ∧ run.planSections ≠ [])
    s!"run '{run.id}' has incomplete approved context"
  require (wordsFilled run.verificationArgv)
    s!"run '{run.id}' verification_argv contains an empty value"
  require (run.verificationArgv ≠ [] ∨ run.verificationGates.length ≠ 0)
    s!"run '{run.id}' requires controller-owned verification"
  require (run.verificationArgv = [] ∨ run.verificationGates.length = 0)
    s!"run '{run.id}' may declare verification_argv or verification_gates, not both"
  require (run.verificationGates.map (·.name)).Nodup
    s!"run '{run.id}' verification_gates has duplicate names"
  run.verificationGates.forM (validateGate run)
  require (wordsFilled run.allowedPaths) s!"run '{run.id}' allowed_paths contains an empty value"
  require (run.allowedPaths ≠ []) s!"run '{run.id}' has no allowed_paths"
  require (0 < run.verificationTimeoutSeconds)
    s!"run '{run.id}' verification timeout must be positive"
  run.pathIntents.forM fun intent => do
    require (intent.action = "create" ∨ intent.action = "modify")
      s!"run '{run.id}' has invalid path intent '{intent.action}'"
    require (pathIsAllowed intent.path run.allowedPaths)
      s!"run '{run.id}' path intent '{intent.path}' is outside allowed_paths"
  run.planSections.forM fun part =>
    require (part ∈ p.planSections.keys) s!"run '{run.id}' references unknown plan section '{part}'"
  run.criteria.forM fun criterion =>
    require (criterion ∈ p.acceptanceCriteria.keys)
      s!"run '{run.id}' references unknown criterion '{criterion}'"
  run.dependsOn.forM fun dependency => do
    require (dependency ∈ p.runs.map (·.id))
      s!"run '{run.id}' depends on missing run '{dependency}'"
    require (dependency ≠ run.id) s!"run '{run.id}' depends on itself"

def validatePlanRuns (p : ContractPlan F) : List String → List (ContractRun F) → Except String Unit
  | _, [] => .ok ()
  | seen, run :: rest => do
    validatePlanRun p seen run
    validatePlanRuns p (seen ++ [run.id]) rest

def validateFunctionalityTest : FunctionalityCommand F → Except String Unit
  | .command argv timeoutSeconds _ => do
    require (argv ≠ [] ∧ wordsFilled argv) "functionality_tests contains an empty command"
    require (0 < timeoutSeconds) "functionality test timeout must be positive"
  | .shell text => require (isBlank text = false) "functionality_tests contains an empty command"

/-- The criteria that no run has. -/
def unassigned (p : ContractPlan F) : List String :=
  p.acceptanceCriteria.keys.filter fun id => id ∉ p.runs.flatMap (·.criteria)

/-- `validate_plan_graph_plan`, of a plan under the canonical protocol. -/
def validatePlanGraphPlan (p : ContractPlan F) : Except String Unit := do
  require (p.plan ≠ "" ∧ p.baseCommit ≠ "") "plan and base_commit must be non-empty"
  validatePlanRuns p [] p.runs
  require (unassigned p = []) ("acceptance criteria are not assigned to a FeatureRun: " ++
    ", ".intercalate ((unassigned p).insertionSort (· ≤ ·)))
  p.functionalityTests.forM validateFunctionalityTest
  let _ ← orderedRuns p.planRuns
  validateCommandDependencies p

end Plan

/-! ## What the payload's check establishes -/

/-- Texts that are not blank, each once. -/
structure FilledTexts (values : List String) : Prop where
  filled : ∀ v ∈ values, isBlank v = false
  nodup : values.Nodup

/-- A required path as the plan contract accepts it. -/
structure CanonicalRequired (required : RequiredPath) : Prop where
  path : AcceptedPath required.path
  base : required.availability = "base" → required.producerRunId = none
  created : required.availability ≠ "base" → required.availability = "created_by" ∧
    ∃ producer, required.producerRunId = some producer ∧ isBlank producer = false

structure CanonicalIntent (intent : PathIntent) : Prop where
  action : intent.action = "create" ∨ intent.action = "modify"
  path : AcceptedPath intent.path

section Canonical

variable {F : Type} [Zero F] [LT F] [DecidableLT F]

structure CanonicalGate (gate : VerificationGate F) : Prop where
  name : isBlank gate.name = false
  words : gate.argv ≠ [] ∧ FilledTexts gate.argv
  timeout : 0 < gate.timeoutSeconds

/-- A run as the plan contract accepts it. -/
structure CanonicalRun (run : ContractRun F) : Prop where
  id : isBlank run.id = false
  objective : isBlank run.objective = false
  planSections : run.planSections ≠ [] ∧ FilledTexts run.planSections
  criteria : run.criteria ≠ [] ∧ FilledTexts run.criteria
  dependsOn : FilledTexts run.dependsOn
  granted : run.allowedPaths ≠ []
  grants : ∀ p ∈ run.allowedPaths, AcceptedPath p
  distinct : run.allowedPaths.Nodup
  intents : ∀ intent ∈ run.pathIntents,
    CanonicalIntent intent ∧ pathIsAllowed intent.path run.allowedPaths = true
  argv : (run.verificationGates ≠ [] ∨ run.verificationArgv ≠ []) ∧
    FilledTexts run.verificationArgv
  timeout : 0 < run.verificationTimeoutSeconds
  required : ∀ required ∈ run.verificationRequiredPaths, CanonicalRequired required
  gates : run.verificationGates ≠ [] → run.verificationArgv = []
  gateTuple : ∀ gate ∈ run.verificationGates, CanonicalGate gate
  gateNames : (run.verificationGates.map (·.name)).Nodup

/-- A command as the plan contract accepts it. -/
def CanonicalCommand : FunctionalityCommand F → Prop
  | .shell _ => False
  | .command argv timeoutSeconds requiredPaths => (argv ≠ [] ∧ FilledTexts argv) ∧
      0 < timeoutSeconds ∧ ∀ required ∈ requiredPaths, CanonicalRequired required

/-- A table of texts that are not blank. -/
def FilledTable (values : Dict String String) : Prop :=
  values.items ≠ [] ∧ ∀ item ∈ values.items, isBlank item.1 = false ∧ isBlank item.2 = false

/-- A payload as the plan contract accepts it. -/
structure CanonicalDecomposition (d : Decomposition F) : Prop where
  plan : AcceptedPath d.plan
  planSections : FilledTable d.planSections
  acceptanceCriteria : FilledTable d.acceptanceCriteria
  nonempty : d.runs ≠ []
  runs : ∀ run ∈ d.runs, CanonicalRun run
  commands : ∀ command ∈ d.functionalityTests, CanonicalCommand command
  artifacts : ∀ path ∈ d.referencedArtifacts, AcceptedPath path
  artifactsNodup : d.referencedArtifacts.Nodup

variable {field : String}

theorem forall_indexed {α : Type} (check : α → String → Except String Unit) {good : α → Prop}
    (h : ∀ a field, check a field = .ok () ↔ good a) {values : List α} :
    (∀ v ∈ indexed field values, check v.1 v.2 = .ok ()) ↔ ∀ v ∈ values, good v := by
  simp only [h, indexed, List.mem_map, List.mem_zipIdx_iff_getElem?]
  constructor
  · intro hall v hv
    obtain ⟨n, hn⟩ := List.getElem?_of_mem hv
    exact hall _ ⟨(v, n), hn, rfl⟩
  · rintro hall - ⟨⟨v, n⟩, hn, rfl⟩
    exact hall v (List.mem_of_getElem? hn)

theorem nonemptyString_eq_ok {value field : String} :
    nonemptyString value field = .ok () ↔ isBlank value = false := require_eq_ok

theorem stringArray_eq_ok {values : List String} {allowEmpty : Bool} :
    stringArray values field allowEmpty = .ok () ↔
      (allowEmpty ∨ values ≠ []) ∧ FilledTexts values := by
  rw [stringArray, require_bind_eq_ok, unit_bind_eq_ok, require_eq_ok, forM_eq_ok,
    forall_indexed nonemptyString fun _ _ => nonemptyString_eq_ok]
  exact and_congr_right fun _ => ⟨fun h => ⟨h.1, h.2⟩, fun h => ⟨h.filled, h.nodup⟩⟩

theorem stringArray_nonempty_eq_ok {values : List String} :
    stringArray values field false = .ok () ↔ values ≠ [] ∧ FilledTexts values := by
  rw [stringArray_eq_ok]
  simp

theorem stringMapping_eq_ok {values : Dict String String} :
    stringMapping values field = .ok () ↔ FilledTable values := by
  rw [stringMapping, require_bind_eq_ok, forM_eq_ok]
  refine and_congr_right fun _ => forall₂_congr fun item _ => ?_
  rw [unit_bind_eq_ok, nonemptyString_eq_ok, nonemptyString_eq_ok]

theorem positiveNumber_eq_ok {value : F} :
    positiveNumber value field = .ok () ↔ 0 < value := require_eq_ok

theorem repositoryPath_eq_ok {path field : String} :
    repositoryPath path field = .ok () ↔ AcceptedPath path := by
  have hsame (other : String) : (normalizeRepositoryPath (.str path) field).isOk =
      (normalizeRepositoryPath (.str path) other).isOk := by
    unfold normalizeRepositoryPath
    dsimp only
    split_ifs <;> rfl
  rw [repositoryPath, Audit.map_eq_ok]
  constructor
  · intro ⟨value, hvalue, _⟩
    exact ⟨field, by rw [hvalue]; rfl⟩
  · intro ⟨other, hother⟩
    rw [← hsame other] at hother
    cases hvalue : normalizeRepositoryPath (.str path) field with
    | error message =>
      rw [hvalue] at hother
      cases hother
    | ok value => exact ⟨value, rfl, rfl⟩

theorem canonicalRequiredPath_eq_ok {required : RequiredPath} :
    canonicalRequiredPath required field = .ok () ↔ CanonicalRequired required := by
  rw [canonicalRequiredPath]
  by_cases hbase : required.availability = "base"
  · rw [if_pos hbase, unit_bind_eq_ok, require_eq_ok, repositoryPath_eq_ok]
    exact ⟨fun h => ⟨h.2, fun _ => h.1, fun hnot => absurd hbase hnot⟩,
      fun h => ⟨h.base hbase, h.path⟩⟩
  · rw [if_neg hbase, unit_bind_eq_ok, require_eq_ok]
    cases hproducer : required.producerRunId with
    | none =>
      refine iff_of_false (fun h => nomatch h.2) fun h => ?_
      obtain ⟨-, producer, hsome, -⟩ := h.created hbase
      rw [hproducer] at hsome
      cases hsome
    | some producer =>
      rw [unit_bind_eq_ok, nonemptyString_eq_ok, repositoryPath_eq_ok]
      constructor
      · intro h
        exact ⟨h.2.2, fun hnot => absurd hnot hbase, fun _ => ⟨h.1, producer, hproducer, h.2.1⟩⟩
      · intro h
        obtain ⟨hcreated, producer', hsome, hfilled⟩ := h.created hbase
        cases hproducer.symm.trans hsome
        exact ⟨hcreated, hfilled, h.path⟩

theorem canonicalPathIntent_eq_ok {intent : PathIntent} :
    canonicalPathIntent intent field = .ok () ↔ CanonicalIntent intent := by
  rw [canonicalPathIntent, require_bind_eq_ok, repositoryPath_eq_ok]
  exact ⟨fun h => ⟨h.1, h.2⟩, fun h => ⟨h.action, h.path⟩⟩

theorem canonicalGate_eq_ok {gate : VerificationGate F} :
    canonicalGate gate field = .ok () ↔ CanonicalGate gate := by
  rw [canonicalGate, unit_bind_eq_ok, unit_bind_eq_ok, nonemptyString_eq_ok,
    stringArray_nonempty_eq_ok, positiveNumber_eq_ok]
  exact ⟨fun h => ⟨h.1, h.2.1, h.2.2⟩, fun h => ⟨h.name, h.words, h.timeout⟩⟩

theorem canonicalCommand_eq_ok {command : FunctionalityCommand F} :
    canonicalCommand command field = .ok () ↔ CanonicalCommand command := by
  cases command with
  | shell text => exact iff_of_false (fun h => nomatch h) id
  | command argv timeoutSeconds requiredPaths =>
    rw [canonicalCommand, unit_bind_eq_ok, unit_bind_eq_ok, stringArray_nonempty_eq_ok,
      positiveNumber_eq_ok, forM_eq_ok, forall_indexed canonicalRequiredPath fun _ _ =>
        canonicalRequiredPath_eq_ok]
    rfl

theorem canonicalRun_eq_ok {run : ContractRun F} :
    canonicalRun run field = .ok () ↔ CanonicalRun run := by
  have hgates : (if run.verificationGates.length ≠ 0 then do
        require (run.verificationArgv = [])
          (field ++ " may declare verification_argv or verification_gates, not both")
        canonicalGateTuple run.verificationGates (field ++ ".verification_gates")
      else pure ()) = .ok () ↔
      (run.verificationGates ≠ [] → run.verificationArgv = []) ∧
        (∀ gate ∈ run.verificationGates, CanonicalGate gate) ∧
        (run.verificationGates.map (·.name)).Nodup := by
    by_cases hnone : run.verificationGates = []
    · rw [if_neg (by simp [hnone])]
      simp [hnone, pure, Except.pure]
    · rw [if_pos (by simpa using hnone), require_bind_eq_ok, canonicalGateTuple, unit_bind_eq_ok,
        require_eq_ok, forM_eq_ok, forall_indexed canonicalGate fun _ _ => canonicalGate_eq_ok]
      simp [hnone]
  rw [canonicalRun]
  simp only [unit_bind_eq_ok, require_eq_ok, nonemptyString_eq_ok, stringArray_eq_ok,
    positiveNumber_eq_ok, forM_eq_ok, hgates]
  rw [forall_indexed repositoryPath fun _ _ => repositoryPath_eq_ok,
    forall_indexed canonicalPathIntent fun _ _ => canonicalPathIntent_eq_ok,
    forall_indexed canonicalRequiredPath fun _ _ => canonicalRequiredPath_eq_ok]
  constructor
  · rintro ⟨hid, hobjective, hsections, hcriteria, ⟨-, hdepends⟩, hgranted, hpaths, hdistinct,
      hintents, hinside, hargv, htimeout, hrequired, hflat, hgate, hnames⟩
    refine ⟨hid, hobjective, by simpa using hsections, by simpa using hcriteria, hdepends, hgranted,
      hpaths, hdistinct, fun intent hintent => ⟨hintents intent hintent, hinside intent hintent⟩,
      by simpa using hargv, htimeout, hrequired, hflat, hgate, hnames⟩
  · intro h
    refine ⟨h.id, h.objective, by simpa using h.planSections, by simpa using h.criteria,
      ⟨.inl trivial, h.dependsOn⟩, h.granted, h.grants, h.distinct,
      fun intent hintent => (h.intents intent hintent).1,
      fun intent hintent => (h.intents intent hintent).2, by simpa using h.argv, h.timeout,
      h.required, h.gates, h.gateTuple, h.gateNames⟩

/-- **The payloads that the plan contract accepts.** -/
theorem canonicalPlanGraphPayload_eq_ok {d : Decomposition F} :
    canonicalPlanGraphPayload d = .ok () ↔ CanonicalDecomposition d := by
  rw [canonicalPlanGraphPayload]
  rw [unit_bind_eq_ok, unit_bind_eq_ok, unit_bind_eq_ok, require_bind_eq_ok, unit_bind_eq_ok,
    unit_bind_eq_ok, unit_bind_eq_ok, require_eq_ok, repositoryPath_eq_ok, stringMapping_eq_ok,
    stringMapping_eq_ok, forM_eq_ok, forM_eq_ok, forM_eq_ok,
    forall_indexed canonicalRun fun _ _ => canonicalRun_eq_ok,
    forall_indexed canonicalCommand fun _ _ => canonicalCommand_eq_ok,
    forall_indexed repositoryPath fun _ _ => repositoryPath_eq_ok]
  constructor
  · rintro ⟨hplan, hsections, hcriteria, hnonempty, hruns, hcommands, hartifacts, hnodup⟩
    exact ⟨hplan, hsections, hcriteria, by simpa using hnonempty, hruns, hcommands, hartifacts,
      hnodup⟩
  · intro h
    exact ⟨h.plan, h.planSections, h.acceptanceCriteria, by simpa using h.nonempty, h.runs,
      h.commands, h.artifacts, h.artifactsNodup⟩

end Canonical

/-! ## What validation establishes -/

section Validated

variable {F : Type} [Zero F] [LT F] [DecidableLT F] {p : ContractPlan F}

structure ValidatedGate (gate : VerificationGate F) : Prop where
  name : isBlank gate.name = false
  words : gate.argv ≠ [] ∧ wordsFilled gate.argv = true
  timeout : 0 < gate.timeoutSeconds

/-- A run as validation accepts it. -/
structure ValidatedRun (p : ContractPlan F) (run : ContractRun F) : Prop where
  id : run.id ≠ ""
  context : isBlank run.objective = false ∧ run.planSections ≠ []
  words : wordsFilled run.verificationArgv = true
  verified : run.verificationArgv ≠ [] ∨ run.verificationGates ≠ []
  either : run.verificationArgv = [] ∨ run.verificationGates = []
  gateNames : (run.verificationGates.map (·.name)).Nodup
  gates : ∀ gate ∈ run.verificationGates, ValidatedGate gate
  grants : wordsFilled run.allowedPaths = true
  granted : run.allowedPaths ≠ []
  timeout : 0 < run.verificationTimeoutSeconds
  intents : ∀ intent ∈ run.pathIntents, (intent.action = "create" ∨ intent.action = "modify") ∧
    pathIsAllowed intent.path run.allowedPaths = true
  planSections : ∀ part ∈ run.planSections, part ∈ p.planSections.keys
  criteria : ∀ criterion ∈ run.criteria, criterion ∈ p.acceptanceCriteria.keys
  dependsOn : ∀ dependency ∈ run.dependsOn,
    dependency ∈ p.runs.map (·.id) ∧ dependency ≠ run.id

def ValidatedTest : FunctionalityCommand F → Prop
  | .command argv timeoutSeconds _ => (argv ≠ [] ∧ wordsFilled argv = true) ∧ 0 < timeoutSeconds
  | .shell text => isBlank text = false

/-- A plan as validation accepts it. -/
structure ValidatedPlan (p : ContractPlan F) : Prop where
  named : p.plan ≠ "" ∧ p.baseCommit ≠ ""
  runs : ∀ run ∈ p.runs, ValidatedRun p run
  ids : (p.runs.map (·.id)).Nodup
  assigned : ∀ criterion ∈ p.acceptanceCriteria.keys, ∃ run ∈ p.runs, criterion ∈ run.criteria
  tests : ∀ test ∈ p.functionalityTests, ValidatedTest test
  acyclic : ∀ id, ¬ Dag.Needs (dependenciesOf p.planRuns) id id
  required : ∀ run ∈ p.runs, ∀ required ∈ run.verificationRequiredPaths,
    Provided p (some run.id) required
  testRequired : ∀ test ∈ p.functionalityTests, ∀ required ∈ test.requiredPaths,
    Provided p none required

theorem validateGate_eq_ok {run : ContractRun F} {gate : VerificationGate F} :
    validateGate run gate = .ok () ↔ ValidatedGate gate := by
  rw [validateGate, require_bind_eq_ok, require_bind_eq_ok, require_eq_ok]
  exact ⟨fun h => ⟨h.1, h.2.1, h.2.2⟩, fun h => ⟨h.name, h.words, h.timeout⟩⟩

theorem validatePlanRun_eq_ok {seen : List String} {run : ContractRun F} :
    validatePlanRun p seen run = .ok () ↔ run.id ∉ seen ∧ ValidatedRun p run := by
  rw [validatePlanRun]
  simp only [unit_bind_eq_ok, require_eq_ok, forM_eq_ok, validateGate_eq_ok]
  constructor
  · rintro ⟨⟨hid, hfresh⟩, hcontext, hwords, hverified, heither, hnames, hgates, hgrants, hgranted,
      htimeout, hintents, hsections, hcriteria, hdepends⟩
    exact ⟨hfresh, hid, hcontext, hwords, by simpa using hverified, by simpa using heither, hnames,
      hgates, hgrants, hgranted, htimeout, hintents, hsections, hcriteria, hdepends⟩
  · rintro ⟨hfresh, h⟩
    exact ⟨⟨h.id, hfresh⟩, h.context, h.words, by simpa using h.verified, by simpa using h.either,
      h.gateNames, h.gates, h.grants, h.granted, h.timeout, h.intents, h.planSections, h.criteria,
      h.dependsOn⟩

theorem validatePlanRuns_eq_ok {seen : List String} {runs : List (ContractRun F)} :
    validatePlanRuns p seen runs = .ok () ↔
      (∀ run ∈ runs, run.id ∉ seen ∧ ValidatedRun p run) ∧ (runs.map (·.id)).Nodup := by
  induction runs generalizing seen with
  | nil => simp [validatePlanRuns]
  | cons run rest ih =>
    rw [validatePlanRuns, unit_bind_eq_ok, validatePlanRun_eq_ok, ih, List.forall_mem_cons,
      List.map_cons, List.nodup_cons]
    constructor
    · rintro ⟨hrun, hrest, hnodup⟩
      refine ⟨⟨hrun, fun other hother => ⟨fun hseen => ?_, (hrest other hother).2⟩⟩, ?_, hnodup⟩
      · exact (hrest other hother).1 (List.mem_append_left _ hseen)
      · rintro hmem
        obtain ⟨other, hother, heq⟩ := List.mem_map.1 hmem
        exact (hrest other hother).1 (by simp [heq])
    · rintro ⟨⟨hrun, hrest⟩, hfresh, hnodup⟩
      refine ⟨hrun, fun other hother => ⟨fun hmem => ?_, (hrest other hother).2⟩, hnodup⟩
      rcases List.mem_append.1 hmem with hseen | hself
      · exact (hrest other hother).1 hseen
      · refine hfresh (List.mem_map.2 ⟨other, hother, ?_⟩)
        simpa using hself

omit [Zero F] [LT F] [DecidableLT F] in
theorem unassigned_eq_nil : unassigned p = [] ↔
    ∀ criterion ∈ p.acceptanceCriteria.keys, ∃ run ∈ p.runs, criterion ∈ run.criteria := by
  simp [unassigned, List.filter_eq_nil_iff]

theorem validateFunctionalityTest_eq_ok {test : FunctionalityCommand F} :
    validateFunctionalityTest test = .ok () ↔ ValidatedTest test := by
  cases test with
  | command argv timeoutSeconds requiredPaths =>
    rw [validateFunctionalityTest, require_bind_eq_ok, require_eq_ok]
    rfl
  | shell text => exact require_eq_ok

omit [DecidableLT F] in
theorem knownRuns_of_runs (hruns : ∀ run ∈ p.runs, ValidatedRun p run)
    (hids : (p.runs.map (·.id)).Nodup) : KnownRuns p.planRuns := by
  have hmap : runIds p.planRuns = p.runs.map (·.id) := by
    simp [runIds, ContractPlan.planRuns, Function.comp_def]
  refine ⟨hmap ▸ hids, fun run hrun d hd => ?_⟩
  obtain ⟨source, hsource, rfl⟩ := List.mem_map.1 hrun
  rw [hmap]
  exact ((hruns source hsource).dependsOn d hd).1

omit [DecidableLT F] in
theorem ValidatedPlan.knownRuns (h : ValidatedPlan p) : KnownRuns p.planRuns :=
  knownRuns_of_runs h.runs h.ids

/-- **The plans that validation accepts.** -/
theorem validatePlanGraphPlan_eq_ok : validatePlanGraphPlan p = .ok () ↔ ValidatedPlan p := by
  rw [validatePlanGraphPlan, require_bind_eq_ok, unit_bind_eq_ok, validatePlanRuns_eq_ok,
    require_bind_eq_ok, unassigned_eq_nil, unit_bind_eq_ok, forM_eq_ok, Audit.bind_eq_ok]
  simp only [validateFunctionalityTest_eq_ok, List.not_mem_nil, not_false_eq_true, true_and]
  constructor
  · rintro ⟨hnamed, ⟨hruns, hids⟩, hassigned, htests, ordered, hordered, hrequired⟩
    have hknown := knownRuns_of_runs hruns hids
    obtain ⟨hall, hcommands⟩ := (validateCommandDependencies_eq_ok hknown).1 hrequired
    exact ⟨hnamed, hruns, hids, hassigned, htests, hknown.isOk_iff.1 ⟨ordered, hordered⟩, hall,
      hcommands⟩
  · intro h
    obtain ⟨ordered, hordered⟩ := h.knownRuns.isOk_iff.2 h.acyclic
    exact ⟨h.named, ⟨h.runs, h.ids⟩, h.assigned, h.tests, ordered, hordered,
      (validateCommandDependencies_eq_ok h.knownRuns).2 ⟨h.required, h.testRequired⟩⟩

/-- **A decomposition that is admitted**: the plan contract accepts the payload, and validation the
plan that is read from it. -/
structure ValidPlan (d : Decomposition F) (baseCommit : String) : Prop where
  canonical : canonicalPlanGraphPayload d = .ok ()
  validated : validatePlanGraphPlan (planFromMapping d baseCommit) = .ok ()

theorem validPlan_iff {d : Decomposition F} {baseCommit : String} :
    ValidPlan d baseCommit ↔
      CanonicalDecomposition d ∧ ValidatedPlan (planFromMapping d baseCommit) := by
  rw [← canonicalPlanGraphPayload_eq_ok, ← validatePlanGraphPlan_eq_ok]
  exact ⟨fun h => ⟨h.1, h.2⟩, fun h => ⟨h.1, h.2⟩⟩

end Validated

end HarnessLabs.PlanGraph
