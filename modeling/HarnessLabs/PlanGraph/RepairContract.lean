import HarnessLabs.Core.AuditJournal
import HarnessLabs.Lib.AsciiJson
import HarnessLabs.PlanGraph.Plan
import Mathlib.Data.List.Sort

/-!
# The digest that admits a repair

A repair attempt continues a finished one when both compute the same `plan_graph_digest`. The digest
is taken over a projection of the nodes: their objective, sections, criteria, dependencies and a
verification argv, into which the gates of a node are packed as JSON texts. The write grant of a node
is not in the projection, and an argv whose words are such texts reads like gates.

* `planGraphDigest` — the digest of a plan, on the nodes that it is given.
* `openRepairPredecessor` — the admission of a finished attempt.
* `digest_binds_iff` — **equal digests mean equal authority exactly when the grants of every node
  agree and no node is flat in one plan and gated in the other.**
-/

namespace HarnessLabs.PlanGraph

open AsciiJson Audit List

/-! ## Plans -/

structure RequiredPath where
  path : String
  availability : String
  producerRunId : Option String
  deriving DecidableEq

structure PathIntent where
  path : String
  action : String
  deriving DecidableEq

/-- The timeouts are floats, of a type `F` that comes with their texts. -/
structure VerificationGate (F : Type) where
  name : String
  argv : List String
  timeoutSeconds : F

structure ContractRun (F : Type) extends PlanRun where
  objective : String
  planSections : List String
  criteria : List String
  verificationArgv : List String
  pathIntents : List PathIntent
  verificationTimeoutSeconds : F
  verificationRequiredPaths : List RequiredPath
  verificationGates : List (VerificationGate F)

inductive FunctionalityCommand (F : Type) where
  | command (argv : List String) (timeoutSeconds : F) (requiredPaths : List RequiredPath)
  | shell (text : String)

structure ContractPlan (F : Type) where
  plan : String
  baseCommit : String
  runs : List (ContractRun F)
  planSections : Dict String String
  acceptanceCriteria : Dict String String
  functionalityTests : List (FunctionalityCommand F)

/-! ## Validation -/

section Validation

variable {F : Type}

/-- What `validate_plan_graph_plan` checks of the id, the verification and the grant of a run. -/
def checkRun (seen : List String) (run : ContractRun F) : Except String Unit := do
  require (run.id ≠ "" ∧ run.id ∉ seen) s!"duplicate or empty run id: '{run.id}'"
  require (∀ word ∈ run.verificationArgv, word ≠ "")
    s!"run '{run.id}' verification_argv contains an empty value"
  require (run.verificationArgv = [] ∨ run.verificationGates.length = 0)
    s!"run '{run.id}' may declare verification_argv or verification_gates, not both"
  require (run.verificationGates.map (·.name)).Nodup
    s!"run '{run.id}' verification_gates has duplicate names"
  require (∀ gate ∈ run.verificationGates, gate.argv ≠ [] ∧ ∀ word ∈ gate.argv, word ≠ "")
    s!"run '{run.id}' verification_gates argv contains an empty value"
  require (∀ path ∈ run.allowedPaths, path ≠ "")
    s!"run '{run.id}' allowed_paths contains an empty value"

def checkRuns (seen : List String) : List (ContractRun F) → Except String Unit
  | [] => .ok ()
  | run :: rest => do
    checkRun seen run
    checkRuns (seen ++ [run.id]) rest

/-- The plans that validation accepts. -/
def ContractPlan.Valid (p : ContractPlan F) : Prop := checkRuns [] p.runs = .ok ()

instance (p : ContractPlan F) : Decidable p.Valid := inferInstanceAs (Decidable (_ = _))

theorem checkRun_eq_ok {seen : List String} {run : ContractRun F}
    (h : checkRun seen run = .ok ()) :
    run.id ∉ seen ∧ (run.verificationArgv = [] ∨ run.verificationGates = []) := by
  obtain ⟨⟨-, hfresh⟩, h⟩ := require_bind_eq_ok.1 h
  obtain ⟨-, h⟩ := require_bind_eq_ok.1 h
  obtain ⟨hone, -⟩ := require_bind_eq_ok.1 h
  exact ⟨hfresh, hone.imp_right eq_nil_of_length_eq_zero⟩

theorem checkRuns_eq_ok {seen : List String} {runs : List (ContractRun F)}
    (h : checkRuns seen runs = .ok ()) :
    (runs.map (·.id)).Nodup ∧ (∀ run ∈ runs, run.id ∉ seen) ∧
      ∀ run ∈ runs, run.verificationArgv = [] ∨ run.verificationGates = [] := by
  induction runs generalizing seen with
  | nil => exact ⟨nodup_nil, nofun, nofun⟩
  | cons run runs ih =>
    obtain ⟨u, hrun, hrest⟩ := bind_eq_ok.1 h
    obtain ⟨hfresh, hone⟩ := checkRun_eq_ok hrun
    obtain ⟨hnodup, hseen, hones⟩ := ih hrest
    refine ⟨nodup_cons.2 ⟨fun hmem => ?_, hnodup⟩, ?_, ?_⟩
    · obtain ⟨other, hother, heq⟩ := mem_map.1 hmem
      exact hseen other hother (by simp [heq])
    · rw [forall_mem_cons]
      exact ⟨hfresh, fun other hother hmem => hseen other hother (mem_append_left _ hmem)⟩
    · rw [forall_mem_cons]
      exact ⟨hone, hones⟩

end Validation

/-! ## Mappings -/

section Mappings

variable {F : Type} (numeral : F → List Char)

def texts (words : List String) : Value F := .arr (words.map .str)

/-- `_gate_mapping`. -/
def gateMapping (gate : VerificationGate F) : Value F :=
  .obj [("argv", texts gate.argv), ("name", .str gate.name),
    ("timeout_seconds", .num gate.timeoutSeconds)]

/-- `_contract_verification_argv`. -/
def contractVerificationArgv (run : ContractRun F) : List String :=
  if run.verificationGates.length = 0 then run.verificationArgv
  else run.verificationGates.map fun gate => String.ofList (encode numeral (gateMapping gate))

def requiredPathMapping (required : RequiredPath) : Value F :=
  .obj ([("availability", .str required.availability), ("path", .str required.path)] ++
    match required.producerRunId with
    | none => []
    | some id => [("producer_run_id", .str id)])

def pathIntentMapping (intent : PathIntent) : Value F :=
  .obj [("action", .str intent.action), ("path", .str intent.path)]

/-- `_functionality_test_payload`. -/
def functionalityTestPayload : FunctionalityCommand F → Value F
  | .shell text => .str text
  | .command argv timeoutSeconds requiredPaths =>
    .obj [("argv", texts argv), ("required_paths", .arr (requiredPaths.map requiredPathMapping)),
      ("timeout_seconds", .num timeoutSeconds)]

/-- The fields of a node. -/
abbrev NodeFields (F : Type) := List (String × Value F)

/-- `_run_mapping`, without the id, which the controller takes out, and the verification argv, which it
overrides. -/
def runMapping (run : ContractRun F) : NodeFields F :=
  [("objective", .str run.objective), ("plan_sections", texts run.planSections),
    ("criteria", texts run.criteria), ("depends_on", texts run.dependsOn),
    ("allowed_paths", texts run.allowedPaths),
    ("path_intents", .arr (run.pathIntents.map pathIntentMapping)),
    ("verification_timeout_seconds", .num run.verificationTimeoutSeconds),
    ("verification_required_paths",
      .arr (run.verificationRequiredPaths.map requiredPathMapping))] ++
    if run.verificationGates.length = 0 then []
    else [("verification_gates", .arr (run.verificationGates.map gateMapping))]

/-- What the controller keeps of a node besides its plan. -/
structure NodeRecord where
  status : String
  featureRunId : String
  runDir : String
  finishedAt : Option String
  candidateCommit : Option String
  reusedFromAttempt : Option String

def optionalText : Option String → Value F
  | none => .null
  | some s => .str s

/-- A node of `_audit_for_run`. -/
def auditNode (record : NodeRecord) (run : ContractRun F) : NodeFields F :=
  ("status", .str record.status) :: runMapping run ++
    [("verification_argv", texts (contractVerificationArgv numeral run)),
      ("feature_run_id", .str record.featureRunId), ("run_dir", .str record.runDir),
      ("started_at", .null), ("finished_at", optionalText record.finishedAt),
      ("candidate_commit", optionalText record.candidateCommit),
      ("reused_from_attempt", optionalText record.reusedFromAttempt)]

/-- A node of `_contract_nodes`. -/
def contractNode (run : ContractRun F) : NodeFields F :=
  [("objective", .str run.objective), ("plan_sections", texts run.planSections),
    ("depends_on", texts run.dependsOn), ("criteria", texts run.criteria),
    ("verification_argv", texts (contractVerificationArgv numeral run)),
    ("verification_gates", .arr (run.verificationGates.map gateMapping))]

/-! ## The digest -/

/-- `contract_keys`, in key order. -/
def contractKeys : List String :=
  ["criteria", "depends_on", "objective", "plan_sections", "verification_argv"]

def project (fields : NodeFields F) : Value F :=
  .obj (contractKeys.map fun key => (key, (fields.lookup key).getD .null))

/-- A mapping as `sort_keys` writes it. -/
def sortMembers (members : List (String × Value F)) : List (String × Value F) :=
  members.insertionSort fun a b => a.1 ≤ b.1

def textMapping (d : Dict String String) : Value F :=
  .obj (sortMembers (d.items.map fun m => (m.1, .str m.2)))

/-- What `_plan_graph_digest` hashes. -/
def digestPayload (p : ContractPlan F) (planDigest : String)
    (nodes : List (String × NodeFields F)) : Value F :=
  .obj [("acceptance_criteria", textMapping p.acceptanceCriteria),
    ("base_commit", .str p.baseCommit),
    ("functionality_tests", .arr (p.functionalityTests.map functionalityTestPayload)),
    ("nodes", .obj (sortMembers (nodes.map fun node => (node.1, project node.2)))),
    ("plan", .str p.plan), ("plan_digest", .str planDigest),
    ("plan_sections", textMapping p.planSections)]

def digestBytes (p : ContractPlan F) (planDigest : String)
    (nodes : List (String × NodeFields F)) : List ℕ :=
  Json.utf8 (encode numeral (digestPayload p planDigest nodes))

/-- `_plan_graph_digest`. -/
def planGraphDigest (p : ContractPlan F) (planDigest : String)
    (nodes : List (String × NodeFields F)) : String :=
  Sha256.hexdigest (digestBytes numeral p planDigest nodes)

/-- `_contract_nodes`. -/
def contractNodes (p : ContractPlan F) : List (String × NodeFields F) :=
  p.runs.map fun run => (run.id, contractNode numeral run)

/-- The nodes of `_audit_for_run`, in the order of `_ordered_runs`. -/
def auditNodes (record : String → NodeRecord) (ordered : List (ContractRun F)) :
    List (String × NodeFields F) :=
  ordered.map fun run => (run.id, auditNode numeral (record run.id) run)

end Mappings

/-! ## Admission -/

/-- `_ordered_runs`. -/
def ContractPlan.ordered {F : Type} (p : ContractPlan F) : Except String (List (ContractRun F)) :=
  (orderedRuns (p.runs.map (·.toPlanRun))).map fun ordered =>
    ordered.filterMap fun run => p.runs.find? (·.id = run.id)

/-- What `open_repair_predecessor` reads of a finished attempt whose journal verifies. -/
structure RepairPredecessor where
  manifestStatus : String
  terminalGraphStatus : Option String
  bindingLogicalGraphId : Option String
  logicalGraphId : Option String
  graphAttemptId : Option String
  approvedPlanSha256 : Option String
  baseCommit : Option String
  planGraphDigest : Option String

/-- The logical graph of the attempt: the one that is asked for, or the one it was registered
under. -/
def RepairPredecessor.resolve (pred : RepairPredecessor) (graphRunId : String) :
    Option String → Except String String
  | none =>
    match pred.bindingLogicalGraphId with
    | none => .error "predecessor attempt has no persisted registration-binding logical_graph_id"
    | some id =>
      if id = "" then
        .error "predecessor attempt has no persisted registration-binding logical_graph_id"
      else .ok id
  | some id =>
    if pred.logicalGraphId.getD graphRunId ≠ id then
      .error "predecessor is not a matching failed or blocked attempt"
    else .ok id

/-- `open_repair_predecessor`. -/
def openRepairPredecessor (pred : RepairPredecessor) (graphRunId planSha256 baseCommit : String)
    (logicalGraphId : Option String) (digest : String) : Except String String := do
  let id ← pred.resolve graphRunId logicalGraphId
  require (pred.manifestStatus ∈ ["failed", "blocked"] ∧
      pred.terminalGraphStatus ∈ [some "failed", some "blocked"] ∧
      pred.graphAttemptId.getD graphRunId = graphRunId ∧
      pred.approvedPlanSha256 = some planSha256 ∧ pred.baseCommit = some baseCommit ∧
      pred.planGraphDigest = some digest) "predecessor is not a matching failed or blocked attempt"
  return id

/-! ## Authority -/

section Authority

variable {F : Type}

/-- What a node is asked to do, how it is verified, and where it may write. -/
structure ContractRun.SameAuthority (run run' : ContractRun F) : Prop where
  id : run.id = run'.id
  objective : run.objective = run'.objective
  dependsOn : run.dependsOn = run'.dependsOn
  criteria : run.criteria = run'.criteria
  argv : run.verificationArgv = run'.verificationArgv
  gates : run.verificationGates = run'.verificationGates
  paths : run.allowedPaths = run'.allowedPaths

/-- Both plans have the same nodes, with the same authority. -/
def SameAuthority (p q : ContractPlan F) : Prop :=
  (∀ run ∈ p.runs, ∃ run' ∈ q.runs, run.SameAuthority run') ∧
    ∀ run' ∈ q.runs, ∃ run ∈ p.runs, run.SameAuthority run'

/-- What the digest does not see agrees: the grants of a node, and whether it has gates. -/
def Covered (p q : ContractPlan F) : Prop :=
  ∀ run ∈ p.runs, ∀ run' ∈ q.runs, run.id = run'.id →
    run.allowedPaths = run'.allowedPaths ∧
      (run.verificationGates = [] ↔ run'.verificationGates = [])

theorem eq_of_id {runs : List (ContractRun F)} (h : (runs.map (·.id)).Nodup) {a b : ContractRun F}
    (ha : a ∈ runs) (hb : b ∈ runs) (hid : a.id = b.id) : a = b :=
  inj_on_of_nodup_map h ha hb hid

/-! ### The projection -/

section Projection

variable {numeral : F → List Char}

/-- Both callers compute the digest over the same projection. -/
theorem project_auditNode (record : NodeRecord) (run : ContractRun F) :
    project (auditNode numeral record run) = project (contractNode numeral run) := by
  by_cases hgates : run.verificationGates.length = 0 <;>
    simp [project, contractKeys, auditNode, contractNode, runMapping, hgates, List.lookup_cons]

theorem texts_injective : Function.Injective (texts (F := F)) := by
  intro a b h
  exact map_injective_iff.2 (fun _ _ => Value.str.inj) (Value.arr.inj h)

theorem project_contractNode {run run' : ContractRun F}
    (h : project (contractNode numeral run) = project (contractNode numeral run')) :
    run.criteria = run'.criteria ∧ run.dependsOn = run'.dependsOn ∧
      run.objective = run'.objective ∧
      contractVerificationArgv numeral run = contractVerificationArgv numeral run' := by
  simp [project, contractKeys, contractNode, List.lookup_cons] at h
  obtain ⟨hcriteria, hdepends, hobjective, -, hargv⟩ := h
  exact ⟨texts_injective hcriteria, texts_injective hdepends, hobjective, texts_injective hargv⟩

/-- The text of a gate determines it. -/
theorem gateMapping_inj (hnum : Numerals numeral) {gate gate' : VerificationGate F}
    (h : encode numeral (gateMapping gate) = encode numeral (gateMapping gate')) : gate = gate' := by
  have hvalue := encode_inj hnum h
  obtain ⟨name, argv, timeoutSeconds⟩ := gate
  simp only [gateMapping, Value.obj.injEq, List.cons.injEq, Prod.mk.injEq, true_and, and_true,
    Value.str.injEq, Value.num.injEq] at hvalue
  obtain ⟨hargv, rfl, rfl⟩ := hvalue
  rw [texts_injective hargv]

/-- Where both nodes have gates, or neither has, the packed argv determines the verification. -/
theorem verification_eq (hnum : Numerals numeral) {run run' : ContractRun F}
    (hone : run.verificationArgv = [] ∨ run.verificationGates = [])
    (hone' : run'.verificationArgv = [] ∨ run'.verificationGates = [])
    (hshape : run.verificationGates = [] ↔ run'.verificationGates = [])
    (h : contractVerificationArgv numeral run = contractVerificationArgv numeral run') :
    run.verificationArgv = run'.verificationArgv ∧
      run.verificationGates = run'.verificationGates := by
  simp only [contractVerificationArgv, length_eq_zero_iff] at h
  by_cases hflat : run.verificationGates = []
  · rw [if_pos hflat, if_pos (hshape.1 hflat)] at h
    exact ⟨h, hflat.trans (hshape.1 hflat).symm⟩
  · have hflat' : run'.verificationGates ≠ [] := fun h => hflat (hshape.2 h)
    rw [if_neg hflat, if_neg hflat'] at h
    refine ⟨?_, map_injective_iff.2 (fun _ _ hgate =>
      gateMapping_inj hnum (String.ofList_injective hgate)) h⟩
    rw [hone.resolve_right hflat, hone'.resolve_right hflat']

end Projection

/-! ### Sorted members -/

theorem sortMembers_perm {ms ns : List (String × Value F)} (h : sortMembers ms = sortMembers ns) :
    ms.Perm ns := by
  have hms : (sortMembers ms).Perm ms := perm_insertionSort _ ms
  have hns : (sortMembers ns).Perm ns := perm_insertionSort _ ns
  rw [h] at hms
  exact hms.symm.trans hns

theorem sortMembers_eq {ms ns : List (String × Value F)} (hnodup : (ms.map Prod.fst).Nodup)
    (h : ms.Perm ns) : sortMembers ms = sortMembers ns := by
  have hperm : (sortMembers ms).Perm (sortMembers ns) :=
    (perm_insertionSort _ ms).trans (h.trans (perm_insertionSort _ ns).symm)
  have hsorted (l : List (String × Value F)) : (sortMembers l).Pairwise fun a b => a.1 ≤ b.1 :=
    pairwise_insertionSort _ l
  refine hperm.eq_of_pairwise (fun a b ha hb hab hba => ?_) (hsorted ms) (hsorted ns)
  refine inj_on_of_nodup_map hnodup ((perm_insertionSort _ ms).mem_iff.1 ha) ?_
    (le_antisymm hab hba)
  exact h.mem_iff.2 ((perm_insertionSort _ ns).mem_iff.1 hb)

/-! ### The nodes -/

section Nodes

variable {numeral : F → List Char} {p q : ContractPlan F}

/-- The order of the runs is one of all of them. -/
theorem ordered_perm (hp : p.Valid) {ordered : List (ContractRun F)}
    (h : p.ordered = .ok ordered) : ordered.Perm p.runs := by
  obtain ⟨hnodup, -, -⟩ := checkRuns_eq_ok hp
  rw [ContractPlan.ordered] at h
  cases hplan : orderedRuns (p.runs.map (·.toPlanRun)) with
  | error e =>
    rw [hplan] at h
    cases h
  | ok runs =>
    rw [hplan] at h
    obtain rfl := Except.ok.inj h
    obtain ⟨horder, hmem⟩ := PlanGraphPlan.orderedRuns_eq_ok hplan
    obtain ⟨hordered, hall⟩ := Dag.ordered_postorder horder
    have hruns : (runs.map (·.id)).Nodup := hordered.nodup
    have hfind : ∀ run ∈ runs, ∃ r ∈ p.runs, p.runs.find? (·.id = run.id) = some r ∧
        r.id = run.id := by
      intro run hrun
      obtain ⟨r, hr, rfl⟩ := mem_map.1 (hmem run hrun)
      obtain ⟨r', hr'⟩ := Option.isSome_iff_exists.1
        (List.find?_isSome (p := fun x => decide (x.id = r.id)).2 ⟨r, hr, decide_eq_true rfl⟩)
      exact ⟨r', mem_of_find?_eq_some hr', hr', by simpa using List.find?_some hr'⟩
    have hback : (runs.filterMap fun run => p.runs.find? (·.id = run.id)).map (·.id) =
        runs.map (·.id) := by
      clear horder hplan hordered hall hruns hmem h
      induction runs with
      | nil => rfl
      | cons run runs ih =>
        obtain ⟨r, -, hr, hid⟩ := hfind run mem_cons_self
        simp only [filterMap_cons, hr, map_cons, hid]
        rw [ih fun run hrun => hfind run (mem_cons_of_mem _ hrun)]
    have hleft : (runs.filterMap fun run => p.runs.find? (·.id = run.id)).Nodup :=
      List.Nodup.of_map _ (hback ▸ hruns)
    refine (perm_ext_iff_of_nodup hleft (List.Nodup.of_map _ hnodup)).2 fun r => ?_
    constructor
    · intro hr
      obtain ⟨run, -, hrun⟩ := mem_filterMap.1 hr
      exact mem_of_find?_eq_some hrun
    · intro hr
      have hid : r.id ∈ runs.map (·.id) := hall _ (mem_map.2 ⟨r.toPlanRun,
        mem_map.2 ⟨r, hr, rfl⟩, rfl⟩)
      rw [← hback] at hid
      obtain ⟨r', hr', heq⟩ := mem_map.1 hid
      obtain ⟨run, -, hrun⟩ := mem_filterMap.1 hr'
      exact eq_of_id hnodup (mem_of_find?_eq_some hrun) hr heq ▸ hr'

/-- The digest that the attempt stores is the one that a repair computes for its plan. -/
theorem digestBytes_auditNodes (hp : p.Valid) {ordered : List (ContractRun F)}
    (h : p.ordered = .ok ordered) (record : String → NodeRecord) (planDigest : String) :
    digestBytes numeral p planDigest (auditNodes numeral record ordered) =
      digestBytes numeral p planDigest (contractNodes numeral p) := by
  have hperm := ordered_perm hp h
  have hnodup : (ordered.map (·.id)).Nodup :=
    (hperm.map (·.id)).nodup_iff.2 (checkRuns_eq_ok hp).1
  have hmembers : sortMembers ((auditNodes numeral record ordered).map
        fun node => (node.1, project node.2)) =
      sortMembers ((contractNodes numeral p).map fun node => (node.1, project node.2)) := by
    rw [auditNodes, contractNodes, map_map, map_map]
    have hsame : (fun run : ContractRun F => (run.id, project (auditNode numeral (record run.id) run)))
        = fun run => (run.id, project (contractNode numeral run)) := by
      funext run
      rw [project_auditNode]
    show sortMembers (ordered.map fun run => (run.id, project (auditNode numeral (record run.id) run)))
      = sortMembers (p.runs.map fun run => (run.id, project (contractNode numeral run)))
    rw [hsame]
    refine sortMembers_eq ?_ (hperm.map _)
    rw [map_map]
    exact hnodup
  rw [digestBytes, digestBytes, digestPayload, digestPayload, hmembers]

variable {planDigest planDigest' : String} {run : ContractRun F}

/-- The nodes of plans with one payload are the same, as far as the projection sees them. -/
theorem nodes_of_digestBytes (hnum : Numerals numeral)
    (h : digestBytes numeral p planDigest (contractNodes numeral p) =
      digestBytes numeral q planDigest' (contractNodes numeral q)) (hrun : run ∈ p.runs) :
    ∃ run' ∈ q.runs, run.id = run'.id ∧
      project (contractNode numeral run) = project (contractNode numeral run') := by
  have hpayload := encode_inj hnum (Json.utf8_injective h)
  simp only [digestPayload, Value.obj.injEq, List.cons.injEq, Prod.mk.injEq, true_and,
    and_true] at hpayload
  obtain ⟨-, -, -, hnodes, -⟩ := hpayload
  have hperm := sortMembers_perm hnodes
  have hmem : (run.id, project (contractNode numeral run)) ∈
      (contractNodes numeral p).map fun node => (node.1, project node.2) :=
    mem_map.2 ⟨_, mem_map.2 ⟨run, hrun, rfl⟩, rfl⟩
  obtain ⟨node, hnode, heq⟩ := mem_map.1 (hperm.mem_iff.1 hmem)
  obtain ⟨run', hrun', rfl⟩ := mem_map.1 hnode
  obtain ⟨hid, hproject⟩ := Prod.mk.inj heq
  exact ⟨run', hrun', hid.symm, hproject.symm⟩

/-- One direction of equal authority. -/
theorem exists_sameAuthority (hnum : Numerals numeral) (hp : p.Valid) (hq : q.Valid)
    (h : digestBytes numeral p planDigest (contractNodes numeral p) =
      digestBytes numeral q planDigest' (contractNodes numeral q)) (hcovered : Covered p q)
    (hrun : run ∈ p.runs) :
    ∃ run' ∈ q.runs, run.SameAuthority run' := by
  obtain ⟨run', hrun', hid, hproject⟩ := nodes_of_digestBytes hnum h hrun
  obtain ⟨hpaths, hshape⟩ := hcovered run hrun run' hrun' hid
  obtain ⟨hcriteria, hdepends, hobjective, hargv⟩ := project_contractNode hproject
  obtain ⟨hflat, hgates⟩ := verification_eq hnum ((checkRuns_eq_ok hp).2.2 run hrun)
    ((checkRuns_eq_ok hq).2.2 run' hrun') hshape hargv
  exact ⟨run', hrun', hid, hobjective, hdepends, hcriteria, hflat, hgates, hpaths⟩

theorem ContractRun.SameAuthority.symm {run' : ContractRun F} (h : run.SameAuthority run') :
    run'.SameAuthority run :=
  ⟨h.id.symm, h.objective.symm, h.dependsOn.symm, h.criteria.symm, h.argv.symm, h.gates.symm,
    h.paths.symm⟩

theorem Covered.symm (h : Covered p q) : Covered q p := by
  intro run hrun run' hrun' hid
  obtain ⟨hpaths, hshape⟩ := h run' hrun' run hrun hid.symm
  exact ⟨hpaths.symm, hshape.symm⟩

theorem sameAuthority_iff (hnum : Numerals numeral) (hp : p.Valid) (hq : q.Valid)
    (h : digestBytes numeral p planDigest (contractNodes numeral p) =
      digestBytes numeral q planDigest' (contractNodes numeral q)) :
    SameAuthority p q ↔ Covered p q := by
  constructor
  · rintro ⟨hall, -⟩ run hrun run' hrun' hid
    obtain ⟨other, hother, hsame⟩ := hall run hrun
    obtain rfl := eq_of_id (checkRuns_eq_ok hq).1 hother hrun' (hsame.id.symm.trans hid)
    exact ⟨hsame.paths, by rw [hsame.gates]⟩
  · intro hcovered
    refine ⟨fun run hrun => exists_sameAuthority hnum hp hq h hcovered hrun, ?_⟩
    intro run' hrun'
    obtain ⟨run, hrun, hsame⟩ := exists_sameAuthority hnum hq hp h.symm hcovered.symm hrun'
    exact ⟨run, hrun, hsame.symm⟩

theorem digest_of_admitted {pred : RepairPredecessor}
    {graphRunId planSha256 baseCommit digest id : String} {logicalGraphId : Option String}
    (h : openRepairPredecessor pred graphRunId planSha256 baseCommit logicalGraphId digest =
      .ok id) : pred.planGraphDigest = some digest := by
  obtain ⟨_, -, h⟩ := bind_eq_ok.1 h
  exact (require_bind_eq_ok.1 h).1.2.2.2.2.2

/-- **What the digest binds.** Let no two of the payloads share a SHA-256 digest. Plans with one
digest have the same nodes with the same authority exactly when the grants of every node agree and
no node has gates in one plan only; the same holds of the plan of an attempt and the plan that it is
admitted to a repair under. -/
theorem digest_binds_iff (hnum : Numerals numeral) (hp : p.Valid) (hq : q.Valid)
    {planDigest planDigest' : String}
    (hfree : Set.InjOn Sha256.hexdigest
      {digestBytes numeral p planDigest (contractNodes numeral p),
        digestBytes numeral q planDigest' (contractNodes numeral q)}) :
    (planGraphDigest numeral p planDigest (contractNodes numeral p) =
        planGraphDigest numeral q planDigest' (contractNodes numeral q) →
      (SameAuthority p q ↔ Covered p q)) ∧
    ∀ (pred : RepairPredecessor) (record : String → NodeRecord) (ordered : List (ContractRun F))
      (graphRunId id : String) (logicalGraphId : Option String), p.ordered = .ok ordered →
      pred.planGraphDigest =
        some (planGraphDigest numeral p planDigest (auditNodes numeral record ordered)) →
      openRepairPredecessor pred graphRunId planDigest' q.baseCommit logicalGraphId
        (planGraphDigest numeral q planDigest' (contractNodes numeral q)) = .ok id →
      (SameAuthority p q ↔ Covered p q) := by
  have hdigest (h : planGraphDigest numeral p planDigest (contractNodes numeral p) =
      planGraphDigest numeral q planDigest' (contractNodes numeral q)) :
      SameAuthority p q ↔ Covered p q :=
    sameAuthority_iff hnum hp hq (hfree (.inl rfl) (.inr rfl) h)
  refine ⟨hdigest, ?_⟩
  intro pred record ordered graphRunId id logicalGraphId hordered hstored hadmitted
  refine hdigest ?_
  have hsame := hstored.symm.trans (digest_of_admitted hadmitted)
  rw [planGraphDigest, digestBytes_auditNodes hp hordered] at hsame
  exact Option.some.inj hsame

end Nodes

end Authority

/-! ## One node under different contracts -/

/-- Python's text of a float of so many whole seconds. -/
def secondsText (n : ℕ) : List Char := Nat.toDigits 10 n ++ ['.', '0']

theorem numerals_secondsText : Numerals secondsText where
  injective := by
    intro m n h
    exact Text.toDigits_inj (append_cancel_right h)
  delimiters := by
    intro n c hc
    rcases mem_append.1 hc with hc | hc
    · have hdigit := Nat.isDigit_of_mem_toDigits (by norm_num) (by norm_num) hc
      simp only [isDelimiter, Bool.or_eq_false_iff, beq_eq_false_iff_ne]
      refine ⟨⟨?_, ?_⟩, ?_⟩ <;> rintro rfl <;> exact absurd hdigit (by decide)
    · simp only [mem_cons, not_mem_nil, or_false] at hc
      rcases hc with rfl | rfl <;> rfl
  head := by
    intro n
    obtain ⟨c, s, hn, hdigit⟩ := Json.toDigits_head n
    refine ⟨c, s ++ ['.', '0'], by rw [secondsText, hn, cons_append], ?_⟩
    simp only [mem_cons, not_mem_nil, or_false, not_or]
    refine ⟨?_, ?_, ?_, ?_, ?_, ?_, ?_, ?_⟩ <;> rintro rfl <;> exact absurd hdigit (by decide)

def oneNode (verificationArgv allowedPaths : List String) (gates : List (VerificationGate ℕ)) :
    ContractPlan ℕ where
  plan := "docs/plan.md"
  baseCommit := "base"
  runs := [{
    id := "parser", dependsOn := [], allowedPaths, objective := "write the parser"
    planSections := ["1"], criteria := ["AC-1"], verificationArgv, pathIntents := []
    verificationTimeoutSeconds := 1200, verificationRequiredPaths := [], verificationGates := gates }]
  planSections := Dict.ofList [("1", "The parser")]
  acceptanceCriteria := Dict.ofList [("AC-1", "It parses")]
  functionalityTests := []

def pytestGate : VerificationGate ℕ := ⟨"tests", ["pytest"], 1200⟩

/-- The word that the gate is packed into. -/
def pytestWord : String := String.ofList (encode secondsText (gateMapping pytestGate))

theorem not_sameAuthority_of_not_covered {p q : ContractPlan ℕ} (hq : q.Valid)
    (h : ¬ Covered p q) : ¬ SameAuthority p q := by
  rintro ⟨hall, -⟩
  refine h fun run hrun run' hrun' hid => ?_
  obtain ⟨other, hother, hsame⟩ := hall run hrun
  obtain rfl := eq_of_id (checkRuns_eq_ok hq).1 hother hrun' (hsame.id.symm.trans hid)
  exact ⟨hsame.paths, by rw [hsame.gates]⟩

/-- A failed attempt of the narrow plan. -/
def narrowAttempt : RepairPredecessor where
  manifestStatus := "failed"
  terminalGraphStatus := some "failed"
  bindingLogicalGraphId := some "graph"
  logicalGraphId := some "graph"
  graphAttemptId := some "attempt"
  approvedPlanSha256 := some "sha256"
  baseCommit := some "base"
  planGraphDigest := some (planGraphDigest secondsText (oneNode ["pytest"] ["src/parser"] [])
    "sha256" (auditNodes secondsText (fun id => ⟨"failed", id, id, none, none, none⟩)
      (oneNode ["pytest"] ["src/parser"] []).runs))

theorem digest_binds_iff_oneNode :
    openRepairPredecessor narrowAttempt "attempt" "sha256" "base" none
        (planGraphDigest secondsText (oneNode ["pytest"] ["src"] []) "sha256"
          (contractNodes secondsText (oneNode ["pytest"] ["src"] []))) = .ok "graph" ∧
      (SameAuthority (oneNode ["pytest"] ["src/parser"] []) (oneNode ["pytest"] ["src"] []) ↔
        Covered (oneNode ["pytest"] ["src/parser"] []) (oneNode ["pytest"] ["src"] [])) := by
  have hnarrow : (oneNode ["pytest"] ["src/parser"] []).Valid := by decide
  have hwide : (oneNode ["pytest"] ["src"] []).Valid := by decide
  have hfree : Set.InjOn Sha256.hexdigest
      {digestBytes secondsText (oneNode ["pytest"] ["src/parser"] []) "sha256"
          (contractNodes secondsText (oneNode ["pytest"] ["src/parser"] [])),
        digestBytes secondsText (oneNode ["pytest"] ["src"] []) "sha256"
          (contractNodes secondsText (oneNode ["pytest"] ["src"] []))} := by
    rintro b (rfl | rfl) b' (rfl | rfl) _ <;> rfl
  have hadmitted : openRepairPredecessor narrowAttempt "attempt" "sha256" "base" none
      (planGraphDigest secondsText (oneNode ["pytest"] ["src"] []) "sha256"
        (contractNodes secondsText (oneNode ["pytest"] ["src"] []))) = .ok "graph" := by
    refine bind_eq_ok.2 ⟨"graph", by decide, require_bind_eq_ok.2 ⟨?_, rfl⟩⟩
    exact ⟨by decide, by decide, rfl, rfl, rfl, rfl⟩
  exact ⟨hadmitted, (digest_binds_iff numerals_secondsText hnarrow hwide hfree).2 narrowAttempt _ _
    "attempt" "graph" none rfl rfl hadmitted⟩

/-- The same payload under a wider grant, and with gates in place of one argv. -/
theorem digest_misses_authority :
    ((oneNode ["pytest"] ["src/parser"] []).Valid ∧ (oneNode ["pytest"] ["src"] []).Valid ∧
      digestBytes secondsText (oneNode ["pytest"] ["src/parser"] []) "sha256"
          (contractNodes secondsText (oneNode ["pytest"] ["src/parser"] [])) =
        digestBytes secondsText (oneNode ["pytest"] ["src"] []) "sha256"
          (contractNodes secondsText (oneNode ["pytest"] ["src"] [])) ∧
      ¬ SameAuthority (oneNode ["pytest"] ["src/parser"] []) (oneNode ["pytest"] ["src"] [])) ∧
    (oneNode [pytestWord] ["src"] []).Valid ∧ (oneNode [] ["src"] [pytestGate]).Valid ∧
      digestBytes secondsText (oneNode [pytestWord] ["src"] []) "sha256"
          (contractNodes secondsText (oneNode [pytestWord] ["src"] [])) =
        digestBytes secondsText (oneNode [] ["src"] [pytestGate]) "sha256"
          (contractNodes secondsText (oneNode [] ["src"] [pytestGate])) ∧
      ¬ SameAuthority (oneNode [pytestWord] ["src"] []) (oneNode [] ["src"] [pytestGate]) := by
  have hwide : (oneNode ["pytest"] ["src"] []).Valid := by decide
  have hgated : (oneNode [] ["src"] [pytestGate]).Valid := by decide
  refine ⟨⟨by decide, hwide, rfl, not_sameAuthority_of_not_covered hwide ?_⟩, by decide +kernel, hgated,
    rfl, not_sameAuthority_of_not_covered hgated ?_⟩
  · intro hcovered
    obtain ⟨hpaths, -⟩ := hcovered _ mem_cons_self _ mem_cons_self rfl
    exact absurd hpaths (by decide)
  · intro hcovered
    obtain ⟨-, hshape⟩ := hcovered _ mem_cons_self _ mem_cons_self rfl
    exact cons_ne_nil _ _ (hshape.1 rfl)

end HarnessLabs.PlanGraph
