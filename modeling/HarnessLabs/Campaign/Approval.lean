import HarnessLabs.Campaign.Driver

/-!
# The approval of a plan

The driver asks the operator to acknowledge every warning of the gate evidence. The receipt is
issued by the plan approval, which asks for the warnings of high severity and knows no others.

* `issueApproval`, `validate` — the gate of the driver in front of the one that issues receipts, and
  the check of a receipt. What reads the repository and the host is an `Admission`.
* `approvable_iff` — **what was prepared can be approved exactly when every warning is one of high
  severity; a receipt acknowledges these and nothing else.**
* `advisory_not_approvable` — an overlap of two runs that is routine.
-/

namespace HarnessLabs.Campaign

open Audit (isSha256 isSha256_hexdigest require require_eq_ok bind_eq_ok require_bind_eq_ok)
open Controller (isBlank)

/-! ## Documents -/

/-- What identifies a warning, of the fields that it has. -/
structure Warning where
  kind : String
  severity : Option String
  runs : List String
  paths : List String
  note : Json
  deriving DecidableEq

structure Acknowledgement where
  warningSha256 : String
  reason : String

/-- The file that the operator writes. -/
structure OperatorApproval where
  protocol : String
  subjectSha256 : String
  actor : String
  approvedAt : String
  statement : String
  warningAcknowledgements : List Acknowledgement

/-- What the static gates derive; the time of the check is not compared. -/
structure GateEvidence where
  status : String
  subjectSha256 : String
  planGraphDigest : String
  hostPath : String
  hostExecutables : Json
  warnings : List Warning
  notices : Json
  conformanceReport : Json
  deriving DecidableEq

structure Receipt where
  status : String
  policyId : String
  planGraphDigest : String
  subject : Json
  gateEvidence : GateEvidence
  operatorApproval : OperatorApproval

def sha256Json (value : Json) : String := Sha256.hexdigest (Json.utf8 value.dumps)

def warningIdentity (warning : Warning) : String :=
  sha256Json (Json.ofMembers [("kind", .str warning.kind),
    ("severity", (warning.severity.map Json.str).getD .null),
    ("runs", .arr (warning.runs.map .str)), ("paths", .arr (warning.paths.map .str))])

/-- What is read of the repository and of the host, for a context `C` of the two. -/
structure Admission (C : Type) where
  subject : Except String (C × Json)
  validateSubject : Json → Except String C
  staticGates : C → String → Except String GateEvidence
  validateGates : GateEvidence → Except String Unit
  revalidateHost : Json → Except String Unit
  planGraphDigest : Json → String
  hasTimezone : String → Bool

variable {C : Type} (a : Admission C)

/-- `prepare_approval`. -/
def prepareApproval : Except String (Json × GateEvidence) := do
  let (context, subject) ← a.subject
  let gates ← a.staticGates context (sha256Json subject)
  return (subject, gates)

/-! ## Acknowledgements -/

def acknowledged (operator : OperatorApproval) : List String :=
  operator.warningAcknowledgements.map (·.warningSha256)

/-- The identities of the warnings that the receipt asks for. -/
def highWarnings (gates : GateEvidence) : List String :=
  (gates.warnings.filter (·.severity = some "high")).map warningIdentity

/-- `unacknowledged_warnings` of the driver: of any severity. -/
def unacknowledgedWarnings (gates : GateEvidence) (operator : OperatorApproval) : List Warning :=
  gates.warnings.filter fun warning => warningIdentity warning ∉ acknowledged operator

/-- How a missing warning is named: the start of its digest, and its runs. -/
def missingText (gates : GateEvidence) (digest : String) : String :=
  let named := gates.warnings.reverse.find? fun warning =>
    warning.severity = some "high" ∧ warningIdentity warning = digest
  String.ofList (digest.toList.take 12) ++ " " ++ "+".intercalate ((named.map (·.runs)).getD [])

/-- `_require_acknowledged_high_warnings`. -/
def requireAcknowledgedHighWarnings (gates : GateEvidence) (operator : OperatorApproval) :
    Except String Unit := do
  let unknown := (acknowledged operator).filter (· ∉ highWarnings gates)
  require (unknown = []) ("operator approval acknowledges warnings absent from gate evidence: " ++
    ", ".intercalate (unknown.dedup.insertionSort (· ≤ ·)))
  let missing := (highWarnings gates).filter (· ∉ acknowledged operator)
  require (missing = []) ("unacknowledged high-severity admission warnings: " ++
    "; ".intercalate ((missing.dedup.insertionSort (· ≤ ·)).map (missingText gates)))

/-- `_validate_warning_acknowledgements`, of the entries behind those in `seen`. -/
def validateWarningAcknowledgements : List String → List Acknowledgement → Except String Unit
  | _, [] => .ok ()
  | seen, entry :: rest => do
    let label := "warning acknowledgement " ++ toString seen.length
    require (isSha256 entry.warningSha256) (label ++ " digest must be 64 lowercase hex characters")
    require (isBlank entry.reason = false) (label ++ " requires a reason")
    require (entry.warningSha256 ∉ seen) (label ++ " repeats an earlier warning")
    validateWarningAcknowledgements (seen ++ [entry.warningSha256]) rest

/-- `_validate_operator_approval`. -/
def validateOperatorApproval (operator : OperatorApproval) : Except String Unit := do
  validateWarningAcknowledgements [] operator.warningAcknowledgements
  require (operator.protocol = "plan-operator-approval/1") "unsupported operator approval protocol"
  require (isSha256 operator.subjectSha256)
    "operator subject digest must be 64 lowercase hex characters"
  require (isBlank operator.actor = false) "operator approval actor is required"
  require (isBlank operator.approvedAt = false) "operator approval approved_at is required"
  require (isBlank operator.statement = false) "operator approval statement is required"
  require (a.hasTimezone operator.approvedAt)
    "operator approval approved_at must include a timezone"

/-! ## Receipts -/

def policyId : String := "operator-attested-plan-approval/1"

/-- The first field that the gates derive anew otherwise. -/
def staleField (gates fresh : GateEvidence) : Option String :=
  ([("status", decide (gates.status = fresh.status)),
    ("subject_sha256", decide (gates.subjectSha256 = fresh.subjectSha256)),
    ("plan_graph_digest", decide (gates.planGraphDigest = fresh.planGraphDigest)),
    ("host_path", decide (gates.hostPath = fresh.hostPath)),
    ("host_executables", decide (gates.hostExecutables = fresh.hostExecutables)),
    ("warnings", decide (gates.warnings = fresh.warnings)),
    ("notices", decide (gates.notices = fresh.notices)),
    ("conformance_report", decide (gates.conformanceReport = fresh.conformanceReport))].find?
      fun field => !field.2).map Prod.fst

/-- `issue_receipt`. -/
def issueReceipt (subject : Json) (gates : GateEvidence) (operator : OperatorApproval) :
    Except String Receipt := do
  let context ← a.validateSubject subject
  a.validateGates gates
  require (gates.subjectSha256 = sha256Json subject)
    "gate evidence does not match the approval subject"
  require (gates.planGraphDigest = a.planGraphDigest subject)
    "gate evidence PlanGraph identity mismatch"
  a.revalidateHost gates.hostExecutables
  let fresh ← a.staticGates context (sha256Json subject)
  require (staleField gates fresh = none)
    ("gate evidence " ++ (staleField gates fresh).getD "" ++
      " does not match fresh controller checks")
  validateOperatorApproval a operator
  require (operator.subjectSha256 = sha256Json subject)
    "operator approval does not match the subject"
  requireAcknowledgedHighWarnings fresh operator
  return ⟨"approved", policyId, a.planGraphDigest subject, subject, gates, operator⟩

/-- `issue_approval` of the driver. -/
def issueApproval (subject : Json) (gates : GateEvidence) (operator : OperatorApproval) :
    Except String Receipt := do
  let outstanding := unacknowledgedWarnings gates operator
  require (outstanding = []) ("unacknowledged admission warnings block issue: " ++
    ", ".intercalate ((outstanding.map warningIdentity).insertionSort (· ≤ ·)))
  issueReceipt a subject gates operator

/-- `PlanApprovalAdmission.validate`. -/
def validate (receipt : Receipt) : Except String C := do
  require (receipt.status = "approved" ∧ receipt.policyId = policyId)
    "receipt is not approved under the supported policy"
  require (receipt.planGraphDigest = a.planGraphDigest receipt.subject)
    "receipt PlanGraph identity mismatch"
  a.validateGates receipt.gateEvidence
  require (receipt.gateEvidence.subjectSha256 = sha256Json receipt.subject ∧
      receipt.gateEvidence.planGraphDigest = a.planGraphDigest receipt.subject)
    "gate evidence is invalid or belongs to another subject"
  validateOperatorApproval a receipt.operatorApproval
  require (receipt.operatorApproval.subjectSha256 = sha256Json receipt.subject)
    "operator approval does not match the subject"
  requireAcknowledgedHighWarnings receipt.gateEvidence receipt.operatorApproval
  let context ← a.validateSubject receipt.subject
  a.revalidateHost receipt.gateEvidence.hostExecutables
  return context

/-! ## What can be approved -/

/-- The repository and the host are as they were, and evidence that was derived is evidence of its
subject. -/
structure Unchanged : Prop where
  subject : ∀ {context subject}, a.subject = .ok (context, subject) →
    a.validateSubject subject = .ok context
  gates : ∀ {context subject gates}, a.subject = .ok (context, subject) →
    a.staticGates context (sha256Json subject) = .ok gates →
      a.validateGates gates = .ok () ∧ a.revalidateHost gates.hostExecutables = .ok () ∧
        gates.subjectSha256 = sha256Json subject ∧ gates.planGraphDigest = a.planGraphDigest subject
  clock : ∃ time, isBlank time = false ∧ a.hasTimezone time = true

/-- Some approval of the operator leads to a receipt that is accepted. -/
def Approvable (subject : Json) (gates : GateEvidence) : Prop :=
  ∃ operator receipt, issueApproval a subject gates operator = .ok receipt ∧
    (validate a receipt).isOk

/-- Every warning of high severity is acknowledged, and none that the evidence does not have. -/
def Acknowledges (receipt : Receipt) : Prop :=
  (∀ warning ∈ receipt.gateEvidence.warnings, warning.severity = some "high" →
    warningIdentity warning ∈ acknowledged receipt.operatorApproval) ∧
  ∀ digest ∈ acknowledged receipt.operatorApproval,
    ∃ warning ∈ receipt.gateEvidence.warnings, warningIdentity warning = digest

variable {a} {subject : Json} {gates fresh : GateEvidence} {operator : OperatorApproval}
  {receipt : Receipt}

theorem requireAcknowledged_iff : requireAcknowledgedHighWarnings gates operator = .ok () ↔
    (∀ digest ∈ acknowledged operator, digest ∈ highWarnings gates) ∧
      ∀ digest ∈ highWarnings gates, digest ∈ acknowledged operator := by
  simp only [requireAcknowledgedHighWarnings, require_bind_eq_ok, require_eq_ok,
    List.filter_eq_nil_iff, decide_eq_true_eq, not_not]

theorem unacknowledged_eq_nil_iff : unacknowledgedWarnings gates operator = [] ↔
    ∀ warning ∈ gates.warnings, warningIdentity warning ∈ acknowledged operator := by
  simp only [unacknowledgedWarnings, List.filter_eq_nil_iff, decide_eq_true_eq, not_not]

theorem mem_highWarnings {digest : String} : digest ∈ highWarnings gates ↔
    ∃ warning ∈ gates.warnings, warning.severity = some "high" ∧
      warningIdentity warning = digest := by
  simp [highWarnings, and_assoc]

theorem staleField_eq_none_iff : staleField gates fresh = none ↔ gates = fresh := by
  cases gates
  cases fresh
  simp [staleField]

/-- What is behind an issued receipt. -/
theorem issued (h : issueApproval a subject gates operator = .ok receipt) :
    receipt.gateEvidence = gates ∧ receipt.operatorApproval = operator ∧
      (∀ warning ∈ gates.warnings, warningIdentity warning ∈ acknowledged operator) ∧
      requireAcknowledgedHighWarnings gates operator = .ok () := by
  rw [issueApproval, require_bind_eq_ok, unacknowledged_eq_nil_iff] at h
  obtain ⟨hall, h⟩ := h
  simp only [issueReceipt, bind_eq_ok, require_eq_ok, Unique.exists_iff, PUnit.default_eq_unit,
    staleField_eq_none_iff] at h
  obtain ⟨_, -, -, -, -, -, fresh, -, rfl, -, -, hacknowledged, h⟩ := h
  cases h
  exact ⟨rfl, rfl, hall, hacknowledged⟩

theorem issued_acknowledges (h : issueApproval a subject gates operator = .ok receipt) :
    Acknowledges receipt := by
  obtain ⟨rfl, rfl, -, hacknowledged⟩ := issued h
  obtain ⟨hknown, hhigh⟩ := requireAcknowledged_iff.1 hacknowledged
  refine ⟨fun warning hwarning hsevere => ?_, fun digest hdigest => ?_⟩
  · exact hhigh _ (mem_highWarnings.2 ⟨warning, hwarning, hsevere, rfl⟩)
  · obtain ⟨warning, hwarning, -, hidentity⟩ := mem_highWarnings.1 (hknown digest hdigest)
    exact ⟨warning, hwarning, hidentity⟩

theorem validateAcknowledgements_ok {digests : List String} (seen : List String) (reason : String)
    (hnodup : (seen ++ digests).Nodup) (hdigests : ∀ digest ∈ digests, isSha256 digest = true)
    (hreason : isBlank reason = false) :
    validateWarningAcknowledgements seen (digests.map (⟨·, reason⟩)) = .ok () := by
  induction digests generalizing seen with
  | nil => rfl
  | cons digest rest ih =>
    have hfresh : digest ∉ seen := fun hseen =>
      List.disjoint_of_nodup_append hnodup hseen List.mem_cons_self
    rw [List.map_cons, validateWarningAcknowledgements]
    simp only [require_bind_eq_ok]
    refine ⟨hdigests digest List.mem_cons_self, hreason, hfresh, ih _ ?_ fun d hd =>
      hdigests d (List.mem_cons_of_mem digest hd)⟩
    simpa using hnodup

/-- The approval of an operator who acknowledges the warnings of high severity. -/
def approvalOf (subject : Json) (gates : GateEvidence) (time : String) : OperatorApproval :=
  ⟨"plan-operator-approval/1", sha256Json subject, "operator", time, "approved",
    (highWarnings gates).dedup.map (⟨·, "reviewed"⟩)⟩

theorem mem_acknowledged_approvalOf {time digest : String} :
    digest ∈ acknowledged (approvalOf subject gates time) ↔ digest ∈ highWarnings gates := by
  simp [acknowledged, approvalOf, Function.comp_def]

theorem validate_approvalOf {time : String} (hblank : isBlank time = false)
    (hzoned : a.hasTimezone time = true) :
    validateOperatorApproval a (approvalOf subject gates time) = .ok () := by
  have hentries := validateAcknowledgements_ok [] "reviewed"
    (List.nodup_dedup (highWarnings gates)) (fun digest hdigest => by
      obtain ⟨warning, -, -, rfl⟩ := mem_highWarnings.1 (List.mem_dedup.1 hdigest)
      exact isSha256_hexdigest _) (by decide)
  have hsha : isSha256 (approvalOf subject gates time).subjectSha256 = true :=
    isSha256_hexdigest _
  simp only [validateOperatorApproval, bind_eq_ok, require_eq_ok, Unique.exists_iff,
    PUnit.default_eq_unit]
  exact ⟨hentries, rfl, hsha, (by decide : isBlank "operator" = false), hblank,
    (by decide : isBlank "approved" = false), hzoned⟩

/-- **What was prepared can be approved exactly when every warning is one of high severity, and a
receipt acknowledges these and nothing else.** -/
theorem approvable_iff (hunchanged : Unchanged a) (h : prepareApproval a = .ok (subject, gates)) :
    (Approvable a subject gates ∧ ∀ subject gates operator receipt,
      issueApproval a subject gates operator = .ok receipt → Acknowledges receipt) ↔
      ∀ warning ∈ gates.warnings, warningIdentity warning ∈ highWarnings gates := by
  constructor
  · rintro ⟨⟨operator, receipt, hissue, -⟩, -⟩ warning hwarning
    obtain ⟨-, -, hall, hacknowledged⟩ := issued hissue
    exact (requireAcknowledged_iff.1 hacknowledged).1 _ (hall warning hwarning)
  · intro hhigh
    refine ⟨?_, fun _ _ _ _ => issued_acknowledges⟩
    simp only [prepareApproval, bind_eq_ok] at h
    obtain ⟨⟨context, subject⟩, hsubject, gates, hgates, h⟩ := h
    cases h
    have hvalid := hunchanged.subject hsubject
    obtain ⟨hchecked, hhost, hsha, hdigest⟩ := hunchanged.gates hsubject hgates
    obtain ⟨time, hblank, hzoned⟩ := hunchanged.clock
    have happroval : validateOperatorApproval a (approvalOf subject gates time) = .ok () :=
      validate_approvalOf hblank hzoned
    have hacknowledged : requireAcknowledgedHighWarnings gates (approvalOf subject gates time) =
        .ok () := requireAcknowledged_iff.2 ⟨fun digest => mem_acknowledged_approvalOf.1,
      fun digest => mem_acknowledged_approvalOf.2⟩
    have hall : unacknowledgedWarnings gates (approvalOf subject gates time) = [] :=
      unacknowledged_eq_nil_iff.2 fun warning hwarning =>
        mem_acknowledged_approvalOf.2 (hhigh warning hwarning)
    refine ⟨approvalOf subject gates time,
      ⟨"approved", policyId, a.planGraphDigest subject, subject, gates,
        approvalOf subject gates time⟩, ?_, ?_⟩
    · simp only [issueApproval, issueReceipt, bind_eq_ok, require_eq_ok, Unique.exists_iff,
        PUnit.default_eq_unit, staleField_eq_none_iff]
      exact ⟨hall, context, hvalid, hchecked, hsha, hdigest, hhost, gates, hgates, rfl, happroval,
        rfl, hacknowledged, rfl⟩
    · have hok : validate a ⟨"approved", policyId, a.planGraphDigest subject, subject, gates,
          approvalOf subject gates time⟩ = .ok context := by
        simp only [validate, bind_eq_ok, require_eq_ok, Unique.exists_iff, PUnit.default_eq_unit]
        exact ⟨⟨trivial, trivial⟩, trivial, hchecked, ⟨hsha, hdigest⟩, happroval, rfl,
          hacknowledged, context, hvalid, hhost, rfl⟩
      rw [hok]
      rfl

/-- Two runs that share the paths of a test directory, or a file. -/
def overlap (severity path : String) : Warning :=
  ⟨"sibling-allowed-path-overlap", some severity, ["api", "ui"], [path], .null⟩

def gatesOf (warnings : List Warning) (sha : String) : GateEvidence :=
  ⟨"passed", sha, "d", "/usr/bin", .arr [], warnings, .null, .null⟩

def admissionOf (warnings : List Warning) : Admission Unit where
  subject := .ok ((), .obj [])
  validateSubject _ := .ok ()
  staticGates _ sha := .ok (gatesOf warnings sha)
  validateGates _ := .ok ()
  revalidateHost _ := .ok ()
  planGraphDigest _ := "d"
  hasTimezone time := time = "2026-01-01T00:00:00Z"

/-- A file that two runs may write is acknowledged. -/
theorem shared_file_approvable :
    Approvable (admissionOf [overlap "high" "src/app.py"]) (.obj [])
      (gatesOf [overlap "high" "src/app.py"] (sha256Json (.obj []))) :=
  have hunchanged : Unchanged (admissionOf [overlap "high" "src/app.py"]) :=
    ⟨fun _ => rfl, fun _ h => by cases h; exact ⟨rfl, rfl, rfl, rfl⟩,
      "2026-01-01T00:00:00Z", by decide, by decide⟩
  ((approvable_iff hunchanged rfl).2 fun warning hwarning =>
    mem_highWarnings.2 ⟨warning, hwarning, by simp [List.mem_singleton.1 hwarning, overlap], rfl⟩).1

/-- A test directory that two runs may write has to be acknowledged, and cannot be. -/
theorem advisory_not_approvable :
    prepareApproval (admissionOf [overlap "info" "tests"]) =
      .ok (.obj [], gatesOf [overlap "info" "tests"] (sha256Json (.obj []))) ∧
    ¬ Approvable (admissionOf [overlap "info" "tests"]) (.obj [])
      (gatesOf [overlap "info" "tests"] (sha256Json (.obj []))) := by
  refine ⟨rfl, fun ⟨operator, receipt, hissue, _⟩ => ?_⟩
  obtain ⟨-, -, hall, hacknowledged⟩ := issued hissue
  have hidentity := (requireAcknowledged_iff.1 hacknowledged).1 _
    (hall (overlap "info" "tests") (List.mem_singleton_self _))
  obtain ⟨warning, hwarning, hhigh, -⟩ := mem_highWarnings.1 hidentity
  rw [List.mem_singleton.1 hwarning] at hhigh
  revert hhigh
  decide

end HarnessLabs.Campaign
