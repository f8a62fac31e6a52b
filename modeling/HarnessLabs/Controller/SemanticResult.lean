import HarnessLabs.Controller.Operations
import HarnessLabs.Core.AuditJournal

/-!
# Semantic results

The common envelope of a task's result, and its content floor: a summary that is a placeholder is
refused by a closed set of rules.

* `deliverableFloorReason` — why a text is refused as a placeholder.
* `validateSemanticResult` — the envelope, bound to the details schema of the task.
* `semanticPayload` — an envelope with nothing but a summary.
* `validateSemanticResult_semanticPayload` — **such an envelope is accepted under every schema.**
-/

namespace HarnessLabs.Controller

open Audit (require)

/-! ## The content floor -/

def minDeliverableLength : ℕ := 4

/-- `_PLACEHOLDER_TOKENS`. -/
def placeholderTokens : List String :=
  ["test", "todo", "tbd", "n/a", "na", "placeholder", "wip", "fixme", "xxx", "lorem ipsum"]

/-- `string.punctuation`. -/
def punctuation : List Char := "!\"#$%&'()*+,-./:;<=>?@[\\]^_`\x7b|\x7d~".toList

/-- `text.strip(chars)`. -/
def stripChars (drop cs : List Char) : List Char :=
  ((cs.dropWhile (· ∈ drop)).reverse.dropWhile (· ∈ drop)).reverse

/-- `text.split()`. -/
def splitWords (cs : List Char) : List (List Char) :=
  (cs.splitOnP (·.isWhitespace)).filter (· ≠ [])

def deliverableFloorReason (text : String) : Option String :=
  let stripped := dropBlanks text.toList
  let normalized := stripChars (punctuation ++ [' '])
    ([' '].intercalate (splitWords (stripped.map Char.toLower)))
  let tokens := (((splitWords stripped).map (stripChars punctuation)).filter (· ≠ [])).map
    (·.map Char.toLower)
  if stripped.length < minDeliverableLength then some "sub_minimal_length"
  else if String.ofList normalized ∈ placeholderTokens then some "placeholder_token"
  else if 1 < tokens.length ∧ tokens.dedup.length = 1 then some "repeated_token"
  else none

/-- `enforce_deliverable_floor`, on a text. -/
def enforceDeliverableFloor (text field : String) : Except String Unit :=
  match deliverableFloorReason text with
  | none => .ok ()
  | some reason =>
    .error ("semantic result " ++ field ++ " failed the deliverable-content floor (" ++ reason ++ ")")

/-! ## Fields -/

/-- `_text`. -/
def semanticText (value : Json) (name : String) : Except String String :=
  payloadText value name "semantic result"

/-- The items of a list of objects; an absent list is empty. -/
def objectList (value : Json) (name : String) : Except String (List Json) :=
  match value.get? name with
  | none => .ok []
  | some (.arr items) =>
    if items.all (·.asMembers?.isSome) then .ok items
    else .error ("semantic result " ++ name ++ " must be an object list")
  | some _ => .error ("semantic result " ++ name ++ " must be an object list")

/-- A list of texts that are not blank; an absent list is empty. -/
def textsOr (value : Json) (name message : String) : Except String (List String) :=
  match value.get? name with
  | none => .ok []
  | some (.arr items) =>
    match items.mapM nonBlankText with
    | some texts => .ok texts
    | none => .error message
  | some _ => .error message

/-- `_text_list`. -/
def textList (value : Json) (name : String) : Except String (List String) :=
  textsOr value name ("semantic result " ++ name ++ " must be a string list")

/-- `_reference_list`. -/
def referenceList (value : Json) (name owner : String) : Except String (List String) :=
  textsOr value name (owner ++ " " ++ name ++ " must be a reference list")

/-- A text of a closed set. -/
def wordOf (value : Json) (name : String) (words : List String) (message : String) :
    Except String String :=
  match value.get? name with
  | some (.str word) => if word ∈ words then .ok word else .error message
  | _ => .error message

/-! ## The envelope -/

/-- One claim, behind claims of the given ids: its id and its references. -/
def readClaim (seen : List String) (claim : Json) : Except String (String × List String) := do
  let id ← payloadText claim "id" "claim"
  require (id ∉ seen) ("duplicate claim id: " ++ id)
  let _ ← payloadText claim "statement" "claim"
  let _ ← wordOf claim "kind" ["observed", "inferred"] ("claim " ++ id ++ " has an invalid kind")
  let refs ← referenceList claim "evidence_refs" ("claim " ++ id)
  return (id, refs)

def readFinding (seen : List String) (finding : Json) : Except String SemanticFinding := do
  let id ← payloadText finding "id" "finding"
  require (id ∉ seen) ("duplicate finding id: " ++ id)
  let statement ← payloadText finding "statement" "finding"
  let category ← payloadText finding "category" "finding"
  let severity ← wordOf finding "severity" ["critical", "major", "minor", "info"]
    ("finding " ++ id ++ " has an invalid severity")
  let requiresDisposition ← match finding.get? "requires_disposition" with
    | none => pure false
    | some (.bool b) => pure b
    | some _ => throw ("finding " ++ id ++ " requires_disposition must be boolean")
  let evidenceRefs ← referenceList finding "evidence_refs" ("finding " ++ id)
  let sourceFindingIds ← match finding.get? "source_finding_ids" with
    | none => pure []
    | some (.arr items) =>
      match items.mapM Json.asStr? with
      | some ids =>
        if "" ∈ ids then throw ("finding " ++ id ++ " source_finding_ids must be strings")
        else pure ids
      | none => throw ("finding " ++ id ++ " source_finding_ids must be strings")
    | some _ => throw ("finding " ++ id ++ " source_finding_ids must be strings")
  return { id, statement, category, severity, requiresDisposition, evidenceRefs, sourceFindingIds }

def readArtifact (artifact : Json) : Except String SemanticArtifact := do
  let ref ← payloadText artifact "ref" "artifact"
  let kind ← payloadText artifact "kind" "artifact"
  let sha256 ← payloadText artifact "sha256" "artifact"
  require (sha256.toList.length = 64 ∧ sha256.toList.all (· ∈ "0123456789abcdef".toList))
    "artifact sha256 is invalid"
  let mediaType ← payloadText artifact "media_type" "artifact"
  return { ref, kind, sha256, mediaType }

def readCoverage (seen : List String) (item : Json) : Except String Coverage := do
  let criterionId ← payloadText item "criterion_id" "criterion coverage"
  require (criterionId ∉ seen) ("duplicate criterion coverage: " ++ criterionId)
  let status ← wordOf item "status" ["satisfied", "not_satisfied", "not_applicable"]
    ("criterion " ++ criterionId ++ " has an invalid coverage status")
  let evidenceRefs ← referenceList item "evidence_refs" ("criterion " ++ criterionId)
  require (status ≠ "satisfied" ∨ evidenceRefs ≠ [])
    ("satisfied criterion " ++ criterionId ++ " requires evidence")
  return { criterionId, status, evidenceRefs }

/-- The items of a list, each read behind the keys of those before it. -/
def readDistinct {α : Type} (key : α → String) (read : List String → Json → Except String α) :
    List α → List Json → Except String (List α)
  | earlier, [] => .ok earlier
  | earlier, item :: rest =>
    match read (earlier.map key) item with
    | .error e => .error e
    | .ok value => readDistinct key read (earlier ++ [value]) rest

/-- A request for delegated tasks. -/
def checkDelegation (delegation : Json) : Except String Unit := do
  match delegation.get? "tasks" with
  | some (.arr tasks) =>
    require (tasks ≠ [] ∧ tasks.all (·.asMembers?.isSome))
      "delegation request tasks must be a non-empty object list"
  | _ => throw "delegation request tasks must be a non-empty object list"
  let maxParallelism := (delegation.get? "max_parallelism").map pyInt? |>.getD (some 1)
  require (maxParallelism.any (1 ≤ ·)) "delegation request max_parallelism must be positive"

/-- `validate_semantic_result`. -/
def validateSemanticResult (result : TaskResult) (expectedDetailsSchema : String) :
    Except String SemanticResult := do
  let payload := result.payload
  require payload.asMembers?.isSome "semantic result payload must be an object"
  require (payload.get? "protocol" = some (.str "semantic-task-result/1"))
    "semantic result protocol is invalid"
  let summary ← semanticText payload "summary"
  enforceDeliverableFloor summary "summary"
  let detailsSchema ← semanticText payload "details_schema"
  require (detailsSchema = expectedDetailsSchema)
    "semantic result details_schema does not match the task contract"
  require ((payload.get? "details").any (·.asMembers?.isSome))
    "semantic result details must be an object"
  let claims ← objectList payload "claims"
  let claims ← readDistinct Prod.fst readClaim [] claims
  let findings ← objectList payload "findings"
  let findings ← readDistinct SemanticFinding.id readFinding [] findings
  let artifacts ← objectList payload "artifacts"
  let artifacts ← artifacts.mapM readArtifact
  let coverage ← objectList payload "criterion_coverage"
  let coverage ← readDistinct Coverage.criterionId readCoverage [] coverage
  let _ ← textList payload "recommendations"
  let _ ← textList payload "unresolved_questions"
  let delegations ← objectList payload "delegation_requests"
  delegations.forM checkDelegation
  return { summary, claimRefs := claims.flatMap (·.2), findings, artifacts
           criterionCoverage := coverage }

/-! ## Envelopes without references -/

/-- The members of `semantic_payload`, for a summary alone. -/
def semanticMembers (summary detailsSchema : String) : List (String × Json) :=
  [("protocol", .str "semantic-task-result/1"), ("summary", .str summary), ("claims", .arr []),
    ("findings", .arr []), ("artifacts", .arr []), ("criterion_coverage", .arr []),
    ("recommendations", .arr []), ("unresolved_questions", .arr []),
    ("delegation_requests", .arr []), ("details_schema", .str detailsSchema),
    ("details", .obj [])]

/-- `semantic_payload`. -/
def semanticPayload (summary detailsSchema : String) : Json :=
  Json.ofMembers (semanticMembers summary detailsSchema)

theorem get?_semanticPayload {summary detailsSchema key : String} {value : Json}
    (h : (key, value) ∈ semanticMembers summary detailsSchema) :
    (semanticPayload summary detailsSchema).get? key = some value := by
  refine Json.get?_ofMembers ?_ h
  show (["protocol", "summary", "claims", "findings", "artifacts", "criterion_coverage",
    "recommendations", "unresolved_questions", "delegation_requests", "details_schema",
    "details"] : List String).Nodup
  decide

/-- **An envelope with nothing but a summary is accepted under its schema.** -/
theorem validateSemanticResult_semanticPayload {result : TaskResult} {summary detailsSchema : String}
    (hpayload : result.payload = semanticPayload summary detailsSchema)
    (hsummary : isBlank summary = false) (hfloor : deliverableFloorReason summary = none)
    (hschema : isBlank detailsSchema = false) :
    validateSemanticResult result detailsSchema = .ok ⟨summary, [], [], [], []⟩ := by
  have hmembers : (semanticPayload summary detailsSchema).asMembers?.isSome = true := rfl
  have hget {key : String} {value : Json}
      (hmem : (key, value) ∈ semanticMembers summary detailsSchema) :
      result.payload.get? key = some value := hpayload ▸ get?_semanticPayload hmem
  have hempty (key : String) (hmem : (key, .arr []) ∈ semanticMembers summary detailsSchema) :
      objectList result.payload key = .ok [] ∧ textList result.payload key = .ok [] := by
    rw [objectList, textList, textsOr, hget hmem]
    exact ⟨rfl, rfl⟩
  have htext (key : String) {text : String} (hmem : (key, .str text) ∈ semanticMembers summary detailsSchema)
      (hfilled : isBlank text = false) : semanticText result.payload key = .ok text := by
    rw [semanticText, payloadText, hget hmem]
    simp [hfilled]
  have hprotocol : result.payload.get? "protocol" = some (.str "semantic-task-result/1") :=
    hget (by simp [semanticMembers])
  have hdetails : result.payload.get? "details" = some (.obj []) :=
    hget (by simp [semanticMembers])
  have hfloored : enforceDeliverableFloor summary "summary" = .ok () := by
    rw [enforceDeliverableFloor, hfloor]
  unfold validateSemanticResult
  simp only [hpayload ▸ hmembers, hprotocol, hdetails,
    htext "summary" (by simp [semanticMembers]) hsummary,
    htext "details_schema" (by simp [semanticMembers]) hschema,
    (hempty "claims" (by simp [semanticMembers])).1,
    (hempty "findings" (by simp [semanticMembers])).1,
    (hempty "artifacts" (by simp [semanticMembers])).1,
    (hempty "criterion_coverage" (by simp [semanticMembers])).1,
    (hempty "recommendations" (by simp [semanticMembers])).2,
    (hempty "unresolved_questions" (by simp [semanticMembers])).2,
    (hempty "delegation_requests" (by simp [semanticMembers])).1]
  simp [require, readDistinct, hfloored, Json.asMembers?, bind, Except.bind, pure, Except.pure]

end HarnessLabs.Controller
