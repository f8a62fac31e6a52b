import HarnessLabs.PlanGraph.Findings

/-!
# Review findings

What a reviewer reports, and the record that a review ledger keeps of it. A finding is identified by
its file and its subject; a second report of the same finding is merged into its record.

* `ReviewFixPolicy` — the switches and the thresholds.
* `FindingRecord` — what is kept of a finding.
* `findingKey`, `newRecord`, `mergeOccurrence` — the identity of a finding, its first record and its
  later occurrences.
-/

namespace HarnessLabs.FeatureRun

open Controller (pyInt? pyStr textOr)
open PlanGraph (truthy)

/-! ## Policy -/

/-- `ReviewFixPolicy`, with its `__post_init__`. -/
structure ReviewFixPolicy where
  enabled : Bool := true
  ledgerEnabled : Bool := true
  deduplicationEnabled : Bool := true
  reraiseGuardEnabled : Bool := true
  citationGuardEnabled : Bool := true
  scopeExpansionGuardEnabled : Bool := true
  targetedVerificationEnabled : Bool := true
  regressionReviewEnabled : Bool := true
  cycleLimitEnabled : Bool := true
  escalationEnabled : Bool := false
  riskTieringEnabled : Bool := true
  marginalYieldStopEnabled : Bool := true
  noProgressStopEnabled : Bool := true
  technicalDebtSinkEnabled : Bool := false
  allowRequiredTechnicalDebt : Bool := false
  fixScoreThreshold : ℕ := 80
  noteScoreThreshold : ℕ := 50
  mechanicalCycleLimit : ℕ := 3
  sensitiveCycleLimit : ℕ := 5
  minimumYield : ℚ := 1 / 10
  lowYieldCycles : ℕ := 2
  continuationCycles : ℕ := 2
  thresholds : noteScoreThreshold ≤ fixScoreThreshold ∧ fixScoreThreshold ≤ 100 := by decide
  limits : 1 ≤ mechanicalCycleLimit ∧ 1 ≤ sensitiveCycleLimit := by decide
  yield : 0 ≤ minimumYield ∧ minimumYield ≤ 1 := by norm_num
  positive : 1 ≤ lowYieldCycles ∧ 1 ≤ continuationCycles := by decide

def ReviewFixPolicy.standard : ReviewFixPolicy := {}

/-! ## Anchors -/

/-- `_normalize_anchor_path`: an absolute path stays absolute, as `PurePosixPath` writes it. -/
def normalizeAnchorPath (value : String) : String :=
  if value = "" then ""
  else if hasPrefix "/" value then
    let root := if hasPrefix "//" value ∧ ¬ hasPrefix "///" value then "//" else "/"
    if pathParts value = [] then root else root ++ asPosix value
  else asPosix value

def decimal? (digits : List Char) : Option ℕ :=
  if digits ≠ [] ∧ digits.all (·.isDigit) then some (Nat.ofDigitChars 10 digits 0) else none

/-- The line numbers behind the colon of an anchor. The pattern ends before one line feed. -/
def anchorLines? (location : List Char) : Option (ℕ × Option ℕ) :=
  let text := if location.getLast? = some '\n' then location.dropLast else location
  match text.splitOn '-' with
  | [line] => (decimal? line).map fun line => (line, none)
  | [line, last] => (decimal? line).bind fun line => (decimal? last).map fun last => (line, some last)
  | _ => none

/-- `split_anchor_location`. -/
def splitAnchorLocation (anchor : String) : String × Option ℕ × Option ℕ :=
  match anchor.toList.splitOn ':' with
  | [path, location] =>
    match anchorLines? location with
    | some (line, last) =>
      if path = [] ∨ path.getLast? = some '/' ∨ line < 1 ∨ last.any (· < line) then
        (anchor, none, none)
      else (String.ofList path, some line, last)
    | none => (anchor, none, none)
  | _ => (anchor, none, none)

/-! ## Records -/

/-- `outcome`. -/
inductive Disposition where
  | opened
  | pendingReview
  | fixed
  | note
  | scopeScreened
  | debt
  | transferred
  | escalated
  | deferred
  deriving DecidableEq, Repr

def Disposition.text : Disposition → String
  | .opened => "open"
  | .pendingReview => "pending_review"
  | .fixed => "fixed"
  | .note => "note"
  | .scopeScreened => "scope_screened"
  | .debt => "debt"
  | .transferred => "transferred"
  | .escalated => "escalated"
  | .deferred => "deferred"

/-- A finding in the ledger. -/
structure FindingRecord where
  key : String
  file : String
  anchorPath : String
  line : Option ℕ
  endLine : Option ℕ
  subject : String
  statement : String
  category : String
  severity : String
  score : ℤ
  fixCost : String
  protects : String
  requiresDisposition : Bool
  contractViolation : Bool
  scopeExpanding : Bool
  outcome : Disposition := .opened
  outcomeReason : String := ""
  escalationReason : String := ""
  cyclesSeen : List ℕ := []
  occurrences : ℕ := 1
  sourceFindingIds : List String := []
  evidenceRefs : List Json := []
  fixAttempts : List (ℕ × Bool) := []
  reopenedCount : ℕ := 0
  originNode : String := ""
  transferredTo : String := ""
  transferEligible : Bool := true
  requiredPaths : List String := []
  anchorOutOfGrant : Bool := false
  scopeScreenClass : String := ""
  inherited : Bool := false

namespace FindingRecord

variable (r : FindingRecord)

/-- `requires_disposition` or `contract_violation`. -/
def required : Bool := r.requiresDisposition || r.contractViolation

/-- `open` or `pending_review`. -/
def isOpen : Bool :=
  match r.outcome with
  | .opened | .pendingReview => true
  | _ => false

/-- The exported record. -/
def toJson : Json :=
  let natural (n : Option ℕ) : Json := (n.map fun n => Json.int n).getD .null
  Json.ofMembers [("key", .str r.key), ("file", .str r.file), ("anchor_path", .str r.anchorPath),
    ("line", natural r.line), ("end_line", natural r.endLine), ("subject", .str r.subject),
    ("statement", .str r.statement), ("category", .str r.category), ("severity", .str r.severity),
    ("score", .int r.score), ("fix_cost", .str r.fixCost), ("protects", .str r.protects),
    ("requires_disposition", .bool r.requiresDisposition),
    ("contract_violation", .bool r.contractViolation), ("scope_expanding", .bool r.scopeExpanding),
    ("outcome", .str r.outcome.text), ("outcome_reason", .str r.outcomeReason),
    ("escalation_reason", .str r.escalationReason),
    ("cycles_seen", .arr (r.cyclesSeen.map fun n => .int n)), ("occurrences", .int r.occurrences),
    ("source_finding_ids", .arr (r.sourceFindingIds.map .str)),
    ("evidence_refs", .arr r.evidenceRefs),
    ("fix_attempts", .arr (r.fixAttempts.map fun a =>
      Json.ofMembers [("cycle", .int a.1), ("addressed", .bool a.2)])),
    ("reopened_count", .int r.reopenedCount), ("origin_node", .str r.originNode),
    ("transferred_to", .str r.transferredTo), ("transfer_eligible", .bool r.transferEligible),
    ("required_paths", .arr (r.requiredPaths.map .str)),
    ("anchor_out_of_grant", .bool r.anchorOutOfGrant),
    ("scope_screen_class", .str r.scopeScreenClass), ("inherited", .bool r.inherited)]

end FindingRecord

/-! ## Findings -/

/-- A reported finding, with the two members that the loop has read or set before the ledger. -/
structure Finding where
  value : Json
  requiredPaths : List String
  scopeExpanding : Bool

/-- Characters that a finding key keeps of the subject. -/
def isKeyChar (c : Char) : Bool :=
  c.isLower || c.isDigit || c = '.' || c = '_' || c = '/' || c = '-'

/-- A run of other characters becomes one hyphen. -/
def hyphenate : List Char → List Char
  | [] => []
  | c :: rest =>
    if isKeyChar c then c :: hyphenate rest
    else if rest.head?.any fun d => !isKeyChar d then hyphenate rest
    else '-' :: hyphenate rest

def stripChars (p : Char → Bool) (cs : List Char) : List Char :=
  ((cs.dropWhile p).reverse.dropWhile p).reverse

def subjectOf (value : Json) : String :=
  ((value.get? "subject").map pyStr).getD (textOr value "statement" "")

/-- `_finding_key`. -/
def findingKey (value : Json) : String :=
  let lower (cs : List Char) := cs.map Char.toLower
  let path := lower (stripChars (·.isWhitespace) (textOr value "file" "").toList)
  let subject := lower (stripChars (·.isWhitespace) (subjectOf value).toList)
  let named := if subject = [] then lower (textOr value "id" "finding").toList else subject
  let normalized := (stripChars (· = '-') (hyphenate named)).take 120
  (if path = [] then "<repository>" else String.ofList path) ++ ":" ++
    (if normalized = [] then "finding" else String.ofList normalized)

def severityScore : String → ℤ
  | "critical" => 95
  | "major" => 85
  | "minor" => 60
  | "info" => 20
  | _ => 0

/-- The score of a finding; a value that is not an integer has none. -/
def Finding.score? (f : Finding) : Option ℤ :=
  match f.value.get? "score" with
  | none => some (severityScore (textOr f.value "severity" "major"))
  | some score => pyInt? score

/-- `_line_number`. -/
def lineNumber (field key : String) : Json → Except String (Option ℕ)
  | .null => .ok none
  | .int n => if n < 1 then .error s!"finding {key} has an invalid {field}" else .ok (some n.toNat)
  | _ => .error s!"finding {key} has an invalid {field}"

def Finding.evidenceRefs (f : Finding) : List Json :=
  ((f.value.get? "evidence_refs").bind Json.asArr?).getD []

def Finding.flag (f : Finding) (name : String) : Bool := ((f.value.get? name).map truthy).getD false

/-- `_new_record`. -/
def newRecord (key : String) (f : Finding) (cycle : ℕ) : Except String FindingRecord :=
  let anchor := textOr f.value "file" ""
  let (parsedPath, parsedLine, parsedEnd) := splitAnchorLocation anchor
  let numbered (parsed : Option ℕ) (name : String) :=
    match f.value.get? name with
    | none => .ok parsed
    | some value => lineNumber name key value
  match f.score? with
  | none => .error s!"finding {key} has an invalid score"
  | some score =>
    if score < 0 ∨ 100 < score then .error s!"finding {key} has an invalid score"
    else do
      let line ← numbered parsedLine "line"
      let endLine ← numbered parsedEnd "end_line"
      if endLine.isSome ∧ line.isNone then
        .error s!"finding {key} has an end_line without a line"
      else if endLine.any (fun last => line.any (last < ·)) then
        .error s!"finding {key} has an end_line before its line"
      else
        .ok
          { key := key
            file := anchor
            anchorPath := normalizeAnchorPath parsedPath
            line := line
            endLine := endLine
            subject := subjectOf f.value
            statement := textOr f.value "statement" ""
            category := textOr f.value "category" "review"
            severity := textOr f.value "severity" "major"
            score := score
            fixCost := textOr f.value "fix_cost" "local"
            protects := textOr f.value "protects" ""
            requiresDisposition := f.flag "requires_disposition"
            contractViolation := f.flag "contract_violation"
            scopeExpanding := f.scopeExpanding ||
              f.value.get? "fix_cost" = some (.str "surface-growing")
            cyclesSeen := [cycle]
            sourceFindingIds := [textOr f.value "id" key]
            evidenceRefs := f.evidenceRefs
            requiredPaths := f.requiredPaths }

/-- A new record is open, of this ledger, and seen in one cycle. -/
theorem newRecord_eq_ok {key : String} {f : Finding} {cycle : ℕ} {r : FindingRecord}
    (h : newRecord key f cycle = .ok r) :
    r.key = key ∧ r.outcome = .opened ∧ r.inherited = false ∧ r.cyclesSeen = [cycle] := by
  unfold newRecord at h
  cases hscore : f.score? with
  | none => simp [hscore] at h
  | some score =>
    simp only [hscore] at h
    split_ifs at h
    generalize (match f.value.get? "line" with
      | none => Except.ok (splitAnchorLocation (textOr f.value "file" "")).2.1
      | some value => lineNumber "line" key value) = line at h
    generalize (match f.value.get? "end_line" with
      | none => Except.ok (splitAnchorLocation (textOr f.value "file" "")).2.2
      | some value => lineNumber "end_line" key value) = endLine at h
    rcases line with message | line
    · cases h
    · rcases endLine with message | endLine
      · cases h
      · simp only [bind, Except.bind] at h
        split_ifs at h
        cases h
        exact ⟨rfl, rfl, rfl, rfl⟩

/-- The members of `more` that the list does not have yet, appended. -/
def appendNew {α : Type} [DecidableEq α] (known more : List α) : List α :=
  more.foldl (fun acc x => if x ∈ acc then acc else acc ++ [x]) known

theorem mem_appendNew {α : Type} [DecidableEq α] {known more : List α} {x : α} :
    x ∈ appendNew known more ↔ x ∈ known ∨ x ∈ more := by
  induction more generalizing known with
  | nil => simp [appendNew]
  | cons y rest ih =>
    have hunfold : appendNew known (y :: rest) =
        appendNew (if y ∈ known then known else known ++ [y]) rest := rfl
    rw [hunfold, ih]
    split_ifs with hy
    · simp only [List.mem_cons]
      constructor
      · intro h
        tauto
      · rintro (h | rfl | h)
        · exact .inl h
        · exact .inl hy
        · exact .inr h
    · simp only [List.mem_append, List.mem_cons, List.not_mem_nil, or_false]
      tauto

/-- `_merge_occurrence`. -/
def mergeOccurrence (r : FindingRecord) (f : Finding) (cycle : ℕ) : FindingRecord :=
  { r with
    occurrences := r.occurrences + 1
    cyclesSeen := appendNew r.cyclesSeen [cycle]
    sourceFindingIds := appendNew r.sourceFindingIds [textOr f.value "id" r.key]
    evidenceRefs := appendNew r.evidenceRefs f.evidenceRefs
    requiredPaths := appendNew r.requiredPaths f.requiredPaths
    score := f.score?.elim r.score (max r.score) }

end HarnessLabs.FeatureRun
