import HarnessLabs.Core.AuditJournal
import HarnessLabs.Lib.Runs
import HarnessLabs.PlanGraph.Findings
import Mathlib.Data.List.Sort

/-!
# The convergence ledger

A campaign keeps its findings across rounds in one append-only journal. Every operation folds the
journal under a lock, decides on its own copy of the state, and appends its records one by one; a
crash leaves a prefix of them. All views are read off the fold.

* `Record`, `foldOne`, `fold` — the records and the state that they fold to.
* `validateAudit` — what an audit result has to look like before anything is written.
* `State.ingestAudit` — the records that an audit result adds, and the other operations.
* `Ledger` — the journals that operations and crashes lead to.
-/

namespace HarnessLabs.PlanGraph.Convergence

open Audit (require)
open Controller (isBlank nonBlankText)

/-! ## Keys and findings -/

/-- The file and the subject of a finding. -/
abbrev Key := String × String

instance : LawfulBEq Key := inferInstance

def Key.le (a b : Key) : Prop := a.1 < b.1 ∨ a.1 = b.1 ∧ a.2 ≤ b.2

instance : DecidableRel Key.le := fun a b =>
  inferInstanceAs (Decidable (a.1 < b.1 ∨ a.1 = b.1 ∧ a.2 ≤ b.2))

/-- `sorted`, on keys. -/
def sortKeys (keys : List Key) : List Key := keys.insertionSort Key.le

/-- The twelve fields of a validated finding. -/
structure Finding where
  file : String
  subject : String
  requiredPaths : List String
  confidence : Option String
  supersedesKey : Option Key
  id : Option String
  statement : Option String
  category : Option String
  severity : Option String
  requiresDisposition : Bool
  evidenceRefs : List String
  sourceFindingIds : List String
  deriving DecidableEq

def Finding.key (f : Finding) : Key := (f.file, f.subject)

inductive CellStatus where
  | ok | unreachable | unstable
  deriving DecidableEq

/-- A fix counts as observed only with the cell it was captured in and the assertion evaluated. -/
inductive VerdictKind where
  | observedFixed (captureCell assertion : String)
  | reopened
  | unobserved
  | invalidated
  deriving DecidableEq

structure Verdict where
  key : Key
  kind : VerdictKind
  deriving DecidableEq

/-- The assertion is kept only where a machine can check it. -/
structure ConfirmedGood where
  key : Key
  assertion : Option Json
  reason : Option String
  deriving DecidableEq

def ConfirmedGood.machineCheckable (e : ConfirmedGood) : Bool := e.assertion.isSome

structure AuditResult where
  digest : String
  findings : List Finding
  verdicts : List Verdict
  confirmedGood : List ConfirmedGood
  captureCoverage : Dict String CellStatus

/-! ## Records -/

inductive Status where
  | opened | fixClaimed | fixed | excluded | amended | invalidated
  deriving DecidableEq

/-- `_ACTIVE_STATUSES`. -/
def Status.active : Status → Bool
  | .opened | .fixClaimed => true
  | .fixed | .excluded | .amended | .invalidated => false

/-- The status as the messages spell it. -/
def Status.text : Status → String
  | .opened => "open"
  | .fixClaimed => "fix_claimed"
  | .fixed => "fixed"
  | .excluded => "excluded"
  | .amended => "amended"
  | .invalidated => "invalidated"

/-- Why a finding is open again; the reason of a base rebase is a record of its own. -/
inductive ReopenReason where
  | repairClaimFailed | findingReemitted | rebaseReobservationFailed | regressionReopened
  deriving DecidableEq

inductive Disposition where
  | waive | requireRepair | amendCriterion
  deriving DecidableEq

/-- What `open_campaign` pins. -/
structure Campaign where
  domain : String
  target : Json
  baseCommit : String
  mergeBase : Option String
  predecessorGraphId : Option String
  seedAuditDigest : Option String
  repoIdentityBranch : Option String
  config : Json
  deriving DecidableEq

inductive Record where
  | campaignOpened (campaign : Campaign)
  | findingOpened (digest : String) (finding : Finding)
  | findingFixClaimed (key : Key) (source : String) (roundId : Option String)
  | findingFixed (key : Key) (captureCell assertion digest : String)
  | findingInvalidated (key : Key) (digest : String)
  | findingReopened (key : Key) (reason : ReopenReason) (digest : String)
  | baseRebase (affectedKeys : List Key) (note : Option String)
  | findingRuled (key : Key) (disposition : Disposition) (statement actor : String)
  | confirmedGood (key : Key) (assertion : Option Json) (reason : Option String) (digest : String)
  | captureCoverage (digest : String) (cells : Dict String CellStatus)
  | targetAmended (digest : String) (invalidationScope : Option (List Key))
  | auditIngested (digest : String) (unobserved : List Key)

/-! ## The fold -/

structure KeyInfo where
  status : Status := .opened
  history : List Record := []
  unsuccessfulRepairClaims : ℕ := 0
  finding : Option Finding := none
  rebaseDemoted : Bool := false

structure State where
  campaign : Option Campaign := none
  ingestedDigests : List String := []
  keys : Dict Key KeyInfo := ∅
  captureCells : Dict String CellStatus := ∅
  lastAuditUnobserved : Option (List Key) := none
  blocked : Bool := false

def State.initial : State := {}

/-- `info["status"] = status` and `info["history"].append(record)`. -/
def KeyInfo.move (info : KeyInfo) (status : Status) (record : Record) : KeyInfo :=
  { info with status := status, history := info.history ++ [record] }

/-- `_reopen`, on the info of the key. -/
def KeyInfo.reopen (info : KeyInfo) (reason : ReopenReason) (record : Record) : KeyInfo :=
  let info := info.move .opened record
  if reason = .repairClaimFailed then
    { info with unsuccessfulRepairClaims := info.unsuccessfulRepairClaims + 1 }
  else info

def State.setInfo (s : State) (key : Key) (info : KeyInfo) : State :=
  { s with keys := s.keys.set key info }

def KeyInfo.demote (info : KeyInfo) (record : Record) : KeyInfo :=
  { info.move .fixClaimed record with rebaseDemoted := true }

/-- The keys of a base rebase, one after the other; an unknown key raises. -/
def demoteAll (record : Record) (keys : Dict Key KeyInfo) : List Key → Option (Dict Key KeyInfo)
  | [] => some keys
  | key :: rest =>
    (keys.get? key).bind fun info => demoteAll record (keys.set key (info.demote record)) rest

/-- What a ruling makes of a status. -/
def Disposition.rule (d : Disposition) (status : Status) : Status :=
  match d with
  | .waive => .excluded
  | .requireRepair => status
  | .amendCriterion => .amended

/-- `_fold_one`; `none` stands for the `KeyError` of an unknown key. -/
def foldOne (s : State) (record : Record) : Option State :=
  match record with
  | .campaignOpened campaign => some { s with campaign := some campaign }
  | .findingOpened _ finding =>
    some (s.setInfo finding.key { history := [record], finding := some finding })
  | .findingFixClaimed key _ _ =>
    let info := (s.keys.get? key).getD {}
    some (s.setInfo key { info.move .fixClaimed record with rebaseDemoted := false })
  | .findingFixed key _ _ _ =>
    (s.keys.get? key).map fun info => s.setInfo key (info.move .fixed record)
  | .findingInvalidated key _ =>
    (s.keys.get? key).map fun info => s.setInfo key (info.move .invalidated record)
  | .findingReopened key reason _ =>
    (s.keys.get? key).map fun info => s.setInfo key (info.reopen reason record)
  | .baseRebase affectedKeys _ =>
    (demoteAll record s.keys affectedKeys).map fun keys => { s with keys := keys }
  | .findingRuled key disposition _ _ =>
    (s.keys.get? key).map fun info =>
      s.setInfo key (info.move (disposition.rule info.status) record)
  | .confirmedGood key assertion _ _ =>
    -- Without an assertion the record is a `watch`, which the fold passes over.
    if assertion.isSome then
      some (s.setInfo key (((s.keys.get? key).getD {}).move .excluded record))
    else some s
  | .captureCoverage _ cells => some { s with captureCells := s.captureCells.update cells }
  | .targetAmended _ invalidationScope => some { s with blocked := invalidationScope.isNone }
  | .auditIngested digest unobserved =>
    some { s with
      ingestedDigests := s.ingestedDigests ++ [digest]
      lastAuditUnobserved := some unobserved }

def corruptAt (line : ℕ) : String :=
  "convergence campaign ledger journal is corrupt at line " ++ toString line ++
    "; operator intervention required"

def foldFrom (s : State) (line : ℕ) : List Record → Except String State
  | [] => .ok s
  | record :: rest =>
    match foldOne s record with
    | none => .error (corruptAt line)
    | some t => foldFrom t (line + 1) rest

/-- `_fold`, on a journal that holds a record in every line. -/
def fold (journal : List Record) : Except String State := foldFrom .initial 1 journal

/-! ## Validation -/

/-- `value in words`, for a set of words: a list or an object cannot be hashed. -/
def inWords (value : Json) (words : List String) : Except String Bool :=
  match value with
  | .arr _ => .error "unhashable type: 'list'"
  | .obj _ => .error "unhashable type: 'dict'"
  | .str word => .ok (decide (word ∈ words))
  | .null | .bool _ | .int _ => .ok false

/-- `item.get(field)`. -/
def field (item : Json) (name : String) : Json := (item.get? name).getD .null

/-- A text that is not blank. -/
def requireText (value : Json) (message : String) : Except String String :=
  match nonBlankText value with
  | some text => .ok text
  | none => .error message

/-- A text that is not blank, or nothing. -/
def optionalText (value : Json) (message : String) : Except String (Option String) :=
  if value = .null then .ok none else (requireText value message).map some

/-- A list of texts none of which is blank. -/
def texts? : Json → Option (List String)
  | .arr items => items.mapM nonBlankText
  | _ => none

def requireTexts (value : Json) (message : String) : Except String (List String) :=
  match texts? value with
  | some texts => .ok texts
  | none => .error message

def optionalTexts (value : Json) (message : String) : Except String (List String) :=
  if value = .null then .ok [] else requireTexts value message

def requireMapping (value : Json) (message : String) : Except String Unit :=
  require value.asMembers?.isSome message

def requireBool (value : Json) (message : String) : Except String Bool :=
  match value with
  | .bool b => .ok b
  | _ => .error message

/-- `_validate_key`. -/
def validateKey (raw : Json) (owner : String) : Except String Key :=
  match raw with
  | .arr [.str file, .str subject] =>
    if isBlank file ∨ isBlank subject then .error (owner ++ " key must be a [file, subject] pair")
    else .ok (file, subject)
  | _ => .error (owner ++ " key must be a [file, subject] pair")

def findingSeverities : List String := ["critical", "info", "major", "minor"]

/-- The confidence of a finding: one of three words, or nothing. -/
def validateConfidence (value : Json) : Except String (Option String) :=
  match value with
  | .null => .ok none
  | .str word =>
    if word ∈ ["C", "S", "C+S"] then .ok (some word)
    else .error "finding 'confidence' must be C, S, or C+S"
  | _ => .error "finding 'confidence' must be C, S, or C+S"

def validateSupersedesKey (value : Json) : Except String (Option Key) :=
  if value = .null then .ok none
  else (validateKey value "finding supersedes_key").map some

def validateSeverity (value : Json) : Except String (Option String) :=
  if value = .null then .ok none
  else do
    let known ← inWords value findingSeverities
    require (known = true)
      "finding 'severity' must be one of ['critical', 'info', 'major', 'minor']"
    return value.asStr?

/-- `_validate_finding`. -/
def validateFinding (item : Json) : Except String Finding := do
  requireMapping item "finding must be an object"
  let file ← requireText (field item "file") "finding is missing a non-empty 'file'"
  let subject ← requireText (field item "subject") "finding is missing a non-empty 'subject'"
  let requiredPaths ← requireTexts (field item "required_paths")
    "finding is missing non-empty 'required_paths'"
  require (requiredPaths ≠ []) "finding is missing non-empty 'required_paths'"
  require (file ∈ requiredPaths) "finding 'file' must be a member of 'required_paths'"
  let confidence ← validateConfidence (field item "confidence")
  let supersedesKey ← validateSupersedesKey (field item "supersedes_key")
  let id ← optionalText (field item "id")
    "finding 'id' must be a non-empty string when present"
  let statement ← optionalText (field item "statement")
    "finding 'statement' must be a non-empty string when present"
  let category ← optionalText (field item "category")
    "finding 'category' must be a non-empty string when present"
  let severity ← validateSeverity (field item "severity")
  let requiresDisposition ← requireBool ((item.get? "requires_disposition").getD (.bool false))
    "finding 'requires_disposition' must be a boolean"
  let evidenceRefs ← optionalTexts (field item "evidence_refs")
    "finding 'evidence_refs' must be a list of non-empty strings"
  let sourceFindingIds ← optionalTexts (field item "source_finding_ids")
    "finding 'source_finding_ids' must be a list of non-empty strings"
  return {
    file := file, subject := subject, requiredPaths := requiredPaths, confidence := confidence,
    supersedesKey := supersedesKey, id := id, statement := statement, category := category,
    severity := severity, requiresDisposition := requiresDisposition,
    evidenceRefs := evidenceRefs, sourceFindingIds := sourceFindingIds }

def verdictKinds : List String := ["observed_fixed", "reopened", "unobserved", "invalidated"]

/-- The kind of a verdict whose word is known. -/
def validateVerdictKind (word : String) (item : Json) : Except String VerdictKind :=
  match word with
  | "observed_fixed" => do
    let cell ← requireText (field item "capture_cell")
      "an observed_fixed verdict must cite a non-empty capture_cell"
    let assertion ← requireText (field item "assertion")
      "an observed_fixed verdict must cite the assertion evaluated"
    return .observedFixed cell assertion
  | "reopened" => .ok .reopened
  | "invalidated" => .ok .invalidated
  | _ => .ok .unobserved

/-- `_validate_verdict`. -/
def validateVerdict (item : Json) : Except String Verdict := do
  requireMapping item "verdict must be an object"
  let kind := field item "verdict"
  let known ← inWords kind verdictKinds
  require (known = true) ("verdict has an invalid kind: '" ++ Controller.pyStr kind ++ "'")
  let key ← validateKey (field item "key") "verdict"
  let kind ← validateVerdictKind (Controller.pyStr kind) item
  return { key := key, kind := kind }

def assertionKinds : List String := ["file", "test_id", "selector", "command"]

/-- An assertion that a machine can check: of a known kind, with a referent. -/
def checkableAssertion (assertion : Json) : Except String Bool :=
  if assertion.asMembers?.isSome then
    (inWords (field assertion "kind") assertionKinds).map fun known =>
      known && (nonBlankText (field assertion "referent")).isSome
  else .ok false

def validateReason (value : Json) : Except String (Option String) :=
  match value with
  | .null => .ok none
  | .str reason => .ok (some reason)
  | _ => .error "confirmed_good 'reason' must be a string"

/-- `_validate_confirmed_good`. -/
def validateConfirmedGood (item : Json) : Except String ConfirmedGood := do
  requireMapping item "confirmed_good entry must be an object"
  let key ← validateKey (field item "key") "confirmed_good"
  let assertion := field item "assertion"
  let checkable ← checkableAssertion assertion
  let reason ← validateReason (field item "reason")
  return { key := key, assertion := if checkable then some assertion else none, reason := reason }

def cellStatus? : Json → Except String (Option CellStatus)
  | .str "ok" => .ok (some .ok)
  | .str "unreachable" => .ok (some .unreachable)
  | .str "unstable" => .ok (some .unstable)
  | value => (inWords value []).map fun _ => none

/-- `_validate_capture_coverage`, with the coverage collected so far. -/
def validateCoverage (coverage : Dict String CellStatus) :
    List (String × Json) → Except String (Dict String CellStatus)
  | [] => .ok coverage
  | (cell, value) :: rest => do
    require (isBlank cell = false) "capture_coverage cell id must be a non-empty string"
    match ← cellStatus? value with
    | some status => validateCoverage (coverage.set cell status) rest
    | none => .error ("capture_coverage status for '" ++ cell ++
        "' must be one of ['ok', 'unreachable', 'unstable']")

/-- `audit_result.get(name, [])`, which has to be a list. -/
def listOf (auditResult : Json) (name : String) : Except String (List Json) :=
  match (auditResult.get? name).getD (.arr []) with
  | .arr items => .ok items
  | _ => .error ("audit_result '" ++ name ++ "' must be a list")

def membersOf (auditResult : Json) (name : String) : Except String (List (String × Json)) :=
  match (auditResult.get? name).getD (.obj []) with
  | .obj members => .ok members
  | _ => .error ("audit_result '" ++ name ++ "' must be an object")

/-- What `ingest_audit` checks before it opens the journal. -/
def validateAudit (auditResult : Json) : Except String AuditResult := do
  requireMapping auditResult "audit_result must be an object"
  let digest ← requireText (field auditResult "digest")
    "audit_result is missing a non-empty 'digest'"
  let findings ← (← listOf auditResult "findings").mapM validateFinding
  let verdicts ← (← listOf auditResult "verdicts").mapM validateVerdict
  let confirmedGood ← (← listOf auditResult "confirmed_good").mapM validateConfirmedGood
  let captureCoverage ← validateCoverage ∅ (← membersOf auditResult "capture_coverage")
  return {
    digest := digest, findings := findings, verdicts := verdicts,
    confirmedGood := confirmedGood, captureCoverage := captureCoverage }

/-! ## Ingest -/

structure Summary where
  digest : String
  idempotent : Bool := false
  opened : List Key := []
  fixed : List Key := []
  reopened : List Key := []
  unobserved : List Key := []
  excluded : List Key := []
  watch : List Key := []
  invalidated : List Key := []
  blockedUnstable : List Key := []
  blockedUnknownCell : List Key := []
  deriving DecidableEq

/-- The copy of the state that an ingest works on, and the records it has appended. -/
structure Ingest where
  state : State
  appended : List Record := []
  mentioned : List Key := []
  summary : Summary

namespace Ingest

/-- Append a record about a key, and set the info of the key in the copy. -/
def write (i : Ingest) (key : Key) (info : KeyInfo) (record : Record) : Ingest :=
  { i with state := i.state.setInfo key info, appended := i.appended ++ [record] }

/-- `_reopen`. -/
def reopen (i : Ingest) (key : Key) (info : KeyInfo) (reason : ReopenReason) (digest : String) :
    Ingest :=
  let record := .findingReopened key reason digest
  { i.write key (info.reopen reason record) record with
    summary := { i.summary with reopened := i.summary.reopened ++ [key] } }

/-- Why a claimed fix is open again. -/
def claimReason (info : KeyInfo) : ReopenReason :=
  if info.rebaseDemoted then .rebaseReobservationFailed else .repairClaimFailed

def coverageStep (a : AuditResult) (i : Ingest) : Ingest :=
  if a.captureCoverage.items = [] then i
  else
    { i with
      state := { i.state with captureCells := i.state.captureCells.update a.captureCoverage }
      appended := i.appended ++ [.captureCoverage a.digest a.captureCoverage] }

/-- The status of a cell: in this audit, else in an earlier one. -/
def cellStatus (a : AuditResult) (s : State) (cell : String) : Option CellStatus :=
  (a.captureCoverage.get? cell).or (s.captureCells.get? cell)

/-- A fix that is observed in a cell that counts. -/
def fix (a : AuditResult) (i : Ingest) (key : Key) (info : KeyInfo) (cell assertion : String) :
    Ingest :=
  if info.status.active then
    let record := .findingFixed key cell assertion a.digest
    { i.write key (info.move .fixed record) record with
      summary := { i.summary with fixed := i.summary.fixed ++ [key] } }
  else i

def observedFixed (a : AuditResult) (i : Ingest) (key : Key) (info : KeyInfo)
    (cell assertion : String) : Ingest :=
  match cellStatus a i.state cell with
  | none => { i with
      summary := { i.summary with blockedUnknownCell := i.summary.blockedUnknownCell ++ [key] } }
  | some .unstable => { i with
      summary := { i.summary with blockedUnstable := i.summary.blockedUnstable ++ [key] } }
  | some .ok | some .unreachable => fix a i key info cell assertion

def observedReopened (a : AuditResult) (i : Ingest) (key : Key) (info : KeyInfo) : Ingest :=
  if info.status = .fixClaimed then i.reopen key info (claimReason info) a.digest
  else if info.status = .fixed then i.reopen key info .regressionReopened a.digest
  else i

def observedInvalidated (a : AuditResult) (i : Ingest) (key : Key) (info : KeyInfo) : Ingest :=
  if info.status.active then
    let record := .findingInvalidated key a.digest
    { i.write key (info.move .invalidated record) record with
      summary := { i.summary with invalidated := i.summary.invalidated ++ [key] } }
  else i

/-- `mentioned.add`: a verdict `unobserved` counts as none. -/
def mention (i : Ingest) (v : Verdict) : Ingest :=
  if v.kind = .unobserved then i else { i with mentioned := i.mentioned ++ [v.key] }

/-- What a verdict does to its key, which is known. -/
def observe (i : Ingest) (a : AuditResult) (v : Verdict) : Ingest :=
  match i.state.keys.get? v.key with
  | none => i
  | some info =>
    match v.kind with
    | .observedFixed cell assertion => observedFixed a i v.key info cell assertion
    | .reopened => observedReopened a i v.key info
    | .invalidated => observedInvalidated a i v.key info
    | .unobserved => i

/-- One round of the loop over the verdicts. -/
def verdictStep (a : AuditResult) (i : Ingest) (v : Verdict) : Ingest := (i.mention v).observe a v

/-- One round of the loop over the findings. -/
def findingStep (a : AuditResult) (i : Ingest) (finding : Finding) : Ingest :=
  match i.state.keys.get? finding.key with
  | none =>
    let record := .findingOpened a.digest finding
    { i.write finding.key { history := [record], finding := some finding } record with
      summary := { i.summary with opened := i.summary.opened ++ [finding.key] } }
  | some info =>
    if info.status = .fixed then i.reopen finding.key info .findingReemitted a.digest
    else if info.status = .fixClaimed then i.reopen finding.key info (claimReason info) a.digest
    else i

/-- One round of the loop over the confirmed entries. -/
def confirmedStep (a : AuditResult) (i : Ingest) (entry : ConfirmedGood) : Ingest :=
  let record := .confirmedGood entry.key entry.assertion entry.reason a.digest
  if entry.machineCheckable then
    let info := ((i.state.keys.get? entry.key).getD {}).move .excluded record
    { i.write entry.key info record with
      summary := { i.summary with excluded := i.summary.excluded ++ [entry.key] } }
  else
    { i with
      appended := i.appended ++ [record]
      summary := { i.summary with watch := i.summary.watch ++ [entry.key] } }

end Ingest

/-- The keys that are open or claimed, before anything is written. -/
def State.activeKeys (s : State) : List Key :=
  (s.keys.items.filter fun p => p.2.status.active).map Prod.fst

/-- The three loops, behind the coverage. -/
def State.ingestLoops (s : State) (a : AuditResult) : Ingest :=
  let i := Ingest.coverageStep a { state := s, summary := { digest := a.digest } }
  let i := a.verdicts.foldl (Ingest.verdictStep a) i
  let i := a.findings.foldl (Ingest.findingStep a) i
  a.confirmedGood.foldl (Ingest.confirmedStep a) i

def VerdictKind.text : VerdictKind → String
  | .observedFixed _ _ => "observed_fixed"
  | .reopened => "reopened"
  | .unobserved => "unobserved"
  | .invalidated => "invalidated"

def keyText (key : Key) : String := "('" ++ key.1 ++ "', '" ++ key.2 ++ "')"

/-- The locked part of `ingest_audit`: the records it appends, and its summary. -/
def State.ingest (s : State) (a : AuditResult) : Except String (List Record × Summary) :=
  if a.digest ∈ s.ingestedDigests then .ok ([], { digest := a.digest, idempotent := true })
  else
    match a.verdicts.find? fun v => (s.keys.get? v.key).isNone with
    | some v => .error (v.kind.text ++ " verdict cites unknown key " ++ keyText v.key)
    | none =>
      let i := s.ingestLoops a
      let unobserved := sortKeys (s.activeKeys.filter (· ∉ i.mentioned))
      .ok (i.appended ++ [.auditIngested a.digest unobserved],
        { i.summary with unobserved := unobserved })

/-! ## Operations -/

/-- `open_campaign`. -/
def openCampaign (journal : List Record) (c : Campaign) : Except String Record := do
  require (isBlank c.domain = false) "campaign domain must be a non-empty string"
  require (c.target.asMembers?.isSome ∧ truthy c.target)
    "campaign target must be a non-empty object"
  let _ ← requireText (field c.target "kind") "campaign target is missing a non-empty 'kind'"
  let _ ← requireText (field c.target "digest") "campaign target is missing a non-empty 'digest'"
  let _ ← requireText (field c.target "snapshot_path")
    "campaign target is missing a non-empty 'snapshot_path'"
  require (isBlank c.baseCommit = false) "campaign base_commit must be a non-empty string"
  let s ← fold journal
  require s.campaign.isNone "campaign_opened is already recorded for this ledger"
  return .campaignOpened c

/-- `ingest_audit`. -/
def ingestAudit (journal : List Record) (auditResult : Json) :
    Except String (List Record × Summary) := do
  let a ← validateAudit auditResult
  let s ← fold journal
  s.ingest a

/-- `record_fix_claimed`. -/
def recordFixClaimed (journal : List Record) (key : Json) (source : String)
    (roundId : Option String) : Except String Record := do
  let key ← validateKey key "record_fix_claimed"
  let s ← fold journal
  match s.keys.get? key with
  | none => .error ("cannot claim a fix for unknown key " ++ keyText key)
  | some info =>
    if info.status.active then .ok (.findingFixClaimed key source roundId)
    else .error ("cannot claim a fix for key " ++ keyText key ++ "; it is already '" ++
      info.status.text ++ "'")

def disposition? : String → Option Disposition
  | "waive" => some .waive
  | "require_repair" => some .requireRepair
  | "amend_criterion" => some .amendCriterion
  | _ => none

/-- `record_ruling`. -/
def recordRuling (journal : List Record) (key : Json) (disposition statement actor : String) :
    Except String Record := do
  let key ← validateKey key "record_ruling"
  match disposition? disposition with
  | none =>
    .error "ruling disposition must be one of ['amend_criterion', 'require_repair', 'waive']"
  | some disposition =>
    require (isBlank statement = false) "a ruling requires a non-empty statement"
    let s ← fold journal
    require (s.keys.get? key).isSome ("cannot rule an unknown key " ++ keyText key)
    return .findingRuled key disposition statement actor

/-- The keys that are fixed. -/
def State.fixedKeys (s : State) : List Key :=
  (s.keys.items.filter fun p => p.2.status = .fixed).map Prod.fst

/-- `record_base_rebase`. -/
def recordBaseRebase (journal : List Record) (note : Option String) : Except String Record := do
  let s ← fold journal
  return .baseRebase (sortKeys s.fixedKeys) note

/-- `record_target_amendment`, which does not fold the journal. -/
def recordTargetAmendment (digest : String) (invalidationScope : Option (List Json)) :
    Except String Record := do
  require (isBlank digest = false) "target amendment requires a non-empty digest"
  match invalidationScope with
  | none => return .targetAmended digest none
  | some items =>
    let scope ← items.mapM fun item => validateKey item "target_amended invalidation_scope"
    return .targetAmended digest (some scope)

inductive Operation where
  | openCampaign (campaign : Campaign)
  | ingestAudit (auditResult : Json)
  | recordFixClaimed (key : Json) (source : String) (roundId : Option String)
  | recordRuling (key : Json) (disposition statement actor : String)
  | recordBaseRebase (note : Option String)
  | recordTargetAmendment (digest : String) (invalidationScope : Option (List Json))

/-- The records that an operation appends, unless it raises. -/
def Operation.records (journal : List Record) : Operation → Except String (List Record)
  | .openCampaign campaign => (Convergence.openCampaign journal campaign).map ([·])
  | .ingestAudit auditResult => (Convergence.ingestAudit journal auditResult).map Prod.fst
  | .recordFixClaimed key source roundId =>
    (Convergence.recordFixClaimed journal key source roundId).map ([·])
  | .recordRuling key disposition statement actor =>
    (Convergence.recordRuling journal key disposition statement actor).map ([·])
  | .recordBaseRebase note => (Convergence.recordBaseRebase journal note).map ([·])
  | .recordTargetAmendment digest invalidationScope =>
    (Convergence.recordTargetAmendment digest invalidationScope).map ([·])

/-! ## Ledgers -/

/-- An operation that appends its records; a crash cuts them off. -/
def step (input : Operation × Option ℕ) (journal : List Record) : Option (List Record) :=
  match input.1.records journal with
  | .error _ => none
  | .ok records => some (journal ++ records.take (input.2.getD records.length))

/-- The journals that operations lead to, each finished or cut off by a crash. -/
def Reachable (journal : List Record) : Prop := Inputs.Runs step [] journal

/-! ## Views -/

inductive Mark where
  | fixed | reopened
  deriving DecidableEq

/-- The events that a stall is read off; those of a rebase are exempt. -/
def Record.mark? : Record → Option Mark
  | .findingFixed _ _ _ _ => some .fixed
  | .findingReopened _ reason _ =>
    if reason = .rebaseReobservationFailed then none else some .reopened
  | _ => none

def KeyInfo.pattern (info : KeyInfo) : List Mark := info.history.filterMap Record.mark?

/-- Fixed, reopened, fixed and reopened again, with no other event between. -/
def Relapsed (pattern : List Mark) : Bool :=
  (List.range (pattern.length - 3 + 1)).any fun start =>
    (pattern.drop start).take 4 = [.fixed, .reopened, .fixed, .reopened]

def KeyInfo.stalled (info : KeyInfo) : Bool :=
  2 ≤ info.unsuccessfulRepairClaims || Relapsed info.pattern

namespace State

def keysWhere (s : State) (p : KeyInfo → Bool) : Finset Key :=
  ((s.keys.items.filter fun item => p item.2).map Prod.fst).toFinset

/-- `open_set`. -/
def openSet (s : State) : Finset Key := s.keysWhere (·.status.active)

/-- `exclusion_set`. -/
def exclusionSet (s : State) : Finset Key := s.keysWhere (·.status = .excluded)

/-- `stalled_keys`. -/
def stalledKeys (s : State) : Finset Key := s.keysWhere (·.stalled)

/-- `key_status`. -/
def keyStatus (s : State) (key : Key) : Option Status := (s.keys.get? key).map (·.status)

def openFinding (s : State) (key : Key) : Except String Finding :=
  match (s.keys.get? key).bind (·.finding) with
  | some finding => .ok finding
  | none => .error ("open key " ++ keyText key ++
      " has no associated finding envelope; the journal is corrupt")

/-- `open_findings`. -/
def openFindings (s : State) : Except String (List Finding) :=
  ((sortKeys s.keys.keys).filter fun key => (s.keyStatus key).any (·.active)).mapM s.openFinding

/-- `coverage_state`. -/
def coverageState (s : State) : Dict String CellStatus := s.captureCells

/-- `success`. -/
def success (s : State) : Bool := s.lastAuditUnobserved = some []

end State

end HarnessLabs.PlanGraph.Convergence
