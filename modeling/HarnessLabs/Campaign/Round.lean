import HarnessLabs.FeatureRun.ReviewFinding
import HarnessLabs.PlanGraph.ConvergenceLedger

/-!
# What a round leaves behind

The parts of a campaign round that only read: which findings of a blocked graph are harvested, which
candidate is adopted as the next base, which new findings a prior repair may have caused.

* `normalizeHarvestedFinding` — the record of a child's review ledger, as a finding of an audit.
* `harvestUnroutedFindings` — **the findings that are still open** in the children that did not
  succeed.
* `baseAdoptionDecision`, `joinNodeSealed` — both read the join node in the checkpoint of the graph.
* `tagRegressionSuspects` — the keys under a path that an earlier round repaired.
-/

namespace HarnessLabs.Campaign

open Controller (pyStr nonBlankText)
open PlanGraph (truthy setField)
open PlanGraph.Convergence (Key field inWords findingSeverities)

/-! ## Values -/

/-- `str(value or "")`. -/
def strOr (value : Json) : String := if truthy value then pyStr value else ""

/-- The items of `value or ()`. -/
def itemsOf : Json → Except String (List Json)
  | .arr items => .ok items
  | .obj members => .ok (members.map fun m => .str m.1)
  | .str text => .ok (text.toList.map fun c => .str (String.singleton c))
  | value => if truthy value then .error "TypeError: object is not iterable" else .ok []

/-- `value or {}`, of which members are read. -/
def objectOr (value : Json) : Except String Json :=
  match value with
  | .obj members => .ok (.obj members)
  | value => if truthy value then .error "AttributeError: no attribute 'get'" else .ok (.obj [])

/-- `record[name] = value`, where there is a value. -/
def withField (record : Json) (name : String) : Option Json → Json
  | none => record
  | some value => setField record name value

/-- A list with at least one item. -/
def someItems : Json → Option (List Json)
  | .arr (item :: items) => some (item :: items)
  | _ => none

/-! ## Harvest -/

/-- `_normalize_harvested_finding`. -/
def normalizeHarvestedFinding (record : Json) : Except String Json := do
  let file := strOr (field record "file")
  let subject := if truthy (field record "subject") then pyStr (field record "subject")
    else strOr (field record "statement")
  let paths := (← itemsOf (field record "required_paths")).map pyStr
  let paths := if file ≠ "" ∧ file ∉ paths then paths ++ [file] else paths
  let paths := if paths = [] ∧ file ≠ "" then [file] else paths
  let finding := Json.ofMembers [("file", .str file), ("subject", .str subject),
    ("required_paths", .arr (paths.map .str)), ("confidence", .null), ("supersedes_key", .null)]
  let finding := withField finding "statement" ((nonBlankText (field record "statement")).map .str)
  let finding := withField finding "category" ((nonBlankText (field record "category")).map .str)
  let known ← inWords (field record "severity") findingSeverities
  let finding := withField finding "severity" (if known then some (field record "severity") else none)
  let finding := withField finding "requires_disposition"
    ((record.get? "requires_disposition").map fun value => .bool (truthy value))
  let finding := withField finding "evidence_refs"
    ((someItems (field record "evidence_refs")).map fun refs => .arr (refs.map (.str ∘ pyStr)))
  let ids := someItems (field record "source_finding_ids")
  let finding := withField finding "id" ((ids.bind List.head?).map (.str ∘ pyStr))
  return withField finding "source_finding_ids" (ids.map fun ids => .arr (ids.map (.str ∘ pyStr)))

inductive BlockPath where
  | transferConflict | childBlocked
  deriving DecidableEq

structure HarvestedFinding where
  finding : Json
  blockPath : BlockPath
  sourceNodeId : String
  deriving DecidableEq

/-- The files of a graph attempt, and the latest review ledger of each run directory. -/
structure AttemptDir where
  escalation : Option Json
  checkpoint : Option Json
  reviewLedger : String → Option Json

/-- `outcome` is `open` or `pending_review`. -/
def isUnrouted (record : Json) : Bool :=
  record.asMembers?.isSome &&
    (field record "outcome" = .str "open" || field record "outcome" = .str "pending_review")

/-- The harvested finding of a record, where it has a file and a subject. -/
def harvestRecord (blockPath : BlockPath) (nodeId : String) (record : Json) :
    Except String (List HarvestedFinding) :=
  if isUnrouted record then do
    let finding ← normalizeHarvestedFinding record
    if field finding "file" = .str "" ∨ field finding "subject" = .str "" then return []
    return [⟨finding, blockPath, nodeId⟩]
  else .ok []

/-- `((checkpoint.get("state") or {}).get("nodes")) or {}`. -/
def AttemptDir.nodesState (attempt : AttemptDir) : Except String Json := do
  let state ← objectOr (field (attempt.checkpoint.getD (.obj [])) "state")
  return if truthy (field state "nodes") then field state "nodes" else .obj []

/-- The review ledger of a node that failed or was blocked, with the path it was blocked on. -/
def AttemptDir.blockedLedger? (attempt : AttemptDir) (nodesState node : Json) :
    Option (BlockPath × String × Json) :=
  match field node "node_id", field node "status" with
  | .str nodeId, .str status =>
    if status = "failed" ∨ status = "blocked" then
      match field (field nodesState nodeId) "run_dir" with
      | .str runDir =>
        if runDir = "" then none
        else
          let blockPath := if truthy (field node "candidate_commit") then .transferConflict
            else .childBlocked
          (attempt.reviewLedger runDir).map fun ledger => (blockPath, nodeId, ledger)
      | _ => none
    else none
  | _, _ => none

def harvestNode (attempt : AttemptDir) (nodesState node : Json) :
    Except String (List HarvestedFinding) :=
  match attempt.blockedLedger? nodesState node with
  | none => .ok []
  | some (blockPath, nodeId, ledger) => do
    let findings ← objectOr (field ledger "findings")
    let harvested ← ((findings.asMembers?.getD []).map Prod.snd).mapM
      (harvestRecord blockPath nodeId)
    return harvested.flatten

/-- `harvest_unrouted_findings`. -/
def harvestUnroutedFindings (attempt : AttemptDir) : Except String (List HarvestedFinding) :=
  match attempt.escalation with
  | none => .ok []
  | some escalation => do
    let nodesState ← attempt.nodesState
    let nodes ← itemsOf (field escalation "nodes")
    let harvested ← nodes.mapM (harvestNode attempt nodesState)
    return harvested.flatten

/-! ## Adoption -/

/-- `_status_flags(status)["success"]`. -/
def statusSuccess (status : String) : Bool :=
  status ∈ ["succeeded", "completed_with_deviations", "completed_under_full_autonomy"]

/-- A commit that can be adopted: a text that is not empty. -/
def candidate? : Json → Option String
  | .str commit => if commit = "" then none else some commit
  | _ => none

/-- The state of the join node in the checkpoint of the graph. -/
def AttemptDir.joinState (attempt : AttemptDir) : Option String → Except String Json
  | none => .ok .null
  | some joinNodeId =>
    if joinNodeId = "" then .ok .null
    else attempt.nodesState.map fun nodesState => field nodesState joinNodeId

/-- `join_node_sealed`. -/
def joinNodeSealed (attempt : AttemptDir) (joinNodeId : Option String) : Except String Bool :=
  (attempt.joinState joinNodeId).map fun join => field join "status" = .str "succeeded"

/-- `base_adoption_decision`: the commit that is adopted. -/
def baseAdoptionDecision (runResult : Json) (attempt : AttemptDir) (joinNodeId : Option String) :
    Except String (Option String) :=
  if statusSuccess (pyStr (field runResult "status")) then
    .ok (candidate? (field runResult "candidate_commit"))
  else
    (attempt.joinState joinNodeId).map fun join =>
      if field join "status" = .str "succeeded" then candidate? (field join "candidate_commit")
      else none

/-! ## Regression suspects -/

/-- `PurePosixPath(path)`: the root and the components. -/
def posixPath (path : String) : ℕ × List String :=
  let slashes := (path.toList.takeWhile (· = '/')).length
  (if slashes = 0 then 0 else if slashes = 2 then 2 else 1, FeatureRun.pathParts path)

/-- `path_is_allowed`: the path is an allowed one, or lies beneath it. -/
def pathIsAllowed (path : String) (allowedPaths : List String) : Bool :=
  allowedPaths.any fun allowed =>
    (posixPath allowed).1 = (posixPath path).1 && (posixPath allowed).2.isPrefixOf (posixPath path).2

/-- `tag_regression_suspects`. -/
def tagRegressionSuspects (opened : List Json) (priorRepairGrants : List String) : List Key :=
  opened.filterMap fun finding =>
    let file := strOr (field finding "file")
    if file ≠ "" ∧ priorRepairGrants ≠ [] ∧ pathIsAllowed file priorRepairGrants then
      some (file, strOr (field finding "subject"))
    else none

end HarnessLabs.Campaign
