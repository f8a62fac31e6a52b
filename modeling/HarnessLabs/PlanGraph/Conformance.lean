import HarnessLabs.Lib.Memo
import HarnessLabs.PlanGraph.Decomposition

/-!
# The conformance analyzer

The sizing rules S1 to S10 over a plan. Every rule yields findings, sorted into one report, and an
override switches the enforcement of a finding off but never the finding. The rules share an index of
ancestors that is filled as they ask.

* `ancestorsOf` — the index; `computes_ancestorsOf` — **it finds what a run needs.**
* `s1AndS3Findings` to `s10Findings` — the rules.
* `analyzeDecomposition` — the report.
* `analyze_exact` — **the analysis of an admitted plan ends with every finding of every rule.**
-/

namespace HarnessLabs.PlanGraph

open Audit (require)
open HarnessLabs.Controller (isBlank)
open Memo (Query Computes closureMemo)

/-! ## Kinds -/

inductive Grade where
  | block
  | warn
  | proposal
  deriving DecidableEq

inductive ConformanceKind where
  | writablePathOverlap
  | directoryGrant
  | serializationProposal
  | grantOutsideObjective
  | missingObservable
  | unreachableObservable
  | exitCheckOutsideGrants
  | gateLargerThanCriteria
  | fanInJoinProposal
  | nodeCount
  deriving DecidableEq

namespace ConformanceKind

def text : ConformanceKind → String
  | writablePathOverlap => "conformance-s1-writable-path-overlap"
  | directoryGrant => "conformance-s2-directory-grant"
  | serializationProposal => "conformance-s3-serialization-proposal"
  | grantOutsideObjective => "conformance-s4-grant-outside-objective"
  | missingObservable => "conformance-s5-missing-observable"
  | unreachableObservable => "conformance-s6-unreachable-observable"
  | exitCheckOutsideGrants => "conformance-s7-exit-check-outside-grants"
  | gateLargerThanCriteria => "conformance-s8-gate-larger-than-criteria"
  | fanInJoinProposal => "conformance-s9-fan-in-join-proposal"
  | nodeCount => "conformance-s10-node-count"

def all : List ConformanceKind :=
  [writablePathOverlap, directoryGrant, serializationProposal, grantOutsideObjective,
    missingObservable, unreachableObservable, exitCheckOutsideGrants, gateLargerThanCriteria,
    fanInJoinProposal, nodeCount]

def grade : ConformanceKind → Grade
  | gateLargerThanCriteria => .warn
  | nodeCount => .warn
  | serializationProposal => .proposal
  | fanInJoinProposal => .proposal
  | _ => .block

end ConformanceKind

def maxFanIn : ℕ := 3

def maxRoundNodes : ℕ := 8

/-! ## Observables -/

structure Observable where
  kind : String
  referent : String
  deriving DecidableEq

def observableKinds : List String := ["file", "test_id", "selector", "command"]

/-- The text behind the first marker that an object follows. -/
def behindMarker : List Char → Option (List Char)
  | [] => none
  | c :: rest =>
    if "OBSERVABLE:\x7b".toList.isPrefixOf (c :: rest) then
      some ((c :: rest).drop "OBSERVABLE:".length)
    else behindMarker rest

/-- `_OBSERVABLE_PATTERN`: what stands behind the marker, up to the last brace and the end. -/
def observableText (text : String) : Option (List Char) :=
  let kept := (text.toList.reverse.dropWhile (·.isWhitespace)).reverse
  if kept.getLast? = some '\x7d' then behindMarker kept else none

/-- `parse_observable`. -/
def parseObservable (text : String) : Option Observable := do
  let candidate ← Json.loads (← observableText text)
  let kind ← (← candidate.get? "kind").asStr?
  let referent ← (← candidate.get? "referent").asStr?
  if kind ∈ observableKinds ∧ isBlank referent = false then some ⟨kind, referent⟩ else none

/-! ## Intents -/

/-- `declares_intent`. -/
def declaresIntent (intentPaths : List String) : Bool := !intentPaths.isEmpty

/-- `unintended_grants`. -/
def unintendedGrants (intentPaths grants : List String) : List String :=
  if declaresIntent intentPaths then
    grants.filter fun grant => !intentPaths.any fun intent => pathIsAllowed intent [grant]
  else []

section Rules

variable {F : Type}

def ContractRun.intentPaths (run : ContractRun F) : List String := run.pathIntents.map (·.path)

/-! ## Findings -/

/-- An intermediate join that is proposed for a run. -/
structure IntermediateJoin where
  targetRun : String
  currentFanIn : ℕ
  proposedIntermediateNodeId : String
  groupedDependencies : List String
  remainingDependencies : List String
  rewiredDependsOn : List String
  deriving DecidableEq

inductive Proposal where
  | serialize (dependency dependent : String) (paths : List String)
  | join (proposal : IntermediateJoin)
  deriving DecidableEq

structure ConformanceFinding where
  kind : ConformanceKind
  category : String
  statement : String
  runs : List String
  criterion : Option String
  paths : List String
  proposal : Option Proposal := none
  enforced : Bool := false
  overridden : Bool := false
  overrideReason : Option String := none
  deriving DecidableEq

def ConformanceFinding.grade (f : ConformanceFinding) : Grade := f.kind.grade

/-- The paths of a set, in order. -/
def sortedSet (paths : List String) : List String := paths.dedup.insertionSort (· ≤ ·)

def joinedTexts (texts : List String) : String := ", ".intercalate texts

/-! ## The index of ancestors -/

/-- `_AncestorIndex.ancestors`, with as many levels of recursion as there are runs. -/
def ancestorsOf (p : ContractPlan F) (id : String) : Query String (Finset String) :=
  closureMemo (dependenciesOf p.planRuns) (p.runs.length + 1) id

/-- `_AncestorIndex.is_sink`. -/
def isSink (p : ContractPlan F) (id : String) : Bool :=
  !p.runs.any fun run => run.id ≠ id ∧ id ∈ run.dependsOn

/-! ## S1 and S3 -/

/-- Every value with every later one. -/
def pairsOf {α : Type} : List α → List (α × α)
  | [] => []
  | a :: rest => rest.map (a, ·) ++ pairsOf rest

/-- `max(path_a, path_b, key=len)`. -/
def longerPath (first second : String) : String :=
  if first.length < second.length then second else first

/-- The deeper one of any two grants that overlap. -/
def sharedPaths (first second : List String) : List String :=
  sortedSet (first.flatMap fun a => (second.filter (pathsOverlap a)).map (longerPath a))

/-- One run needs the other. -/
def orderedPair (p : ContractPlan F) (first second : ContractRun F) : Query String Bool := do
  let above ← ancestorsOf p second.id
  if first.id ∈ above then return true
  let above ← ancestorsOf p first.id
  return decide (second.id ∈ above)

structure PathOverlap where
  first : String
  second : String
  paths : List String
  deriving DecidableEq

/-- What two runs share, unless one needs the other. -/
def pairOverlap (p : ContractPlan F) (pair : ContractRun F × ContractRun F) :
    Query String (Option PathOverlap) := do
  let shared := sharedPaths pair.1.allowedPaths pair.2.allowedPaths
  if ← orderedPair p pair.1 pair.2 then return none
  if shared = [] then return none
  return some ⟨pair.1.id, pair.2.id, shared⟩

/-- `_writable_path_overlaps`. -/
def writablePathOverlaps (p : ContractPlan F) : Query String (List PathOverlap) := do
  let found ← (pairsOf p.runs).mapM (pairOverlap p)
  return found.reduceOption

def s1Finding (o : PathOverlap) : ConformanceFinding where
  kind := .writablePathOverlap
  category := "S1"
  statement := s!"'{o.first}' and '{o.second}' are dependency-unordered and share writable path(s) "
    ++ joinedTexts o.paths ++ "; a controller join of both cannot be guaranteed disjoint"
  runs := [o.first, o.second]
  criterion := none
  paths := o.paths

def s3Finding (o : PathOverlap) : ConformanceFinding where
  kind := .serializationProposal
  category := "S3"
  statement := s!"propose ordering '{o.second}' after '{o.first}' via depends_on to resolve the S1 " ++
    "overlap by construction rather than by prose discipline"
  runs := [o.first, o.second]
  criterion := none
  paths := o.paths
  proposal := some (.serialize o.first o.second o.paths)

/-- `_s1_and_s3_findings`. -/
def s1AndS3Findings (p : ContractPlan F) : Query String (List ConformanceFinding) := do
  let overlaps ← writablePathOverlaps p
  return overlaps.flatMap fun o => [s1Finding o, s3Finding o]

/-! ## S2 and S4 -/

/-- `_looks_like_file`: the last segment has a dot. -/
def looksLikeFile (path : String) : Bool :=
  (path.toList.reverse.takeWhile (· ≠ '/')).contains '.'

/-- `_s2_findings`. -/
def s2Findings (p : ContractPlan F) : List ConformanceFinding :=
  p.runs.flatMap fun run =>
    let declaredCreates := (run.pathIntents.filter (·.action = "create")).map (·.path)
    let directoryGrants := (run.allowedPaths.filter fun path =>
      !looksLikeFile path ∧ path ∉ declaredCreates).insertionSort (· ≤ ·)
    if directoryGrants = [] then []
    else [{
      kind := .directoryGrant
      category := "S2"
      statement := s!"'{run.id}' holds directory grant(s) " ++ joinedTexts directoryGrants ++
        " that are neither file-shaped nor an explicitly declared create"
      runs := [run.id]
      criterion := none
      paths := directoryGrants }]

/-- `_s4_findings`. -/
def s4Findings (p : ContractPlan F) : List ConformanceFinding :=
  p.runs.flatMap fun run =>
    let uncovered := (unintendedGrants run.intentPaths run.allowedPaths).insertionSort (· ≤ ·)
    if uncovered = [] then []
    else [{
      kind := .grantOutsideObjective
      category := "S4"
      statement := s!"'{run.id}' declares path intents that do not cover grant(s) " ++
        joinedTexts uncovered ++ "; the objective disclaims what those grants would let it write"
      runs := [run.id]
      criterion := none
      paths := uncovered }]

/-! ## S5 and S6 -/

/-- `_run_argv_tokens`. -/
def runArgvTokens (run : ContractRun F) : List String :=
  run.verificationArgv ++ run.verificationGates.flatMap (·.argv)

/-- `_reachable_from_argv`. -/
def reachableFromArgv (referent : String) (tokens : List String) : Bool :=
  tokens.any fun token => decide (referent.toList <:+: token.toList)

/-- What keeps an observable from being reached. -/
def observableReasons (run : ContractRun F) (observable : Observable) : List String :=
  (if observable.kind = "file" ∧ ¬ pathIsAllowed observable.referent run.allowedPaths then
      ["outside the node's grants"] else []) ++
    if reachableFromArgv observable.referent (runArgvTokens run) then []
    else ["not reachable from verification_argv"]

def criterionFindings (p : ContractPlan F) (run : ContractRun F) (criterion : String) :
    List ConformanceFinding :=
  match parseObservable ((p.acceptanceCriteria.get? criterion).getD "") with
  | none => [{
      kind := .missingObservable
      category := "S5"
      statement := s!"criterion '{criterion}' owned by '{run.id}' carries no machine-readable " ++
        "{kind, referent} observable"
      runs := [run.id]
      criterion := some criterion
      paths := [] }]
  | some observable =>
    let reasons := observableReasons run observable
    if reasons = [] then []
    else [{
      kind := .unreachableObservable
      category := "S6"
      statement := s!"criterion '{criterion}' owned by '{run.id}' declares observable referent " ++
        s!"'{observable.referent}' that is " ++ " and ".intercalate reasons
      runs := [run.id]
      criterion := some criterion
      paths := [observable.referent] }]

/-- `_s5_and_s6_findings`. -/
def s5AndS6Findings (p : ContractPlan F) : List ConformanceFinding :=
  p.runs.flatMap fun run => run.criteria.flatMap (criterionFindings p run)

/-! ## S7 and S8 -/

/-- `available_paths`. -/
def availablePaths (p : ContractPlan F) (run : ContractRun F) (above : Finset String) :
    List String :=
  run.allowedPaths ++ (p.runs.filter (·.id ∈ above)).flatMap (·.allowedPaths)

def requiredFindings (run : ContractRun F) (above : Finset String) (available : List String)
    (required : RequiredPath) : List ConformanceFinding :=
  if required.availability ≠ "created_by" then []
  else
    let producer := required.producerRunId.getD "None"
    if required.producerRunId ≠ some run.id ∧ ¬ required.producerRunId.any (· ∈ above) then [{
      kind := .exitCheckOutsideGrants
      category := "S7"
      statement := s!"'{run.id}'s exit check requires '{required.path}' from producer '{producer}', "
        ++ "which is not an ancestor and so is not merged in by execution time"
      runs := [run.id]
      criterion := none
      paths := [required.path] }]
    else if pathIsAllowed required.path available then []
    else [{
      kind := .exitCheckOutsideGrants
      category := "S7"
      statement := s!"'{run.id}'s exit check requires '{required.path}', which lies outside its own "
        ++ "grants and its inherited-region merge obligations"
      runs := [run.id]
      criterion := none
      paths := [required.path] }]

/-- `_s7_findings`. -/
def s7Findings (p : ContractPlan F) : Query String (List ConformanceFinding) := do
  let found ← p.runs.mapM fun run => do
    let above ← ancestorsOf p run.id
    return run.verificationRequiredPaths.flatMap
      (requiredFindings run above (availablePaths p run above))
  return found.flatten

/-- `_s8_findings`. -/
def s8Findings (p : ContractPlan F) : List ConformanceFinding :=
  p.runs.flatMap fun run =>
    let gates := run.verificationGates.length
    let criteria := run.criteria.length
    if gates ≤ criteria then []
    else [{
      kind := .gateLargerThanCriteria
      category := "S8"
      statement := s!"'{run.id}' carries {gates} verification gate(s) against {criteria} " ++
        "criterion/criteria; a gate that pins a repo-wide invariant beyond its criteria should " ++
        "become a criterion or move downstream"
      runs := [run.id]
      criterion := none
      paths := [] }]

/-! ## S9 and S10 -/

/-- `intermediate_join_proposal`. -/
def intermediateJoinProposal (run : PlanRun) : IntermediateJoin :=
  let dependencies := run.dependsOn.insertionSort (· ≤ ·)
  let overflow := dependencies.length - maxFanIn + 1
  let remaining := dependencies.drop overflow
  let intermediateId := run.id ++ "-join-1"
  { targetRun := run.id
    currentFanIn := dependencies.length
    proposedIntermediateNodeId := intermediateId
    groupedDependencies := dependencies.take overflow
    remainingDependencies := remaining
    rewiredDependsOn := (remaining ++ [intermediateId]).insertionSort (· ≤ ·) }

/-- `_s9_findings`. -/
def s9Findings (p : ContractPlan F) : List ConformanceFinding :=
  p.runs.flatMap fun run =>
    let fanIn := run.dependsOn.length
    if fanIn ≤ maxFanIn ∨ isSink p run.id then []
    else [{
      kind := .fanInJoinProposal
      category := "S9"
      statement := s!"'{run.id}' has fan-in {fanIn} > {maxFanIn} and is not the plan's sink/join " ++
        "node; propose an intermediate join"
      runs := [run.id]
      criterion := none
      paths := []
      proposal := some (.join (intermediateJoinProposal run.toPlanRun)) }]

/-- `_s10_findings`. -/
def s10Findings (p : ContractPlan F) : List ConformanceFinding :=
  let nodes := p.runs.length
  if nodes ≤ maxRoundNodes then []
  else [{
    kind := .nodeCount
    category := "S10"
    statement := s!"the round carries {nodes} node(s), above the ~{maxRoundNodes}-node guideline; " ++
      "split the round"
    runs := p.runs.map (·.id)
    criterion := none
    paths := [] }]

/-! ## Overrides -/

inductive OverrideScope where
  | node
  | criterion
  deriving DecidableEq

structure ConformanceOverride where
  scope : OverrideScope
  target : String
  kind : ConformanceKind
  reason : String
  deriving DecidableEq

/-- An override as a caller supplies it. -/
structure RawOverride where
  scope : String
  target : String
  kind : String
  reason : String

def parseOverride (index : ℕ) (raw : RawOverride) : Except String ConformanceOverride := do
  let scope ← match raw.scope with
    | "node" => pure OverrideScope.node
    | "criterion" => pure OverrideScope.criterion
    | _ => .error s!"override {index} scope must be 'node' or 'criterion'"
  require (isBlank raw.target = false) s!"override {index} target is required"
  match ConformanceKind.all.find? (·.text = raw.kind) with
  | none => .error s!"override {index} kind is not a recognized conformance finding kind"
  | some kind => do
    require (isBlank raw.reason = false) s!"override {index} requires a non-empty reason"
    return ⟨scope, raw.target, kind, raw.reason⟩

/-- `parse_overrides`. -/
def parseOverrides (raw : List RawOverride) : Except String (List ConformanceOverride) :=
  raw.zipIdx.mapM fun r => parseOverride r.2 r.1

/-- `matches`. -/
def ConformanceOverride.covers (o : ConformanceOverride) (f : ConformanceFinding) : Bool :=
  o.kind == f.kind &&
    match o.scope with
    | .node => f.runs.contains o.target
    | .criterion => f.criterion == some o.target

/-! ## The report -/

structure ConformanceReport where
  conformanceAware : Bool
  enforced : Bool
  findings : List ConformanceFinding
  overridesApplied : List ConformanceOverride
  deriving DecidableEq

/-- `is_conformance_aware`. -/
def isConformanceAware (p : ContractPlan F) : Bool :=
  p.acceptanceCriteria.items.any fun item => (parseObservable item.2).isSome

/-- What findings are sorted by. -/
def ConformanceFinding.sortKey (f : ConformanceFinding) :
    String ×ₗ List String ×ₗ String ×ₗ List String :=
  toLex (f.kind.text, toLex (f.runs, toLex (f.criterion.getD "", f.paths)))

/-- The finding with the enforcement that the overrides leave. -/
def resolveOverride (active : Bool) (overrides : List ConformanceOverride) (f : ConformanceFinding) :
    ConformanceFinding :=
  let override := overrides.find? (·.covers f)
  { f with
    enforced := active && decide (f.grade ≠ .proposal) && override.isNone
    overridden := override.isSome
    overrideReason := override.map (·.reason) }

/-- The findings of every rule. -/
def rawFindings (p : ContractPlan F) : Query String (List ConformanceFinding) := do
  let overlaps ← s1AndS3Findings p
  let exitChecks ← s7Findings p
  return overlaps ++ s2Findings p ++ s4Findings p ++ s5AndS6Findings p ++ exitChecks ++
    s8Findings p ++ s9Findings p ++ s10Findings p

/-- The override applies to a finding that no earlier one covers. -/
def overrideUsed (findings : List ConformanceFinding) (overrides : List ConformanceOverride)
    (index : ℕ) : Bool :=
  findings.any fun f => overrides.findIdx? (·.covers f) = some index

/-- `analyze_decomposition`. -/
def analyzeDecomposition (p : ContractPlan F) (enforce : Option Bool) (overrides : List RawOverride) :
    Except String ConformanceReport := do
  let active := enforce.getD (isConformanceAware p)
  let parsed ← parseOverrides overrides
  match rawFindings p ∅ with
  | none => .error "RecursionError: maximum recursion depth exceeded"
  | some (raw, _) =>
    let sorted := raw.mergeSort fun a b => decide (a.sortKey ≤ b.sortKey)
    return {
      conformanceAware := isConformanceAware p
      enforced := active
      findings := sorted.map (resolveOverride active parsed)
      overridesApplied := (parsed.zipIdx.filter fun o => overrideUsed sorted parsed o.2).map (·.1) }

end Rules

/-! ## The analysis of an admitted plan -/

section Analysis

variable {F : Type} [Zero F] [LT F] [DecidableLT F] {p : ContractPlan F}

theorem ValidatedPlan.rank (h : ValidatedPlan p) : ∃ rank : String → ℕ,
    (∀ x, ∀ d ∈ dependenciesOf p.planRuns x, rank d < rank x) ∧ ∀ x, rank x ≤ p.runs.length := by
  obtain ⟨ordered, hordered⟩ := h.knownRuns.isOk_iff.2 h.acyclic
  obtain ⟨horder, -⟩ := PlanGraphPlan.orderedRuns_eq_ok hordered
  obtain ⟨hids, hmem⟩ := Dag.ordered_postorder horder
  obtain ⟨rank, hrank, hbound⟩ := hids.ranked fun id hid =>
    dependenciesOf_of_notMem fun hrun => hid (hmem id hrun)
  have hlength : (runIds ordered).length = p.runs.length := by
    simpa [runIds, ContractPlan.planRuns] using (h.knownRuns.inOrder hordered).perm.length_eq
  exact ⟨rank, hrank, fun x => hlength ▸ hbound x⟩

/-- What the index finds for a run. -/
def ancestorSet (p : ContractPlan F) (id : String) : Finset String :=
  (ancestors p.planRuns id).toFinset

theorem mem_ancestorSet (h : ValidatedPlan p) {id a : String} :
    a ∈ ancestorSet p id ↔ Dag.Needs (dependenciesOf p.planRuns) id a := by
  rw [ancestorSet, List.mem_toFinset, h.knownRuns.mem_ancestors]

/-- **The index finds what a run needs.** -/
theorem computes_ancestorsOf (h : ValidatedPlan p) (id : String) :
    Computes (dependenciesOf p.planRuns) (ancestorsOf p id) (ancestorSet p id) := by
  obtain ⟨rank, hrank, hbound⟩ := h.rank
  obtain ⟨found, hfound, hmem⟩ :=
    Memo.computes_closureMemo hrank (Nat.lt_succ_of_le (hbound id))
  have heq : found = ancestorSet p id := by
    ext a
    rw [hmem a, mem_ancestorSet h]
  exact heq ▸ hfound

/-- One run of the pair needs the other. -/
def InSequence (p : ContractPlan F) (first second : ContractRun F) : Prop :=
  first.id ∈ ancestorSet p second.id ∨ second.id ∈ ancestorSet p first.id

instance (p : ContractPlan F) (first second : ContractRun F) :
    Decidable (InSequence p first second) := inferInstanceAs (Decidable (_ ∨ _))

theorem computes_orderedPair (h : ValidatedPlan p) (first second : ContractRun F) :
    Computes (dependenciesOf p.planRuns) (orderedPair p first second)
      (decide (InSequence p first second)) := by
  refine (computes_ancestorsOf h second.id).bind ?_
  by_cases hfirst : first.id ∈ ancestorSet p second.id
  · have hyes : InSequence p first second := .inl hfirst
    rw [if_pos hfirst, decide_eq_true hyes]
    exact Memo.computes_pure true
  · have hiff : InSequence p first second ↔ second.id ∈ ancestorSet p first.id := or_iff_right hfirst
    rw [if_neg hfirst, decide_eq_decide.2 hiff]
    exact (computes_ancestorsOf h first.id).bind (Memo.computes_pure _)

/-- The overlap of a pair of runs. -/
def overlapOf (p : ContractPlan F) (pair : ContractRun F × ContractRun F) : Option PathOverlap :=
  let shared := sharedPaths pair.1.allowedPaths pair.2.allowedPaths
  if InSequence p pair.1 pair.2 then none
  else if shared = [] then none
  else some ⟨pair.1.id, pair.2.id, shared⟩

theorem computes_pairOverlap (h : ValidatedPlan p) (pair : ContractRun F × ContractRun F) :
    Computes (dependenciesOf p.planRuns) (pairOverlap p pair) (overlapOf p pair) := by
  refine (computes_orderedPair h pair.1 pair.2).bind ?_
  rw [overlapOf]
  by_cases hsequence : InSequence p pair.1 pair.2
  · rw [decide_eq_true hsequence, if_pos hsequence]
    exact Memo.computes_pure none
  · rw [decide_eq_false hsequence, if_neg hsequence]
    by_cases hshared : sharedPaths pair.1.allowedPaths pair.2.allowedPaths = []
    · simp only [hshared]
      exact Memo.computes_pure none
    · simp only [hshared]
      exact Memo.computes_pure _

/-- The overlaps of the plan. -/
def planOverlaps (p : ContractPlan F) : List PathOverlap :=
  ((pairsOf p.runs).map (overlapOf p)).reduceOption

theorem computes_writablePathOverlaps (h : ValidatedPlan p) :
    Computes (dependenciesOf p.planRuns) (writablePathOverlaps p) (planOverlaps p) :=
  (Memo.computes_mapM fun pair _ => computes_pairOverlap h pair).bind (Memo.computes_pure _)

/-- The findings of S7, with the ancestors that the runs have. -/
def exitCheckFindings (p : ContractPlan F) : List ConformanceFinding :=
  (p.runs.map fun run => run.verificationRequiredPaths.flatMap
    (requiredFindings run (ancestorSet p run.id) (availablePaths p run (ancestorSet p run.id)))).flatten

theorem computes_s7Findings (h : ValidatedPlan p) :
    Computes (dependenciesOf p.planRuns) (s7Findings p) (exitCheckFindings p) := by
  refine Computes.bind (Memo.computes_mapM fun run _ => ?_) (Memo.computes_pure _)
  exact (computes_ancestorsOf h run.id).bind (Memo.computes_pure _)

/-- The findings of every rule. -/
def allFindings (p : ContractPlan F) : List ConformanceFinding :=
  (planOverlaps p).flatMap (fun o => [s1Finding o, s3Finding o]) ++ s2Findings p ++ s4Findings p ++
    s5AndS6Findings p ++ exitCheckFindings p ++ s8Findings p ++ s9Findings p ++ s10Findings p

theorem computes_rawFindings (h : ValidatedPlan p) :
    Computes (dependenciesOf p.planRuns) (rawFindings p) (allFindings p) := by
  have hoverlaps : Computes (dependenciesOf p.planRuns) (s1AndS3Findings p)
      ((planOverlaps p).flatMap fun o => [s1Finding o, s3Finding o]) :=
    (computes_writablePathOverlaps h).bind (Memo.computes_pure _)
  exact hoverlaps.bind ((computes_s7Findings h).bind (Memo.computes_pure _))

/-- **The analysis of an admitted plan ends**, with every finding of every rule and no other,
whatever the overrides. -/
theorem analyze_exact (h : ValidatedPlan p) (enforce : Option Bool) {overrides : List RawOverride}
    {parsed : List ConformanceOverride} (hparsed : parseOverrides overrides = .ok parsed) :
    ∃ report, analyzeDecomposition p enforce overrides = .ok report ∧
      report.findings.Perm ((allFindings p).map
        (resolveOverride (enforce.getD (isConformanceAware p)) parsed)) := by
  obtain ⟨known, hrun, -⟩ := computes_rawFindings h ∅ Memo.sound_empty
  have hreport : ∃ report, analyzeDecomposition p enforce overrides = .ok report ∧
      report.findings = ((allFindings p).mergeSort fun a b => decide (a.sortKey ≤ b.sortKey)).map
        (resolveOverride (enforce.getD (isConformanceAware p)) parsed) := by
    rw [analyzeDecomposition, hparsed, hrun]
    exact ⟨_, rfl, rfl⟩
  obtain ⟨report, hok, hfindings⟩ := hreport
  exact ⟨report, hok, hfindings ▸ (List.mergeSort_perm _ _).map _⟩

end Analysis

end HarnessLabs.PlanGraph
