import HarnessLabs.Lib.Reach
import HarnessLabs.PlanGraph.RepairContract

/-!
# What validation makes sure of

A plan is accepted with an order of its runs and with a producer for every path that one of its
commands requires and that is not in the base commit. The order is found depth first, the runs
ahead of another one by a work list.

* `ancestors`, `validateRequired`, `validateCommandDependencies` — the check of required paths.
* `KnownRuns.isOk_iff` — **the runs have an order exactly when no run needs itself.**
* `KnownRuns.mem_ancestors` — **the ancestors of a run are the runs that it needs.**
* `validation_exact` — both sides of the check, for every plan of distinct runs that names known
  dependencies.
-/

namespace HarnessLabs.PlanGraph

open List Option
open Audit (require require_eq_ok unit_bind_eq_ok forM_eq_ok)

variable {F : Type}

/-! ## The order -/

section Order

variable {runs : List PlanRun}

/-- No run has its id from another one, and dependencies name runs. -/
structure KnownRuns (runs : List PlanRun) : Prop where
  unique : (runIds runs).Nodup
  known : ∀ run ∈ runs, ∀ d ∈ run.dependsOn, d ∈ runIds runs

theorem KnownRuns.dependencies (h : KnownRuns runs) {id d : String}
    (hd : d ∈ dependenciesOf runs id) : id ∈ runIds runs ∧ d ∈ runIds runs := by
  by_cases hid : id ∈ runIds runs
  · refine ⟨hid, ?_⟩
    obtain ⟨run, hrun, rfl⟩ := mem_map.1 hid
    rw [dependenciesOf_self h.unique hrun] at hd
    exact h.known run hrun d hd
  · rw [dependenciesOf_of_notMem hid] at hd
    exact absurd hd not_mem_nil

theorem KnownRuns.isOk_iff (h : KnownRuns runs) :
    (∃ ordered, orderedRuns runs = .ok ordered) ↔
      ∀ id, ¬ Dag.Needs (dependenciesOf runs) id id := by
  have hclosed : ∀ id ∈ runIds runs, ∀ d ∈ dependenciesOf runs id, d ∈ runIds runs :=
    fun id _ d hd => (h.dependencies hd).2
  constructor
  · intro ⟨ordered, hordered⟩
    obtain ⟨horder, -⟩ := PlanGraphPlan.orderedRuns_eq_ok hordered
    obtain ⟨hids, hmem⟩ := Dag.ordered_postorder horder
    refine (hids.acyclic fun id hid => ?_).not_needs_self
    exact dependenciesOf_of_notMem fun hrun => hid (hmem id hrun)
  · intro hnone
    have hacyclic : Dag.Acyclic (dependenciesOf runs) :=
      (Dag.acyclic_iff hclosed fun id hid => dependenciesOf_of_notMem hid).2 hnone
    obtain ⟨ids, hids, hsubset⟩ := hacyclic.postorder_isOk hclosed
    rw [orderedRuns, hids]
    exact PlanGraphPlan.mapM_runById_isOk h.unique hsubset

/-- The order has every run once, each behind its dependencies. -/
structure InOrder (runs ordered : List PlanRun) : Prop where
  perm : ordered.Perm runs
  behind : ∀ {front run back}, ordered = front ++ run :: back → run.dependsOn ⊆ runIds front

theorem KnownRuns.inOrder (h : KnownRuns runs) {ordered : List PlanRun}
    (hordered : orderedRuns runs = .ok ordered) : InOrder runs ordered := by
  obtain ⟨horder, hsubset⟩ := PlanGraphPlan.orderedRuns_eq_ok hordered
  obtain ⟨hids, hall⟩ := Dag.ordered_postorder horder
  have hmem : ∀ run, run ∈ ordered ↔ run ∈ runs := by
    intro run
    refine ⟨hsubset run, fun hrun => ?_⟩
    obtain ⟨other, hother, heq⟩ := mem_map.1 (hall run.id (mem_runIds hrun))
    have hself := runById_self h.unique (hsubset other hother)
    rw [heq, runById_self h.unique hrun, some_inj] at hself
    rwa [hself]
  refine ⟨?_, ?_⟩
  · refine (perm_ext_iff_of_nodup ?_ (List.Nodup.of_map _ h.unique)).2 hmem
    exact List.Nodup.of_map _ hids.nodup
  · intro front run back heq d hd
    rw [heq, runIds, map_append, map_cons] at hids
    have hrun : run ∈ runs := hsubset run (by rw [heq]; simp)
    refine hids.split.2.2 d ?_
    rwa [dependenciesOf_self h.unique hrun]

/-- **A plan without an order is refused, under a run that needs itself.** -/
theorem KnownRuns.error (h : KnownRuns runs) {message : String}
    (hordered : orderedRuns runs = .error message) : ∃ id,
      message = s!"cycle detected at run '{id}'" ∧ Dag.Needs (dependenciesOf runs) id id := by
  have hclosed : ∀ id ∈ runIds runs, ∀ d ∈ dependenciesOf runs id, d ∈ runIds runs :=
    fun id _ d hd => (h.dependencies hd).2
  cases horder : Dag.postorder (dependenciesOf runs) (runIds runs) with
  | error id =>
    rw [orderedRuns, horder] at hordered
    exact ⟨id, (Except.error.inj hordered).symm, Dag.needs_of_postorder_error hclosed horder⟩
  | ok ids =>
    rw [orderedRuns, horder] at hordered
    have hacyclic : Dag.Acyclic (dependenciesOf runs) := by
      obtain ⟨hids, hmem⟩ := Dag.ordered_postorder horder
      exact hids.acyclic fun id hid => dependenciesOf_of_notMem fun hrun => hid (hmem id hrun)
    obtain ⟨found, hfound⟩ := h.isOk_iff.2 hacyclic.not_needs_self
    rw [orderedRuns, horder] at hfound
    rw [hfound] at hordered
    cases hordered

end Order

/-! ## Required paths -/

/-- `ancestors`: the work list of the dependencies. -/
def ancestors (runs : List PlanRun) (id : String) : List String :=
  let pending := dependenciesOf runs id
  Dag.closure (dependenciesOf runs) (· ∈ runIds runs)
    (pending.length + Dag.openEdges (dependenciesOf runs) (runIds runs) []) [] pending

theorem KnownRuns.mem_ancestors {runs : List PlanRun} (h : KnownRuns runs) {id d : String} :
    d ∈ ancestors runs id ↔ Dag.Needs (dependenciesOf runs) id d := by
  have hleads : ∀ x y, Dag.Leads (dependenciesOf runs) (· ∈ runIds runs) x y ↔
      Relation.ReflTransGen (fun x d => d ∈ dependenciesOf runs x) x y := by
    intro x y
    have hrel : (fun x d => d ∈ dependenciesOf runs x ∧ d ∈ runIds runs) =
        fun x d => d ∈ dependenciesOf runs x := by
      funext x d
      exact propext ⟨And.left, fun hd => ⟨hd, (h.dependencies hd).2⟩⟩
    rw [Dag.Leads, hrel]
  rw [ancestors, Dag.mem_closure (fun x hx => hx) (le_refl _) nofun, Dag.Needs,
    Relation.TransGen.head'_iff]
  constructor
  · rintro (hnil | ⟨x, hx, -, hxd⟩)
    · exact absurd hnil not_mem_nil
    · exact ⟨x, hx, (hleads x d).1 hxd⟩
  · intro ⟨x, hx, hxd⟩
    exact .inr ⟨x, hx, (h.dependencies hx).2, (hleads x d).2 hxd⟩

def ContractPlan.planRuns (p : ContractPlan F) : List PlanRun := p.runs.map (·.toPlanRun)

/-- `validate_required`. -/
def validateRequired (p : ContractPlan F) (consumer : Option String) (required : RequiredPath) :
    Except String Unit :=
  if required.availability = "base" then
    require (required.producerRunId = none) s!"base path '{required.path}' names a producer"
  else
    match required.producerRunId.filter (· ≠ "") with
    | none => .error s!"required path '{required.path}' has invalid availability"
    | some producerRunId => do
      require (required.availability = "created_by")
        s!"required path '{required.path}' has invalid availability"
      match p.runs.find? (·.id = producerRunId) with
      | none => .error s!"required path '{required.path}' has missing producer '{producerRunId}'"
      | some producer => do
        require (producer.pathIntents.any fun intent =>
            intent.path = required.path ∧ intent.action = "create")
          s!"run '{producer.id}' does not declare creation of '{required.path}'"
        match consumer with
        | none => .ok ()
        | some consumer =>
          require (producer.id ∈ ancestors p.planRuns consumer)
            s!"run '{consumer}' consumes '{required.path}' before producer '{producer.id}'"

/-- `command.required_paths` of the commands that are not shell texts. -/
def FunctionalityCommand.requiredPaths : FunctionalityCommand F → List RequiredPath
  | .command _ _ requiredPaths => requiredPaths
  | .shell _ => []

/-- `_validate_command_dependencies`. -/
def validateCommandDependencies (p : ContractPlan F) : Except String Unit := do
  p.runs.forM fun run =>
    run.verificationRequiredPaths.forM (validateRequired p (some run.id))
  p.functionalityTests.forM fun command =>
    command.requiredPaths.forM (validateRequired p none)

/-- The run declares that it creates exactly the path. -/
def ContractRun.Creates (run : ContractRun F) (path : String) : Prop :=
  ∃ intent ∈ run.pathIntents, intent.path = path ∧ intent.action = "create"

/-- A path that is created by a run, which a consumer needs. -/
def CreatedBy (p : ContractPlan F) (consumer : Option String) (required : RequiredPath) : Prop :=
  ∃ producer ∈ p.runs, required.producerRunId = some producer.id ∧ producer.id ≠ "" ∧
    producer.Creates required.path ∧
    ∀ id ∈ consumer, Dag.Needs (dependenciesOf p.planRuns) id producer.id

/-- A required path that is in the base commit or that is created by a run. -/
structure Provided (p : ContractPlan F) (consumer : Option String) (required : RequiredPath) :
    Prop where
  base : required.availability = "base" → required.producerRunId = none
  created : required.availability = "created_by" → CreatedBy p consumer required
  either : required.availability = "base" ∨ required.availability = "created_by"

variable {p : ContractPlan F} {consumer : Option String} {required : RequiredPath}

theorem find?_contractRun (hunique : (runIds p.planRuns).Nodup) {run : ContractRun F} {id : String}
    :
    p.runs.find? (·.id = id) = some run ↔ run ∈ p.runs ∧ run.id = id := by
  have hids : (p.runs.map (·.id)).Nodup := by
    simpa [runIds, ContractPlan.planRuns, Function.comp_def] using hunique
  constructor
  · intro h
    exact ⟨mem_of_find?_eq_some h, by simpa using List.find?_some h⟩
  · rintro ⟨hrun, hid⟩
    have hfound : (p.runs.find? (·.id = id)).isSome := by
      rw [List.find?_isSome]
      exact ⟨run, hrun, by simpa using hid⟩
    obtain ⟨other, hother⟩ := isSome_iff_exists.1 hfound
    have hid' : other.id = id := by simpa using List.find?_some hother
    rw [hother, inj_on_of_nodup_map hids (mem_of_find?_eq_some hother) hrun
      (hid'.trans hid.symm)]

theorem Provided.of_base (h : required.availability = "base") :
    Provided p consumer required ↔ required.producerRunId = none := by
  refine ⟨fun hprovided => hprovided.base h, fun hnone =>
    ⟨fun _ => hnone, fun hcreated => ?_, .inl h⟩⟩
  rw [h] at hcreated
  exact absurd hcreated (by decide)

theorem Provided.of_not_base (h : required.availability ≠ "base") :
    Provided p consumer required ↔
      required.availability = "created_by" ∧ CreatedBy p consumer required := by
  constructor
  · intro hprovided
    have hcreated := hprovided.either.resolve_left h
    exact ⟨hcreated, hprovided.created hcreated⟩
  · intro ⟨hcreated, hproducer⟩
    exact ⟨fun hbase => absurd hbase h, fun _ => hproducer, .inr hcreated⟩

theorem createdBy_iff (h : KnownRuns p.planRuns) {producer : ContractRun F}
    (hproducer : producer ∈ p.runs) (hid : required.producerRunId = some producer.id)
    (hne : producer.id ≠ "") :
    CreatedBy p consumer required ↔ producer.Creates required.path ∧
      ∀ id ∈ consumer, Dag.Needs (dependenciesOf p.planRuns) id producer.id := by
  constructor
  · intro ⟨other, hother, hid', _, hrest⟩
    rw [hid, some_inj] at hid'
    have hsame := (find?_contractRun h.unique).2 ⟨hother, hid'.symm⟩
    rw [(find?_contractRun h.unique).2 ⟨hproducer, rfl⟩, some_inj] at hsame
    rwa [hsame]
  · intro hrest
    exact ⟨producer, hproducer, hid, hne, hrest⟩

/-- **A required path is accepted exactly when it is in the base commit or created ahead.** -/
theorem validateRequired_eq_ok (h : KnownRuns p.planRuns) :
    validateRequired p consumer required = .ok () ↔ Provided p consumer required := by
  rw [validateRequired]
  by_cases hbase : required.availability = "base"
  · rw [if_pos hbase, require_eq_ok, Provided.of_base hbase]
  rw [if_neg hbase, Provided.of_not_base hbase]
  cases hfilter : required.producerRunId.filter (· ≠ "") with
  | none =>
    refine iff_of_false (fun hok => nomatch hok) fun ⟨_, producer, _, hid, hne, _⟩ => ?_
    simp [hid, hne] at hfilter
  | some producerRunId =>
    obtain ⟨hid, hne⟩ := filter_eq_some_iff.1 hfilter
    rw [unit_bind_eq_ok, require_eq_ok]
    refine and_congr_right fun _ => ?_
    cases hfind : p.runs.find? (·.id = producerRunId) with
    | none =>
      refine iff_of_false (fun hok => nomatch hok) fun ⟨producer, hproducer, hid', _⟩ => ?_
      rw [hid, some_inj] at hid'
      rw [(find?_contractRun h.unique).2 ⟨hproducer, hid'.symm⟩] at hfind
      cases hfind
    | some producer =>
      obtain ⟨hproducer, hid'⟩ := (find?_contractRun h.unique).1 hfind
      subst hid'
      have hcreates : (producer.pathIntents.any fun intent =>
          intent.path = required.path ∧ intent.action = "create") = true ↔
            producer.Creates required.path := by
        simp [ContractRun.Creates]
      rw [createdBy_iff h hproducer hid (by simpa using hne)]
      rw [unit_bind_eq_ok, require_eq_ok, hcreates]
      refine and_congr_right fun _ => ?_
      cases consumer with
      | none => exact iff_of_true rfl nofun
      | some id =>
        rw [require_eq_ok, h.mem_ancestors]
        exact ⟨fun hneeds _ heq => some_inj.1 heq ▸ hneeds, fun hall => hall id rfl⟩

/-! ## Validation -/

theorem validateCommandDependencies_eq_ok (h : KnownRuns p.planRuns) :
    validateCommandDependencies p = .ok () ↔
      (∀ run ∈ p.runs, ∀ required ∈ run.verificationRequiredPaths,
        Provided p (some run.id) required) ∧
      ∀ command ∈ p.functionalityTests, ∀ required ∈ command.requiredPaths,
        Provided p none required := by
  rw [validateCommandDependencies, unit_bind_eq_ok, forM_eq_ok, forM_eq_ok]
  simp only [forM_eq_ok, validateRequired_eq_ok h]

/-- **Validation is exact on the dependency structure.** -/
theorem validation_exact {p : ContractPlan F} (h : KnownRuns p.planRuns) :
    ((∃ ordered, orderedRuns p.planRuns = .ok ordered ∧ InOrder p.planRuns ordered) ↔
      ∀ id, ¬ Dag.Needs (dependenciesOf p.planRuns) id id) ∧
    ((¬ ∀ id, ¬ Dag.Needs (dependenciesOf p.planRuns) id id) →
      ∃ id : String, orderedRuns p.planRuns = .error s!"cycle detected at run '{id}'") ∧
    (validateCommandDependencies p = .ok () ↔
      (∀ run ∈ p.runs, ∀ required ∈ run.verificationRequiredPaths,
        Provided p (some run.id) required) ∧
      ∀ command ∈ p.functionalityTests, ∀ required ∈ command.requiredPaths,
        Provided p none required) := by
  refine ⟨?_, fun hcycle => ?_, validateCommandDependencies_eq_ok h⟩
  · rw [← h.isOk_iff]
    exact ⟨fun ⟨ordered, hordered, _⟩ => ⟨ordered, hordered⟩,
      fun ⟨ordered, hordered⟩ => ⟨ordered, hordered, h.inOrder hordered⟩⟩
  · rw [← h.isOk_iff] at hcycle
    cases hordered : orderedRuns p.planRuns with
    | ok ordered => exact absurd ⟨ordered, hordered⟩ hcycle
    | error message =>
      obtain ⟨id, hmessage, -⟩ := h.error hordered
      exact ⟨id, by rw [hmessage]⟩

/-- A parser, and a tool behind it that requires a path. -/
def parserAndTool (required : RequiredPath) : ContractPlan ℕ where
  plan := "docs/plan.md"
  baseCommit := "base"
  runs := [
    { id := "tool", dependsOn := ["parser"], allowedPaths := ["src/tool"]
      objective := "write the tool", planSections := ["2"], criteria := []
      verificationArgv := ["pytest"], pathIntents := [], verificationTimeoutSeconds := 1200
      verificationRequiredPaths := [required], verificationGates := [] },
    { id := "parser", dependsOn := [], allowedPaths := ["src/parser"]
      objective := "write the parser", planSections := ["1"], criteria := ["AC-1"]
      verificationArgv := ["pytest"], pathIntents := [⟨"src/parser/main.py", "create"⟩]
      verificationTimeoutSeconds := 1200, verificationRequiredPaths := []
      verificationGates := [] }]
  planSections := Dict.ofList [("1", "The parser"), ("2", "The tool")]
  acceptanceCriteria := Dict.ofList [("AC-1", "It parses")]
  functionalityTests := []

theorem knownRuns_parserAndTool (required : RequiredPath) :
    KnownRuns (parserAndTool required).planRuns := by
  have hruns : (parserAndTool required).planRuns =
      [⟨"tool", ["parser"], ["src/tool"]⟩, ⟨"parser", [], ["src/parser"]⟩] := rfl
  rw [hruns]
  exact ⟨by decide, by decide⟩

theorem validation_exact_parserAndTool :
    validateCommandDependencies
        (parserAndTool ⟨"src/parser/main.py", "created_by", some "parser"⟩) = .ok () ∧
      validateCommandDependencies
        (parserAndTool ⟨"src/parser/lexer.py", "created_by", some "parser"⟩) ≠ .ok () := by
  have hexact := fun path =>
    (validation_exact (knownRuns_parserAndTool ⟨path, "created_by", some "parser"⟩)).2.2
  refine ⟨by decide +kernel, fun hok => ?_⟩
  obtain ⟨hruns, -⟩ := (hexact "src/parser/lexer.py").1 hok
  obtain ⟨producer, hproducer, -, -, ⟨intent, hintent, hpath, -⟩, -⟩ :=
    (hruns _ mem_cons_self _ mem_cons_self).created rfl
  have hnone : ∀ run ∈ (parserAndTool ⟨"src/parser/lexer.py", "created_by", some "parser"⟩).runs,
      ∀ intent ∈ run.pathIntents, intent.path ≠ "src/parser/lexer.py" := by decide +kernel
  exact hnone producer hproducer intent hintent hpath

/-- The tool requires a path of a third kind. -/
def generatedPath : ContractPlan ℕ := parserAndTool ⟨"src/parser/main.py", "generated", none⟩

/-- A path that is neither in the base commit nor created is refused. -/
theorem other_availability_refused :
    KnownRuns generatedPath.planRuns ∧
    ¬ (validateCommandDependencies generatedPath = .ok () ↔
      (∀ run ∈ generatedPath.runs, ∀ required ∈ run.verificationRequiredPaths,
        (required.availability = "created_by" →
          CreatedBy generatedPath (some run.id) required) ∧
        (required.availability = "base" → required.producerRunId = none)) ∧
      ∀ command ∈ generatedPath.functionalityTests, ∀ required ∈ command.requiredPaths,
        (required.availability = "created_by" → CreatedBy generatedPath none required) ∧
        (required.availability = "base" → required.producerRunId = none)) := by
  refine ⟨knownRuns_parserAndTool _, fun hiff => ?_⟩
  have hrefused : validateCommandDependencies generatedPath ≠ .ok () := by decide +kernel
  have hnone : ∀ run ∈ generatedPath.runs, ∀ required ∈ run.verificationRequiredPaths,
      required.availability ≠ "created_by" ∧ required.availability ≠ "base" := by
    decide +kernel
  refine hrefused (hiff.2 ⟨fun run hrun required hrequired => ?_, nofun⟩)
  obtain ⟨hcreated, hbase⟩ := hnone run hrun required hrequired
  exact ⟨fun h => absurd h hcreated, fun h => absurd h hbase⟩

end HarnessLabs.PlanGraph
