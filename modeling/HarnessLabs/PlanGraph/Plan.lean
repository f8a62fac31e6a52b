import HarnessLabs.Lib.Dag

/-!
# Plans

The FeatureRuns of a plan, what validation asks of their ids and dependencies, and the order that a
controller goes through them in.

* `orderedRuns` — depth first, every run behind its dependencies.
* `PlanGraphPlan` — a validated plan with its order.
* `PlanGraphPlan.acyclic` — **the dependencies of a validated plan have no cycle.**
-/

namespace HarnessLabs.PlanGraph

open List

universe u

structure PlanRun where
  id : String
  dependsOn : List String
  allowedPaths : List String
  deriving DecidableEq

/-- `by_id`. -/
def runById (runs : List PlanRun) (id : String) : Option PlanRun := runs.find? (·.id = id)

def runIds (runs : List PlanRun) : List String := runs.map (·.id)

/-- The dependencies of a run, under its id. -/
def dependenciesOf (runs : List PlanRun) (id : String) : List String :=
  ((runById runs id).map (·.dependsOn)).getD []

/-- `_ordered_runs`. -/
def orderedRuns (runs : List PlanRun) : Except String (List PlanRun) :=
  match Dag.postorder (dependenciesOf runs) (runIds runs) with
  | .error id => .error s!"cycle detected at run '{id}'"
  | .ok ids => ids.mapM fun id => (runById runs id).elim (.error s!"KeyError: '{id}'") .ok

/-- What `validate_plan_graph_plan` checks of a run's id and dependencies. -/
def validateRun (runs seen : List PlanRun) (run : PlanRun) : Except String Unit :=
  let missing := run.dependsOn.find? fun d => d ∉ runIds runs ∨ d = run.id
  if run.id = "" ∨ run.id ∈ runIds seen then .error s!"duplicate or empty run id: '{run.id}'"
  else
    match missing with
    | none => .ok ()
    | some d =>
      if d ∉ runIds runs then .error s!"run '{run.id}' depends on missing run '{d}'"
      else .error s!"run '{run.id}' depends on itself"

def validateRuns (runs : List PlanRun) : List PlanRun → List PlanRun → Except String Unit
  | _, [] => .ok ()
  | seen, run :: rest =>
    match validateRun runs seen run with
    | .error e => .error e
    | .ok () => validateRuns runs (seen ++ [run]) rest

section Runs

variable {runs : List PlanRun}

variable {run : PlanRun}

theorem runById_eq_some (hunique : (runIds runs).Nodup) {id : String} :
    runById runs id = some run ↔ run ∈ runs ∧ run.id = id := by
  induction runs with
  | nil => simp [runById]
  | cons first rest ih =>
    obtain ⟨hfirst, hrest⟩ := nodup_cons.1 hunique
    by_cases h : first.id = id
    · have hnot : ∀ run ∈ rest, run.id ≠ id := fun run hrun heq =>
        hfirst (mem_map.2 ⟨run, hrun, heq.trans h.symm⟩)
      have hfind : runById (first :: rest) id = some first := by simp [runById, h]
      rw [hfind, Option.some_inj]
      constructor
      · rintro rfl
        exact ⟨mem_cons_self, h⟩
      · rintro ⟨hrun, hid⟩
        rcases mem_cons.1 hrun with rfl | hrun
        · rfl
        · exact absurd hid (hnot run hrun)
    · have hfind : runById (first :: rest) id = runById rest id := by simp [runById, h]
      rw [hfind, ih hrest, mem_cons]
      constructor
      · rintro ⟨hrun, hid⟩
        exact ⟨.inr hrun, hid⟩
      · rintro ⟨rfl | hrun, hid⟩
        · exact absurd hid h
        · exact ⟨hrun, hid⟩

theorem runById_self (hunique : (runIds runs).Nodup) (hrun : run ∈ runs) :
    runById runs run.id = some run := (runById_eq_some hunique).2 ⟨hrun, rfl⟩

theorem dependenciesOf_self (hunique : (runIds runs).Nodup) (hrun : run ∈ runs) :
    dependenciesOf runs run.id = run.dependsOn := by
  rw [dependenciesOf, runById_self hunique hrun]
  rfl

theorem dependenciesOf_of_notMem {id : String} (h : id ∉ runIds runs) :
    dependenciesOf runs id = [] := by
  have hfind : runById runs id = none := by
    rw [runById, List.find?_eq_none]
    intro run hrun heq
    exact h (mem_map.2 ⟨run, hrun, by simpa using heq⟩)
  rw [dependenciesOf, hfind]
  rfl

theorem mem_runIds (hrun : run ∈ runs) : run.id ∈ runIds runs :=
  mem_map_of_mem hrun

/-! ## Validation -/

/-- The run's id is not empty, and its dependencies are other runs of the plan. -/
def WellFormed (runs : List PlanRun) (run : PlanRun) : Prop :=
  run.id ≠ "" ∧ ∀ d ∈ run.dependsOn, d ∈ runIds runs ∧ d ≠ run.id

theorem validateRun_eq_ok {seen : List PlanRun} :
    validateRun runs seen run = .ok () ↔ WellFormed runs run ∧ run.id ∉ runIds seen := by
  rw [validateRun]
  by_cases hid : run.id = "" ∨ run.id ∈ runIds seen
  · rw [if_pos hid]
    refine iff_of_false (fun h => by cases h) ?_
    rintro ⟨⟨hempty, _⟩, hseen⟩
    exact hid.elim hempty hseen
  rw [if_neg hid]
  push Not at hid
  cases hmissing : run.dependsOn.find? fun d => d ∉ runIds runs ∨ d = run.id with
  | none =>
    rw [List.find?_eq_none] at hmissing
    refine iff_of_true rfl ⟨⟨hid.1, fun d hd => ?_⟩, hid.2⟩
    have hd' := hmissing d hd
    simp only [decide_eq_true_eq, not_or, not_not] at hd'
    exact hd'
  | some d =>
    have hd := mem_of_find?_eq_some hmissing
    have hbad := List.find?_some hmissing
    simp only [decide_eq_true_eq] at hbad
    refine iff_of_false (fun h => ?_) ?_
    · dsimp only at h
      split at h <;> cases h
    · rintro ⟨⟨_, hdeps⟩, _⟩
      exact hbad.elim (fun hnot => hnot (hdeps d hd).1) (hdeps d hd).2

theorem validateRuns_eq_ok {seen rest : List PlanRun} :
    validateRuns runs seen rest = .ok () ↔
      (∀ run ∈ rest, WellFormed runs run ∧ run.id ∉ runIds seen) ∧ (runIds rest).Nodup := by
  induction rest generalizing seen with
  | nil => simp [validateRuns, runIds]
  | cons run rest ih =>
    rw [validateRuns]
    cases hrun : validateRun runs seen run with
    | error e =>
      refine iff_of_false (fun h => by cases h) fun h => ?_
      rw [validateRun_eq_ok.2 (h.1 run mem_cons_self)] at hrun
      cases hrun
    | ok u =>
      have hok := validateRun_eq_ok.1 hrun
      rw [ih]
      constructor
      · rintro ⟨hrest, hnodup⟩
        refine ⟨fun other hother => ?_, nodup_cons.2 ⟨fun hmem => ?_, hnodup⟩⟩
        · rcases mem_cons.1 hother with rfl | hother
          · exact hok
          · refine ⟨(hrest other hother).1, fun hmem => (hrest other hother).2 ?_⟩
            rw [runIds, map_append]
            exact mem_append_left _ hmem
        · obtain ⟨other, hother, heq⟩ := mem_map.1 hmem
          refine (hrest other hother).2 ?_
          rw [runIds, map_append]
          exact mem_append_right _ (by simp [heq])
      · rintro ⟨hall, hnodup⟩
        obtain ⟨hnot, hnodup⟩ := nodup_cons.1 hnodup
        refine ⟨fun other hother => ?_, hnodup⟩
        obtain ⟨hwell, hseen⟩ := hall other (mem_cons_of_mem run hother)
        refine ⟨hwell, fun hmem => ?_⟩
        rw [runIds, map_append, mem_append] at hmem
        rcases hmem with hmem | hmem
        · exact hseen hmem
        · refine hnot (mem_map.2 ⟨other, hother, ?_⟩)
          simpa using hmem

end Runs

/-! ## Validated plans -/

/-- What the controller keeps of a plan that `validate_plan_graph_plan` accepted. -/
structure PlanGraphPlan (C : Type u) where
  baseCommit : C
  runs : List PlanRun
  functionalityTests : List String
  ordered : List PlanRun
  valid : validateRuns runs [] runs = .ok ()
  ordered_eq : orderedRuns runs = .ok ordered

namespace PlanGraphPlan

variable {C : Type u} (plan : PlanGraphPlan C)

def dependencies (id : String) : List String := dependenciesOf plan.runs id

theorem nodup_ids : (runIds plan.runs).Nodup := (validateRuns_eq_ok.1 plan.valid).2

theorem wellFormed {run : PlanRun} (hrun : run ∈ plan.runs) : WellFormed plan.runs run :=
  ((validateRuns_eq_ok.1 plan.valid).1 run hrun).1

/-! ## The order -/

variable {runs : List PlanRun}

theorem mapM_runById {ordered : List PlanRun} {ids : List String}
    (h : ids.mapM (fun id => (runById runs id).elim (.error s!"KeyError: '{id}'") .ok) =
      (.ok ordered : Except String (List PlanRun))) :
    runIds ordered = ids ∧ ∀ run ∈ ordered, run ∈ runs := by
  induction ids generalizing ordered with
  | nil =>
    cases h
    exact ⟨rfl, forall_mem_nil _⟩
  | cons id ids ih =>
    rw [mapM_cons] at h
    cases hrun : runById runs id with
    | none =>
      rw [hrun] at h
      cases h
    | some run =>
      cases hrest : ids.mapM fun id =>
          (runById runs id).elim (.error s!"KeyError: '{id}'" : Except String PlanRun) .ok with
      | error e =>
        rw [hrun, hrest] at h
        cases h
      | ok rest =>
        rw [hrun, hrest] at h
        cases h
        obtain ⟨hids, hmem⟩ := ih hrest
        have hid : run.id = id := by simpa using List.find?_some hrun
        refine ⟨?_, fun other hother => ?_⟩
        · rw [← hids, ← hid]
          rfl
        · rcases mem_cons.1 hother with rfl | hother
          · exact mem_of_find?_eq_some hrun
          · exact hmem other hother

theorem mapM_runById_isOk (hunique : (runIds runs).Nodup) {ids : List String}
    (hids : ids ⊆ runIds runs) : ∃ ordered, ids.mapM (fun id =>
      (runById runs id).elim (.error s!"KeyError: '{id}'") .ok) =
      (.ok ordered : Except String (List PlanRun)) := by
  induction ids with
  | nil => exact ⟨[], rfl⟩
  | cons id ids ih =>
    obtain ⟨rest, hrest⟩ := ih fun id hid => hids (mem_cons_of_mem _ hid)
    obtain ⟨run, hrun, rfl⟩ := mem_map.1 (hids mem_cons_self)
    refine ⟨run :: rest, ?_⟩
    rw [mapM_cons, runById_self hunique hrun, hrest]
    rfl

theorem orderedRuns_eq_ok {ordered : List PlanRun} (h : orderedRuns runs = .ok ordered) :
    Dag.postorder (dependenciesOf runs) (runIds runs) = .ok (runIds ordered) ∧
      ∀ run ∈ ordered, run ∈ runs := by
  rw [orderedRuns] at h
  cases horder : Dag.postorder (dependenciesOf runs) (runIds runs) with
  | error id =>
    rw [horder] at h
    cases h
  | ok ids =>
    rw [horder] at h
    obtain ⟨hids, hmem⟩ := mapM_runById h
    exact ⟨by rw [hids], hmem⟩

theorem ordered_ids : Dag.Ordered plan.dependencies (runIds plan.ordered) :=
  (Dag.ordered_postorder (orderedRuns_eq_ok plan.ordered_eq).1).1

theorem mem_ordered {run : PlanRun} : run ∈ plan.ordered ↔ run ∈ plan.runs := by
  obtain ⟨horder, hmem⟩ := orderedRuns_eq_ok plan.ordered_eq
  refine ⟨hmem run, fun hrun => ?_⟩
  obtain ⟨other, hother, heq⟩ :=
    mem_map.1 ((Dag.ordered_postorder horder).2 run.id (mem_runIds hrun))
  obtain rfl := Option.some.inj ((runById_self plan.nodup_ids (hmem other hother)).symm.trans
    (heq ▸ runById_self plan.nodup_ids hrun))
  exact hother

theorem acyclic : Dag.Acyclic plan.dependencies := by
  refine plan.ordered_ids.acyclic fun id hid => dependenciesOf_of_notMem fun hmem => hid ?_
  obtain ⟨run, hrun, rfl⟩ := mem_map.1 hmem
  exact mem_runIds (plan.mem_ordered.2 hrun)

end PlanGraphPlan

end HarnessLabs.PlanGraph
