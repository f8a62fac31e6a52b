import HarnessLabs.PlanGraph.Overlap

/-!
# Intermediate joins

A run that depends on too many others is proposed an intermediate node that takes some of the
dependencies over. The proposal is computed from the run alone.

* `applyJoin` — the plan with the proposed node, and the run behind it.
* `join_fixes_iff` — the proposal does what it promises exactly for runs of at most five dependencies
  whose node's id is new.
-/

namespace HarnessLabs.PlanGraph

open List

section Apply

variable {F : Type}

/-- The run depends on what is left to it and on the new node. -/
def rewire (join : IntermediateJoin) (run : ContractRun F) : ContractRun F :=
  if run.id = join.targetRun then { run with dependsOn := join.rewiredDependsOn } else run

/-- The new node, with the rest of its contract as the operator writes it. -/
def joinNode (join : IntermediateJoin) (written : ContractRun F) : ContractRun F :=
  { written with
    id := join.proposedIntermediateNodeId
    dependsOn := join.groupedDependencies }

/-- The plan with the proposal applied. -/
def applyJoin (p : ContractPlan F) (join : IntermediateJoin) (written : ContractRun F) :
    ContractPlan F :=
  { p with runs := p.runs.map (rewire join) ++ [joinNode join written] }

/-- **The proposal fixes the fan-in** of the run and leaves its ancestors alone. -/
structure JoinFixes (p : ContractPlan F) (run written : ContractRun F) : Prop where
  fanIn : (intermediateJoinProposal run.toPlanRun).rewiredDependsOn.length ≤ maxFanIn
  newFanIn : (intermediateJoinProposal run.toPlanRun).groupedDependencies.length ≤ maxFanIn
  fresh : (intermediateJoinProposal run.toPlanRun).proposedIntermediateNodeId ∉
    p.runs.map (·.id)
  acyclic : ∀ id, ¬ Dag.Needs (dependenciesOf
    (applyJoin p (intermediateJoinProposal run.toPlanRun) written).planRuns) id id
  ancestors : ∀ a, a ≠ (intermediateJoinProposal run.toPlanRun).proposedIntermediateNodeId →
    (Dag.Needs (dependenciesOf
        (applyJoin p (intermediateJoinProposal run.toPlanRun) written).planRuns) run.id a ↔
      Dag.Needs (dependenciesOf p.planRuns) run.id a)

end Apply

/-! ## The proposal -/

section Proposal

variable {run : PlanRun}

@[simp] theorem targetRun_proposal : (intermediateJoinProposal run).targetRun = run.id := rfl

theorem length_grouped (h : maxFanIn < run.dependsOn.length) :
    (intermediateJoinProposal run).groupedDependencies.length = run.dependsOn.length - 2 := by
  have hlength := length_insertionSort (· ≤ ·) run.dependsOn
  simp only [intermediateJoinProposal, length_take, hlength, maxFanIn] at h ⊢
  omega

theorem length_rewired (h : maxFanIn < run.dependsOn.length) :
    (intermediateJoinProposal run).rewiredDependsOn.length = 3 := by
  have hlength := length_insertionSort (· ≤ ·) run.dependsOn
  simp only [intermediateJoinProposal, length_insertionSort, length_append,
    length_drop, hlength, maxFanIn, length_singleton] at h ⊢
  omega

/-- The dependencies are the grouped ones and the remaining ones. -/
theorem mem_dependsOn_iff {d : String} : d ∈ run.dependsOn ↔
    d ∈ (intermediateJoinProposal run).groupedDependencies ∨
      d ∈ (intermediateJoinProposal run).remainingDependencies := by
  rw [← mem_insertionSort (r := (· ≤ ·)), ← mem_append]
  simp only [intermediateJoinProposal, take_append_drop]

theorem mem_rewired_iff {d : String} : d ∈ (intermediateJoinProposal run).rewiredDependsOn ↔
    d ∈ (intermediateJoinProposal run).remainingDependencies ∨
      d = (intermediateJoinProposal run).proposedIntermediateNodeId := by
  simp [intermediateJoinProposal]

end Proposal

/-! ## A node in between -/

section Between

variable {α : Type} {deps deps' : α → List α} {target new : α} {grouped remaining : List α}

/-- The graph `deps'` has a new node between the target and some of its dependencies. -/
structure Between (deps deps' : α → List α) (target new : α) (grouped remaining : List α) :
    Prop where
  split : ∀ d, d ∈ deps target ↔ d ∈ grouped ∨ d ∈ remaining
  rewired : ∀ d, d ∈ deps' target ↔ d ∈ remaining ∨ d = new
  added : ∀ d, d ∈ deps' new ↔ d ∈ grouped
  same : ∀ x, x ≠ target → x ≠ new → deps' x = deps x
  fresh : ∀ x, new ∉ deps x
  source : deps new = []
  ne : target ≠ new

variable (h : Between deps deps' target new grouped remaining)
include h

/-- An edge of the old graph is kept, or goes through the new node. -/
theorem Between.needs_of_edge {x d : α} (hd : d ∈ deps x) : Dag.Needs deps' x d := by
  by_cases hx : x = target
  · subst hx
    rcases (h.split d).1 hd with hgrouped | hremaining
    · have hnew : Dag.Needs deps' x new := .single ((h.rewired new).2 (.inr rfl))
      exact hnew.tail ((h.added d).2 hgrouped)
    · exact .single ((h.rewired d).2 (.inl hremaining))
  · have hnew : x ≠ new := by
      rintro rfl
      rw [h.source] at hd
      exact not_mem_nil hd
    refine .single ?_
    rwa [h.same x hx hnew]

/-- An edge of the new graph, away from the new node, is an edge of the old one. -/
theorem Between.edge_of_edge {x d : α} (hx : x ≠ new) (hd : d ∈ deps' x) (hne : d ≠ new) :
    d ∈ deps x := by
  by_cases htarget : x = target
  · subst htarget
    exact (h.split d).2 (.inr (((h.rewired d).1 hd).resolve_right hne))
  · rwa [h.same x htarget hx] at hd

theorem Between.target_of_edge {x : α} (hd : new ∈ deps' x) : x = target := by
  by_contra htarget
  by_cases hx : x = new
  · subst hx
    exact h.fresh target ((h.split x).2 (.inl ((h.added x).1 hd)))
  · rw [h.same x htarget hx] at hd
    exact h.fresh x hd

/-- What is needed in the new graph was needed, by the target if the new node needs it. -/
theorem Between.needs_of_needs [DecidableEq α] {x a : α} (hneeds : Dag.Needs deps' x a)
    (ha : a ≠ new) : Dag.Needs deps (if x = new then target else x) a := by
  induction hneeds using Relation.TransGen.head_induction_on with
  | @single x hd =>
    split_ifs with hx
    · subst hx
      exact .single ((h.split a).2 (.inl ((h.added a).1 hd)))
    · exact .single (h.edge_of_edge hx hd ha)
  | @head x d hd _ ih =>
    by_cases hnew : d = new
    · subst hnew
      obtain rfl := h.target_of_edge hd
      rw [if_pos rfl] at ih
      rwa [if_neg h.ne]
    · rw [if_neg hnew] at ih
      split_ifs with hx
      · subst hx
        exact .head ((h.split d).2 (.inl ((h.added d).1 hd))) ih
      · exact .head (h.edge_of_edge hx hd hnew) ih

/-- **A new node between a node and some of its dependencies changes no ancestors.** -/
theorem Between.needs_iff [DecidableEq α] {x a : α} (hx : x ≠ new) (ha : a ≠ new) :
    Dag.Needs deps' x a ↔ Dag.Needs deps x a := by
  constructor
  · intro hneeds
    have hold := h.needs_of_needs hneeds ha
    rwa [if_neg hx] at hold
  · intro hneeds
    clear hx ha
    induction hneeds with
    | single hd => exact h.needs_of_edge hd
    | tail _ hd ih => exact ih.trans (h.needs_of_edge hd)

theorem Between.acyclic [DecidableEq α] (hacyclic : ∀ x, ¬ Dag.Needs deps x x) (x : α) :
    ¬ Dag.Needs deps' x x := by
  by_cases hx : x = new
  · subst hx
    intro hself
    -- the way back to the new node leads through the target
    obtain ⟨y, hway, hlast⟩ := Relation.TransGen.tail'_iff.1 hself
    obtain rfl := h.target_of_edge hlast
    rcases Relation.reflTransGen_iff_eq_or_transGen.1 hway with heq | hway
    · exact h.ne heq
    · have hneeds := h.needs_of_needs hway h.ne
      rw [if_pos rfl] at hneeds
      exact hacyclic _ hneeds
  · rw [h.needs_iff hx hx]
    exact hacyclic x

end Between

/-! ## The applied plan -/

section Applied

variable {F : Type} {p : ContractPlan F} {run written : ContractRun F} {join : IntermediateJoin}

theorem runIds_planRuns (p : ContractPlan F) : runIds p.planRuns = p.runs.map (·.id) := by
  simp [runIds, ContractPlan.planRuns, Function.comp_def]

theorem dependenciesOf_planRuns (hids : (p.runs.map (·.id)).Nodup) (hrun : run ∈ p.runs) :
    dependenciesOf p.planRuns run.id = run.dependsOn :=
  dependenciesOf_self (runIds_planRuns p ▸ hids) (mem_map_of_mem hrun)

theorem dependenciesOf_planRuns_of_notMem {id : String} (hid : id ∉ p.runs.map (·.id)) :
    dependenciesOf p.planRuns id = [] :=
  dependenciesOf_of_notMem (runIds_planRuns p ▸ hid)

theorem rewire_id (r : ContractRun F) : (rewire join r).id = r.id := by
  rw [rewire]
  split_ifs <;> rfl

theorem ids_applyJoin : (applyJoin p join written).runs.map (·.id) =
    p.runs.map (·.id) ++ [join.proposedIntermediateNodeId] := by
  simp [applyJoin, joinNode, rewire_id, Function.comp_def]

section

variable (hids : (p.runs.map (·.id)).Nodup)
  (hfresh : join.proposedIntermediateNodeId ∉ p.runs.map (·.id))

include hids hfresh

theorem nodup_ids_applyJoin :
    ((applyJoin p join written).runs.map (·.id)).Nodup := by
  rw [ids_applyJoin]
  exact nodup_append.2 ⟨hids, nodup_singleton _, fun a ha b hb hab => hfresh
    (mem_singleton.1 hb ▸ hab ▸ ha)⟩

/-- What the runs depend on in the applied plan. -/
theorem dependenciesOf_applyJoin {r : ContractRun F} (hr : r ∈ p.runs) :
    dependenciesOf (applyJoin p join written).planRuns r.id =
      if r.id = join.targetRun then join.rewiredDependsOn else r.dependsOn := by
  have hmem : rewire join r ∈ (applyJoin p join written).runs :=
    mem_append_left _ (mem_map_of_mem hr)
  have hdeps := dependenciesOf_planRuns (nodup_ids_applyJoin hids hfresh) hmem
  rw [rewire_id] at hdeps
  rw [hdeps, rewire]
  split_ifs <;> rfl

theorem dependenciesOf_joinNode :
    dependenciesOf (applyJoin p join written).planRuns join.proposedIntermediateNodeId =
      join.groupedDependencies := by
  have hmem : joinNode join written ∈ (applyJoin p join written).runs :=
    mem_append_right _ (mem_singleton_self _)
  exact dependenciesOf_planRuns (nodup_ids_applyJoin hids hfresh) hmem

end

/-- What S9 reports of a run. -/
theorem maxFanIn_lt_of_mem_s9 (hids : (p.runs.map (·.id)).Nodup) (hrun : run ∈ p.runs)
    {f : ConformanceFinding} (hf : f ∈ s9Findings p) (hruns : f.runs = [run.id]) :
    maxFanIn < run.dependsOn.length ∧
      f.proposal = some (.join (intermediateJoinProposal run.toPlanRun)) := by
  obtain ⟨r, hr, hmem⟩ := mem_flatMap.1 hf
  dsimp only at hmem
  split_ifs at hmem with hsmall
  · cases hmem
  · rw [mem_singleton.1 hmem] at hruns ⊢
    have hid : r.id = run.id := singleton_inj.1 hruns
    obtain rfl := eq_of_id hids hr hrun hid
    exact ⟨not_le.1 (not_or.1 hsmall).1, rfl⟩

end Applied

section Fixes

variable {F : Type} [Zero F] [LT F] [DecidableLT F] {p : ContractPlan F}
  {run written : ContractRun F}

/-- **Applied, the proposal puts a node between the run and its grouped dependencies.** -/
theorem between_applyJoin (h : ValidatedPlan p) (written : ContractRun F) (hrun : run ∈ p.runs)
    (hfresh : (intermediateJoinProposal run.toPlanRun).proposedIntermediateNodeId ∉
      p.runs.map (·.id)) :
    Between (dependenciesOf p.planRuns)
      (dependenciesOf (applyJoin p (intermediateJoinProposal run.toPlanRun) written).planRuns)
      run.id (intermediateJoinProposal run.toPlanRun).proposedIntermediateNodeId
      (intermediateJoinProposal run.toPlanRun).groupedDependencies
      (intermediateJoinProposal run.toPlanRun).remainingDependencies where
  split d := by
    rw [dependenciesOf_planRuns h.ids hrun]
    exact mem_dependsOn_iff
  rewired d := by
    rw [dependenciesOf_applyJoin h.ids hfresh hrun, targetRun_proposal, if_pos rfl]
    exact mem_rewired_iff
  added d := by rw [dependenciesOf_joinNode h.ids hfresh]
  same x hx hnew := by
    by_cases hid : x ∈ p.runs.map (·.id)
    · obtain ⟨r, hr, rfl⟩ := mem_map.1 hid
      rw [dependenciesOf_applyJoin h.ids hfresh hr, dependenciesOf_planRuns h.ids hr,
        targetRun_proposal, if_neg hx]
    · rw [dependenciesOf_planRuns_of_notMem hid, dependenciesOf_planRuns_of_notMem]
      rw [ids_applyJoin, mem_append, mem_singleton]
      exact fun hmem => hmem.elim hid hnew
  fresh x hmem := hfresh (runIds_planRuns p ▸ (h.knownRuns.dependencies hmem).2)
  source := dependenciesOf_planRuns_of_notMem hfresh
  ne heq := hfresh (heq ▸ mem_map_of_mem hrun)

/-- **The proposal of a run that S9 reports fixes its fan-in exactly when the run has at most five
dependencies and no run has the new node's id.** -/
theorem join_fixes_iff {d : Decomposition F} {baseCommit : String} (h : ValidPlan d baseCommit)
    (hrun : run ∈ d.runs) {f : ConformanceFinding}
    (hf : f ∈ s9Findings (planFromMapping d baseCommit)) (hruns : f.runs = [run.id])
    (written : ContractRun F) :
    f.proposal = some (.join (intermediateJoinProposal run.toPlanRun)) ∧
      (JoinFixes (planFromMapping d baseCommit) run written ↔
        run.dependsOn.length ≤ 5 ∧ run.id ++ "-join-1" ∉ d.runs.map (·.id)) := by
  have hvalid := (validPlan_iff.1 h).2
  obtain ⟨hfan, hproposal⟩ := maxFanIn_lt_of_mem_s9 hvalid.ids hrun hf hruns
  refine ⟨hproposal, fun hfixes => ⟨?_, hfixes.fresh⟩, fun ⟨hsmall, hfresh⟩ => ?_⟩
  · have hgrouped := hfixes.newFanIn
    rw [length_grouped hfan, maxFanIn] at hgrouped
    omega
  · have hbetween := between_applyJoin hvalid written hrun hfresh
    refine ⟨(length_rewired hfan).le, ?_, hfresh, hbetween.acyclic hvalid.acyclic, fun a ha => ?_⟩
    · rw [length_grouped hfan, maxFanIn]
      omega
    · exact hbetween.needs_iff hbetween.ne ha

end Fixes

/-! ## Six dependencies -/

section Six

/-- A run of `n` dependencies. -/
def allRun (n : ℕ) : ContractRun ℕ :=
  exampleRun "all" "AC-1" ((List.range n).map fun k => "part-" ++ toString k) ["src/all"]

/-- A run of `n` dependencies that another run depends on. -/
def fanInPlan (n : ℕ) : Decomposition ℕ where
  plan := "docs/plan.md"
  planSections := Dict.ofList [("1", "The product")]
  acceptanceCriteria := Dict.ofList [("AC-1", "It builds")]
  runs := (List.range n).map (fun k => exampleRun ("part-" ++ toString k) "AC-1" [] ["src/part"]) ++
    [allRun n, exampleRun "release" "AC-1" ["all"] ["src/release"]]
  functionalityTests := []
  referencedArtifacts := []

theorem join_fixes_four : ∃ f ∈ s9Findings (planFromMapping (fanInPlan 4) "base"),
    f.proposal = some (.join (intermediateJoinProposal (allRun 4).toPlanRun)) ∧
      (JoinFixes (planFromMapping (fanInPlan 4) "base") (allRun 4) (allRun 4) ↔
        (allRun 4).dependsOn.length ≤ 5 ∧
          (allRun 4).id ++ "-join-1" ∉ (fanInPlan 4).runs.map (·.id)) := by
  have hreported : ["all"] ∈ (s9Findings (planFromMapping (fanInPlan 4) "base")).map (·.runs) := by
    decide +kernel
  obtain ⟨f, hf, hruns⟩ := mem_map.1 hreported
  exact ⟨f, hf, join_fixes_iff ⟨by decide +kernel, by decide +kernel⟩ (by simp [fanInPlan]) hf hruns
    (allRun 4)⟩

/-- **Of six dependencies four are grouped**, so that the new node has too many itself. -/
theorem six_dependencies_not_fixed : ValidPlan (fanInPlan 6) "base" ∧
    ∃ f ∈ s9Findings (planFromMapping (fanInPlan 6) "base"), f.runs = ["all"] ∧
      f.proposal = some (.join (intermediateJoinProposal (allRun 6).toPlanRun)) ∧
      ∀ written, ¬ JoinFixes (planFromMapping (fanInPlan 6) "base") (allRun 6) written := by
  have hvalid : ValidPlan (fanInPlan 6) "base" := ⟨by decide +kernel, by decide +kernel⟩
  have hreported : ["all"] ∈ (s9Findings (planFromMapping (fanInPlan 6) "base")).map (·.runs) := by
    decide +kernel
  obtain ⟨f, hf, hruns⟩ := mem_map.1 hreported
  have hrun : allRun 6 ∈ (planFromMapping (fanInPlan 6) "base").runs := by
    simp [fanInPlan, planFromMapping]
  have hproposal := (maxFanIn_lt_of_mem_s9 (validPlan_iff.1 hvalid).2.ids hrun hf hruns).2
  refine ⟨hvalid, f, hf, hruns, hproposal, fun written hfixes => ?_⟩
  exact absurd hfixes.newFanIn (by decide +kernel)

end Six

end HarnessLabs.PlanGraph
