import HarnessLabs.PlanGraph.Descent
import HarnessLabs.PlanGraph.Selection

/-!
# The budget check of a resume

Before a successor is allocated, the retry budgets of the nodes behind the frontier are checked. The
successor launches what it does not reuse.

* `resume` — the selection, the check and the opening.
* `Beyond` — what a run began with stays completed, and none of it is launched.
* `resume_checks_launches` — **every launched node was checked, where every node is behind the
  frontier or can be reused.**
-/

namespace HarnessLabs.PlanGraph

open List Option

universe u

variable {C : Type u}

/-- The verdicts of the ledger on the nodes that may launch, in the order of the plan. -/
def checkVerdicts (verdict : PlanRun → Except String Unit) (invalidated : List String) :
    List PlanRun → Except String Unit
  | [] => .ok ()
  | run :: rest =>
    if run.id ∈ invalidated then (verdict run).bind fun _ => checkVerdicts verdict invalidated rest
    else checkVerdicts verdict invalidated rest

/-- `resume`, with the budget check that precedes the allocation. -/
def resume [DecidableEq C] (verdict : PlanRun → Except String Unit) (plan : PlanGraphPlan C)
    (predecessor : AttemptState C) (inherited : Dict String C) (frontier : List String)
    (attemptId : String) : Except String (Successor C) := do
  let successor ← openSuccessor plan predecessor inherited frontier attemptId
  let selection ← repairSelection predecessor inherited frontier
  match checkVerdicts verdict selection.invalidatedNodeIds plan.runs with
  | .error message => .error message
  | .ok _ => .ok successor

theorem verdict_of_checkVerdicts {verdict : PlanRun → Except String Unit}
    {invalidated : List String} {runs : List PlanRun}
    (h : checkVerdicts verdict invalidated runs = .ok ()) {run : PlanRun} (hrun : run ∈ runs)
    (hid : run.id ∈ invalidated) : verdict run = .ok () := by
  induction runs with
  | nil => cases hrun
  | cons first rest ih =>
    rw [checkVerdicts] at h
    rcases mem_cons.1 hrun with rfl | hrest
    · rw [if_pos hid] at h
      cases hverdict : verdict run with
      | error message => simp [hverdict, Except.bind] at h
      | ok u => rfl
    · split_ifs at h
      · cases hverdict : verdict first with
        | error message => simp [hverdict, Except.bind] at h
        | ok u =>
          rw [hverdict] at h
          exact ih h hrest
      · exact ih h hrest

/-! ## Launches -/

/-- What the run began with stays completed, and none of it is launched. -/
structure Beyond (plan : PlanGraphPlan C) (base : Dict String C) (s : RunState C) : Prop where
  kept : ∀ id ∈ base.keys, id ∈ s.completed.keys
  launched : ∀ r ∈ s.requests, r.run ∈ plan.ordered ∧ r.run.id ∉ base.keys

section

variable {plan : PlanGraphPlan C} {base : Dict String C} {s t : RunState C}

theorem Beyond.grow (h : Beyond plan base s)
    (hcompleted : ∀ id ∈ s.completed.keys, id ∈ t.completed.keys)
    (hrequests : t.requests = s.requests) : Beyond plan base t :=
  ⟨fun id hid => hcompleted id (h.kept id hid), hrequests ▸ h.launched⟩

theorem Beyond.launch (h : Beyond plan base s) (request : FeatureRunRequest C)
    (hrun : request.run ∈ plan.ordered) (hopen : request.run.id ∉ s.completed.keys)
    (audit : AttemptState C) :
    Beyond plan base { s with audit := audit, requests := s.requests ++ [request] } := by
  refine ⟨h.kept, fun r hr => ?_⟩
  rcases mem_append.1 hr with hr | hr
  · exact h.launched r hr
  · obtain rfl := mem_singleton.1 hr
    exact ⟨hrun, fun hid => hopen (h.kept _ hid)⟩

theorem Beyond.finalizeWithFunctionality (h : Beyond plan base s) (tests : List String)
    (finishing : Finishing) (candidate : C) :
    Beyond plan base (finalizeWithFunctionality tests finishing s candidate).state :=
  h.grow (by simp [completed_finalizeWithFunctionality])
    (carries_finalizeWithFunctionality tests finishing s candidate).2

variable [PartialOrder C] {g : Controller C}

theorem Beyond.sealOutcome (h : Beyond plan base s) (run : PlanRun)
    (request : FeatureRunRequest C) (launched : Launched C) :
    Beyond plan base (sealOutcome g run request launched s).1 := by
  obtain ⟨hcandidate, hrequests⟩ := (sealOutcome_cases g run request launched s).candidate
  refine h.grow (fun id hid => ?_) hrequests
  generalize PlanGraph.sealOutcome g run request launched s = sealing at hcandidate ⊢
  obtain ⟨t, decision⟩ := sealing
  cases hcandidate with
  | sealed _ _ _ hcompleted =>
    rw [hcompleted]
    exact Dict.mem_keys_set.2 (.inr hid)
  | blocked _ _ _ _ hcompleted => rwa [hcompleted]
  | failed _ _ hcompleted => rwa [hcompleted]
  | raised _ hcompleted => rwa [hcompleted]

/-- **One turn of the sequential loop.** -/
theorem Beyond.sequentialStep {l m : SequentialLoop C} {turn : Turn C}
    (h : Beyond g.plan base l.state) (hremaining : l.remaining ⊆ g.plan.ordered)
    (hstep : sequentialStep g turn l = some m) :
    Beyond g.plan base m.state ∧ m.remaining ⊆ g.plan.ordered := by
  rw [PlanGraph.sequentialStep] at hstep
  split at hstep
  · cases hstep
  · cases hstep
    exact ⟨h.finalizeWithFunctionality _ _ _, hremaining⟩
  next run rest _ hcons =>
  have hrest : rest ⊆ g.plan.ordered := fun other hother =>
    hremaining (hcons ▸ mem_cons_of_mem _ hother)
  split at hstep
  · cases hstep
    exact ⟨h, hrest⟩
  next hopen =>
  cases hstep
  refine ⟨?_, ?_⟩
  · have hlaunch := h.launch
      (requestForRun g run l.candidate (l.state.obligations.owed run.id))
      (hremaining (hcons ▸ mem_cons_self)) (Dict.get?_eq_none_iff.1 hopen)
      (l.state.audit.nodeStarted run.id)
    rw [SequentialLoop.launchNode]
    split
    · exact h.grow (fun _ hid => hid) rfl
    · dsimp only
      split
      · exact hlaunch
      next launched _ =>
      have hsealed := hlaunch.sealOutcome (g := g) run
        (requestForRun g run l.candidate (l.state.obligations.owed run.id)) launched
      split
      all_goals
        next heq =>
        rw [heq] at hsealed
        exact hsealed.grow (fun _ hid => hid) rfl
  · rcases SequentialLoop.remaining_launchNode turn run rest with hsame | hnext
    · rwa [hsame]
    · rwa [hnext]

variable {l m : ReadySetLoop C}

theorem Beyond.completeNodes (h : Beyond plan base l.state)
    (done : String → Option (Except LaunchError (Launched C))) (ids : List String) :
    Beyond plan base (l.completeNodes g done ids).state := by
  induction ids generalizing l with
  | nil => exact h
  | cons id rest ih =>
    rw [ReadySetLoop.completeNodes, foldl_cons]
    refine ih ?_
    split
    · next launch _ =>
      rw [ReadySetLoop.completeNode]
      split
      · exact h
      next request _ =>
      have hsealed := h.sealOutcome (g := g) request.run request (ReadySetLoop.launchedOf launch)
      dsimp only
      split
      all_goals
        next heq =>
        rw [heq] at hsealed
        exact hsealed.grow (fun _ hid => hid) rfl
    · exact h

variable [DecidableEq C] [DecidableLE C]

theorem Beyond.admitNodes (h : Beyond plan base l.state) (refusal : String → Option String)
    {rest : List PlanRun}
    (hrest : ∀ run ∈ rest, run ∈ plan.ordered ∧ run.id ∉ l.state.completed.keys) :
    Beyond plan base (l.admitNodes g refusal rest).state := by
  induction rest generalizing l with
  | nil => exact h
  | cons run rest ih =>
    obtain ⟨⟨hrun, hopen⟩, hlater⟩ := forall_mem_cons.1 hrest
    have hnode : Beyond plan base (l.admitNode g refusal run).state ∧
        (l.admitNode g refusal run).state.completed = l.state.completed := by
      rw [ReadySetLoop.admitNode]
      split
      · exact ⟨h.grow (fun _ hid => hid) rfl, rfl⟩
      · exact ⟨h.grow (fun _ hid => hid) rfl, rfl⟩
      · exact ⟨h.launch _ hrun hopen _, rfl⟩
    rw [ReadySetLoop.admitNodes]
    split
    · exact ih hnode.1 (hnode.2 ▸ hlater)
    · exact hnode.1

/-- **One turn of the parallel loop.** -/
theorem Beyond.readySetStep {round : Round C} (hsound : ReadySetLoop.Sound g l)
    (h : Beyond g.plan base l.state) (hstep : readySetStep g round l = some m) :
    Beyond g.plan base m.state := by
  obtain ⟨-, admitted, hentered, -, hturn⟩ := hsound.turns hstep
  have hadmitted : Beyond g.plan base admitted.state := by
    rw [ReadySetLoop.admitReady] at hentered
    split_ifs at hentered
    · cases hunits : g.scheduler.select l.schedulerState with
      | error message =>
        rw [hunits] at hentered
        cases hentered
      | ok units =>
        rw [hunits] at hentered
        cases hentered
        refine h.admitNodes _ fun run hrun => ⟨?_, ?_⟩
        · obtain ⟨unit, -, hfound⟩ := mem_filterMap.1 hrun
          exact mem_of_find?_eq_some hfound
        · exact ((hsound.admits_selected hunits).launchable run hrun).isOpen
    · cases hentered
      exact h
  obtain ⟨-, -, rfl⟩ | ⟨-, rfl⟩ := hturn
  · obtain ⟨state, ending, heq, hcompleted⟩ := ReadySetLoop.conclude_eq g round.finishing admitted
    exact hadmitted.grow (by rw [heq, hcompleted]; exact fun _ hid => hid)
      (ReadySetLoop.carries_conclude round.finishing admitted).2.1
  · exact hadmitted.completeNodes _ _

end

/-! ## The check covers the launches -/

section

variable [DecidableEq C] {verdict : PlanRun → Except String Unit}
  {predecessor : AttemptState C} {inherited : Dict String C} {frontier : List String}
  {attemptId : String} {successor : Successor C}

theorem resume_eq_ok {plan : PlanGraphPlan C}
    (h : resume verdict plan predecessor inherited frontier attemptId = .ok successor) :
    ∃ selection, repairSelection predecessor inherited frontier = .ok selection ∧
      checkVerdicts verdict selection.invalidatedNodeIds plan.runs = .ok () ∧
      successor.audit = carryBarriers predecessor
        (initialState plan attemptId selection.reusedCompleted (some predecessor.graphRunId)) := by
  rw [resume, openSuccessor] at h
  split at h
  · cases h
  cases hselection : repairSelection predecessor inherited frontier with
  | error message => simp [hselection, Except.map, bind, Except.bind] at h
  | ok selection =>
    simp only [hselection, Except.map, bind, Except.bind] at h
    split at h
    · cases h
    next hcheck =>
    cases h
    exact ⟨selection, rfl, hcheck, rfl⟩

theorem frontier_of_repairSelection {selection : RepairSelection C}
    (h : repairSelection predecessor inherited frontier = .ok selection) :
    frontier ≠ [] ∧ frontier.Nodup ∧ ∀ f ∈ frontier, f ∈ predecessor.nodes.keys := by
  rw [repairSelection] at h
  split at h
  · cases h
  next hvalid => simpa using hvalid

/-- Where every node is behind the frontier or reusable, the others are all reused. -/
theorem Selects.reuses {plan : PlanGraphPlan C} {selection : RepairSelection C}
    (h : Selects predecessor inherited frontier selection) (hplan : OfPlan plan predecessor)
    (hready : ∀ id ∈ predecessor.nodes.keys, BehindFrontier predecessor.nodes frontier id ∨
      ∃ c, Reusable predecessor inherited frontier id c) {run : PlanRun}
    (hrun : run ∈ plan.ordered) (hopen : run.id ∉ selection.reusedCompleted.keys) :
    run.id ∈ selection.invalidatedNodeIds := by
  rw [h.invalidated]
  by_contra hkept
  refine hopen (h.greatest {id | ∃ run ∈ plan.ordered, run.id = id ∧
    ¬ BehindFrontier predecessor.nodes frontier id} ?_ ?_ run.id ⟨run, hrun, rfl, hkept⟩)
  · rintro _ ⟨other, hother, rfl, hnot⟩
    have hknown := (hplan.keys other.id).2 (mem_runIds (plan.mem_ordered.1 hother))
    exact (hready _ hknown).resolve_left hnot
  · rintro _ ⟨other, hother, rfl, hnot⟩ d hd
    have hbehind : ¬ BehindFrontier predecessor.nodes frontier d := by
      rintro ⟨f, hf, hpath⟩
      exact hnot ⟨f, hf, hpath.tail hd⟩
    rw [hplan.deps, dependencies_run plan hother] at hd
    obtain ⟨next, hnext, rfl⟩ :=
      mem_map.1 ((plan.wellFormed (plan.mem_ordered.1 hother)).2 d hd).1
    exact ⟨next, plan.mem_ordered.2 hnext, rfl, hbehind⟩

/-- A run of the successor begins with what is reused. -/
theorem beyond_start {plan : PlanGraphPlan C} {selection : RepairSelection C}
    (h : Selects predecessor inherited frontier selection) (hplan : OfPlan plan predecessor)
    {s : RunState C} (hstart : StartsOn plan (carryBarriers predecessor
      (initialState plan attemptId selection.reusedCompleted (some predecessor.graphRunId))) s) :
    Beyond plan selection.reusedCompleted s := by
  obtain ⟨completed, hload, hget⟩ := loadAuditCompleted_initialState plan attemptId
    (fun id hid => (hplan.keys id).1 (h.known id hid)) (some predecessor.graphRunId)
    (carryBarriers predecessor) fun _ => rfl
  obtain ⟨rejected, hbegins⟩ := hstart.begins
  rw [startRun, hload] at hbegins
  dsimp only at hbegins
  cases hvalid : validateCompletedDependencies plan.ordered completed with
  | error message => simp [hvalid, Except.map] at hbegins
  | ok u =>
    rw [hvalid] at hbegins
    cases hbegins
    refine ⟨fun id hid => ?_, by simp⟩
    obtain ⟨c, hc⟩ := Dict.mem_keys_iff.1 hid
    exact Dict.mem_keys_iff.2 ⟨c, (hget id).trans hc⟩

/-- Every node that a run of the successor launches was checked by the resume. -/
def ChecksLaunches [PartialOrder C] [DecidableLE C] (g : Controller C)
    (verdict : PlanRun → Except String Unit) (predecessor : AttemptState C)
    (frontier : List String) (successor : Successor C) : Prop :=
  (∀ l, SequentialRun g successor.audit l → ∀ r ∈ l.state.requests,
    BehindFrontier predecessor.nodes frontier r.run.id ∧ verdict r.run = .ok ()) ∧
  ∀ l, ReadySetRun g successor.audit l → ∀ r ∈ l.state.requests,
    BehindFrontier predecessor.nodes frontier r.run.id ∧ verdict r.run = .ok ()

/-- **Every launched node was checked**, where every node of the predecessor is behind the frontier
or can be reused. -/
theorem resume_checks_launches [PartialOrder C] [DecidableLE C] {g : Controller C}
    (hresume : resume verdict g.plan predecessor inherited frontier attemptId = .ok successor)
    (hplan : OfPlan g.plan predecessor)
    (hready : ∀ id ∈ predecessor.nodes.keys, BehindFrontier predecessor.nodes frontier id ∨
      ∃ c, Reusable predecessor inherited frontier id c) :
    ChecksLaunches g verdict predecessor frontier successor := by
  obtain ⟨selection, hselection, hcheck, haudit⟩ := resume_eq_ok hresume
  obtain ⟨hne, hnodup, hknown⟩ := frontier_of_repairSelection hselection
  have hacyclic : Dag.Acyclic (nodeDeps predecessor.nodes) := by
    rw [hplan.deps]
    exact g.plan.acyclic
  obtain ⟨_, hsame, hselects, -⟩ :=
    repairSelection_selects inherited hacyclic hne hnodup hknown
  cases hselection.symm.trans hsame
  have hchecked : ∀ {s : RunState C}, Beyond g.plan selection.reusedCompleted s →
      ∀ r ∈ s.requests, BehindFrontier predecessor.nodes frontier r.run.id ∧
        verdict r.run = .ok () := by
    intro s hs r hr
    obtain ⟨hrun, hopen⟩ := hs.launched r hr
    have hinvalid := hselects.reuses hplan hready hrun hopen
    exact ⟨(hselects.invalidated _).1 hinvalid,
      verdict_of_checkVerdicts hcheck (g.plan.mem_ordered.1 hrun) hinvalid⟩
  rw [ChecksLaunches, haudit]
  constructor
  · rintro l ⟨s, hstart, hrun⟩
    refine hchecked (hrun.invariant (P := fun l => Beyond g.plan selection.reusedCompleted l.state ∧
      l.remaining ⊆ g.plan.ordered) (fun _ _ _ hstep hx => hx.1.sequentialStep hx.2 hstep)
        ⟨beyond_start hselects hplan hstart, fun _ h => h⟩).1
  · rintro l ⟨s, hstart, hrun⟩
    refine hchecked (hrun.invariant (P := fun l => ReadySetLoop.Sound g l ∧
      Beyond g.plan selection.reusedCompleted l.state)
        (fun _ _ _ hstep hx => ⟨(hx.1.step hstep).1, hx.2.readySetStep hx.1 hstep⟩)
        ⟨ReadySetLoop.sound_start hstart, beyond_start hselects hplan hstart⟩).2

end

/-! ## A sibling that never started -/

theorem resume_checks_launches_pair : ∃ successor,
    resume (fun _ => .ok ()) pairPlan (pairFailed.finalize .failed) ∅ ["b"] "graph-attempt-1" =
        .ok successor ∧
      ChecksLaunches pairController (fun _ => .ok ()) (pairFailed.finalize .failed) ["b"]
        successor := by
  refine ⟨_, rfl, resume_checks_launches (g := pairController) rfl
    ⟨ofPlan_pairFailed.keys, ofPlan_pairFailed.deps⟩ fun id hid => ?_⟩
  have hid : id ∈ ["a", "b"] := (ofPlan_pairFailed.keys id).1 hid
  rcases mem_cons.1 hid with rfl | hid
  · refine .inr ⟨{1}, ⟨_, rfl, rfl, rfl⟩, by decide +kernel, fun hbehind => ?_⟩
    exact absurd ((mem_invalidated_iff (nodup_singleton "b") (by decide)).2 hbehind)
      (by decide +kernel)
  · rw [mem_singleton.1 hid]
    exact .inl ⟨"b", mem_singleton_self _, .refl⟩

/-- The first of two independent runs failed, and the second one never started. -/
def forkFailed : AttemptState (Finset ℕ) :=
  ((initialState forkPlan "graph" ∅ none).nodeFailed "a" .failed none).finalize .failed

def forkSuccessor : Successor (Finset ℕ) :=
  ⟨carryBarriers forkFailed (initialState forkPlan "graph-attempt-1" ∅ (some "graph")), ∅⟩

/-- The budget of the second run is spent. -/
def spent (run : PlanRun) : Except String Unit :=
  if run.id = "b" then .error "retry budget is spent" else .ok ()

theorem launches_unchecked :
    resume spent forkPlan forkFailed ∅ ["a"] "graph-attempt-1" = .ok forkSuccessor ∧
      ¬ ChecksLaunches forkController spent forkFailed ["a"] forkSuccessor := by
  refine ⟨rfl, fun h => ?_⟩
  obtain ⟨l, hl⟩ : ∃ l, Inputs.runInputs (readySetStep forkController)
      { state := { audit := forkSuccessor.audit, completed := ∅, obligations := ∅ } }
      [firstRound] = some l := by
    rw [← isSome_iff_exists]
    decide +kernel
  have hlaunched : (Inputs.runInputs (readySetStep forkController)
      { state := { audit := forkSuccessor.audit, completed := ∅, obligations := ∅ } }
      [firstRound]).map (fun l => l.state.requests.map (·.run.id)) = some ["a", "b"] := by
    decide +kernel
  rw [hl] at hlaunched
  have hids : l.state.requests.map (·.run.id) = ["a", "b"] := some_inj.1 hlaunched
  obtain ⟨r, hr, hid⟩ : ∃ r ∈ l.state.requests, r.run.id = "b" := by
    rw [← List.mem_map, hids]
    decide
  have hreached : ReadySetRun forkController forkSuccessor.audit l :=
    ⟨_, ⟨fun id => Iff.rfl, rfl, [], rfl⟩, Inputs.runs_of_runInputs hl⟩
  have hverdict := (h.2 l hreached r hr).2
  rw [spent, if_pos hid] at hverdict
  cases hverdict

end HarnessLabs.PlanGraph
