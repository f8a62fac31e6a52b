import HarnessLabs.PlanGraph.ReadySet

/-!
# Progress of the parallel loop

What the loop keeps of the completed nodes, the nodes in flight and the withheld ones: the scheduler
accepts every state that it is asked about, and an idle state without a failure goes on until every
node is completed.

* `ReadySetLoop.Sound` — the invariant of the loop.
* `ReadySetRun.sound` — **it holds in every state of a run.**
* `ready_set_progress` — **the loop does not stall, and it finds every candidate it looks up.**
-/

namespace HarnessLabs.PlanGraph

open List

universe u

variable {C : Type u}

/-! ## The plan -/

theorem mem_runIds_ordered (plan : PlanGraphPlan C) {id : String} :
    id ∈ runIds plan.ordered ↔ id ∈ runIds plan.runs := by
  simp only [runIds, mem_map, plan.mem_ordered]

theorem runById_ordered (plan : PlanGraphPlan C) (id : String) :
    runById plan.ordered id = runById plan.runs id := by
  ext run
  rw [runById_eq_some plan.ordered_ids.nodup, runById_eq_some plan.nodup_ids, plan.mem_ordered]

theorem dependenciesOf_ordered (plan : PlanGraphPlan C) (id : String) :
    dependenciesOf plan.ordered id = plan.dependencies id := by
  rw [dependenciesOf, runById_ordered]
  rfl

theorem dependencies_run (plan : PlanGraphPlan C) {run : PlanRun} (hrun : run ∈ plan.ordered) :
    plan.dependencies run.id = run.dependsOn :=
  dependenciesOf_self plan.nodup_ids (plan.mem_ordered.1 hrun)

/-! ## Lookups -/

theorem mapM_lookup {α : Type} {f : α → String} {message : α → String} {completed : Dict String C}
    {xs : List α} (h : ∀ x ∈ xs, f x ∈ completed.keys) :
    ∃ parents, xs.mapM (fun x => (completed.get? (f x)).elim (.error (message x)) .ok) =
      (.ok parents : Except String (List C)) := by
  induction xs with
  | nil => exact ⟨[], rfl⟩
  | cons x rest ih =>
    obtain ⟨parents, hrest⟩ := ih fun y hy => h y (mem_cons_of_mem x hy)
    obtain ⟨c, hc⟩ := Dict.mem_keys_iff.1 (h x mem_cons_self)
    refine ⟨c :: parents, ?_⟩
    rw [mapM_cons, hc, hrest]
    rfl

/-! ## The beginning -/

theorem find?_eq_none_of_validated {ordered : List PlanRun} {completed : Dict String C} {u : Unit}
    (h : validateCompletedDependencies ordered completed = .ok u) :
    ∀ run ∈ ordered, run.id ∈ completed.keys → ∀ d ∈ run.dependsOn, d ∈ completed.keys := by
  rw [validateCompletedDependencies] at h
  split at h
  · cases h
  · rename_i hnone
    rw [List.find?_eq_none] at hnone
    intro run hrun hid d hd
    have hfine := hnone run hrun
    simp only [any_eq_true, decide_eq_true_eq, not_and, not_exists, not_not] at hfine
    exact hfine hid d hd

/-- What a run begins with: candidates of nodes of the plan, with those of their dependencies. -/
theorem StartsOn.completed {plan : PlanGraphPlan C} {audit : AttemptState C} {s : RunState C}
    (h : StartsOn plan audit s) :
    (∀ id ∈ s.completed.keys, id ∈ runIds plan.runs) ∧
      ∀ id ∈ s.completed.keys, ∀ d ∈ plan.dependencies id, d ∈ s.completed.keys := by
  obtain ⟨rejected, hbegins⟩ := h.begins
  rw [startRun, AttemptState.loadAuditCompleted] at hbegins
  split_ifs at hbegins with hbroken
  dsimp only at hbegins
  cases hvalid : validateCompletedDependencies plan.ordered
      (audit.nodes.filterMap fun _ node => AttemptState.sealedCandidate node) with
  | error message =>
    rw [hvalid] at hbegins
    cases hbegins
  | ok u =>
    rw [hvalid] at hbegins
    cases hbegins
    have hknown : ∀ id ∈ (audit.nodes.filterMap fun _ node =>
        AttemptState.sealedCandidate node).keys, id ∈ runIds plan.runs := by
      intro id hid
      obtain ⟨c, hc⟩ := Dict.mem_keys_iff.1 hid
      rw [Dict.get?_filterMap, Option.bind_eq_some_iff] at hc
      obtain ⟨node, hnode, -⟩ := hc
      exact (h.nodes id).1 (Dict.mem_keys_iff.2 ⟨node, hnode⟩)
    refine ⟨hknown, fun id hid d hd => ?_⟩
    obtain ⟨run, hrun, rfl⟩ := mem_map.1 ((mem_runIds_ordered plan).2 (hknown id hid))
    rw [dependencies_run plan hrun] at hd
    exact find?_eq_none_of_validated hvalid run hrun hid d hd

theorem completed_finalizeWithFunctionality (tests : List String) (finishing : Finishing)
    (s : RunState C) (candidate : C) :
    (finalizeWithFunctionality tests finishing s candidate).state.completed = s.completed := by
  rw [finalizeWithFunctionality]
  dsimp only
  split
  · rfl
  · split_ifs <;> rfl

/-! ## Dictionaries -/

theorem mem_keys_erase {V : Type u} {d : Dict String V} {id other : String} :
    other ∈ (d.erase id).keys ↔ other ∈ d.keys ∧ other ≠ id := by
  simp only [Dict.mem_keys_iff, Dict.get?_erase]
  by_cases h : other = id <;> simp [h]

theorem keys_set_ne_nil {V : Type u} (d : Dict String V) (id : String) (v : V) :
    (d.set id v).keys ≠ [] := by
  intro hempty
  have hmem : id ∈ (d.set id v).keys := Dict.mem_keys_set.2 (.inl rfl)
  rw [hempty] at hmem
  exact not_mem_nil hmem

/-! ## The invariant -/

namespace ReadySetLoop

theorem stop_terminal (l : ReadySetLoop C) (id : String) (t : Terminal C) :
    (l.stop id t).terminal ≠ none := by
  rw [ReadySetLoop.stop]
  split
  · exact Option.some_ne_none _
  · split_ifs <;> exact Option.some_ne_none _

variable [PartialOrder C] {g : Controller C} {l : ReadySetLoop C}

/-- A node that can be in flight. -/
structure Launchable (g : Controller C) (l : ReadySetLoop C) (id : String) : Prop where
  known : id ∈ runIds g.plan.runs
  isOpen : id ∉ l.state.completed.keys
  allowed : id ∉ l.withheld
  ready : ∀ d ∈ g.plan.dependencies id, d ∈ l.state.completed.keys

structure Sound (g : Controller C) (l : ReadySetLoop C) : Prop where
  known : ∀ id ∈ l.state.completed.keys, id ∈ runIds g.plan.runs
  closed : ∀ id ∈ l.state.completed.keys, ∀ d ∈ g.plan.dependencies id, d ∈ l.state.completed.keys
  flight : ∀ id ∈ l.inFlight.keys, Launchable g l id
  request : ∀ id r, l.inFlight.get? id = some r → r.run.id = id
  withheld : ∀ id ∈ l.withheld, id ∈ runIds g.plan.runs ∧ id ∉ l.state.completed.keys
  bound : l.inFlight.items.length ≤ g.maxParallelism
  clean : l.terminal = none → l.deferredError = none → l.withheld = [] ∧ l.admitting = true

theorem sound_start {audit : AttemptState C} {s : RunState C} (h : StartsOn g.plan audit s) :
    Sound g { state := s } where
  known := h.completed.1
  closed := h.completed.2
  flight := fun _ hid => by cases hid
  request := fun _ _ hr => by cases hr
  withheld := forall_mem_nil _
  bound := Nat.zero_le _
  clean := fun _ _ => ⟨rfl, rfl⟩

variable {id : String} {run : PlanRun} {next : ReadySetLoop C}

theorem mem_sorted {ids : List String} :
    id ∈ ids.mergeSort (fun a b => a ≤ b) ↔ id ∈ ids :=
  (mergeSort_perm ids _).mem_iff

/-- The scheduler accepts what it is asked about. -/
theorem Sound.accepted (h : Sound g l) : g.scheduler.Accepted l.schedulerState := by
  have hids : ∀ id, id ∈ g.scheduler.ids ↔ id ∈ runIds g.plan.runs := fun id =>
    mem_runIds_ordered g.plan
  have hdeps : ∀ id, g.scheduler.dependencies id = g.plan.dependencies id :=
    dependenciesOf_ordered g.plan
  have hactive : ReadySetScheduler.activeNodes l.schedulerState =
      l.inFlight.keys.mergeSort fun a b => a ≤ b := by
    simp [ReadySetScheduler.activeNodes, schedulerState, Function.comp_def]
  exact
    { withheldKnown := fun w hw => (hids w).2 (h.withheld w (mem_sorted.1 hw)).1
      withheldOpen := fun w hw => (h.withheld w (mem_sorted.1 hw)).2
      sealedKnown := fun x hx => (hids x).2 (h.known x hx)
      sealedClosed := fun x hx d hd => h.closed x hx d (by rwa [hdeps] at hd)
      verifiedSealed := fun b hb => by cases hb
      activeNodup := by
        rw [hactive]
        exact ((mergeSort_perm _ _).nodup_iff).2 l.inFlight.nodup_keys
      activeValid := by
        intro unit hunit
        obtain ⟨id, hid, rfl⟩ := mem_map.1 hunit
        obtain ⟨hknown, hopen, -, hready⟩ := h.flight id (mem_sorted.1 hid)
        refine ⟨(hids id).2 hknown, hopen, fun d hd => ⟨hready d (by rwa [hdeps] at hd), ?_⟩⟩
        exact fun hb => by cases hb
      bound := by
        have hlength : l.schedulerState.active.length = l.inFlight.items.length := by
          simp [schedulerState, Dict.keys]
        rw [hlength]
        exact h.bound }

/-! ## Admission -/

/-- Nodes that can all be launched. -/
structure Admits (g : Controller C) (l : ReadySetLoop C) (rest : List PlanRun) : Prop where
  launchable : ∀ run ∈ rest, Launchable g l run.id
  idle : ∀ run ∈ rest, run.id ∉ l.inFlight.keys
  nodup : (rest.map (·.id)).Nodup
  room : l.inFlight.items.length + rest.length ≤ g.maxParallelism

theorem Sound.refuse (h : Sound g l) (hrun : Launchable g l run.id)
    (hidle : run.id ∉ l.inFlight.keys) : Sound g (l.refuse run) where
  known := h.known
  closed := h.closed
  flight := by
    intro id hid
    obtain ⟨hknown, hopen, hallowed, hready⟩ := h.flight id hid
    refine ⟨hknown, hopen, fun hmem => ?_, hready⟩
    rcases mem_append.1 hmem with hmem | hmem
    · exact hallowed hmem
    · rw [mem_singleton.1 hmem] at hid
      exact hidle hid
  request := h.request
  withheld := by
    intro id hid
    rcases mem_append.1 hid with hid | hid
    · exact h.withheld id hid
    · rw [mem_singleton.1 hid]
      exact ⟨hrun.known, hrun.isOpen⟩
  bound := h.bound
  clean := by
    intro hterminal
    cases hfirst : l.terminal <;> simp [ReadySetLoop.refuse, hfirst] at hterminal

theorem Sound.launch (h : Sound g l) (hrun : Launchable g l run.id)
    (hidle : run.id ∉ l.inFlight.keys) (hroom : l.inFlight.items.length < g.maxParallelism)
    {request : FeatureRunRequest C} (hrequest : request.run = run) (audit : AttemptState C)
    (requests : List (FeatureRunRequest C)) :
    Sound g { l with
      state := { l.state with audit := audit, requests := requests }
      inFlight := l.inFlight.set run.id request } where
  known := h.known
  closed := h.closed
  flight := by
    intro id hid
    rcases Dict.mem_keys_set.1 hid with rfl | hid
    · exact ⟨hrun.known, hrun.isOpen, hrun.allowed, hrun.ready⟩
    · obtain ⟨hknown, hopen, hallowed, hready⟩ := h.flight id hid
      exact ⟨hknown, hopen, hallowed, hready⟩
  request := by
    intro id r hr
    rw [Dict.get?_set] at hr
    split_ifs at hr with hid
    · cases hr
      rw [hrequest, hid]
    · exact h.request id r hr
  withheld := h.withheld
  bound := by
    rw [Dict.items_set_of_notMem hidle, length_append]
    exact hroom
  clean := h.clean

theorem selected_run {unit : ReadySetDispatch}
    (hunit : ReadySetScheduler.Eligible g.scheduler l.schedulerState unit) :
    ∃ run ∈ g.plan.ordered, run.id = unit.nodeId := by
  obtain ⟨-, run, ⟨hrun, -⟩, hkind⟩ := hunit
  obtain ⟨id, kind⟩ := unit
  cases kind with
  | barrierVerification =>
    obtain ⟨-, hbarrier, -⟩ := ReadySetScheduler.mem_pendingBarriers.1 hkind
    exact absurd hbarrier not_mem_nil
  | featureRun => exact ⟨run, hrun, hkind.1⟩

/-- What is selected can be launched. -/
theorem selected_launchable {unit : ReadySetDispatch}
    (hunit : ReadySetScheduler.Eligible g.scheduler l.schedulerState unit)
    (hid : run.id = unit.nodeId) : Launchable g l run.id ∧ run.id ∉ l.inFlight.keys := by
  obtain ⟨hidle, other, ⟨hother, hopen, hinactive, hallowed, hsealed⟩, hkind⟩ := hunit
  obtain ⟨id, kind⟩ := unit
  cases kind with
  | barrierVerification =>
    obtain ⟨-, hbarrier, -⟩ := ReadySetScheduler.mem_pendingBarriers.1 hkind
    exact absurd hbarrier not_mem_nil
  | featureRun =>
    obtain ⟨hsame, -⟩ := hkind
    have heq : run.id = other.id := hid.trans hsame.symm
    rw [heq]
    refine ⟨⟨(mem_runIds_ordered g.plan).1 (mem_runIds hother), hopen, ?_, fun d hd => ?_⟩, ?_⟩
    · exact fun hmem => hallowed (mem_sorted.2 hmem)
    · refine hsealed d ?_
      show d ∈ dependenciesOf g.plan.ordered other.id
      rwa [dependenciesOf_ordered]
    · intro hmem
      refine hinactive (mem_map.2 ⟨⟨other.id, .featureRun⟩, ?_, rfl⟩)
      exact mem_map.2 ⟨other.id, mem_sorted.2 hmem, rfl⟩

theorem ids_selected (runs : List PlanRun) (units : List ReadySetDispatch) :
    ((units.filterMap fun unit => runById runs unit.nodeId).map (·.id)).Sublist
      (units.map (·.nodeId)) := by
  induction units with
  | nil => exact List.Sublist.slnil
  | cons unit rest ih =>
    cases hrun : runById runs unit.nodeId with
    | none =>
      simp only [filterMap_cons, hrun]
      exact ih.cons _
    | some run =>
      have hid : run.id = unit.nodeId := by simpa using List.find?_some hrun
      simp only [filterMap_cons, hrun, map_cons, hid]
      exact ih.cons_cons _

theorem Sound.admits_selected (h : Sound g l) {units : List ReadySetDispatch}
    (hunits : g.scheduler.select l.schedulerState = .ok units) :
    Admits g l (units.filterMap fun unit => runById g.plan.ordered unit.nodeId) := by
  obtain ⟨a, ha, rfl⟩ := ReadySetScheduler.selects_of_select hunits
  have hall : ∀ run ∈ a.selected.filterMap fun unit => runById g.plan.ordered unit.nodeId,
      Launchable g l run.id ∧ run.id ∉ l.inFlight.keys := by
    intro run hrun
    obtain ⟨unit, hunit, hfound⟩ := mem_filterMap.1 hrun
    exact selected_launchable (ha.eligible unit hunit) (by simpa using List.find?_some hfound)
  have hlength : l.schedulerState.active.length = l.inFlight.items.length := by
    simp [schedulerState, Dict.keys]
  have hslots := ha.slots
  have hcount := length_filterMap_le (fun unit => runById g.plan.ordered unit.nodeId) a.selected
  refine ⟨fun run hrun => (hall run hrun).1, fun run hrun => (hall run hrun).2,
    (ids_selected _ _).nodup ha.nodup, ?_⟩
  have hbound := h.bound
  have hmax : g.scheduler.maxParallelism = g.maxParallelism := rfl
  omega

/-- An idle state without a failure selects a node while one is open. -/
theorem Sound.select_progress (h : Sound g l) (hidle : l.inFlight.keys = [])
    (hwithheld : l.withheld = [])
    (hopen : (∃ run ∈ g.plan.runs, run.id ∉ l.state.completed.keys) ∨
      ∃ b, ReadySetScheduler.RequiredBarrier g.scheduler l.schedulerState b ∧
        b ∉ l.schedulerState.verified) :
    ∃ units, g.scheduler.select l.schedulerState = .ok units ∧ units ≠ [] := by
  have hacyclic : Dag.Acyclic g.scheduler.dependencies := by
    have hdeps : g.scheduler.dependencies = g.plan.dependencies :=
      funext (dependenciesOf_ordered g.plan)
    rw [hdeps]
    exact g.plan.acyclic
  refine h.accepted.select_progress hacyclic ?_ ?_ ?_
  · simp [schedulerState, hidle]
  · simp [schedulerState, hwithheld]
  · refine hopen.imp_left ?_
    rintro ⟨run, hrun, hnot⟩
    exact ⟨run, g.plan.mem_ordered.2 hrun, hnot⟩

/-! ## Completion -/

/-- A node in flight that fails is withheld. -/
theorem Sound.withhold (h : Sound g l) (hid : id ∈ l.inFlight.keys)
    (hcompleted : next.state.completed = l.state.completed)
    (hflight : next.inFlight = l.inFlight.erase id) (hwithheld : next.withheld = l.withheld ++ [id])
    (hfailed : next.terminal ≠ none ∨ next.deferredError ≠ none) : Sound g next := by
  obtain ⟨hknown, hopen, hallowed, hready⟩ := h.flight id hid
  exact
    { known := by rw [hcompleted]; exact h.known
      closed := by rw [hcompleted]; exact h.closed
      flight := by
        intro other hother
        rw [hflight, mem_keys_erase] at hother
        obtain ⟨hother, hne⟩ := hother
        obtain ⟨hknown', hopen', hallowed', hready'⟩ := h.flight other hother
        refine ⟨hknown', by rwa [hcompleted], ?_, by rwa [hcompleted]⟩
        rw [hwithheld, mem_append, mem_singleton]
        exact not_or.2 ⟨hallowed', hne⟩
      request := by
        intro other r hr
        rw [hflight, Dict.get?_erase] at hr
        split_ifs at hr
        exact h.request other r hr
      withheld := by
        intro other hother
        rw [hwithheld, mem_append, mem_singleton] at hother
        rw [hcompleted]
        rcases hother with hother | rfl
        · exact h.withheld other hother
        · exact ⟨hknown, hopen⟩
      bound := by
        rw [hflight]
        exact (length_filter_le _ _).trans h.bound
      clean := fun hterminal hdeferred =>
        absurd hfailed (not_or.2 ⟨not_not.2 hterminal, not_not.2 hdeferred⟩) }

/-- A node in flight that is sealed is completed. -/
theorem Sound.seal_node (h : Sound g l) (hid : id ∈ l.inFlight.keys) {candidate : C}
    (hcompleted : next.state.completed = l.state.completed.set id candidate)
    (hflight : next.inFlight = l.inFlight.erase id) (hwithheld : next.withheld = l.withheld)
    (hclean : next.terminal = l.terminal ∧ next.deferredError = l.deferredError ∧
      next.admitting = l.admitting) : Sound g next := by
  obtain ⟨hknown, hopen, hallowed, hready⟩ := h.flight id hid
  have hmem : ∀ other, other ∈ next.state.completed.keys ↔
      other = id ∨ other ∈ l.state.completed.keys := fun other => by
    rw [hcompleted]
    exact Dict.mem_keys_set
  exact
    { known := by
        intro other hother
        rcases (hmem other).1 hother with rfl | hother
        · exact hknown
        · exact h.known other hother
      closed := by
        intro other hother d hd
        rcases (hmem other).1 hother with rfl | hother
        · exact (hmem d).2 (.inr (hready d hd))
        · exact (hmem d).2 (.inr (h.closed other hother d hd))
      flight := by
        intro other hother
        rw [hflight, mem_keys_erase] at hother
        obtain ⟨hother, hne⟩ := hother
        obtain ⟨hknown', hopen', hallowed', hready'⟩ := h.flight other hother
        refine ⟨hknown', fun hdone => ?_, by rwa [hwithheld], fun d hd => (hmem d).2 (.inr
          (hready' d hd))⟩
        exact ((hmem other).1 hdone).elim hne hopen'
      request := by
        intro other r hr
        rw [hflight, Dict.get?_erase] at hr
        split_ifs at hr
        exact h.request other r hr
      withheld := by
        intro other hother
        rw [hwithheld] at hother
        obtain ⟨hother', hnot⟩ := h.withheld other hother
        refine ⟨hother', fun hdone => ((hmem other).1 hdone).elim ?_ hnot⟩
        rintro rfl
        exact hallowed hother
      bound := by
        rw [hflight]
        exact (length_filter_le _ _).trans h.bound
      clean := by
        rw [hclean.1, hclean.2.1, hclean.2.2, hwithheld]
        exact h.clean }

theorem Sound.completeNode (h : Sound g l) (launch : Except LaunchError (Launched C))
    (id : String) : Sound g (l.completeNode g launch id) := by
  rw [ReadySetLoop.completeNode]
  cases hrequest : l.inFlight.get? id with
  | none => exact h
  | some request =>
    have hid : id ∈ l.inFlight.keys := Dict.mem_keys_iff.2 ⟨request, hrequest⟩
    have hsame := h.request id request hrequest
    have hcases := sealOutcome_cases g request.run request (launchedOf launch) l.state
    dsimp only
    generalize sealOutcome g request.run request (launchedOf launch) l.state = t at hcases ⊢
    obtain ⟨s, decision⟩ := t
    cases hcases with
    | raised rejected message =>
      refine h.withhold hid rfl rfl rfl (.inr ?_)
      cases l.deferredError <;> simp
    | stopped rejected escalation merged blocks decision hmerged hdecision =>
      subst hdecision
      cases blocks with
      | true => exact h.withhold hid rfl rfl rfl (.inl (stop_terminal _ _ _))
      | false => exact h.withhold hid rfl rfl rfl (.inl (stop_terminal _ _ _))
    | conflict => exact h.withhold hid rfl rfl rfl (.inl (stop_terminal _ _ _))
    | escalated => exact h.withhold hid rfl rfl rfl (.inl (stop_terminal _ _ _))
    | sealed rejected escalation candidate advanced houtcome hadvanced =>
      exact h.seal_node hid (by rw [← hsame]) rfl rfl ⟨rfl, rfl, rfl⟩

theorem Sound.completeNodes (h : Sound g l)
    (done : String → Option (Except LaunchError (Launched C))) (ids : List String) :
    Sound g (l.completeNodes g done ids) := by
  induction ids generalizing l with
  | nil => exact h
  | cons id rest ih =>
    refine ih ?_
    dsimp only
    split
    · exact h.completeNode _ id
    · exact h

theorem ending_completeNode (launch : Except LaunchError (Launched C)) (l : ReadySetLoop C)
    (id : String) : (l.completeNode g launch id).ending = l.ending := by
  rw [ReadySetLoop.completeNode]
  split
  · rfl
  · dsimp only
    split <;> rfl

theorem ending_completeNodes (done : String → Option (Except LaunchError (Launched C)))
    (l : ReadySetLoop C) (ids : List String) :
    (l.completeNodes g done ids).ending = l.ending := by
  induction ids generalizing l with
  | nil => rfl
  | cons id rest ih =>
    refine (ih _).trans ?_
    dsimp only
    split
    · exact ending_completeNode _ l id
    · rfl

theorem Sound.ended (h : Sound g l) {state : RunState C} {ending : Ending C}
    (hcompleted : state.completed = l.state.completed) :
    Sound g { l with state := state, ending := some ending } where
  known := by rw [hcompleted]; exact h.known
  closed := by rw [hcompleted]; exact h.closed
  flight := by
    intro id hid
    obtain ⟨hknown, hopen, hallowed, hready⟩ := h.flight id hid
    exact ⟨hknown, by rwa [hcompleted], hallowed, by rwa [hcompleted]⟩
  request := h.request
  withheld := by rw [hcompleted]; exact h.withheld
  bound := h.bound
  clean := h.clean

/-! ## Progress -/

/-- The loop left without a failure only behind the last node. -/
def LeavesComplete (g : Controller C) (l : ReadySetLoop C) : Prop :=
  l.ending.isSome = true → l.terminal = none → l.deferredError = none →
    ∀ run ∈ g.plan.runs, run.id ∈ l.state.completed.keys

/-- The loop does not stall, and it finds every candidate it looks up. -/
structure Progresses (g : Controller C) (l : ReadySetLoop C) : Prop where
  selects : l.inFlight.keys = [] → l.withheld = [] → l.terminal = none → l.deferredError = none →
    ((∃ run ∈ g.plan.runs, run.id ∉ l.state.completed.keys) ∨
      ∃ b, ReadySetScheduler.RequiredBarrier g.scheduler l.schedulerState b ∧
        b ∉ l.schedulerState.verified) →
    ∃ units, g.scheduler.select l.schedulerState = .ok units ∧ units ≠ []
  bases : ∀ units, g.scheduler.select l.schedulerState = .ok units → ∀ unit ∈ units,
    ∃ run ∈ g.plan.runs, run.id = unit.nodeId ∧
      ∃ parents, dependencyCandidates l.state.completed run = .ok parents
  leaves : l.ending.isSome = true → l.terminal = none → l.deferredError = none →
    (∀ run ∈ g.plan.runs, run.id ∈ l.state.completed.keys) ∧
      ∃ parents, sinkCandidates g.plan.ordered l.state.completed = .ok parents

theorem Sound.progresses (h : Sound g l) (hleaves : LeavesComplete g l) : Progresses g l where
  selects := fun hidle hwithheld _ _ hopen => h.select_progress hidle hwithheld hopen
  bases := by
    intro units hunits unit hunit
    obtain ⟨a, ha, rfl⟩ := ReadySetScheduler.selects_of_select hunits
    obtain ⟨run, hrun, hid⟩ := selected_run (ha.eligible unit hunit)
    obtain ⟨hlaunchable, -⟩ := selected_launchable (ha.eligible unit hunit) hid
    refine ⟨run, g.plan.mem_ordered.1 hrun, hid, mapM_lookup fun d hd => hlaunchable.ready d ?_⟩
    rwa [dependencies_run g.plan hrun]
  leaves := by
    intro hended hterminal hdeferred
    have hall := hleaves hended hterminal hdeferred
    refine ⟨hall, mapM_lookup fun run hrun => hall run (g.plan.mem_ordered.1 ?_)⟩
    exact (mem_filter.1 hrun).1

/-! ## Turns -/

variable [DecidableEq C] [DecidableLE C]

theorem Sound.admitNode (h : Sound g l) (refusal : String → Option String) {rest : List PlanRun}
    (hadmits : Admits g l (run :: rest)) :
    Sound g (l.admitNode g refusal run) ∧
      ((l.admitNode g refusal run).admitting = true → Admits g (l.admitNode g refusal run) rest) ∧
      ((l.admitNode g refusal run).terminal = none →
        (l.admitNode g refusal run).inFlight.keys ≠ []) := by
  have hrun := hadmits.launchable run mem_cons_self
  have hidle := hadmits.idle run mem_cons_self
  have hroom := hadmits.room
  rw [length_cons] at hroom
  have hrefused : Sound g (l.refuse run) ∧
      ((l.refuse run).admitting = true → Admits g (l.refuse run) rest) ∧
      ((l.refuse run).terminal = none → (l.refuse run).inFlight.keys ≠ []) := by
    refine ⟨h.refuse hrun hidle, fun hadmitting => absurd hadmitting Bool.false_ne_true,
      fun hterminal => ?_⟩
    cases hfirst : l.terminal <;> simp [ReadySetLoop.refuse, hfirst] at hterminal
  rw [ReadySetLoop.admitNode]
  split
  · exact hrefused
  · exact hrefused
  · refine ⟨h.launch hrun hidle (by omega) rfl _ _, fun _ => ?_, fun _ hempty => ?_⟩
    · obtain ⟨hfirst, hnodup⟩ := nodup_cons.1 hadmits.nodup
      refine ⟨fun other hother => ?_, fun other hother hmem => ?_, hnodup, ?_⟩
      · obtain ⟨hknown, hopen, hallowed, hready⟩ :=
          hadmits.launchable other (mem_cons_of_mem _ hother)
        exact ⟨hknown, hopen, hallowed, hready⟩
      · rcases Dict.mem_keys_set.1 hmem with heq | hmem
        · exact hfirst (mem_map.2 ⟨other, hother, heq⟩)
        · exact hadmits.idle other (mem_cons_of_mem _ hother) hmem
      · dsimp only
        rw [Dict.items_set_of_notMem hidle, length_append, length_singleton]
        omega
    · exact keys_set_ne_nil _ _ _ hempty

theorem Sound.admitNodes (h : Sound g l) (refusal : String → Option String) {rest : List PlanRun}
    (hadmits : Admits g l rest) :
    Sound g (l.admitNodes g refusal rest) ∧
      ((l.admitNodes g refusal rest).terminal = none →
        (l.admitNodes g refusal rest).inFlight.keys = [] → rest = []) := by
  induction rest generalizing l with
  | nil => exact ⟨h, fun _ _ => rfl⟩
  | cons run rest ih =>
    obtain ⟨hsound, hnext, hflight⟩ := h.admitNode refusal hadmits
    rw [ReadySetLoop.admitNodes]
    by_cases hadmitting : (l.admitNode g refusal run).admitting = true
    · rw [if_pos hadmitting]
      obtain ⟨hrest, hempty⟩ := ih hsound (hnext hadmitting)
      refine ⟨hrest, fun hterminal hnone => ?_⟩
      have hdone := hempty hterminal hnone
      rw [hdone] at hterminal hnone
      exact absurd hnone (hflight hterminal)
    · rw [if_neg hadmitting]
      exact ⟨hsound, fun hterminal hnone => absurd hnone (hflight hterminal)⟩

/-- What the loop is behind admission. When nothing is in flight then and nothing failed, every node
is completed. -/
theorem Sound.admitReady (h : Sound g l) (refusal : String → Option String) :
    ∃ next, l.admitReady g refusal = .ok next ∧ Sound g next ∧
      (next.inFlight.keys = [] → next.terminal = none → next.deferredError = none →
        ∀ run ∈ g.plan.runs, run.id ∈ next.state.completed.keys) := by
  rw [ReadySetLoop.admitReady]
  by_cases hadmits : l.admits g.continueIndependentAfterBlock = true
  · rw [if_neg (not_not.2 hadmits)]
    obtain ⟨units, hunits⟩ := ReadySetScheduler.select_isOk_iff.2 h.accepted
    have hselected := h.admits_selected hunits
    obtain ⟨hsound, hnone⟩ := h.admitNodes refusal hselected
    rw [hunits]
    refine ⟨_, rfl, hsound, fun hidle hterminal hdeferred => ?_⟩
    have hempty := hnone hterminal hidle
    rw [hempty] at hidle hterminal hdeferred ⊢
    obtain ⟨hwithheld, -⟩ := h.clean hterminal hdeferred
    intro run hrun
    by_contra hnot
    obtain ⟨units', hunits', hsome⟩ := h.select_progress hidle hwithheld (.inl ⟨run, hrun, hnot⟩)
    cases hunits.symm.trans hunits'
    obtain ⟨unit, hunit⟩ := exists_mem_of_ne_nil _ hsome
    obtain ⟨a, ha, rfl⟩ := ReadySetScheduler.selects_of_select hunits
    obtain ⟨other, hother, hid⟩ := selected_run (ha.eligible unit hunit)
    have hmem : other ∈ a.selected.filterMap fun unit => runById g.plan.ordered unit.nodeId :=
      mem_filterMap.2 ⟨unit, hunit, by rw [← hid, runById_self g.plan.ordered_ids.nodup hother]⟩
    rw [hempty] at hmem
    exact not_mem_nil hmem
  · rw [if_pos hadmits]
    refine ⟨l, rfl, h, fun _ hterminal hdeferred => absurd ?_ hadmits⟩
    obtain ⟨-, hadmitting⟩ := h.clean hterminal hdeferred
    simp [admits, hadmitting, hterminal, hdeferred]

/-! ## The end -/

/-- The candidates stay, and nothing else that the invariant is about changes. -/
theorem conclude_eq (g : Controller C) (finishing : Finishing) (l : ReadySetLoop C) :
    ∃ state ending, l.conclude g finishing = { l with state := state, ending := some ending } ∧
      state.completed = l.state.completed := by
  rw [ReadySetLoop.conclude]
  split
  · exact ⟨_, _, rfl, rfl⟩
  · split_ifs <;> exact ⟨_, _, rfl, rfl⟩
  · split
    · exact ⟨_, _, rfl, rfl⟩
    · exact ⟨_, _, rfl, completed_finalizeWithFunctionality _ _ _ _⟩

theorem ending_admitNodes (refusal : String → Option String) (l : ReadySetLoop C)
    (rest : List PlanRun) : (l.admitNodes g refusal rest).ending = l.ending := by
  have hnode : ∀ (l : ReadySetLoop C) run, (l.admitNode g refusal run).ending = l.ending := by
    intro l run
    rw [ReadySetLoop.admitNode]
    split <;> rfl
  induction rest generalizing l with
  | nil => rfl
  | cons run rest ih =>
    rw [ReadySetLoop.admitNodes]
    split_ifs
    · rw [ih, hnode]
    · exact hnode l run

theorem ending_admitReady {refusal : String → Option String} (h : l.admitReady g refusal = .ok next) :
    next.ending = l.ending := by
  rw [ReadySetLoop.admitReady] at h
  split_ifs at h
  · split at h
    · cases h
    · cases h
      exact ending_admitNodes _ _ _
  · cases h
    rfl

/-- A turn admits nodes, and then ends the loop or completes the nodes that are done. -/
theorem Sound.turns (h : Sound g l) {round : Round C} (hstep : readySetStep g round l = some next) :
    l.ending = none ∧ ∃ admitted, l.admitReady g round.refusal = .ok admitted ∧ Sound g admitted ∧
      (admitted.inFlight.keys = [] ∧ (admitted.terminal = none → admitted.deferredError = none →
          ∀ run ∈ g.plan.runs, run.id ∈ admitted.state.completed.keys) ∧
          next = admitted.conclude g round.finishing ∨
        admitted.inFlight.keys ≠ [] ∧
          next = admitted.completeNodes g round.done (admitted.doneIds round.done)) := by
  rw [readySetStep] at hstep
  cases hending : l.ending with
  | some e =>
    rw [hending] at hstep
    cases hstep
  | none =>
    obtain ⟨admitted, hentered, hsound, hcomplete⟩ := h.admitReady round.refusal
    rw [hending, hentered] at hstep
    dsimp only at hstep
    refine ⟨rfl, admitted, hentered, hsound, ?_⟩
    by_cases hidle : admitted.inFlight.keys = []
    · rw [if_pos hidle] at hstep
      exact .inl ⟨hidle, hcomplete hidle, (Option.some.inj hstep).symm⟩
    · rw [if_neg hidle] at hstep
      split at hstep
      · exact nomatch hstep
      · exact .inr ⟨hidle, (Option.some.inj hstep).symm⟩

/-- **One turn.** -/
theorem Sound.step (h : Sound g l) {round : Round C} (hstep : readySetStep g round l = some next) :
    Sound g next ∧ LeavesComplete g next := by
  obtain ⟨hending, admitted, hentered, hsound, ⟨-, hcomplete, rfl⟩ | ⟨-, rfl⟩⟩ := h.turns hstep
  · obtain ⟨state, ending, heq, hcompleted⟩ := conclude_eq g round.finishing admitted
    rw [heq]
    refine ⟨hsound.ended hcompleted, fun _ hterminal hdeferred => ?_⟩
    rw [hcompleted]
    exact hcomplete hterminal hdeferred
  · refine ⟨hsound.completeNodes round.done _, fun hended => ?_⟩
    rw [ending_completeNodes, ending_admitReady hentered, hending] at hended
    cases hended

end ReadySetLoop

/-! ## Runs -/

section Runs

variable [PartialOrder C] [DecidableEq C] [DecidableLE C] {g : Controller C}
  {audit : AttemptState C} {l : ReadySetLoop C}

open ReadySetLoop

theorem ReadySetRun.sound (h : ReadySetRun g audit l) : Sound g l ∧ LeavesComplete g l := by
  obtain ⟨s, hstart, hrun⟩ := h
  exact hrun.invariant (P := fun l => Sound g l ∧ LeavesComplete g l)
    (fun _ _ _ hstep hx => hx.1.step hstep) ⟨sound_start hstart, fun hended => by cases hended⟩

end Runs

/-- **Progress.** A scheduler with any barriers selects a unit in a reached state with nothing
active and nothing withheld while a node is open or a required barrier is not verified. So the
parallel loop goes on while a node is open, and leaves without a failure only when every node is
completed, where it finds every candidate that it looks up. -/
theorem ready_set_progress :
    (∀ (s : ReadySetScheduler) (st : ReadySetScheduler.State), ReadySetScheduler.Reached s st →
      Dag.Acyclic s.dependencies → st.active = [] → st.withheld = [] →
      ((∃ run ∈ s.runs, run.id ∉ st.sealed) ∨
        ∃ b, ReadySetScheduler.RequiredBarrier s st b ∧ b ∉ st.verified) →
      ∃ units, s.select st = .ok units ∧ units ≠ []) ∧
    ∀ (C : Type u) [PartialOrder C] [DecidableEq C] [DecidableLE C] (g : Controller C)
      (audit : AttemptState C) (l : ReadySetLoop C), ReadySetRun g audit l →
        ReadySetLoop.Progresses g l := by
  refine ⟨fun s st h hacyclic hactive hwithheld hopen => ?_, fun C _ _ _ g audit l h => ?_⟩
  · exact h.sound.toAccepted.select_progress hacyclic hactive hwithheld hopen
  · exact h.sound.1.progresses h.sound.2

/-- Two runs, one behind the other. -/
def pairPlan : PlanGraphPlan (Finset ℕ) where
  baseCommit := ∅
  runs := [⟨"a", [], ["src/a"]⟩, ⟨"b", ["a"], ["src/b"]⟩]
  functionalityTests := []
  ordered := [⟨"a", [], ["src/a"]⟩, ⟨"b", ["a"], ["src/b"]⟩]
  valid := by decide +kernel
  ordered_eq := by decide +kernel

/-- Two runs, neither behind the other. -/
def forkPlan : PlanGraphPlan (Finset ℕ) where
  baseCommit := ∅
  runs := [⟨"a", [], ["src/a"]⟩, ⟨"b", [], ["src/b"]⟩]
  functionalityTests := []
  ordered := [⟨"a", [], ["src/a"]⟩, ⟨"b", [], ["src/b"]⟩]
  valid := by decide +kernel
  ordered_eq := by decide +kernel

def pairController : Controller (Finset ℕ) where
  plan := pairPlan
  graphRunId := "graph"
  runRoot := "runs"
  maxParallelism := 2
  positive := Nat.two_pos
  continueIndependentAfterBlock := false
  escalationJudge := none
  transferTargets := fun _ => ∅
  git := changeGit

theorem ready_set_progress_pair :
    ReadySetLoop.Progresses pairController
      { state := { audit := initialState pairPlan "graph" ∅ none, completed := ∅
                   obligations := ∅ } } := by
  refine (ready_set_progress.2 (Finset ℕ) pairController (initialState pairPlan "graph" ∅ none) _
    ⟨_, ⟨fun id => Iff.rfl, rfl, [], rfl⟩, Inputs.Runs.refl _⟩)

end HarnessLabs.PlanGraph
