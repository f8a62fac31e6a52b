import HarnessLabs.Controller.Lawful

/-!
# What an event changes

For each part of the state, the events that change it and how; every other part stays as it is.

* `status_applyBody` — the run status behind an event.
* `task_applyBody`, `criterion_applyBody` — where an entry of the new state comes from.
* `applyBody_quiet` — **a quiet event leaves tasks, findings and artifacts alone, and takes nothing
  from the criteria.**
-/

namespace HarnessLabs.Controller

/-! ## The run status -/

/-- The run status behind an event. -/
def EventBody.nextStatus (s : RunStatus) : EventBody → RunStatus
  | operatorInputRequested .. => .blocked
  | runCompleted => .succeeded
  | runGateVerificationFailed .. => if s = .succeeded then .blocked else s
  | runBlocked _ => .blocked
  | runPaused _ => .paused
  | runResumed _ => .running
  | runCancelled _ => .cancelled
  | _ => s

/-- A task as it was registered, without what has happened to it since. -/
def Task.authority (t : Task) : Task :=
  { t with status := .ready, result := none, evidence := [], summary := none, orphaned := false }

/-- What the events leave alone is told from the authority. -/
theorem Task.of_authority {α : Type} {a b : Task} (h : a.authority = b.authority) (f : Task → α)
    (hf : ∀ t : Task, f t.authority = f t) : f a = f b := by
  rw [← hf a, h, hf b]

section Update

variable {s t : State}

theorem updateTask_eq_some {id : String} {f : Task → Task} (h : s.updateTask id f = some t) :
    ∃ task, s.tasks.get? id = some task ∧ t = { s with tasks := s.tasks.set id (f task) } := by
  obtain ⟨task, htask, rfl⟩ := Option.map_eq_some_iff.1 h
  exact ⟨task, htask, rfl⟩

theorem updateCriterion_eq_some {id : String} {f : Criterion → Criterion}
    (h : s.updateCriterion id f = some t) :
    ∃ c, s.criteria.get? id = some c ∧ t = { s with criteria := s.criteria.set id (f c) } := by
  obtain ⟨c, hc, rfl⟩ := Option.map_eq_some_iff.1 h
  exact ⟨c, hc, rfl⟩

theorem updateFinding_eq_some {id : String} {f : Finding → Finding}
    (h : s.updateFinding id f = some t) :
    ∃ x, s.findings.get? id = some x ∧ t = { s with findings := s.findings.set id (f x) } := by
  obtain ⟨x, hx, rfl⟩ := Option.map_eq_some_iff.1 h
  exact ⟨x, hx, rfl⟩

theorem coverCriteria_frame {taskId : String} {coverage : List Coverage}
    (h : s.coverCriteria taskId coverage = some t) : t.status = s.status ∧ t.tasks = s.tasks := by
  induction coverage generalizing s with
  | nil =>
    cases h
    exact ⟨rfl, rfl⟩
  | cons c rest ih =>
    obtain ⟨m, hm, ht⟩ := Option.bind_eq_some_iff.1 h
    obtain ⟨_, _, rfl⟩ := updateCriterion_eq_some hm
    have hrest := ih ht
    exact hrest

/-- A recorded result: its task settles, then its promotions come in. -/
theorem recordResult_eq_some {id : String} {result : TaskResult} {promotions : Option Promotions}
    (h : s.recordResult id result promotions = some t) :
    ∃ task, s.tasks.get? id = some task ∧ t.status = s.status ∧
      (∃ new : Task, new.authority = task.authority ∧ new.status = .settled result.status ∧
        ∀ j, t.tasks.get? j = if j = id then some new else s.tasks.get? j) ∧
      (promotions = none ∧ t.criteria = s.criteria ∨
        ∃ (p : Promotions) (m : State), promotions = some p ∧
          m.coverCriteria id p.criterionCoverage = some t ∧ m.criteria = s.criteria) := by
  obtain ⟨m, hm, ht⟩ := Option.bind_eq_some_iff.1 h
  obtain ⟨task, htask, rfl⟩ := updateTask_eq_some hm
  refine ⟨task, htask, ?_⟩
  cases promotions with
  | none =>
    cases ht
    refine ⟨rfl, ⟨{ task with
      status := .settled result.status, result := some result.payload
      evidence := result.evidence }, rfl, rfl, fun j => ?_⟩, .inl ⟨rfl, rfl⟩⟩
    exact Dict.get?_set s.tasks id j _
  | some p =>
    obtain ⟨n, hn, ht⟩ := Option.bind_eq_some_iff.1 ht
    obtain ⟨settled, hsettled, rfl⟩ := updateTask_eq_some hn
    rw [Dict.get?_set_self] at hsettled
    cases hsettled
    obtain ⟨hstatus, htasks⟩ := coverCriteria_frame ht
    refine ⟨hstatus, ⟨{ task with
      status := .settled result.status, result := some result.payload
      evidence := result.evidence, summary := some p.summary }, rfl, rfl, fun j => ?_⟩,
      .inr ⟨p, _, rfl, ht, rfl⟩⟩
    rw [htasks]
    show ((s.tasks.set id _).set id _).get? j = _
    rw [Dict.get?_set]
    split_ifs with hj
    · rfl
    · exact Dict.get?_set_ne s.tasks _ hj

end Update

section Frame

variable {s t : State} {b : EventBody}

theorem status_applyBody (h : s.applyBody b = some t) : t.status = b.nextStatus s.status := by
  cases b with
  | criterionGateVerified id ref =>
    obtain ⟨-, -, rfl⟩ := updateCriterion_eq_some h
    rfl
  | taskStarted id =>
    obtain ⟨-, -, rfl⟩ := updateTask_eq_some h
    rfl
  | taskOrphaned id attempt session outcome evidence =>
    obtain ⟨-, -, rfl⟩ := updateTask_eq_some h
    rfl
  | findingDispositionRecorded d =>
    obtain ⟨-, -, rfl⟩ := updateFinding_eq_some h
    rfl
  | taskResultRecorded id result promotions =>
    obtain ⟨-, -, hstatus, -⟩ := recordResult_eq_some h
    exact hstatus
  | runGateVerificationFailed ids ref =>
    cases h
    show (if s.status = .succeeded then _ else s).status = if s.status = .succeeded then _ else _
    split_ifs with hs
    · rfl
    · rfl
  | _ =>
    cases h
    rfl

/-! ## Tasks -/

/-- The task whose progress the event records. -/
def EventBody.progress? : EventBody → Option String
  | taskStarted id => some id
  | taskOrphaned id .. => some id
  | taskResultRecorded id .. => some id
  | _ => none

/-- The status that the event gives to its task. -/
def EventBody.progressStatus? : EventBody → Option TaskStatus
  | taskStarted _ => some .running
  | taskOrphaned .. => some (.settled .failed)
  | taskResultRecorded _ result _ => some (.settled result.status)
  | _ => none

/-- The tasks behind an event: as before, one more, or one that progressed. -/
theorem task_applyBody (h : s.applyBody b = some t) :
    (b.progress? = none ∧ (∀ task, b ≠ .taskRegistered task) ∧ t.tasks = s.tasks) ∨
    (∃ task, b = .taskRegistered task ∧ t.tasks = s.tasks.set task.id task) ∨
    ∃ id task new, b.progress? = some id ∧ s.tasks.get? id = some task ∧
      (∀ j, t.tasks.get? j = if j = id then some new else s.tasks.get? j) ∧
      new.authority = task.authority ∧ b.progressStatus? = some new.status := by
  cases b with
  | criterionGateVerified id ref =>
    obtain ⟨-, -, rfl⟩ := updateCriterion_eq_some h
    exact .inl ⟨rfl, fun _ => EventBody.noConfusion, rfl⟩
  | findingDispositionRecorded d =>
    obtain ⟨-, -, rfl⟩ := updateFinding_eq_some h
    exact .inl ⟨rfl, fun _ => EventBody.noConfusion, rfl⟩
  | taskRegistered task =>
    cases h
    exact .inr (.inl ⟨task, rfl, rfl⟩)
  | taskStarted id =>
    obtain ⟨task, htask, rfl⟩ := updateTask_eq_some h
    exact .inr (.inr ⟨id, task, _, rfl, htask, fun j => Dict.get?_set s.tasks id j _, rfl, rfl⟩)
  | taskOrphaned id attempt session outcome evidence =>
    obtain ⟨task, htask, rfl⟩ := updateTask_eq_some h
    exact .inr (.inr ⟨id, task, _, rfl, htask, fun j => Dict.get?_set s.tasks id j _, rfl, rfl⟩)
  | taskResultRecorded id result promotions =>
    obtain ⟨task, htask, -, ⟨new, hauthority, hstatus, hget⟩, -⟩ := recordResult_eq_some h
    exact .inr (.inr ⟨id, task, new, rfl, htask, hget, hauthority, congrArg some hstatus.symm⟩)
  | runGateVerificationFailed ids ref =>
    cases h
    refine .inl ⟨rfl, fun _ => EventBody.noConfusion, ?_⟩
    split_ifs <;> rfl
  | _ =>
    cases h
    exact .inl ⟨rfl, fun _ => EventBody.noConfusion, rfl⟩

/-! ## Criteria -/

/-- A criterion gains its satisfaction and keeps its adjudication. -/
def Criterion.Gains (c c' : Criterion) : Prop :=
  c'.adjudication = c.adjudication ∧ (c.satisfied = true → c'.satisfied = true)

theorem Criterion.Gains.refl (c : Criterion) : c.Gains c := ⟨rfl, fun h => h⟩

theorem gains_gateVerified (c : Criterion) (ref : String) : c.Gains (c.gateVerified ref) :=
  ⟨rfl, fun _ => rfl⟩

theorem gains_covered (c : Criterion) (taskId : String) (coverage : Coverage) :
    c.Gains (c.covered taskId coverage) := by
  rw [Criterion.covered]
  split
  · refine ⟨rfl, fun hc => ?_⟩
    show (c.satisfied || _) = true
    rw [hc, Bool.true_or]
  · exact .refl c

theorem covered_of_notSatisfied {c : Criterion} {taskId : String} {coverage : Coverage}
    (h : coverage.status ≠ "satisfied") : c.covered taskId coverage = c := if_neg h

/-- Covered criteria gain; one that no claim says is satisfied stays as it is. -/
theorem coverCriteria_gains {taskId : String} {coverage : List Coverage}
    (h : s.coverCriteria taskId coverage = some t) (id : String) (c' : Criterion)
    (hc' : t.criteria.get? id = some c') :
    ∃ c, s.criteria.get? id = some c ∧ c.Gains c' ∧
      (c' = c ∨ ∃ x ∈ coverage, x.criterionId = id ∧ x.status = "satisfied") := by
  induction coverage generalizing s with
  | nil =>
    cases h
    exact ⟨c', hc', .refl c', .inl rfl⟩
  | cons x rest ih =>
    obtain ⟨m, hm, ht⟩ := Option.bind_eq_some_iff.1 h
    obtain ⟨old, hold, rfl⟩ := updateCriterion_eq_some hm
    obtain ⟨c, hc, hgains, hcase⟩ := ih ht
    have hget : (s.criteria.set x.criterionId (old.covered taskId x)).get? id = some c := hc
    rw [Dict.get?_set] at hget
    have later : (∃ y ∈ rest, y.criterionId = id ∧ y.status = "satisfied") →
        ∃ y ∈ x :: rest, y.criterionId = id ∧ y.status = "satisfied" :=
      fun ⟨y, hy, h⟩ => ⟨y, List.mem_cons_of_mem x hy, h⟩
    split_ifs at hget with hid
    · cases hget
      subst hid
      have hfirst := gains_covered old taskId x
      refine ⟨old, hold, ⟨hgains.1.trans hfirst.1, hgains.2 ∘ hfirst.2⟩, ?_⟩
      by_cases hx : x.status = "satisfied"
      · exact .inr ⟨x, List.mem_cons_self, rfl, hx⟩
      · rw [covered_of_notSatisfied hx] at hcase
        exact hcase.imp_right later
    · exact ⟨c, hget, hgains, hcase.imp_right later⟩

/-- What claims or verifies a criterion in an event. -/
def EventBody.Satisfies (id : String) : EventBody → Prop
  | criterionGateVerified id' _ => id' = id
  | taskResultRecorded _ _ (some p) =>
    ∃ coverage ∈ p.criterionCoverage, coverage.criterionId = id ∧ coverage.status = "satisfied"
  | _ => False

/-- A criterion behind an event: registered by it, or one from before that gained, and changed only
where the event claims or verifies it. -/
theorem criterion_applyBody (h : s.applyBody b = some t) (id : String) (c' : Criterion)
    (hc' : t.criteria.get? id = some c') :
    b = .criterionRegistered c' ∨
    ∃ c, s.criteria.get? id = some c ∧ c.Gains c' ∧ (c' = c ∨ b.Satisfies id) := by
  have same (hsame : t.criteria = s.criteria) :
      b = .criterionRegistered c' ∨
      ∃ c, s.criteria.get? id = some c ∧ c.Gains c' ∧ (c' = c ∨ b.Satisfies id) :=
    .inr ⟨c', hsame ▸ hc', .refl c', .inl rfl⟩
  cases b with
  | criterionRegistered c =>
    cases h
    have hget : (s.criteria.set c.id c).get? id = some c' := hc'
    rw [Dict.get?_set] at hget
    split_ifs at hget with hid
    · cases hget
      exact .inl rfl
    · exact .inr ⟨c', hget, .refl c', .inl rfl⟩
  | criterionGateVerified id' ref =>
    obtain ⟨c, hc, rfl⟩ := updateCriterion_eq_some h
    have hget : (s.criteria.set id' (c.gateVerified ref)).get? id = some c' := hc'
    rw [Dict.get?_set] at hget
    split_ifs at hget with hid
    · cases hget
      exact .inr ⟨c, hid ▸ hc, gains_gateVerified c ref, .inr hid.symm⟩
    · exact .inr ⟨c', hget, .refl c', .inl rfl⟩
  | taskStarted id' =>
    obtain ⟨_, _, rfl⟩ := updateTask_eq_some h
    exact same rfl
  | taskOrphaned id' attempt session outcome evidence =>
    obtain ⟨_, _, rfl⟩ := updateTask_eq_some h
    exact same rfl
  | findingDispositionRecorded d =>
    obtain ⟨_, _, rfl⟩ := updateFinding_eq_some h
    exact same rfl
  | taskResultRecorded id' result promotions =>
    obtain ⟨-, -, -, -, ⟨rfl, hsame⟩ | ⟨p, m, rfl, hcover, hm⟩⟩ := recordResult_eq_some h
    · exact same hsame
    · obtain ⟨c, hc, hgains, hcase⟩ := coverCriteria_gains hcover id c' hc'
      exact .inr ⟨c, hm ▸ hc, hgains, hcase⟩
  | runGateVerificationFailed ids ref =>
    cases h
    refine same ?_
    split_ifs <;> rfl
  | _ =>
    cases h
    exact same rfl

/-! ## Quiet events -/

/-- The events that leave tasks, findings and artifacts alone and claim no criterion. -/
def EventBody.quiet : EventBody → Bool
  | criterionGateVerified .. => true
  | runCompleted => true
  | runGateVerificationFailed .. => true
  | coordinatorSessionEnded _ => true
  | administrative .. => true
  | _ => false

theorem applyBody_quiet (hb : b.quiet = true) (h : s.applyBody b = some t) :
    t.tasks = s.tasks ∧ t.findings = s.findings ∧ t.artifacts = s.artifacts := by
  cases b with
  | criterionGateVerified id ref =>
    obtain ⟨-, -, rfl⟩ := updateCriterion_eq_some h
    exact ⟨rfl, rfl, rfl⟩
  | runGateVerificationFailed ids ref =>
    cases h
    split_ifs <;> exact ⟨rfl, rfl, rfl⟩
  | runCompleted | coordinatorSessionEnded record | administrative type payload =>
    cases h
    exact ⟨rfl, rfl, rfl⟩
  | _ => cases hb

end Frame

end HarnessLabs.Controller
