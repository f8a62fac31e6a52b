import HarnessLabs.Controller.Replay
import HarnessLabs.Controller.SessionRuns

/-!
# Batches

The batch operations check every element against the state before the batch and apply all of them
under one revision. Each element is checked alone, so two results for one running task both pass.

* `Atomic` — the operation is refused and changes nothing, or all of its events apply.
* `Kernel.SettlesOnce` — no task has two terminal results.
* `settled_forward` — a task that is settled within a batch stays settled to its end.
* `batches_atomic` — **every operation is atomic, and a run in which no batch names a task twice
  settles every task once.**
-/

namespace HarnessLabs.Controller

open EventLog List

/-! ## Refused or applied -/

/-- The operation is refused: nothing changes, but that a later command may cite a rejected
dispatch. -/
inductive Refused (k : Kernel) (o : Outcome) : Prop
  | raised (message : String) : o.kernel = k → o.answer = .error message → Refused k o
  | answered (receipt : CommandReceipt) :
      o.kernel = k → o.answer = .ok (some receipt) → receipt.status ≠ .accepted → Refused k o
  | dispatch (receipt : CommandReceipt) :
      o.kernel = ⟨{ k.state with rejectedTaskDispatchRefs :=
        k.state.rejectedTaskDispatchRefs ++ ["command:" ++ receipt.commandId] }, k.events⟩ →
      o.answer = .ok (some receipt) → receipt.status = .rejected → Refused k o

/-- All events of the operation apply, one after the other, under one new revision. -/
structure Applied (setting : Setting) (k : Kernel) (op : Operation) (o : Outcome) : Prop where
  answer : o.answer = .ok none ∨ ∃ receipt, o.answer = .ok (some receipt) ∧
    receipt.status = .accepted
  revision : o.kernel.state.revision = k.state.revision + 1
  events : ∃ es t, Appends setting k op es ∧ o.kernel.events = k.events ++ es ∧
    replay State.apply k.state es = some t ∧ o.kernel.state = t.marked o.kernel.state.marks

/-- The operation is refused, or applied as a whole. -/
def Atomic (setting : Setting) (k : Kernel) (op : Operation) : Prop :=
  Refused k (k.step setting op) ∨ Applied setting k op (k.step setting op)

section Atomic

variable {initial : State} {setting : Setting} {k : Kernel} {op : Operation}

theorem refused_reject (k : Kernel) (command : CommandEnvelope) (code message : String) :
    Refused k (k.reject command code message) := by
  rw [Kernel.reject]
  split_ifs
  · exact .dispatch _ rfl rfl rfl
  · exact .answered _ rfl rfl ReceiptStatus.noConfusion

theorem refused_record {contract : RunContract} {actor : CommandActor}
    {bodies : List (String × EventBody)} (h : (k.record contract actor bodies).writes = []) :
    Refused k (k.record contract actor bodies) := by
  unfold Kernel.record at h ⊢
  dsimp only at h ⊢
  split at h
  · exact .raised _ rfl rfl
  · simp [persist] at h

/-- An operation that writes nothing is refused. -/
theorem refused_of_unwritten (h : (k.step setting op).writes = []) :
    Refused k (k.step setting op) := by
  cases op with
  | handle catalog command =>
    rw [Kernel.step, Kernel.handle] at h ⊢
    split at h
    · exact .answered _ rfl rfl ReceiptStatus.noConfusion
    split at h
    · exact refused_reject k command _ _
    split at h
    · exact refused_reject k command _ _
    unfold Kernel.commit at h ⊢
    dsimp only at h ⊢
    split at h
    · exact .raised _ rfl rfl
    · simp [persist] at h
  | recordTaskResults catalog results =>
    rw [Kernel.step, Kernel.recordTaskResults] at h ⊢
    split at h
    · exact .raised _ rfl rfl
    · exact refused_record h
  | markTasksRunning ids =>
    rw [Kernel.step, Kernel.markTasksRunning] at h ⊢
    split_ifs at h ⊢
    · exact .raised _ rfl rfl
    split at h
    · exact .raised _ rfl rfl
    · exact refused_record h
  | recordGateVerification catalog ids ref =>
    rw [Kernel.step, Kernel.recordGateVerification] at h ⊢
    split_ifs at h ⊢
    · exact .raised _ rfl rfl
    split at h
    · exact .raised _ rfl rfl
    split at h
    · exact .raised _ rfl rfl
    · exact refused_record h
  | recordGateVerificationFailure catalog ids ref =>
    rw [Kernel.step, Kernel.recordGateVerificationFailure] at h ⊢
    split_ifs at h ⊢
    · exact .raised _ rfl rfl
    split at h
    · exact .raised _ rfl rfl
    split at h
    · exact .raised _ rfl rfl
    · exact refused_record h

/-- Every operation on a sound kernel is refused, or applied as a whole. -/
theorem atomic_of_sound (hs : k.Sound initial) (setting : Setting) (op : Operation) :
    Atomic setting k op := by
  obtain ⟨answer, hstep⟩ | ⟨catalog, command, code, message, rfl, hstep⟩ |
    ⟨catalog, command, effects, rfl, haccepts, heval, hstep⟩ |
    ⟨actor, bodies, hrecorded, hstep⟩ := step_cases k setting op
  · exact .inl (refused_of_unwritten (congrArg Outcome.writes hstep))
  · exact .inl (hstep ▸ refused_reject k command code message)
  · obtain ⟨t, ht, -⟩ := commit_applies setting.contract command hs
      (yields_evaluate effects heval).admitted
    rw [Atomic, hstep, commit_eq ht]
    exact .inr ⟨.inr ⟨_, rfl, rfl⟩, rfl, _, t, .committed haccepts heval, rfl, ht, rfl⟩
  · obtain ⟨t, ht, -⟩ := record_applies setting.contract actor hs hrecorded.trusted
    rw [Atomic, hstep, record_eq ht]
    exact .inr ⟨.inl rfl, rfl, _, t, .recorded hrecorded, rfl, ht, rfl⟩

end Atomic

/-! ## Terminal results -/

/-- The task whose terminal result the event records. -/
def EventBody.settles? : EventBody → Option String
  | taskOrphaned id .. => some id
  | taskResultRecorded id .. => some id
  | _ => none

/-- The tasks with a terminal result, in the order of the results. -/
def settledBy (es : List KernelEvent) : List String := es.filterMap (·.body.settles?)

/-- No task has two terminal results. -/
def Kernel.SettlesOnce (k : Kernel) : Prop := (settledBy k.events).Nodup

/-- A batch of results names every task once. -/
def Operation.NamesOnce : Operation → Prop
  | .recordTaskResults _ results => (results.map Prod.fst).Nodup
  | _ => True

def SettledIn (s : State) (id : String) : Prop :=
  ∃ task status, s.tasks.get? id = some task ∧ task.status = .settled status

section Settle

variable {setting : Setting} {contract : RunContract} {k : Kernel} {op : Operation} {s t : State}
  {id : String} {b : EventBody} {es : List KernelEvent}

theorem progress_of_settles (h : b.settles? = some id) :
    b.progress? = some id ∧ ∃ status, b.progressStatus? = some (.settled status) := by
  cases b with
  | taskOrphaned j => exact ⟨h, _, rfl⟩
  | taskResultRecorded j result => exact ⟨h, _, rfl⟩
  | _ => cases h

theorem running_of_settles (hb : Lawful contract s b) (h : b.settles? = some id) :
    ∃ task, s.tasks.get? id = some task ∧ task.status = .running := by
  cases b with
  | taskOrphaned j =>
    cases h
    exact hb
  | taskResultRecorded j result =>
    cases h
    exact hb.1
  | _ => cases h

/-- An event that was lawful before the batch leaves a task settled that was not ready then. -/
theorem settled_onward (hb : Lawful contract s b) {old : Task} (hold : s.tasks.get? id = some old)
    (hready : old.status ≠ .ready) {m : State} (h : m.applyBody b = some t)
    (hm : SettledIn m id ∨ b.settles? = some id) : SettledIn t id := by
  obtain ⟨hnone, -, htasks⟩ | ⟨task, rfl, htasks⟩ | ⟨j, task, new, hsome, htask, hget, -, hstatus⟩ :=
    task_applyBody h
  · rcases hm with hm | hsettles
    · rwa [SettledIn, htasks]
    · rw [(progress_of_settles hsettles).1] at hnone
      cases hnone
  · have hne : id ≠ task.id := fun heq => hb.1 (heq ▸ Dict.mem_keys_iff.2 ⟨old, hold⟩)
    rcases hm with ⟨old', status, hget, hsettled⟩ | hsettles
    · exact ⟨old', status, by rw [htasks, Dict.get?_set_ne _ _ hne, hget], hsettled⟩
    · cases hsettles
  · by_cases hj : id = j
    · subst hj
      obtain ⟨status, hsettled⟩ : ∃ status, new.status = .settled status := by
        cases b with
        | taskStarted i =>
          cases hsome
          obtain ⟨task', htask', hready'⟩ := hb
          rw [hold] at htask'
          exact absurd (Option.some.inj htask' ▸ hready') hready
        | taskOrphaned => exact ⟨_, (Option.some.inj hstatus).symm⟩
        | taskResultRecorded => exact ⟨_, (Option.some.inj hstatus).symm⟩
        | _ => cases hsome
      exact ⟨new, status, by rw [hget, if_pos rfl], hsettled⟩
    · rcases hm with ⟨old', status, hm, hsettled⟩ | hsettles
      · exact ⟨old', status, by rw [hget, if_neg hj, hm], hsettled⟩
      · rw [(progress_of_settles hsettles).1] at hsome
        exact absurd (Option.some.inj hsome) hj

/-- A task that is settled before or within a batch is settled behind it. -/
theorem settled_forward (hes : ∀ e ∈ es, Lawful contract s e.body) {old : Task}
    (hold : s.tasks.get? id = some old) (hready : old.status ≠ .ready) {m : State}
    (h : replay State.apply m es = some t) (hm : SettledIn m id ∨ id ∈ settledBy es) :
    SettledIn t id := by
  induction es generalizing m with
  | nil =>
    cases h
    exact hm.resolve_right not_mem_nil
  | cons e es ih =>
    obtain ⟨he, hes⟩ := forall_mem_cons.1 hes
    obtain ⟨m', hm', hrest⟩ := Option.bind_eq_some_iff.1 h
    obtain ⟨u, hu, rfl⟩ := Option.map_eq_some_iff.1 hm'
    have hnext : SettledIn m id ∨ e.body.settles? = some id → SettledIn u id :=
      settled_onward he hold hready hu
    refine ih hes hrest ?_
    rcases hm with hm | hm
    · exact .inl (hnext (.inl hm))
    · obtain ⟨e', he', hsettles⟩ := mem_filterMap.1 hm
      rcases mem_cons.1 he' with rfl | he'
      · exact .inl (hnext (.inr hsettles))
      · exact .inr (mem_filterMap.2 ⟨e', he', hsettles⟩)

theorem settledBy_eq (es : List KernelEvent) :
    settledBy es = (es.map (·.body)).filterMap EventBody.settles? := by
  rw [filterMap_map]
  rfl

/-- The results of a batch settle its tasks, in its order. -/
theorem settles_results {validate : SemanticValidator} {catalog : EvidenceCatalog}
    (results : List (String × TaskResult)) :
    Yields (fun bodies => bodies.filterMap EventBody.settles? = results.map Prod.fst ∧
        bodies.length = results.length)
      (results.mapM fun r => s.prepareResult validate catalog r.1 r.2) := by
  have hsettles (r : String × TaskResult) : Yields (fun b => b.settles? = some r.1)
      (s.prepareResult validate catalog r.1 r.2) := by
    rw [State.prepareResult]
    split
    · exact yields_error
    simp only [yields_ite, yields_error, yields_ok, implies_true, true_and]
    refine fun _ _ => ⟨fun _ => rfl, fun _ => ?_⟩
    split
    · exact yields_ok.2 rfl
    · split
      · exact yields_error
      · exact yields_ok.2 rfl
  induction results with
  | nil => exact yields_ok.2 ⟨rfl, rfl⟩
  | cons r results ih =>
    rw [mapM_cons]
    simp only [yields_bind, yields_pure]
    intro b hb bodies hbodies
    obtain ⟨hids, hlength⟩ := ih bodies hbodies
    exact ⟨by rw [filterMap_cons_some (hsettles r b hb), hids, map_cons],
      congrArg Nat.succ hlength⟩

/-- The events of a batch of results settle its tasks. -/
theorem settledBy_results {catalog : EvidenceCatalog} {results : List (String × TaskResult)}
    (h : Appends setting k (.recordTaskResults catalog results) es) :
    settledBy es = results.map Prod.fst := by
  cases h with
  | recorded hrecorded =>
    cases hrecorded with
    | results hbodies =>
      obtain ⟨hids, hlength⟩ := settles_results results _ hbodies
      rw [settledBy_eq, recordEvents, bodies_newEvents, map_snd_zip, hids]
      rw [length_map, hlength]

/-- A command settles the tasks that the end of a session leaves running, or none. -/
theorem settles_evaluate {catalog : EvidenceCatalog} {command : CommandEnvelope} :
    Yields (fun effects : Effects => (effects.1.filterMap EventBody.settles?).Nodup)
      (s.evaluate contract catalog command) := by
  intro effects heval
  by_cases htype : command.type = .coordinatorSessionEnd
  · have hend : coordinatorSessionEnd s catalog command.payload = .ok effects := by
      rwa [State.evaluate, htype] at heval
    obtain ⟨sessionId, outcome, record, -, hbodies⟩ := yields_end effects hend
    have horphans (id : String) : (orphanEvent s catalog sessionId outcome id).settles? = some id := by
      rw [orphanEvent]
      split <;> rfl
    have hids : s.runningTaskIds.filterMap
        (EventBody.settles? ∘ orphanEvent s catalog sessionId outcome) = s.runningTaskIds := by
      rw [show EventBody.settles? ∘ orphanEvent s catalog sessionId outcome = some from
        funext horphans, filterMap_some]
    rw [hbodies, filterMap_append, filterMap_map, hids,
      filterMap_cons_none (by rfl), filterMap_nil, append_nil]
    exact ((perm_insertionSort _ _).nodup_iff).2 (s.tasks.nodup.sublist (filter_sublist.map _))
  · have hnone : ∀ b ∈ effects.1, b.settles? = none := by
      intro b hb
      have hcommand := ((yields_evaluate effects heval).2 b hb).1
      cases b with
      | taskOrphaned => exact absurd (Option.some.inj hcommand).symm htype
      | taskResultRecorded => cases hcommand
      | _ => rfl
    rw [filterMap_eq_nil_iff.2 hnone]
    exact nodup_nil

theorem nodup_settledBy (h : Appends setting k op es) (hop : op.NamesOnce) :
    (settledBy es).Nodup := by
  cases h with
  | committed haccepts heval =>
    rw [settledBy_eq, commitEvents, bodies_newEvents, map_map]
    simpa using settles_evaluate _ heval
  | recorded hrecorded =>
    cases hrecorded with
    | results hbodies =>
      rw [settledBy_results (.recorded (.results hbodies))]
      exact hop
    | started | verified =>
      rw [settledBy_eq, recordEvents, bodies_newEvents, map_map, filterMap_map]
      simp [Function.comp_def, EventBody.settles?]
    | failed => exact nodup_nil

end Settle

/-! ## Runs -/

/-- The kernels of a run with crashes, with the operations of the run. -/
inductive ReachedBy (setting : Setting) (initial : State) : List Operation → Kernel → Prop
  | start : ReachedBy setting initial [] ⟨initial, []⟩
  | move {ops : List Operation} {k k' : Kernel} (op : Operation) :
      ReachedBy setting initial ops k → Moves setting k op k' →
      ReachedBy setting initial (ops ++ [op]) k'

section Runs

variable {initial : State} {setting : Setting} {ops : List Operation} {k k' : Kernel}
  {op : Operation}

theorem ReachedBy.reached (h : ReachedBy setting initial ops k) : Reached setting initial k := by
  induction h with
  | start => exact .start
  | move op _ hmove ih => exact .move op ih hmove

theorem reachedBy_run (hzero : initial.kernelEventCount = 0) (ops : List Operation) :
    ReachedBy setting initial ops (Kernel.run setting ⟨initial, []⟩ ops) := by
  induction ops using List.reverseRecOn with
  | nil => exact .start
  | append_singleton ops op ih =>
    rw [Kernel.run, foldl_append]
    exact .move op ih (moves_step (ih.reached.sound hzero) setting op)

/-- Every terminal result so far has a settled task. -/
def Kernel.Recorded (k : Kernel) : Prop := ∀ id ∈ settledBy k.events, SettledIn k.state id

/-- **What the first events of an operation settle**: each task once, and none that was settled. -/
theorem settles_moves {es : List KernelEvent} {t : State} (hk : k.Recorded)
    (hes : ∀ e ∈ es, Lawful setting.contract k.state e.body)
    (ht : replay State.apply k.state es = some t) :
    (∀ id ∈ settledBy (k.events ++ es), SettledIn t id) ∧
      (k.SettlesOnce → ((settledBy (k.events ++ es)).Nodup ↔ (settledBy es).Nodup)) := by
  have hrunning : ∀ id ∈ settledBy es, ∃ task, k.state.tasks.get? id = some task ∧
      task.status = .running := by
    intro id hid
    obtain ⟨e, he, hsettles⟩ := mem_filterMap.1 hid
    exact running_of_settles (hes e he) hsettles
  rw [settledBy, filterMap_append, ← settledBy, ← settledBy]
  constructor
  · intro id hid
    rcases mem_append.1 hid with hid | hid
    · obtain ⟨task, status, hget, hsettled⟩ := hk id hid
      exact settled_forward hes hget (hsettled ▸ TaskStatus.noConfusion) ht
        (.inl ⟨task, status, hget, hsettled⟩)
    · obtain ⟨task, hget, hstatus⟩ := hrunning id hid
      exact settled_forward hes hget (hstatus ▸ TaskStatus.noConfusion) ht (.inr hid)
  · intro honce
    rw [nodup_append']
    refine ⟨fun h => h.2.1, fun h => ⟨honce, h, fun id hold hnew => ?_⟩⟩
    obtain ⟨task, status, hget, hsettled⟩ := hk id hold
    obtain ⟨task', hget', hrunning'⟩ := hrunning id hnew
    cases hget.symm.trans hget'
    exact TaskStatus.noConfusion (hsettled.symm.trans hrunning')

theorem settled_moves (hs : k.Sound initial) (hk : k.Recorded) (h : Moves setting k op k') :
    k'.Recorded ∧ (k.SettlesOnce → op.NamesOnce → k'.SettlesOnce) := by
  obtain ⟨-, es, hes, hevents, t, ht, hstate⟩ := moves_cases hs h
  obtain ⟨hlawful, hnodup⟩ : (∀ e ∈ es, Lawful setting.contract k.state e.body) ∧
      (op.NamesOnce → (settledBy es).Nodup) := by
    obtain rfl | ⟨all, hall, i, rfl⟩ := hes
    · exact ⟨forall_mem_nil _, fun _ => nodup_nil⟩
    · exact ⟨fun e he => hall.lawful e (mem_of_mem_take he), fun hop =>
        (nodup_settledBy hall hop).sublist ((take_sublist i all).filterMap _)⟩
  obtain ⟨hsettled, honce⟩ := settles_moves hk hlawful ht
  refine ⟨?_, fun hk hop => ?_⟩
  · rw [Kernel.Recorded, hevents, hstate]
    exact hsettled
  · rw [Kernel.SettlesOnce, hevents]
    exact (honce hk).2 (hnodup hop)

theorem ReachedBy.settled (hzero : initial.kernelEventCount = 0)
    (h : ReachedBy setting initial ops k) :
    k.Recorded ∧ ((∀ op ∈ ops, op.NamesOnce) → k.SettlesOnce) := by
  induction h with
  | start => exact ⟨forall_mem_nil _, fun _ => nodup_nil⟩
  | move op hrun hmove ih =>
    obtain ⟨hk, hnext⟩ := settled_moves (hrun.reached.sound hzero) ih.1 hmove
    refine ⟨hk, fun hops => hnext (ih.2 fun op' hop => hops op' (mem_append_left _ hop)) ?_⟩
    exact hops op (mem_append_right _ (mem_singleton_self op))

end Runs

/-- **Operations are atomic, and results are recorded once.** From every kernel of a run an
operation is refused and changes nothing, or it applies as a whole. When no batch of results named
a task twice, no task has two terminal results; and a further batch whose elements all pass keeps
it so exactly when it names none twice. -/
theorem batches_atomic (setting : Setting) (criteria : Dict String Criterion)
    (artifacts : Dict String Artifact) {ops : List Operation} {k : Kernel}
    (h : ReachedBy setting (initialState setting.contract criteria artifacts) ops k) :
    (∀ op, Atomic setting k op) ∧ ((∀ op ∈ ops, op.NamesOnce) → k.SettlesOnce) ∧
      ∀ catalog results bodies, k.SettlesOnce →
        (results.mapM fun r => k.state.prepareResult setting.validate catalog r.1 r.2) =
          .ok bodies →
        ((k.step setting (.recordTaskResults catalog results)).kernel.SettlesOnce ↔
          (results.map Prod.fst).Nodup) := by
  have hs := h.reached.sound rfl
  obtain ⟨hk, honce⟩ := h.settled rfl
  refine ⟨atomic_of_sound hs setting, honce, fun catalog results bodies hk' hbodies => ?_⟩
  have hrecorded : Recorded setting k (.recordTaskResults catalog results) _ := .results hbodies
  obtain ⟨t, ht, -⟩ := record_applies setting.contract kernelActor hs hrecorded.trusted
  have happends : Appends setting k _ (recordEvents k setting.contract kernelActor _) :=
    .recorded hrecorded
  rw [Kernel.step, Kernel.recordTaskResults, hbodies]
  dsimp only
  rw [record_eq ht, Kernel.SettlesOnce, (settles_moves hk happends.lawful ht).2 hk',
    settledBy_results happends]

def startBuild : List Operation := [twoTasks, .markTasksRunning ["build"]]

theorem batches_atomic_startBuild :
    (∀ op, Atomic exampleSetting (Kernel.run exampleSetting ⟨exampleState, []⟩ startBuild) op) ∧
      ((∀ op ∈ startBuild, op.NamesOnce) →
        (Kernel.run exampleSetting ⟨exampleState, []⟩ startBuild).SettlesOnce) ∧
      ∀ catalog results bodies,
        (Kernel.run exampleSetting ⟨exampleState, []⟩ startBuild).SettlesOnce →
        (results.mapM fun r => (Kernel.run exampleSetting ⟨exampleState, []⟩
          startBuild).state.prepareResult exampleSetting.validate catalog r.1 r.2) = .ok bodies →
        (((Kernel.run exampleSetting ⟨exampleState, []⟩ startBuild).step exampleSetting
            (.recordTaskResults catalog results)).kernel.SettlesOnce ↔
          (results.map Prod.fst).Nodup) :=
  batches_atomic exampleSetting ∅ ∅ (reachedBy_run rfl startBuild)

/-- One batch with two results for the task that is running. -/
def buildTwice : Operation :=
  .recordTaskResults ⟨∅, ∅⟩ [("build", ⟨"build/attempt-1", .failed, .null, []⟩),
    ("build", ⟨"build/attempt-1", .blocked, .null, []⟩)]

/-- Both results of the batch pass the check that the task is running, and the task is recorded
with a terminal result twice. -/
theorem results_recorded_twice : ∃ k,
    ReachedBy exampleSetting (initialState exampleSetting.contract ∅ ∅)
      (startBuild ++ [buildTwice]) k ∧
    settledBy k.events = ["build", "build"] ∧ ¬ k.SettlesOnce := by
  have hsettled : settledBy (Kernel.run exampleSetting ⟨exampleState, []⟩
      (startBuild ++ [buildTwice])).events = ["build", "build"] := by decide +kernel
  refine ⟨_, reachedBy_run rfl _, hsettled, fun honce => ?_⟩
  have htwice : ["build", "build"].Nodup := hsettled ▸ honce
  exact absurd htwice (by decide)

end HarnessLabs.Controller
