import HarnessLabs.Controller.Forest

/-!
# Dispatching tasks

The scheduler prepares an executor for every task of a batch, marks the batch running, runs it,
dispatches what the results delegate, and records the results. What it launches is recorded last,
so an exception in between leaves the batch as it was started.

The parties are functions on an arbitrary world: the executor factories, the executors and the
minting of dirty-baseline grants. No executor touches the kernel, so one of a batch is run after the
other. The recursion of nested dispatches is bounded as Python bounds it.

* `dispatch` — `CapabilityScheduler.dispatch`.
* `Settles` — the tasks of a batch, and those registered since, have all settled.
* `dispatch_clean` — **a dispatch that returns settles them, and one that raises before the launch
  leaves the kernel as it was.**
-/

namespace HarnessLabs.Controller

universe u

open EventLog List

/-! ## Parties -/

/-- A role profile, whose executor factory is the environment's. -/
structure RoleProfile where
  profileId : String
  role : String
  capabilities : List String
  backendId : String
  detailsSchemas : List String

structure TaskAttempt where
  attemptId : String
  taskRef : String
  contextRef : String
  grantRef : String
  parentAttemptId : Option String
  context : String

/-- What an executor factory answers; an executor is known by its identity. -/
inductive Built where
  | executor (identity : ℕ)
  | invalid
  | raised (message : String)

/-- How an executor ends; `escaped` is an exception that `_execute_one` does not catch. -/
inductive Executed where
  | returned (result : TaskResult)
  | raised (message errorType : String)
  | escaped (message : String)

/-- What a scheduler consults. -/
structure SchedulerEnv (W : Type u) where
  profiles : List RoleProfile
  catalog : W → EvidenceCatalog
  executorFactory : RoleProfile → Task → W → Built × W
  mintDirtyBaselineGrant : RoleProfile → ℕ → TaskAttempt → W → Except String Unit × W
  execute : ℕ → TaskAttempt → W → Executed × W

structure Prepared where
  task : Task
  profile : RoleProfile
  executor : ℕ
  attempt : TaskAttempt

structure ScheduledOutcome where
  taskId : String
  profileId : String
  backendId : String
  result : TaskResult

variable {W : Type u}

/-! ## Preparation -/

def RoleProfile.satisfies (profile : RoleProfile) (task : Task) : Bool :=
  profile.role == task.role &&
    decide (task.requiredCapabilities ⊆ profile.capabilities) &&
    (profile.detailsSchemas.isEmpty || decide (task.detailsSchema ∈ profile.detailsSchemas))

/-- `_select_profile`. -/
def selectProfile (profiles : List RoleProfile) (task : Task) : Except String RoleProfile :=
  match ((profiles.filter (·.satisfies task)).insertionSort fun a b =>
      a.profileId ≤ b.profileId).head? with
  | none => .error ("no profile satisfies role/capabilities for task " ++ task.id)
  | some profile => .ok profile

def taskAttempt (taskId : String) (task : Task) (profile : RoleProfile) : TaskAttempt where
  attemptId := task.attemptId
  taskRef := "task:" ++ taskId
  contextRef := "context:" ++ taskId
  grantRef := "profile:" ++ profile.profileId
  parentAttemptId := task.parentTaskId.map (· ++ "/attempt-1")
  context := task.context

/-- The executor of one task, new among those of the batch. -/
def prepareTask (env : SchedulerEnv W) (k : Kernel) (seen : List ℕ) (taskId : String) (w : W) :
    Except String Prepared × W :=
  match k.state.tasks.get? taskId with
  | none => (.error ("unknown task: " ++ taskId), w)
  | some task =>
    match selectProfile env.profiles task with
    | .error e => (.error e, w)
    | .ok profile =>
      match env.executorFactory profile task w with
      | (.raised message, w) => (.error message, w)
      | (.invalid, w) =>
        (.error ("executor factory returned an invalid executor: " ++ profile.profileId), w)
      | (.executor identity, w) =>
        if identity ∈ seen then
          (.error "executor factory reused an instance within a parallel batch", w)
        else
          let attempt := taskAttempt taskId task profile
          match env.mintDirtyBaselineGrant profile identity attempt w with
          | (.error e, w) => (.error e, w)
          | (.ok (), w) => (.ok ⟨task, profile, identity, attempt⟩, w)

def prepareAll (env : SchedulerEnv W) (k : Kernel) :
    List ℕ → List String → W → Except String (List Prepared) × W
  | _, [], w => (.ok [], w)
  | seen, taskId :: rest, w =>
    match prepareTask env k seen taskId w with
    | (.error e, w) => (.error e, w)
    | (.ok prepared, w) =>
      match prepareAll env k (prepared.executor :: seen) rest w with
      | (.error e, w) => (.error e, w)
      | (.ok more, w) => (.ok (prepared :: more), w)

/-! ## Execution -/

def failedAttempt (attempt : TaskAttempt) (message errorType : String) : TaskResult :=
  ⟨attempt.attemptId, .failed,
    Json.ofMembers [("error", .str message), ("error_type", .str errorType)], []⟩

/-- `_execute_one`: an exception of the runner becomes a failed result. -/
def executeOne (env : SchedulerEnv W) (p : Prepared) (w : W) :
    Except String ScheduledOutcome × W :=
  let outcome (result : TaskResult) : ScheduledOutcome :=
    ⟨p.task.id, p.profile.profileId, p.profile.backendId, result⟩
  match env.execute p.executor p.attempt w with
  | (.escaped message, w) => (.error message, w)
  | (.raised message errorType, w) => (.ok (outcome (failedAttempt p.attempt message errorType)), w)
  | (.returned result, w) =>
    if result.attemptId ≠ p.attempt.attemptId then
      (.ok (outcome (failedAttempt p.attempt "result attempt_id does not match the attempt"
        "InvalidResult")), w)
    else (.ok (outcome result), w)

/-- The whole batch runs, also where an executor's exception escapes. -/
def executeAll (env : SchedulerEnv W) : List Prepared → W → Except String (List ScheduledOutcome) × W
  | [], w => (.ok [], w)
  | p :: rest, w =>
    let first := executeOne env p w
    let more := executeAll env rest first.2
    match first.1, more.1 with
    | .error e, _ => (.error e, more.2)
    | .ok _, .error e => (.error e, more.2)
    | .ok outcome, .ok outcomes => (.ok (outcome :: outcomes), more.2)

/-! ## Dispatch -/

/-- How a dispatch ends. It is `refused` where it raises before its tasks are marked running, and
`raised` where it raises afterwards. -/
inductive Dispatched (W : Type u) where
  | refused (message : String) (k : Kernel) (w : W)
  | raised (message : String) (k : Kernel) (w : W)
  | returned (outcomes : List ScheduledOutcome) (k : Kernel) (w : W)

def delegationCommand (setting : Setting) (k : Kernel) (task : Task) (taskId : String) (index : ℕ)
    (delegation : Json) : CommandEnvelope where
  commandId := taskId ++ "/delegation-" ++ toString index ++ "/revision-" ++
    toString k.state.revision
  runId := setting.contract.runId
  type := .taskDispatch
  actor := ⟨taskId, .worker, task.parentTaskId⟩
  expectedRevision := k.state.revision
  idempotencyKey := setting.contract.runId ++ "/" ++ taskId ++ "/delegation-" ++ toString index
  payload := delegation

/-- `delegation_requests` of a validated result. -/
def delegationRequests (result : TaskResult) : List Json :=
  ((result.payload.get? "delegation_requests").bind Json.asArr?).getD []

/-- The tasks that a receipt names. -/
def childIds (receipt : CommandReceipt) : List String :=
  receipt.effectRefs.filterMap (afterPrefix "task:")

/-- How a nested dispatch is called. -/
abbrev Nested (W : Type u) := Kernel → W → List String → ℤ → Dispatched W

/-- One delegation: its tasks are registered and dispatched at once. -/
def delegate (env : SchedulerEnv W) (setting : Setting) (nested : Nested W) (task : Task)
    (taskId : String) (index : ℕ) (delegation : Json) (k : Kernel) (w : W) :
    Except String Unit × Kernel × W :=
  let outcome := k.step setting
    (.handle (env.catalog w) (delegationCommand setting k task taskId index delegation))
  match outcome.answer with
  | .error e => (.error e, outcome.kernel, w)
  | .ok none => (.error "no receipt", outcome.kernel, w)
  | .ok (some receipt) =>
    if receipt.status = .rejected then
      (.error ("worker delegation rejected: " ++ receipt.message), outcome.kernel, w)
    else
      match ((delegation.get? "max_parallelism").map pyInt?).getD (some 1) with
      | none => (.error "invalid max_parallelism", outcome.kernel, w)
      | some maxParallelism =>
        match nested outcome.kernel w (childIds receipt) maxParallelism with
        | .returned _ k w => (.ok (), k, w)
        | .refused e k w => (.error e, k, w)
        | .raised e k w => (.error e, k, w)

def delegateAll (env : SchedulerEnv W) (setting : Setting) (nested : Nested W) (task : Task)
    (taskId : String) : ℕ → List Json → Kernel → W → Except String Unit × Kernel × W
  | _, [], k, w => (.ok (), k, w)
  | index, delegation :: rest, k, w =>
    match delegate env setting nested task taskId index delegation k w with
    | (.error e, k, w) => (.error e, k, w)
    | (.ok (), k, w) => delegateAll env setting nested task taskId (index + 1) rest k w

/-- The delegations of every succeeded outcome whose result is valid. -/
def delegateOutcomes (env : SchedulerEnv W) (setting : Setting) (nested : Nested W) :
    List ScheduledOutcome → Kernel → W → Except String Unit × Kernel × W
  | [], k, w => (.ok (), k, w)
  | outcome :: rest, k, w =>
    if outcome.result.status ≠ .succeeded then delegateOutcomes env setting nested rest k w
    else
      match k.state.tasks.get? outcome.taskId with
      | none => (.error ("unknown task: " ++ outcome.taskId), k, w)
      | some task =>
        match setting.validate outcome.result task.detailsSchema with
        | .error _ => delegateOutcomes env setting nested rest k w
        | .ok _ =>
          match delegateAll env setting nested task outcome.taskId 1
            (delegationRequests outcome.result) k w with
          | (.error e, k, w) => (.error e, k, w)
          | (.ok (), k, w) => delegateOutcomes env setting nested rest k w

/-- A batch that has been marked running. -/
def runBatch (env : SchedulerEnv W) (setting : Setting) (nested : Nested W)
    (prepared : List Prepared) (k : Kernel) (w : W) : Dispatched W :=
  match executeAll env prepared w with
  | (.error e, w) => .raised e k w
  | (.ok outcomes, w) =>
    match delegateOutcomes env setting nested outcomes k w with
    | (.error e, k, w) => .raised e k w
    | (.ok (), k, w) =>
      let recorded := k.step setting
        (.recordTaskResults (env.catalog w) (outcomes.map fun o => (o.taskId, o.result)))
      match recorded.answer with
      | .error e => .raised e recorded.kernel w
      | .ok _ => .returned outcomes recorded.kernel w

/-- `dispatch`, with at most `depth` nested calls. -/
def dispatch (env : SchedulerEnv W) (setting : Setting) : ℕ → Nested W
  | 0, k, w, _, _ => .refused "maximum recursion depth exceeded" k w
  | depth + 1, k, w, taskIds, maxParallelism =>
    if taskIds = [] then .refused "dispatch requires at least one task" k w
    else if maxParallelism < 1 then .refused "max_parallelism must be positive" k w
    else if setting.contract.limits.maxParallelism.any (· < maxParallelism) then
      .refused "dispatch exceeds run max_parallelism" k w
    else
      match prepareAll env k [] taskIds w with
      | (.error e, w) => .refused e k w
      | (.ok prepared, w) =>
        let started := k.step setting (.markTasksRunning taskIds)
        match started.answer with
        | .error e => .refused e started.kernel w
        | .ok _ => runBatch env setting (dispatch env setting depth) prepared started.kernel w

/-! ## Settled tasks -/

def Task.Settled (t : Task) : Prop := ∃ status, t.status = .settled status

/-- From `s` to `t` every task lasts, those given have settled, and so have those registered. -/
structure Settles (ids : List String) (s t : State) : Prop where
  lasts : Lasts s t
  given : ∀ id ∈ ids, ∃ u, t.tasks.get? id = some u ∧ u.Settled
  registered : ∀ id u, t.tasks.get? id = some u → s.tasks.get? id = none → u.Settled

section Settles

variable {s t u : State} {ids : List String}

theorem Lasts.settled (h : Lasts s t) {id : String} {o : Task} (ho : s.tasks.get? id = some o)
    (hs : o.Settled) : ∃ o', t.tasks.get? id = some o' ∧ o'.Settled := by
  obtain ⟨o', ho', -, hsettled⟩ := h id o ho
  obtain ⟨status, hstatus⟩ := hs
  exact ⟨o', ho', status, hsettled status hstatus⟩

theorem Kept.settles (h : Kept s t) : Settles [] s t where
  lasts := h.lasts
  given := by simp
  registered id o' ho' hnone := by
    obtain ⟨o, ho, -⟩ := h.of_get? ho'
    rw [hnone] at ho
    cases ho

theorem Settles.refl (s : State) : Settles [] s s := (Kept.refl s).settles

/-- What has settled stays so; the tasks given first may be forgotten. -/
theorem Settles.trans (h : Settles ids s t) {later : List String} (h' : Settles later t u) :
    Settles (ids ++ later) s u where
  lasts := h.lasts.trans h'.lasts
  given id hid := by
    rcases mem_append.1 hid with hid | hid
    · obtain ⟨o, ho, hs⟩ := h.given id hid
      exact h'.lasts.settled ho hs
    · exact h'.given id hid
  registered id o' ho' hnone := by
    cases ht : t.tasks.get? id with
    | none => exact h'.registered id o' ho' ht
    | some o =>
      obtain ⟨o'', ho'', hs⟩ := h'.lasts.settled ht (h.registered id o ht hnone)
      cases ho'.symm.trans ho''
      exact hs

end Settles

/-! ## Kernel operations -/

section Operations

variable {setting : Setting} {criteria : Dict String Criterion} {artifacts : Dict String Artifact}
  {k : Kernel} {op : Operation}

/-- An operation that is not a dispatch registers nothing. -/
theorem kept_step (h : Reached setting (initialState setting.contract criteria artifacts) k)
    (hop : ∀ catalog command, op = .handle catalog command → command.type ≠ .taskDispatch) :
    Kept k.state (k.step setting op).kernel.state := by
  have hs := h.sound rfl
  obtain ⟨-, es, hes, -, t, ht, hstate⟩ := moves_cases hs (moves_step hs setting op)
  have hkept : Kept k.state t := by
    obtain rfl | ⟨all, happends, i, rfl⟩ := hes
    · cases ht
      exact .refl _
    · refine kept_replay (fun e he => happends.lawful e (mem_of_mem_take he))
        (fun e he task hbody => ?_) ht
      obtain hnone | ⟨⟨catalog, command, rfl, htype⟩, -⟩ := happends.registers
      · exact hnone e (mem_of_mem_take he) task hbody
      · exact hop catalog command rfl htype
  rw [hstate]
  exact ⟨hkept.authority, hkept.frozen⟩

theorem afterPrefix_append (start text : String) : afterPrefix start (start ++ text) = some text := by
  rw [afterPrefix, String.toList_append, if_pos ( isPrefixOf_iff_prefix.2 (prefix_append _ _)),
    drop_left, String.ofList_toList]

/-- **The receipt of a dispatch names every task that it registered.** -/
theorem registered_named (h : Reached setting (initialState setting.contract criteria artifacts) k)
    {catalog : EvidenceCatalog} {command : CommandEnvelope} (htype : command.type = .taskDispatch)
    {receipt : CommandReceipt}
    (hanswer : (k.step setting (.handle catalog command)).answer = .ok (some receipt))
    (haccepted : receipt.status ≠ .rejected) (id : String) (u : Task)
    (hu : (k.step setting (.handle catalog command)).kernel.state.tasks.get? id = some u)
    (hnone : k.state.tasks.get? id = none) : id ∈ childIds receipt := by
  have hs := h.sound rfl
  have hstep : k.step setting (.handle catalog command) = k.handle setting.contract catalog command :=
    rfl
  rw [hstep] at hanswer hu
  obtain ⟨answer, hsame⟩ | ⟨code, message, hreject⟩ | ⟨effects, haccepts, heval, hcommit⟩ :=
    handle_cases k setting.contract catalog command
  · rw [hsame] at hu
    rw [hnone] at hu
    cases hu
  · rw [hreject, Kernel.reject] at hanswer
    split_ifs at hanswer
    all_goals
      cases Except.ok.inj hanswer
      exact absurd rfl haccepted
  · have hdispatch : taskDispatch k.state setting.contract command.actor command.payload =
        .ok effects := by
      rwa [State.evaluate, htype] at heval
    obtain ⟨tasks, rfl, hbatch, hsize⟩ := yields_taskDispatch_batch effects hdispatch
    obtain ⟨t, ht, -⟩ := commit_applies setting.contract command hs
      (yields_evaluate _ heval).admitted
    rw [hcommit, commit_eq ht] at hanswer hu
    cases Except.ok.inj hanswer
    have hbodies : (commitEvents k setting.contract command (tasks.map .taskRegistered,
        tasks.map fun task => "task:" ++ task.id)).map (·.body) = tasks.map .taskRegistered := by
      rw [commitEvents, bodies_newEvents, map_map]
      simp
    have hforest := (task_forest h).1
    obtain ⟨-, -, hkeys⟩ := forest_batch hbodies hforest (.refl _) hbatch hsize _
      ((congrArg (replay State.apply k.state) take_length).trans ht)
    have hid : id ∈ tasks.map (·.id) := by
      refine (hkeys id (Dict.mem_keys_iff.2 ⟨u, hu⟩)).resolve_left fun hmem => ?_
      obtain ⟨v, hv⟩ := Dict.mem_keys_iff.1 hmem
      rw [hnone] at hv
      cases hv
    obtain ⟨task, htask, rfl⟩ := mem_map.1 hid
    exact mem_filterMap.2 ⟨_, mem_map.2 ⟨task, htask, rfl⟩, afterPrefix_append _ _⟩

end Operations

/-! ## Results -/

section Results

variable {setting : Setting} {criteria : Dict String Criterion} {artifacts : Dict String Artifact}
  {k : Kernel} {m t : State} {es : List KernelEvent}

/-- The event records a result of the task. -/
def EventBody.RecordsResult (id : String) (b : EventBody) : Prop :=
  ∃ result promotions, b = .taskResultRecorded id result promotions

theorem settled_apply {e : KernelEvent} {id : String} (he : e.body.RecordsResult id)
    (happly : m.apply e = some t) :
    (∃ u, t.tasks.get? id = some u ∧ u.Settled) ∧
      ∀ j u, m.tasks.get? j = some u → u.Settled → ∃ u', t.tasks.get? j = some u' ∧ u'.Settled := by
  obtain ⟨n, hn, rfl⟩ := Option.map_eq_some_iff.1 happly
  obtain ⟨result, promotions, hbody⟩ := he
  rw [hbody] at hn
  obtain ⟨task, htask, -, ⟨new, -, hstatus, hget⟩, -⟩ := recordResult_eq_some hn
  refine ⟨⟨new, (hget id).trans (if_pos rfl), _, hstatus⟩, fun j u hu hs => ?_⟩
  by_cases hj : j = id
  · exact ⟨new, (hget j).trans (if_pos hj), _, hstatus⟩
  · exact ⟨u, ((hget j).trans (if_neg hj)).trans hu, hs⟩

/-- Recorded results settle their tasks. -/
theorem settled_replay (hes : ∀ e ∈ es, ∃ id, e.body.RecordsResult id)
    (hreplay : replay State.apply m es = some t) :
    (∀ e ∈ es, ∀ id, e.body.RecordsResult id → ∃ u, t.tasks.get? id = some u ∧ u.Settled) ∧
      ∀ j u, m.tasks.get? j = some u → u.Settled → ∃ u', t.tasks.get? j = some u' ∧ u'.Settled := by
  induction es generalizing m with
  | nil =>
    cases hreplay
    exact ⟨by simp, fun j u hu hs => ⟨u, hu, hs⟩⟩
  | cons e es ih =>
    obtain ⟨he, hrest⟩ := forall_mem_cons.1 hes
    obtain ⟨n, hn, hreplay⟩ : ∃ n, m.apply e = some n ∧ replay State.apply n es = some t :=
      Option.bind_eq_some_iff.1 hreplay
    obtain ⟨hlater, hkeeps⟩ := ih hrest hreplay
    have hfirst {id : String} (hid : e.body.RecordsResult id) := settled_apply hid hn
    refine ⟨forall_mem_cons.2 ⟨fun id hid => ?_, hlater⟩, fun j u hu hs => ?_⟩
    · obtain ⟨u, hu, hs⟩ := (hfirst hid).1
      exact hkeeps id u hu hs
    · obtain ⟨id, hid⟩ := he
      obtain ⟨u', hu', hs'⟩ := (hfirst hid).2 j u hu hs
      exact hkeeps j u' hu' hs'

theorem yields_prepareResult_records {s : State} {validate : SemanticValidator}
    {catalog : EvidenceCatalog} (id : String) (result : TaskResult) :
    Yields (EventBody.RecordsResult id) (s.prepareResult validate catalog id result) := by
  rw [State.prepareResult]
  split
  · exact yields_error
  simp only [yields_ite, yields_error, implies_true, true_and, yields_ok]
  refine fun _ _ => ⟨fun _ => ⟨_, _, rfl⟩, fun _ => ?_⟩
  split
  · exact yields_ok.2 ⟨_, _, rfl⟩
  split
  · exact yields_error
  · exact yields_ok.2 ⟨_, _, rfl⟩

theorem length_of_mapM_ok {α β ε : Type} {f : α → Except ε β} {l : List α} {bs : List β}
    (h : l.mapM f = .ok bs) : bs.length = l.length := by
  induction l generalizing bs with
  | nil =>
    cases h
    rfl
  | cons a l ih =>
    rw [mapM_cons] at h
    cases ha : f a with
    | error e => rw [ha] at h; cases h
    | ok b =>
      rw [ha] at h
      cases hl : l.mapM f with
      | error e => rw [hl] at h; cases h
      | ok rest =>
        rw [hl] at h
        cases h
        exact congrArg (· + 1) (ih hl)

/-- **Results that are accepted settle their tasks.** -/
theorem recordTaskResults_settles
    (h : Reached setting (initialState setting.contract criteria artifacts) k)
    {catalog : EvidenceCatalog} {results : List (String × TaskResult)}
    {answer : Option CommandReceipt}
    (hanswer : (k.step setting (.recordTaskResults catalog results)).answer = .ok answer) :
    ∀ r ∈ results, ∃ u, (k.step setting
      (.recordTaskResults catalog results)).kernel.state.tasks.get? r.1 = some u ∧ u.Settled := by
  have hs := h.sound rfl
  rw [show k.step setting (.recordTaskResults catalog results) =
    k.recordTaskResults setting.contract setting.validate catalog results from rfl,
    Kernel.recordTaskResults] at hanswer ⊢
  cases hbodies : results.mapM fun r => k.state.prepareResult setting.validate catalog r.1 r.2 with
  | error e =>
    rw [hbodies] at hanswer
    cases hanswer
  | ok bodies =>
    dsimp only
    have hrecorded : Recorded setting k (.recordTaskResults catalog results) _ := .results hbodies
    obtain ⟨t, ht, -⟩ := record_applies setting.contract kernelActor hs hrecorded.trusted
    rw [record_eq ht]
    have hmap := yields_mapM (p := fun (r : String × TaskResult) (b : EventBody) =>
      b.RecordsResult r.1) (fun r => yields_prepareResult_records r.1 r.2) results bodies hbodies
    have hall : (recordEvents k setting.contract kernelActor ((results.map fun r =>
        systemId "system-result" r.1 (k.state.revision + 1)).zip bodies)).map (·.body) = bodies := by
      rw [recordEvents, bodies_newEvents, map_snd_zip]
      rw [length_map, length_of_mapM_ok hbodies]
    have hes : ∀ e ∈ recordEvents k setting.contract kernelActor ((results.map fun r =>
        systemId "system-result" r.1 (k.state.revision + 1)).zip bodies),
        ∃ id, e.body.RecordsResult id := by
      intro e he
      have hb : e.body ∈ bodies := hall ▸ mem_map_of_mem he
      obtain ⟨r, -, hrb⟩ := hmap.1 e.body hb
      exact ⟨r.1, hrb⟩
    intro r hr
    obtain ⟨b, hb, hrb⟩ := hmap.2 r hr
    rw [← hall] at hb
    obtain ⟨e, he, rfl⟩ := mem_map.1 hb
    exact (settled_replay hes ht).1 e he r.1 hrb

end Results

/-! ## Batches -/

section Batches

variable {env : SchedulerEnv W} {setting : Setting} {criteria : Dict String Criterion}
  {artifacts : Dict String Artifact} {k k' : Kernel} {w w' : W} {nested : Nested W}

/-- What a nested dispatch that returns leaves. -/
def NestedSound (setting : Setting) (criteria : Dict String Criterion)
    (artifacts : Dict String Artifact) (nested : Nested W) : Prop :=
  ∀ k w ids maxParallelism outcomes k' w',
    Reached setting (initialState setting.contract criteria artifacts) k →
    nested k w ids maxParallelism = .returned outcomes k' w' →
    Reached setting (initialState setting.contract criteria artifacts) k' ∧
      Settles ids k.state k'.state

variable {taskId : String} {ps : List Prepared} {outcomes : List ScheduledOutcome}

theorem prepareTask_id (h : Reached setting (initialState setting.contract criteria artifacts) k)
    {seen : List ℕ} {p : Prepared} (hp : prepareTask env k seen taskId w = (.ok p, w')) :
    p.task.id = taskId := by
  unfold prepareTask at hp
  split at hp
  · cases hp
  rename_i task htask
  split at hp
  · cases hp
  split at hp
  · cases hp
  · cases hp
  split at hp
  · cases hp
  dsimp only at hp
  split at hp
  · cases hp
  · cases hp
    exact (task_forest h).1.keyed taskId task htask

theorem prepareAll_ids (h : Reached setting (initialState setting.contract criteria artifacts) k)
    {ids : List String} {seen : List ℕ} (hps : prepareAll env k seen ids w = (.ok ps, w')) :
    ps.map (·.task.id) = ids := by
  induction ids generalizing seen w ps with
  | nil =>
    cases hps
    rfl
  | cons id rest ih =>
    unfold prepareAll at hps
    split at hps
    · cases hps
    rename_i p v hp
    split at hps
    · cases hps
    rename_i more v' hmore
    cases hps
    rw [map_cons, prepareTask_id h hp, ih hmore]

theorem executeOne_id {p : Prepared} {outcome : ScheduledOutcome}
    (h : (executeOne env p w).1 = .ok outcome) : outcome.taskId = p.task.id := by
  unfold executeOne at h
  split at h
  · cases h
  · cases h
    rfl
  · split at h
    · cases h
      rfl
    · cases h
      rfl

theorem executeAll_ids (h : executeAll env ps w = (.ok outcomes, w')) :
    outcomes.map (·.taskId) = ps.map (·.task.id) := by
  induction ps generalizing w w' outcomes with
  | nil =>
    cases h
    rfl
  | cons p rest ih =>
    unfold executeAll at h
    dsimp only at h
    split at h
    · cases h
    · cases h
    · rename_i outcome more hfirst hmore
      cases h
      rw [map_cons, map_cons, executeOne_id hfirst, ih (Prod.ext hmore rfl)]

section

variable (hn : NestedSound setting criteria artifacts nested)
  (h : Reached setting (initialState setting.contract criteria artifacts) k)

include hn h

theorem delegate_settles {task : Task} {index : ℕ} {delegation : Json}
    (hd : delegate env setting nested task taskId index delegation k w = (.ok (), k', w')) :
    Reached setting (initialState setting.contract criteria artifacts) k' ∧
      Settles [] k.state k'.state := by
  unfold delegate at hd
  dsimp only at hd
  split at hd
  · cases hd
  · cases hd
  rename_i receipt hanswer
  split at hd
  · cases hd
  rename_i haccepted
  split at hd
  · cases hd
  split at hd
  · rename_i outcomes k₂ w₂ hnested
    cases hd
    have hstep := h.step rfl (.handle (env.catalog w)
      (delegationCommand setting k task taskId index delegation))
    obtain ⟨hreached, hsettles⟩ := hn _ _ _ _ _ _ _ hstep hnested
    refine ⟨hreached, (forest_moves (h.sound rfl) (task_forest h).1
      (moves_step (h.sound rfl) setting _)).2.trans hsettles.lasts, by simp, fun id u hu hnone => ?_⟩
    cases hmid : (k.step setting (.handle (env.catalog w)
        (delegationCommand setting k task taskId index delegation))).kernel.state.tasks.get? id with
    | none => exact hsettles.registered id u hu hmid
    | some v =>
      -- the task was registered by the delegation, so it was among those dispatched
      obtain ⟨u', hu', hs⟩ := hsettles.given id
        (registered_named h rfl hanswer haccepted id v hmid hnone)
      cases hu.symm.trans hu'
      exact hs
  · cases hd
  · cases hd

theorem delegateAll_settles {task : Task} {index : ℕ} {delegations : List Json}
    (hd : delegateAll env setting nested task taskId index delegations k w = (.ok (), k', w')) :
    Reached setting (initialState setting.contract criteria artifacts) k' ∧
      Settles [] k.state k'.state := by
  induction delegations generalizing index k w with
  | nil =>
    cases hd
    exact ⟨h, .refl _⟩
  | cons delegation rest ih =>
    unfold delegateAll at hd
    split at hd
    · cases hd
    · rename_i k₂ w₂ hfirst
      obtain ⟨hreached, hsettles⟩ := delegate_settles hn h hfirst
      obtain ⟨hreached', hsettles'⟩ := ih hreached hd
      exact ⟨hreached', hsettles.trans hsettles'⟩

theorem delegateOutcomes_settles
    (hd : delegateOutcomes env setting nested outcomes k w = (.ok (), k', w')) :
    Reached setting (initialState setting.contract criteria artifacts) k' ∧
      Settles [] k.state k'.state := by
  induction outcomes generalizing k w with
  | nil =>
    cases hd
    exact ⟨h, .refl _⟩
  | cons outcome rest ih =>
    unfold delegateOutcomes at hd
    split at hd
    · exact ih h hd
    split at hd
    · cases hd
    split at hd
    · exact ih h hd
    split at hd
    · cases hd
    · rename_i k₂ w₂ hfirst
      obtain ⟨hreached, hsettles⟩ := delegateAll_settles hn h hfirst
      obtain ⟨hreached', hsettles'⟩ := ih hreached hd
      exact ⟨hreached', hsettles.trans hsettles'⟩

theorem runBatch_settles (hr : runBatch env setting nested ps k w = .returned outcomes k' w') :
    Reached setting (initialState setting.contract criteria artifacts) k' ∧
      Settles (ps.map (·.task.id)) k.state k'.state := by
  unfold runBatch at hr
  split at hr
  · cases hr
  rename_i outcomes' w₁ hexecuted
  split at hr
  · cases hr
  rename_i k₂ w₂ hdelegated
  dsimp only at hr
  split at hr
  · cases hr
  rename_i answer hanswer
  obtain ⟨hreached, hsettles⟩ := delegateOutcomes_settles hn h hdelegated
  have hkept : Kept k₂.state (k₂.step setting (.recordTaskResults (env.catalog w₂)
      (outcomes'.map fun o => (o.taskId, o.result)))).kernel.state := kept_step hreached nofun
  cases hr
  refine ⟨hreached.step rfl _, ?_⟩
  have hall := hsettles.trans hkept.settles
  refine ⟨hall.lasts, fun id hid => ?_, hall.registered⟩
  rw [← executeAll_ids hexecuted] at hid
  obtain ⟨o, ho, rfl⟩ := mem_map.1 hid
  exact recordTaskResults_settles hreached hanswer (o.taskId, o.result)
    (mem_map.2 ⟨o, ho, rfl⟩)

end

theorem dispatch_settles (depth : ℕ) :
    NestedSound setting criteria artifacts (dispatch env setting depth) := by
  induction depth with
  | zero =>
    intro k w ids maxParallelism outcomes k' w' h hd
    cases hd
  | succ depth ih =>
    intro k w ids maxParallelism outcomes k' w' h hd
    unfold dispatch at hd
    split_ifs at hd
    split at hd
    · cases hd
    rename_i ps w₁ hprepared
    dsimp only at hd
    split at hd
    · cases hd
    have hkept : Kept k.state (k.step setting (.markTasksRunning ids)).kernel.state :=
      kept_step h nofun
    obtain ⟨hreached, hsettles⟩ := runBatch_settles ih (h.step rfl (.markTasksRunning ids)) hd
    rw [prepareAll_ids h hprepared] at hsettles
    exact ⟨hreached, hkept.settles.trans hsettles⟩

theorem markTasksRunning_error {ids : List String} {e : String}
    (h : (k.step setting (.markTasksRunning ids)).answer = .error e) :
    (k.step setting (.markTasksRunning ids)).kernel = k := by
  have hrecords : Records setting k (.markTasksRunning ids) := records_markTasksRunning ids
  obtain ⟨answer, hsame⟩ | ⟨actor, bodies, -, hrecord⟩ := hrecords
  · rw [hsame]
  · rw [hrecord, Kernel.record] at h ⊢
    split
    · rfl
    · rename_i applied happlied
      rw [happlied] at h
      cases h

/-- **No task is left in limbo by a dispatch that returns**: those it was given and those registered
since have settled. One that raises before the launch leaves the kernel as it was. -/
theorem dispatch_clean (h : Reached setting (initialState setting.contract criteria artifacts) k)
    (env : SchedulerEnv W) (depth : ℕ) (w : W) (ids : List String) (maxParallelism : ℤ) :
    (∀ outcomes k' w', dispatch env setting depth k w ids maxParallelism =
        .returned outcomes k' w' →
      (∀ id ∈ ids, ∃ task, k'.state.tasks.get? id = some task ∧ task.Settled) ∧
        ∀ id task, k'.state.tasks.get? id = some task → k.state.tasks.get? id = none →
          task.Settled) ∧
    ∀ message k' w', dispatch env setting depth k w ids maxParallelism = .refused message k' w' →
      k' = k := by
  refine ⟨fun outcomes k' w' hd => ?_, fun message k' w' hd => ?_⟩
  · obtain ⟨-, hsettles⟩ := dispatch_settles depth k w ids maxParallelism outcomes k' w' h hd
    exact ⟨hsettles.given, hsettles.registered⟩
  · cases depth with
    | zero =>
      cases hd
      rfl
    | succ depth =>
      unfold dispatch at hd
      split_ifs at hd
      · cases hd
        rfl
      · cases hd
        rfl
      · cases hd
        rfl
      split at hd
      · cases hd
        rfl
      dsimp only at hd
      split at hd
      · rename_i e herror
        cases hd
        exact markTasksRunning_error herror
      · unfold runBatch at hd
        split at hd
        · cases hd
        split at hd
        · cases hd
        dsimp only at hd
        split at hd
        · cases hd
        · cases hd

end Batches

/-! ## Dispatches that raise -/

/-- A kernel with the two ready tasks "build" and "test". -/
def twoTasksKernel : Kernel := ((⟨exampleState, []⟩ : Kernel).step exampleSetting twoTasks).kernel

/-- Every semantic result is valid. -/
def lenientSetting : Setting where
  contract := exampleSetting.contract
  validate := fun _ _ => .ok ⟨"done", [], [], [], []⟩

/-- One executor for each call of the factory; its result delegates a task. -/
def delegatingEnv (profiles : List RoleProfile) : SchedulerEnv ℕ where
  profiles := profiles
  catalog _ := ⟨∅, ∅⟩
  executorFactory _ _ w := (.executor w, w + 1)
  mintDirtyBaselineGrant _ _ _ w := (.ok (), w)
  execute _ attempt w :=
    (.returned ⟨attempt.attemptId, .succeeded, Json.ofMembers [("delegation_requests",
      .arr [Json.ofMembers [("tasks", .arr [exampleTask "child"])]])], []⟩, w)

def implementerProfile : RoleProfile := ⟨"writer", "implementer", [], "backend", []⟩

def statusBehind (d : Dispatched ℕ) (id : String) : Option TaskStatus :=
  match d with
  | .refused _ k _ => (k.state.tasks.get? id).map (·.status)
  | .raised _ k _ => (k.state.tasks.get? id).map (·.status)
  | .returned _ _ _ => none

def Dispatched.isReturned : Dispatched W → Bool
  | .returned .. => true
  | _ => false

theorem dispatch_clean_twoTasks :
    ∃ outcomes k' w', dispatch (delegatingEnv [implementerProfile]) exampleSetting 3 twoTasksKernel
        0 ["build", "test"] 2 = .returned outcomes k' w' ∧
      ∀ id ∈ ["build", "test"], ∃ task, k'.state.tasks.get? id = some task ∧ task.Settled := by
  have hreturned : (dispatch (delegatingEnv [implementerProfile]) exampleSetting 3 twoTasksKernel
      0 ["build", "test"] 2).isReturned = true := by decide +kernel
  cases hd : dispatch (delegatingEnv [implementerProfile]) exampleSetting 3 twoTasksKernel
      0 ["build", "test"] 2 with
  | refused message k w =>
    rw [hd] at hreturned
    cases hreturned
  | raised message k w =>
    rw [hd] at hreturned
    cases hreturned
  | returned outcomes k' w' =>
    have hreached : Reached exampleSetting (initialState exampleSetting.contract ∅ ∅)
        twoTasksKernel := Reached.start.step rfl twoTasks
    have hclean := dispatch_clean hreached (delegatingEnv [implementerProfile]) 3 0
      ["build", "test"] 2
    exact ⟨outcomes, k', w', rfl, (hclean.1 outcomes k' w' hd).1⟩

/-- Without a profile for its task the dispatch raises and the task stays ready; where a worker's
delegation is rejected it raises and the task stays running. -/
theorem raised_dispatch_leaves_active :
    statusBehind (dispatch (delegatingEnv []) lenientSetting 3 twoTasksKernel 0 ["build"] 1)
        "build" = some .ready ∧
      statusBehind (dispatch (delegatingEnv [implementerProfile]) lenientSetting 3 twoTasksKernel 0
        ["build"] 1) "build" = some .running := by
  decide +kernel

end HarnessLabs.Controller
