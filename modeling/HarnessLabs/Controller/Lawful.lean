import HarnessLabs.Controller.Operations
import HarnessLabs.Lib.Yields

/-!
# What an operation does

An accepted command commits the events that its handler returns, a trusted operation records its
own, and every event answers to the state that it was decided in.

* `Lawful` — what an event finds in that state.
* `Recorded` — the events of each trusted operation, with the checks before them.
* `yields_evaluate` — **what a handler returns.**
* `step_cases` — **an operation does nothing, rejects, commits, or records.**
-/

namespace HarnessLabs.Controller

open List

/-! ## Events and their commands -/

/-- The command that causes the event, if it is not a trusted operation's. -/
def EventBody.commandType? : EventBody → Option CommandType
  | criterionRegistered _ => some .criterionPropose
  | taskRegistered _ => some .taskDispatch
  | taskOrphaned .. => some .coordinatorSessionEnd
  | decisionRecorded _ => some .decisionRecord
  | findingDispositionRecorded _ => some .findingDisposition
  | phaseAdvanced .. => some .phaseAdvanceRequest
  | operatorInputRequested .. => some .operatorInputRequest
  | runCompleted => some .runCompleteRequest
  | runBlocked _ => some .runBlockRequest
  | runPaused _ => some .runPause
  | runResumed _ => some .runResume
  | runCancelled _ => some .runCancel
  | budgetChanged .. => some .budgetChange
  | coordinatorSchemaRegistered _ => some .coordinatorSchemaRegister
  | coordinatorSessionStarted _ => some .coordinatorSessionStart
  | coordinatorSessionEnded _ => some .coordinatorSessionEnd
  | recoveryRequested .retry .. => some .retryRequest
  | recoveryRequested .replan .. => some .replanRequest
  | administrative type _ => some type
  | criterionGateVerified .. => none
  | taskStarted _ => none
  | taskResultRecorded .. => none
  | runGateVerificationFailed .. => none

/-- The events that only commands cause. -/
def EventBody.fromCommand : EventBody → Bool
  | criterionGateVerified .. => false
  | taskStarted .. => false
  | taskResultRecorded .. => false
  | runGateVerificationFailed .. => false
  | _ => true

theorem EventBody.fromCommand_eq (b : EventBody) : b.fromCommand = b.commandType?.isSome := by
  cases b with
  | recoveryRequested kind reason payload => cases kind <;> rfl
  | _ => rfl

/-- What an event finds in the state that it was decided in. -/
def Lawful (contract : RunContract) (s : State) : EventBody → Prop
  | .criterionRegistered c =>
    c.id ∉ s.criteria.keys ∧ c.satisfied = false ∧ c.adjudication = .claimed
  | .criterionGateVerified id _ =>
    ∃ c, s.criteria.get? id = some c ∧ c.adjudication = .deterministicVerification
  | .taskRegistered task => task.id ∉ s.tasks.keys ∧ task.status = .ready ∧
      ∀ id, task.supersedesTaskId = some id →
        ∃ old, s.tasks.get? id = some old ∧ old.status = .settled .failed
  | .taskStarted id => ∃ task, s.tasks.get? id = some task ∧ task.status = .ready
  | .taskOrphaned id _ _ _ _ => ∃ task, s.tasks.get? id = some task ∧ task.status = .running
  | .taskResultRecorded id _ promotions =>
    (∃ task, s.tasks.get? id = some task ∧ task.status = .running) ∧
      ∀ p, promotions = some p → ∀ coverage ∈ p.criterionCoverage,
        ∃ c, s.criteria.get? coverage.criterionId = some c ∧
          (coverage.status = "satisfied" → c.adjudication ≠ .deterministicVerification)
  | .findingDispositionRecorded d => d.findingId ∈ s.findings.keys
  | .runCompleted => s.completionFailures contract = []
  | _ => True

/-! ## What handlers return -/

/-- The effects of a command: at least one event, each its own and lawful. -/
def LawfulEffects (contract : RunContract) (s : State) (type : CommandType) (effects : Effects) :
    Prop :=
  effects.1 ≠ [] ∧ ∀ b ∈ effects.1, b.commandType? = some type ∧ Lawful contract s b

@[simp] theorem lawfulEffects_single {contract : RunContract} {s : State} {type : CommandType}
    {b : EventBody} {refs : List String} :
    LawfulEffects contract s type ([b], refs) ↔
      b.commandType? = some type ∧ Lawful contract s b := by
  simp [LawfulEffects]

section Handlers

variable {s : State} {contract : RunContract} {catalog : EvidenceCatalog} {payload : Json}

attribute [local simp] EventBody.commandType? Lawful

theorem yields_coordinatorSchemaRegister :
    Yields (LawfulEffects contract s .coordinatorSchemaRegister)
      (coordinatorSchemaRegister s contract payload) := by
  simp [coordinatorSchemaRegister]

theorem yields_coordinatorSessionStart :
    Yields (LawfulEffects contract s .coordinatorSessionStart)
      (coordinatorSessionStart s payload) := by
  rw [coordinatorSessionStart]
  cases s.schema with
  | none => simp
  | some schema =>
    simp only [yields_bind, yields_ite, yields_throw, implies_true, true_and]
    intro _ sessionId _ segmentId _
    split
    · simp
    · simp only [yields_bind, yields_ite, yields_throw, implies_true, true_and]
      split <;> simp

/-- The tasks that a session's end orphans are running. -/
theorem running_of_mem {id : String} (h : id ∈ s.runningTaskIds) :
    ∃ task, s.tasks.get? id = some task ∧ task.status = .running := by
  obtain ⟨p, hp, rfl⟩ := mem_map.1 (mem_insertionSort (· ≤ ·) |>.1 h)
  obtain ⟨hmem, hrunning⟩ := mem_filter.1 hp
  exact ⟨p.2, Dict.get?_eq_some_iff.2 hmem, of_decide_eq_true hrunning⟩

theorem orphanEvent_lawful {id sessionId outcome : String}
    (h : ∃ task, s.tasks.get? id = some task ∧ task.status = .running) :
    (orphanEvent s catalog sessionId outcome id).commandType? = some .coordinatorSessionEnd ∧
      Lawful contract s (orphanEvent s catalog sessionId outcome id) := by
  rw [orphanEvent]
  split <;> exact ⟨rfl, h⟩

theorem yields_coordinatorSessionEnd :
    Yields (LawfulEffects contract s .coordinatorSessionEnd)
      (coordinatorSessionEnd s catalog payload) := by
  rw [coordinatorSessionEnd]
  cases s.activeSession with
  | none => simp
  | some active =>
    simp only [yields_bind, yields_ite, yields_throw, yields_pure, implies_true, true_and]
    intro sessionId _ _ outcome _ _
    refine ⟨by simp, fun b hb => ?_⟩
    rcases mem_append.1 hb with hb | hb
    · obtain ⟨id, hid, rfl⟩ := mem_map.1 hb
      exact orphanEvent_lawful (running_of_mem hid)
    · obtain rfl := mem_singleton.1 hb
      exact ⟨rfl, trivial⟩

theorem yields_readCriterion (item : Json) (allowGate : Bool) :
    Yields (fun c : Criterion => c.satisfied = false ∧
      (allowGate = false → c.adjudication = .claimed)) (readCriterion item allowGate) := by
  simp only [readCriterion, yields_bind, yields_ite, yields_throw, implies_true, true_and]
  intro id _ statement _ source _ _ _
  -- the adjudication: absent, one of the two that may be declared, or neither
  split <;> simp only [yields_bind, yields_pure, yields_ite, yields_throw, implies_true, true_and,
    reduceCtorEq]
  cases allowGate with
  | true => exact fun _ h => Bool.noConfusion h
  | false => exact fun h => absurd Bool.false_ne_true h

theorem yields_criterionPropose :
    Yields (LawfulEffects contract s .criterionPropose) (criterionPropose s payload) := by
  simp only [criterionPropose, yields_bind, yields_ite, yields_throw, yields_pure, implies_true,
    true_and]
  refine (yields_readCriterion payload false).mono fun c hc hnew => ?_
  rw [lawfulEffects_single]
  exact ⟨rfl, fun hmem => hnew (Dict.contains_iff.2 hmem), hc.1, hc.2 rfl⟩

theorem yields_checkSupersedes {task : Task} :
    Yields (fun _ => ∀ id, task.supersedesTaskId = some id →
      ∃ old, s.tasks.get? id = some old ∧ old.status = .settled .failed)
      (checkSupersedes s task) := by
  rw [checkSupersedes]
  cases task.supersedesTaskId with
  | none => simp
  | some id =>
    cases hold : s.tasks.get? id with
    | none => simp [hold]
    | some old =>
      simp only [hold, yields_ite, yields_error, implies_true, true_and]
      intro hfailed _ _ id' hid'
      cases hid'
      exact ⟨old, hold, not_not.1 hfailed⟩

/-- A task that is admitted is new, and supersedes only a failed one. -/
theorem yields_admitTask {limits : RunLimits} {actor : CommandActor} {maxParallelism : ℤ}
    {earlier : List Task} {item : Json} :
    Yields (fun task => Lawful contract s (.taskRegistered task))
      (admitTask s limits actor maxParallelism earlier item) := by
  simp only [admitTask, yields_bind, yields_ite, yields_throw, implies_true, true_and]
  intro described _ criteria _ hnew _ hsupersedes depth _ _ _ _ _
  split
  · simp
  · rw [yields_pure]
    refine ⟨fun hmem => hnew (.inr (Dict.contains_iff.2 hmem)), rfl, ?_⟩
    exact yields_checkSupersedes _ hsupersedes

theorem yields_admitTasks {limits : RunLimits} {actor : CommandActor} {maxParallelism : ℤ}
    (items : List Json) {earlier : List Task}
    (hearlier : ∀ task ∈ earlier, Lawful contract s (.taskRegistered task)) :
    Yields (fun tasks => tasks.length = earlier.length + items.length ∧
        ∀ task ∈ tasks, Lawful contract s (.taskRegistered task))
      (admitTasks s limits actor maxParallelism earlier items) := by
  induction items generalizing earlier with
  | nil => exact yields_ok.2 ⟨rfl, hearlier⟩
  | cons item rest ih =>
    rw [admitTasks]
    split
    · simp
    · rename_i task htask
      have hnext : ∀ t ∈ earlier ++ [task], Lawful contract s (.taskRegistered t) := by
        intro t ht
        rcases mem_append.1 ht with ht | ht
        · exact hearlier t ht
        · obtain rfl := mem_singleton.1 ht
          exact yields_admitTask _ htask
      refine (ih hnext).mono fun tasks hall => ⟨?_, hall.2⟩
      rw [hall.1]
      simp only [length_append, length_cons, length_nil]
      omega

theorem yields_taskDispatch {actor : CommandActor} :
    Yields (LawfulEffects contract s .taskDispatch) (taskDispatch s contract actor payload) := by
  simp only [taskDispatch, yields_bind, yields_ite, yields_throw, implies_true, true_and]
  intro hitems
  split
  · simp
  · simp only [yields_bind, yields_ite, yields_throw, yields_pure, implies_true, true_and]
    intro _ _ _ _
    refine Yields.mono (P := fun tasks => tasks.length = ([] : List Task).length + _ ∧
        ∀ task ∈ tasks, Lawful contract s (.taskRegistered task))
      (yields_admitTasks _ (forall_mem_nil _)) fun tasks hall => ⟨?_, ?_⟩
    · -- a dispatch of at least one item registers at least one task
      rw [Ne, map_eq_nil_iff, ← length_eq_zero_iff, hall.1, length_nil, Nat.zero_add,
        length_eq_zero_iff]
      exact hitems
    · intro b hb
      obtain ⟨task, htask, rfl⟩ := mem_map.1 hb
      exact ⟨rfl, hall.2 task htask⟩

theorem yields_findingDisposition {command : CommandEnvelope} :
    Yields (LawfulEffects contract s .findingDisposition) (findingDisposition s catalog command) := by
  simp only [findingDisposition, yields_bind, yields_ite, yields_throw, implies_true, true_and]
  intro id _ hid _ _ _ _ _ _ _
  split
  · simp
  · simpa using fun _ => Dict.contains_iff.1 (not_not.1 hid)

theorem yields_runComplete :
    Yields (LawfulEffects contract s .runCompleteRequest) (runComplete s contract) := by
  simp only [runComplete, yields_ite, yields_error, implies_true, true_and, yields_ok]
  intro hfailures
  exact lawfulEffects_single.2 ⟨rfl, not_not.1 hfailures⟩

theorem yields_budgetChange :
    Yields (LawfulEffects contract s .budgetChange) (budgetChange payload) := by
  rw [budgetChange]
  split <;> simp

/-- **Every handler returns lawful events of its own command.** -/
theorem yields_evaluate {command : CommandEnvelope} :
    Yields (LawfulEffects contract s command.type) (s.evaluate contract catalog command) := by
  rw [State.evaluate]
  cases command.type with
  | criterionPropose => exact yields_criterionPropose
  | taskDispatch => exact yields_taskDispatch
  | decisionRecord => simp [decisionRecord]
  | findingDisposition => exact yields_findingDisposition
  | phaseAdvanceRequest => simp [phaseAdvance]
  | operatorInputRequest => simp [operatorInputRequest]
  | runCompleteRequest => exact yields_runComplete
  | runBlockRequest => simp [runBlock]
  | runPause => simp [runPause]
  | runResume => simp [runResume]
  | budgetChange => exact yields_budgetChange
  | coordinatorSchemaRegister => exact yields_coordinatorSchemaRegister
  | coordinatorSessionStart => exact yields_coordinatorSessionStart
  | coordinatorSessionEnd => exact yields_coordinatorSessionEnd
  | _ => simp [recoveryRequest]

end Handlers

/-! ## What trusted operations record -/

section Trusted

variable {s : State} {contract : RunContract} {catalog : EvidenceCatalog}
  {validate : SemanticValidator}

theorem checkGateCriteria_ok {ids : List String} (h : s.checkGateCriteria ids = .ok ()) :
    ∀ id ∈ ids, ∃ c, s.criteria.get? id = some c ∧ c.adjudication = .deterministicVerification := by
  induction ids with
  | nil => simp
  | cons id rest ih =>
    rw [State.checkGateCriteria] at h
    split at h
    · cases h
    · rename_i c hc
      split at h
      · cases h
      · rename_i hgate
        exact forall_mem_cons.2 ⟨⟨c, hc, not_not.1 hgate⟩, ih h⟩

theorem yields_checkCoverage {task : Task} (coverage : Coverage) :
    Yields (fun _ => ∃ c, s.criteria.get? coverage.criterionId = some c ∧
        (coverage.status = "satisfied" → c.adjudication ≠ .deterministicVerification))
      (checkCoverage s task coverage) := by
  rw [checkCoverage]
  split
  · simp
  · rename_i c hc
    simp only [yields_ite, yields_error, implies_true, true_and, yields_ok]
    exact fun _ hclaim => ⟨c, hc, fun hsatisfied hgate => hclaim ⟨hsatisfied, hgate⟩⟩

theorem validateResultReferences_ok {task : Task} {semantic : SemanticResult}
    (h : s.validateResultReferences catalog task semantic = .ok ()) :
    ∀ coverage ∈ semantic.criterionCoverage, ∃ c, s.criteria.get? coverage.criterionId = some c ∧
      (coverage.status = "satisfied" → c.adjudication ≠ .deterministicVerification) := by
  unfold State.validateResultReferences at h
  dsimp only at h
  split at h
  · cases h
  split at h
  · cases h
  split at h
  · cases h
  split at h
  · cases h
  split at h
  · cases h
  rename_i units hunits
  intro coverage hcoverage
  obtain ⟨-, -, hc⟩ := (yields_mapM (p := fun (coverage : Coverage) _ =>
      ∃ c, s.criteria.get? coverage.criterionId = some c ∧
        (coverage.status = "satisfied" → c.adjudication ≠ .deterministicVerification))
    (fun c => yields_checkCoverage c) semantic.criterionCoverage units hunits).2 coverage hcoverage
  exact hc

/-- The event of a result records a running task, and claims no gate-backed criterion. -/
theorem yields_prepareResult (id : String) (result : TaskResult) :
    Yields (fun b => b.commandType? = none ∧ Lawful contract s b)
      (s.prepareResult validate catalog id result) := by
  rw [State.prepareResult]
  split
  · simp
  rename_i task htask
  simp only [yields_ite, yields_error, implies_true, true_and]
  intro hstatus _
  have hrunning : ∃ task, s.tasks.get? id = some task ∧ task.status = .running :=
    ⟨task, htask, not_not.1 hstatus⟩
  have hplain (result : TaskResult) :
      Lawful contract s (.taskResultRecorded id result none) :=
    ⟨hrunning, fun p hp => absurd hp.symm (Option.some_ne_none p)⟩
  refine ⟨fun _ => yields_ok.2 ⟨rfl, hplain result⟩, fun _ => ?_⟩
  split
  · exact yields_ok.2 ⟨rfl, hplain _⟩
  · split
    · exact yields_error
    · rename_i href
      refine yields_ok.2 ⟨rfl, hrunning, fun p hp => ?_⟩
      cases hp
      exact validateResultReferences_ok href

end Trusted

/-- The events of each trusted operation, and what was checked before they were recorded. -/
inductive Recorded (setting : Setting) (k : Kernel) : Operation → List (String × EventBody) → Prop
  | results {catalog : EvidenceCatalog} {results : List (String × TaskResult)}
      {bodies : List EventBody} :
      (results.mapM fun r => k.state.prepareResult setting.validate catalog r.1 r.2) = .ok bodies →
      Recorded setting k (.recordTaskResults catalog results)
        ((results.map fun r => systemId "system-result" r.1 (k.state.revision + 1)).zip bodies)
  | started {ids : List String} : ids ≠ [] →
      (∀ id ∈ ids, ∃ task, k.state.tasks.get? id = some task ∧ task.status = .ready) →
      Recorded setting k (.markTasksRunning ids) (ids.map fun id =>
        (systemId "system-start" id (k.state.revision + 1), .taskStarted id))
  | verified {catalog : EvidenceCatalog} {ids : List String} {ref : String} : ids ≠ [] →
      verificationOwnerEvidence catalog ref true = .ok () →
      k.state.checkGateCriteria ids.eraseDups = .ok () →
      Recorded setting k (.recordGateVerification catalog ids ref) (ids.eraseDups.map fun id =>
        (systemId "system-gate-verification" id (k.state.revision + 1),
          .criterionGateVerified id ref))
  | failed {catalog : EvidenceCatalog} {ids : List String} {ref : String} : ids ≠ [] →
      verificationOwnerEvidence catalog ref false = .ok () →
      k.state.checkGateCriteria ids.eraseDups = .ok () →
      Recorded setting k (.recordGateVerificationFailure catalog ids ref)
        [("system-gate-verification-failed:" ++ toString (k.state.revision + 1),
          .runGateVerificationFailed ids.eraseDups ref)]

section Recorded

variable {setting : Setting} {k : Kernel} {op : Operation} {bodies : List (String × EventBody)}

/-- The events of a trusted operation are lawful, and no command's. -/
theorem Recorded.lawful (h : Recorded setting k op bodies) :
    ∀ p ∈ bodies, p.2.commandType? = none ∧ Lawful setting.contract k.state p.2 := by
  intro p hp
  cases h with
  | results hbodies =>
    obtain ⟨-, -, hlawful⟩ :=
      (yields_mapM (p := fun _ (b : EventBody) =>
          b.commandType? = none ∧ Lawful setting.contract k.state b)
        (fun r : String × TaskResult => yields_prepareResult r.1 r.2) _ _ hbodies).1 p.2
        (of_mem_zip hp).2
    exact hlawful
  | started _ hready =>
    obtain ⟨id, hid, rfl⟩ := mem_map.1 hp
    exact ⟨rfl, hready id hid⟩
  | verified _ _ hgates =>
    obtain ⟨id, hid, rfl⟩ := mem_map.1 hp
    exact ⟨rfl, checkGateCriteria_ok hgates id hid⟩
  | failed _ _ _ =>
    obtain rfl := mem_singleton.1 hp
    exact ⟨rfl, trivial⟩

theorem Recorded.ne_handle (h : Recorded setting k op bodies) (catalog : EvidenceCatalog)
    (command : CommandEnvelope) : op ≠ .handle catalog command := by
  rintro rfl
  cases h

end Recorded

/-! ## Steps -/

/-- A command that is not refused before its handler: a new key, and a valid envelope. -/
def Accepts (contract : RunContract) (k : Kernel) (catalog : EvidenceCatalog)
    (command : CommandEnvelope) : Prop :=
  k.state.receipts.get? command.idempotencyKey = none ∧
    k.state.validateEnvelope contract catalog k.events command = none

section Steps

variable {k : Kernel} {setting : Setting} {catalog : EvidenceCatalog}

theorem handle_cases (k : Kernel) (contract : RunContract) (catalog : EvidenceCatalog)
    (command : CommandEnvelope) :
    (∃ answer, k.handle contract catalog command = ⟨k, [], answer⟩) ∨
    (∃ code message, k.handle contract catalog command = k.reject command code message) ∨
    (∃ effects, Accepts contract k catalog command ∧
      k.state.evaluate contract catalog command = .ok effects ∧
      k.handle contract catalog command = k.commit contract command effects) := by
  rw [Kernel.handle]
  cases hkey : k.state.receipts.get? command.idempotencyKey with
  | some receipt => exact .inl ⟨_, rfl⟩
  | none =>
    cases henvelope : k.state.validateEnvelope contract catalog k.events command with
    | some refusal => exact .inr (.inl ⟨_, _, rfl⟩)
    | none =>
      cases heval : k.state.evaluate contract catalog command with
      | error message => exact .inr (.inl ⟨_, _, rfl⟩)
      | ok effects => exact .inr (.inr ⟨effects, ⟨hkey, henvelope⟩, rfl, rfl⟩)

/-- What a trusted operation can do. -/
def Records (setting : Setting) (k : Kernel) (op : Operation) : Prop :=
  (∃ answer, k.step setting op = ⟨k, [], answer⟩) ∨
  ∃ actor bodies, Recorded setting k op bodies ∧
    k.step setting op = k.record setting.contract actor bodies

theorem records_markTasksRunning (ids : List String) :
    Records setting k (.markTasksRunning ids) := by
  rw [Records, Kernel.step, Kernel.markTasksRunning]
  split
  · exact .inl ⟨_, rfl⟩
  rename_i hids
  split
  · exact .inl ⟨_, rfl⟩
  rename_i hready
  refine .inr ⟨_, _, .started hids fun id hid => ?_, rfl⟩
  have hsome := List.find?_eq_none.1 hready id hid
  cases htask : k.state.tasks.get? id with
  | none => simp [htask] at hsome
  | some task => exact ⟨task, rfl, by simpa [htask] using hsome⟩

theorem records_recordGateVerification (ids : List String) (ref : String) :
    Records setting k (.recordGateVerification catalog ids ref) := by
  rw [Records, Kernel.step, Kernel.recordGateVerification]
  split
  · exact .inl ⟨_, rfl⟩
  rename_i hids
  split
  · exact .inl ⟨_, rfl⟩
  rename_i hevidence
  split
  · exact .inl ⟨_, rfl⟩
  rename_i hgates
  exact .inr ⟨_, _, .verified hids hevidence hgates, rfl⟩

theorem records_recordGateVerificationFailure (ids : List String) (ref : String) :
    Records setting k (.recordGateVerificationFailure catalog ids ref) := by
  rw [Records, Kernel.step, Kernel.recordGateVerificationFailure]
  split
  · exact .inl ⟨_, rfl⟩
  rename_i hids
  split
  · exact .inl ⟨_, rfl⟩
  rename_i hevidence
  split
  · exact .inl ⟨_, rfl⟩
  rename_i hgates
  exact .inr ⟨_, _, .failed hids hevidence hgates, rfl⟩

theorem records_recordTaskResults (results : List (String × TaskResult)) :
    Records setting k (.recordTaskResults catalog results) := by
  rw [Records, Kernel.step, Kernel.recordTaskResults]
  split
  · exact .inl ⟨_, rfl⟩
  rename_i bodies hbodies
  exact .inr ⟨_, _, .results hbodies, rfl⟩

/-- **What an operation does**: nothing, a rejection, a commit, or the events of a record. -/
theorem step_cases (k : Kernel) (setting : Setting) (op : Operation) :
    (∃ answer, k.step setting op = ⟨k, [], answer⟩) ∨
    (∃ catalog command code message, op = .handle catalog command ∧
      k.step setting op = k.reject command code message) ∨
    (∃ catalog command effects, op = .handle catalog command ∧
      Accepts setting.contract k catalog command ∧
      k.state.evaluate setting.contract catalog command = .ok effects ∧
      k.step setting op = k.commit setting.contract command effects) ∨
    (∃ actor bodies, Recorded setting k op bodies ∧
      k.step setting op = k.record setting.contract actor bodies) := by
  have widen {q r : Prop} (h : Records setting k op) :
      (∃ answer, k.step setting op = ⟨k, [], answer⟩) ∨ q ∨ r ∨
        ∃ actor bodies, Recorded setting k op bodies ∧
          k.step setting op = k.record setting.contract actor bodies :=
    h.imp_right fun hrecord => .inr (.inr hrecord)
  cases op with
  | handle catalog command =>
    obtain ⟨answer, h⟩ | ⟨code, message, h⟩ | ⟨effects, haccepts, heval, h⟩ :=
      handle_cases k setting.contract catalog command
    · exact .inl ⟨answer, h⟩
    · exact .inr (.inl ⟨catalog, command, code, message, rfl, h⟩)
    · exact .inr (.inr (.inl ⟨catalog, command, effects, rfl, haccepts, heval, h⟩))
  | recordTaskResults catalog results => exact widen (records_recordTaskResults results)
  | markTasksRunning ids => exact widen (records_markTasksRunning ids)
  | recordGateVerification catalog ids ref => exact widen (records_recordGateVerification ids ref)
  | recordGateVerificationFailure catalog ids ref =>
    exact widen (records_recordGateVerificationFailure ids ref)

end Steps

end HarnessLabs.Controller
