import HarnessLabs.FeatureRun.Convergence

/-!
# The flat loop and a single gate

The two verification loops run one body, `runGate`, and differ in what their common bound of
`repair_limit + 3` counts: every run of the command in the flat loop, and the passes that end in a
repair in the gate loop, where an environment retry stays in its pass. Without its label a state of
the gate loop is a state of the flat loop, and both loops go on in lockstep until the flat loop has
spent a run on an environment retry and then runs out.

* `LoopState.ungated`, `runGate_ungated` — the gate's label does not matter to the body.
* `survive` — a number of runs of the command that are each retried or repaired.
* `flat_and_gate_agree_iff` — **the loops agree unless the command outlives the bound of the flat
  loop with an environment retry among its runs.**
-/

namespace HarnessLabs.FeatureRun

universe u

variable {W : Type u}

/-! ## Without the gate's label -/

def CommandAttempt.ungated (a : CommandAttempt) : CommandAttempt := { a with gate := none }

def RepairInvocation.ungated (r : RepairInvocation) : RepairInvocation := { r with gate := none }

def TaskAttempt.ungated (t : TaskAttempt) : TaskAttempt :=
  { t with failedVerification := t.failedVerification.ungated, gate := none }

def Gate.ungated (g : Gate) : Gate := { g with label := none }

/-- The executors that answer an attempt as these answer it without the gate's label. -/
def VerificationEnv.ungated (env : VerificationEnv W) : VerificationEnv W :=
  { env with execute := fun task => env.execute task.ungated }

def Observation.ungated : Observation W → Observation W
  | .command gate attempt after => .command gate.ungated attempt.ungated after
  | .commandRaised gate message after => .commandRaised gate.ungated message after
  | .budgetDelta _ previous current renewed => .budgetDelta none previous current renewed
  | .dispatch recovery motive invocation => .dispatch recovery motive invocation.ungated
  | .repairCompleted _ recovery status outside changed after =>
    .repairCompleted none recovery status outside changed after
  | .repairInterrupted _ message after => .repairInterrupted none message after

/-- The state of the flat loop at iteration `i` that remembers what this one does of its gate. -/
def LoopState.ungated (name : String) (i : ℕ) (t : LoopState W) : LoopState W where
  world := t.world
  iteration := i
  commandAttempts := t.commandAttempts.map (·.ungated)
  repairAttempts := t.repairAttempts
  repairBudgetConsumed := t.repairBudgetConsumed
  repairInvocations := t.repairInvocations.map (·.ungated)
  memory := Function.update (fun _ => {}) none (t.memory (some name))
  history := t.history.map (·.ungated)

def GateStep.map (f : LoopState W → LoopState W) : GateStep W → GateStep W
  | .passed s => .passed (f s)
  | .envRetry s => .envRetry (f s)
  | .repaired s => .repaired (f s)
  | .ended status reason s => .ended status reason (f s)
  | .raised message s => .raised message (f s)

namespace LoopState

variable {name : String} {i : ℕ} {t : LoopState W}

@[simp] theorem memory_ungated (name : String) (i : ℕ) (t : LoopState W) :
    (t.ungated name i).memory none = t.memory (some name) := by
  simp [ungated]

@[simp] theorem world_ungated (name : String) (i : ℕ) (t : LoopState W) :
    (t.ungated name i).world = t.world := rfl

@[simp] theorem consumed_ungated (name : String) (i : ℕ) (t : LoopState W) :
    (t.ungated name i).repairBudgetConsumed = t.repairBudgetConsumed := rfl

theorem ungated_record (gate : Gate) (attempt : CommandAttempt) (after : W) :
    (t.record gate attempt after).ungated name i =
      (t.ungated name i).record gate.ungated attempt.ungated after := by
  simp [ungated, record, Observation.ungated]

theorem ungated_retryEnvironment :
    (t.retryEnvironment (some name)).ungated name i =
      (t.ungated name i).retryEnvironment none := by
  simp [ungated, retryEnvironment]

theorem ungated_settle (current : Option (Finset String)) :
    (t.settle (some name) current).ungated name i = (t.ungated name i).settle none current := by
  unfold settle
  by_cases h : (t.memory (some name)).awaitingRepairDelta = true
  · simp [h, ungated, Observation.ungated]
  · simp [h]

theorem ungated_motivate (current : Option (Finset String)) :
    (t.motivate (some name) current).ungated name i = (t.ungated name i).motivate none current := by
  simp [ungated, motivate]

theorem ungated_dispatch (recovery : Bool) (current : Option (Finset String))
    (invocation : RepairInvocation) :
    (t.dispatch recovery current invocation).ungated name i =
      (t.ungated name i).dispatch recovery current invocation.ungated := by
  simp [ungated, dispatch, Observation.ungated]

theorem ungated_moveTo (after : W) :
    (t.moveTo after).ungated name i = (t.ungated name i).moveTo after := rfl

theorem ungated_observe (observation : Observation W) (after : W) :
    (t.observe observation after).ungated name i =
      (t.ungated name i).observe observation.ungated after := by
  simp [ungated, observe]

end LoopState

open LoopState

section Body

variable {env : VerificationEnv W} {config : VerificationConfig} {name : String}
  {argv : List String} {timeout : ℚ}

theorem recoverRepair_ungated (ordinal : ℕ) (failed : CommandAttempt) (classification : String)
    (current : Option (Finset String)) (repair : TaskResult) (i : ℕ) (t : LoopState W) :
    (recoverRepair env.ungated config ⟨some name, argv, some timeout⟩ ordinal failed classification
        current repair t).map (·.ungated name i) =
      recoverRepair env config ⟨none, argv, some timeout⟩ ordinal failed.ungated classification
        current repair (t.ungated name i) := by
  unfold recoverRepair
  dsimp only
  rw [show env.ungated.execute (repairTask config ⟨some name, argv, some timeout⟩ ordinal failed
      "-recovery-1" (repair.payload.get? "error")) (t.dispatch true current
        ⟨recoveryInvocationId config.runId config.stage ordinal, classification,
          failureKeysOf current, some name⟩).world =
    env.execute (repairTask config ⟨none, argv, some timeout⟩ ordinal failed.ungated
      "-recovery-1" (repair.payload.get? "error")) ((t.ungated name i).dispatch true current
        ⟨recoveryInvocationId config.runId config.stage ordinal, classification,
          failureKeysOf current, none⟩).world from rfl]
  rcases env.execute _ _ with ⟨recovery | message | message, w⟩
  · dsimp only
    rw [show inspectRepair env.ungated config failed.command.workspace w =
      inspectRepair env config failed.ungated.command.workspace w from rfl]
    rcases inspectRepair env config failed.ungated.command.workspace w with e | ⟨outside, changed⟩
    · simp only [GateStep.map, ungated_moveTo, ungated_dispatch]
      rfl
    · dsimp only
      by_cases hs : effectiveStatus outside changed recovery.status = .succeeded
      · simp only [if_pos hs, GateStep.map, ungated_observe, ungated_dispatch]
        rfl
      · simp only [if_neg hs, GateStep.map, ungated_observe, ungated_dispatch]
        rfl
  · simp only [GateStep.map, ungated_moveTo, ungated_dispatch]
    rfl
  · simp only [GateStep.map, ungated_moveTo, ungated_dispatch]
    rfl

theorem dispatchRepair_ungated (ordinal : ℕ) (failed : CommandAttempt) (classification : String)
    (current : Option (Finset String)) (i : ℕ) (t : LoopState W) :
    (dispatchRepair env.ungated config ⟨some name, argv, some timeout⟩ ordinal failed classification
        current t).map (·.ungated name i) =
      dispatchRepair env config ⟨none, argv, some timeout⟩ ordinal failed.ungated classification
        current (t.ungated name i) := by
  unfold dispatchRepair
  dsimp only
  rw [show env.ungated.execute (repairTask config ⟨some name, argv, some timeout⟩ ordinal failed
      "" none) ((t.motivate (some name) current).dispatch false current
        ⟨repairInvocationId config.runId config.stage ordinal, classification,
          failureKeysOf current, some name⟩).world =
    env.execute (repairTask config ⟨none, argv, some timeout⟩ ordinal failed.ungated
      "" none) (((t.ungated name i).motivate none current).dispatch false current
        ⟨repairInvocationId config.runId config.stage ordinal, classification,
          failureKeysOf current, none⟩).world from rfl]
  rcases env.execute _ _ with ⟨repair | message | message, w⟩
  · dsimp only
    rw [show inspectRepair env.ungated config failed.command.workspace w =
      inspectRepair env config failed.ungated.command.workspace w from rfl]
    rcases inspectRepair env config failed.ungated.command.workspace w with e | ⟨outside, changed⟩
    · simp only [GateStep.map, ungated_moveTo, ungated_dispatch, ungated_motivate]
      rfl
    · dsimp only
      split_ifs with hs hn
      · simp only [GateStep.map, ungated_observe, ungated_dispatch, ungated_motivate]
        rfl
      · rw [recoverRepair_ungated]
        simp only [ungated_observe, ungated_dispatch, ungated_motivate]
        rfl
      · simp only [GateStep.map, ungated_observe, ungated_dispatch, ungated_motivate]
        rfl
      · simp only [GateStep.map, ungated_observe, ungated_dispatch, ungated_motivate]
        rfl
  · simp only [GateStep.map, ungated_observe, ungated_dispatch, ungated_motivate]
    rfl
  · simp only [GateStep.map, ungated_moveTo, ungated_dispatch, ungated_motivate]
    rfl

theorem handleFailure_ungated (ordinal : ℕ) (failed : CommandAttempt) (i : ℕ) (t : LoopState W) :
    (handleFailure env.ungated config ⟨some name, argv, some timeout⟩ ordinal failed t).map
        (·.ungated name i) =
      handleFailure env config ⟨none, argv, some timeout⟩ ordinal failed.ungated
        (t.ungated name i) := by
  unfold handleFailure
  simp only [memory_ungated, ← ungated_settle, consumed_ungated]
  rw [show env.ungated.classifyVerificationFailure failed.command =
      env.classifyVerificationFailure failed.ungated.command from rfl,
    show env.ungated.failingIdentifiers failed.command =
      env.failingIdentifiers failed.ungated.command from rfl]
  split_ifs
  · simp only [GateStep.map, ungated_retryEnvironment]
  · rfl
  · exact dispatchRepair_ungated ordinal failed _ _ i _

/-- **One run of the gate is one run of the flat command, on states without the label.** -/
theorem runGate_ungated (ordinal i : ℕ) (t : LoopState W) :
    (runGate env.ungated config ⟨some name, argv, some timeout⟩ ordinal t).map (·.ungated name i) =
      runGate env config ⟨none, argv, some timeout⟩ ordinal (t.ungated name i) := by
  unfold runGate
  rw [show runVerificationCommand env.ungated config.stage ⟨some name, argv, some timeout⟩ ordinal
      t.world = runVerificationCommand env config.stage ⟨none, argv, some timeout⟩ ordinal
        (t.ungated name i).world from rfl]
  rcases runVerificationCommand env config.stage ⟨none, argv, some timeout⟩ ordinal
    (t.ungated name i).world with ⟨e | command, w⟩
  · simp only [GateStep.map, ungated_observe]
    rfl
  · dsimp only
    split_ifs
    · simp only [GateStep.map, ungated_record]
      rfl
    · rw [handleFailure_ungated, ungated_record]
      rfl

end Body

/-! ## What a loop is seen to do -/

/-- A run of a command, or a dispatched repair under its invocation id. -/
inductive Performed where
  | command (argv : List String) (timeoutSeconds : Option ℚ)
  | dispatch (invocationId : String)
  deriving DecidableEq

def Observation.performed : Observation W → Option Performed
  | .command gate _ _ => some (.command gate.argv gate.timeoutSeconds)
  | .commandRaised gate _ _ => some (.command gate.argv gate.timeoutSeconds)
  | .dispatch _ _ invocation => some (.dispatch invocation.invocationId)
  | _ => none

theorem performed_ungated (o : Observation W) : o.ungated.performed = o.performed := by
  cases o <;> rfl

/-- The commands that were run and the repairs that were dispatched, in order. -/
def Outcome.performed (o : Outcome W) : List Performed :=
  o.state.history.reverse.filterMap Observation.performed

/-- The status, the number of repairs and their invocation ids. -/
def VerificationResult.answer (r : VerificationResult) : String × ℕ × List String :=
  (r.status, r.repairAttempts, r.repairInvocationIds)

/-- **The same commands and repairs are run and the same result is returned, or none is.** -/
def Agree (first second : Outcome W) : Prop :=
  first.performed = second.performed ∧
    first.result?.map (·.answer) = second.result?.map (·.answer)

/-- What a loop has done, of which an outcome keeps the rest. -/
def LoopState.performed (s : LoopState W) : List Performed :=
  s.history.filterMap Observation.performed

theorem performed_state_ungated (name : String) (i : ℕ) (t : LoopState W) :
    (t.ungated name i).performed = t.performed := by
  simp [LoopState.performed, ungated, List.filterMap_map, performed_ungated]

theorem answer_ungated (name : String) (i : ℕ) (t : LoopState W) (status reason other : String) :
    ((t.ungated name i).result status reason).answer = (t.result status other).answer := by
  simp [LoopState.result, VerificationResult.answer, VerificationResult.repairInvocationIds,
    ungated, RepairInvocation.ungated, Function.comp_def]

theorem agree_returned (name : String) (i : ℕ) (t : LoopState W) (status reason other : String) :
    Agree (.returned ((t.ungated name i).result status reason) (t.ungated name i))
      (.returned (t.result status other) t) := by
  refine ⟨?_, congrArg some (answer_ungated name i t status reason other)⟩
  have h := congrArg List.reverse (performed_state_ungated name i t)
  simpa only [Outcome.performed, Outcome.state, LoopState.performed, List.filterMap_reverse]

theorem agree_raised (name : String) (i : ℕ) (t : LoopState W) (message : String) :
    Agree (.raised message (t.ungated name i)) (.raised message t) := by
  refine ⟨?_, rfl⟩
  have h := congrArg List.reverse (performed_state_ungated name i t)
  simpa only [Outcome.performed, Outcome.state, LoopState.performed, List.filterMap_reverse]

/-! ## Loops only do more -/

def GateStep.state : GateStep W → LoopState W
  | .passed s => s
  | .envRetry s => s
  | .repaired s => s
  | .ended _ _ s => s
  | .raised _ s => s

def Pass.state : Pass W → LoopState W
  | .succeeded _ s => s
  | .again s => s
  | .ended _ _ s => s
  | .raised _ s => s

section Grows

variable {env : VerificationEnv W} {config : VerificationConfig} {s t : LoopState W}

theorem performed_settle (s : LoopState W) (label : Option String)
    (current : Option (Finset String)) : (s.settle label current).performed = s.performed := by
  unfold settle
  by_cases h : (s.memory label).awaitingRepairDelta = true
  · rw [if_pos h]
    rfl
  · rw [if_neg h]

theorem RepairEnds.performed {label : Option String} {r : GateStep W} (h : RepairEnds label s r) :
    r.state.performed = s.performed := by
  cases h <;> rfl

theorem runGate_performed (gate : Gate) (ordinal : ℕ) (s : LoopState W) :
    s.performed.length < (runGate env config gate ordinal s).state.performed.length := by
  rcases runGate_cases (Eq.refl (runGate env config gate ordinal s)) with
    ⟨e, w, -, hr⟩ | ⟨command, w, -, ⟨-, hr⟩ | ⟨-, hf⟩⟩
  · rw [hr]
    exact Nat.lt_succ_self _
  · rw [hr]
    exact Nat.lt_succ_self _
  · refine Nat.lt_of_lt_of_le (Nat.lt_succ_self s.performed.length) ?_
    rcases handleFailure_cases hf with ⟨-, hr⟩ | ⟨reason, hr⟩ | ⟨-, classification, hd⟩
    · rw [hr]
      exact Nat.le_refl _
    · rw [hr]
      show _ ≤ (settle _ _ _).performed.length
      rw [performed_settle]
      exact Nat.le_refl _
    · rcases dispatchRepair_ends rfl hd with hr | ⟨after, hr⟩
      · rw [hr.performed]
        show _ ≤ (settle _ _ _).performed.length + 1
        rw [performed_settle]
        exact Nat.le_succ _
      · rw [hr.performed]
        show _ ≤ (settle _ _ _).performed.length + 1 + 1
        rw [performed_settle]
        exact Nat.le_add_right _ 2

theorem gatesPass_performed (gates : List VerificationGate) (s : LoopState W) :
    s.performed.length ≤ (gatesPass env config gates s).state.performed.length := by
  have hgate (gate : VerificationGate) (s : LoopState W) :=
    @runGate_performed W env config gate.toGate (s.commandAttempts.length + 1) s
  induction gates, s using gatesPass.induct env config with
  | case1 s =>
    rw [gatesPass]
    exact Nat.le_refl _
  | case2 s gate rest t hr ih | case3 s gate rest t hr ih =>
    have hg := hgate gate s
    rw [hr] at hg
    rw [gatesPass, hr]
    exact hg.le.trans ih
  | case4 s gate rest t hr | case5 s gate rest status reason t hr
  | case6 s gate rest message t hr =>
    have hg := hgate gate s
    rw [hr] at hg
    rw [gatesPass, hr]
    exact hg.le

theorem iterate_performed {pass : LoopState W → Pass W}
    (hpass : ∀ s, s.performed.length ≤ (pass s).state.performed.length) (n : ℕ)
    (s : LoopState W) : s.performed.length ≤ (iterate pass n s).state.performed.length := by
  induction n generalizing s with
  | zero => exact Nat.le_refl _
  | succ n ih =>
    have hp : s.performed.length ≤ _ := hpass { s with iteration := s.iteration + 1 }
    unfold iterate
    cases h : pass { s with iteration := s.iteration + 1 } with
    | succeeded reason t => rwa [h] at hp
    | again t =>
      rw [h] at hp
      exact hp.trans (ih t)
    | ended status reason t => rwa [h] at hp
    | raised message t => rwa [h] at hp

end Grows

/-! ## A gate loop that has one gate -/

section Single

variable {env : VerificationEnv W} {config : VerificationConfig} {gate : VerificationGate}
  {s t : LoopState W}

/-- The rest of a gate loop in the middle of a pass, with `m` passes to follow. -/
def rest (env : VerificationEnv W) (config : VerificationConfig) (gate : VerificationGate) (m : ℕ)
    (s : LoopState W) : Outcome W :=
  match gatesPass env config [gate] s with
  | .succeeded reason t => .returned (t.result "succeeded" reason) t
  | .again t => iterate (gatesPass env config [gate]) m t
  | .ended status reason t => .returned (t.result status reason) t
  | .raised message t => .raised message t

/-- What the run of the gate leads the rest of the loop to. -/
theorem rest_eq (m : ℕ) (s : LoopState W) :
    rest env config gate m s =
      match runGate env config gate.toGate (s.commandAttempts.length + 1) s with
      | .passed t => .returned (t.result "succeeded" "declared verification gate tuple passed") t
      | .envRetry t => rest env config gate m t
      | .repaired t => iterate (gatesPass env config [gate]) m t
      | .ended status reason t => .returned (t.result status reason) t
      | .raised message t => .raised message t := by
  conv_lhs => unfold rest
  rw [gatesPass]
  cases h : runGate env config gate.toGate (s.commandAttempts.length + 1) s with
  | passed t => simp [gatesPass]
  | envRetry t => simp [rest]
  | repaired t => simp
  | ended status reason t => simp
  | raised message t => simp

end Single

/-! ## Lockstep -/

/-- The state after `n` runs of the command, where each of them is retried or repaired. -/
def survive (env : VerificationEnv W) (config : VerificationConfig) (gate : Gate) :
    ℕ → LoopState W → Option (LoopState W)
  | 0, s => some s
  | n + 1, s =>
    match runGate env config gate (s.iteration + 1) { s with iteration := s.iteration + 1 } with
    | .envRetry t => survive env config gate n t
    | .repaired t => survive env config gate n t
    | _ => none

section Lockstep

variable {env : VerificationEnv W} {config : VerificationConfig} {gate : VerificationGate}
  {s t : LoopState W}

theorem commandAttempts_settle (s : LoopState W) (label : Option String)
    (current : Option (Finset String)) :
    (s.settle label current).commandAttempts = s.commandAttempts := by
  unfold settle
  split_ifs <;> rfl

theorem memory_settle (s : LoopState W) (label : Option String)
    (current : Option (Finset String)) : (s.settle label current).memory = s.memory := by
  unfold settle
  split_ifs <;> rfl

theorem RepairEnds.of_repaired {label : Option String} (h : RepairEnds label s (.repaired t)) :
    t.commandAttempts = s.commandAttempts ∧ t.memory = s.memory := by
  cases h
  exact ⟨rfl, rfl⟩

theorem runGate_repaired {g : Gate} {ordinal : ℕ} (h : runGate env config g ordinal s = .repaired t) :
    t.commandAttempts.length = s.commandAttempts.length + 1 ∧
      (t.memory g.label).envRetries = (s.memory g.label).envRetries := by
  rcases runGate_cases h with ⟨e, w, -, he⟩ | ⟨command, w, -, ⟨-, hp⟩ | ⟨-, hf⟩⟩
  · cases he
  · cases hp
  · rcases handleFailure_cases hf with ⟨-, hr⟩ | ⟨reason, hr⟩ | ⟨-, classification, hd⟩
    · cases hr
    · cases hr
    · rcases dispatchRepair_ends rfl hd with hr | ⟨after, hr⟩
      all_goals
        obtain ⟨hc, hm⟩ := hr.of_repaired
        rw [hc, hm]
        simp [observe, dispatch, motivate, commandAttempts_settle, memory_settle, record]

theorem runGate_envRetry_commands {g : Gate} {ordinal : ℕ}
    (h : runGate env config g ordinal s = .envRetry t) :
    t.commandAttempts.length = s.commandAttempts.length + 1 := by
  rcases runGate_cases h with ⟨e, w, -, he⟩ | ⟨command, w, -, ⟨-, hp⟩ | ⟨-, hf⟩⟩
  · cases he
  · cases hp
  · rcases handleFailure_cases hf with ⟨-, hr⟩ | ⟨reason, hr⟩ | ⟨-, classification, hd⟩
    · cases hr
      simp [retryEnvironment, record]
    · cases hr
    · rcases dispatchRepair_ends rfl hd with hr | ⟨after, hr⟩
      · exact absurd rfl hr.ne_envRetry
      · exact absurd rfl hr.ne_envRetry

/-- In the middle of a pass the gate is run once more. -/
theorem rest_performed (m : ℕ) (s : LoopState W) :
    s.performed.length < (rest env config gate m s).state.performed.length := by
  have hg := @runGate_performed W env config gate.toGate (s.commandAttempts.length + 1) s
  have hpass := @gatesPass_performed W env config [gate]
  have hr (t : LoopState W) : t.performed.length ≤ (rest env config gate m t).state.performed.length := by
    have hp := hpass t
    unfold rest
    cases h : gatesPass env config [gate] t with
    | succeeded reason u => rwa [h] at hp
    | again u =>
      rw [h] at hp
      exact hp.trans (iterate_performed hpass m u)
    | ended status reason u => rwa [h] at hp
    | raised message u => rwa [h] at hp
  rw [rest_eq]
  cases h : runGate env config gate.toGate (s.commandAttempts.length + 1) s with
  | passed t => rwa [h] at hg
  | envRetry t =>
    rw [h] at hg
    exact Nat.lt_of_lt_of_le hg (hr t)
  | repaired t =>
    rw [h] at hg
    exact Nat.lt_of_lt_of_le hg (iterate_performed hpass m t)
  | ended status reason t => rwa [h] at hg
  | raised message t => rwa [h] at hg

/-- An outcome that performs more is another one. -/
theorem not_agree_of_performed {first second : Outcome W}
    (h : first.state.performed.length < second.state.performed.length) : ¬ Agree first second := by
  intro hagree
  have hl := congrArg List.length hagree.1
  simp only [Outcome.performed, List.filterMap_reverse, List.length_reverse] at hl
  exact absurd hl (Nat.ne_of_lt h)

theorem iterate_ungated (n i : ℕ) (t : LoopState W) :
    iterate (flatPass env config gate.toGate.ungated) (n + 1) (t.ungated gate.name i) =
      match runGate env.ungated config gate.toGate (i + 1) t with
      | .passed u => .returned ((u.ungated gate.name (i + 1)).result "succeeded"
          "declared verification command passed") (u.ungated gate.name (i + 1))
      | .envRetry u =>
        iterate (flatPass env config gate.toGate.ungated) n (u.ungated gate.name (i + 1))
      | .repaired u =>
        iterate (flatPass env config gate.toGate.ungated) n (u.ungated gate.name (i + 1))
      | .ended status reason u =>
        .returned ((u.ungated gate.name (i + 1)).result status reason) (u.ungated gate.name (i + 1))
      | .raised message u => .raised message (u.ungated gate.name (i + 1)) := by
  have hrun : (runGate env.ungated config gate.toGate (i + 1) t).map (·.ungated gate.name (i + 1)) =
      runGate env config gate.toGate.ungated (i + 1) (t.ungated gate.name (i + 1)) :=
    runGate_ungated (i + 1) (i + 1) t
  have hpass : flatPass env config gate.toGate.ungated { t.ungated gate.name i with
      iteration := (t.ungated gate.name i).iteration + 1 } =
        flatPass env config gate.toGate.ungated (t.ungated gate.name (i + 1)) := rfl
  rw [iterate, hpass, flatPass]
  rw [show (t.ungated gate.name (i + 1)).iteration = i + 1 from rfl, ← hrun]
  cases runGate env.ungated config gate.toGate (i + 1) t <;> rfl

theorem survive_ungated (n i : ℕ) (t : LoopState W) :
    survive env config gate.toGate.ungated (n + 1) (t.ungated gate.name i) =
      match runGate env.ungated config gate.toGate (i + 1) t with
      | .envRetry u => survive env config gate.toGate.ungated n (u.ungated gate.name (i + 1))
      | .repaired u => survive env config gate.toGate.ungated n (u.ungated gate.name (i + 1))
      | _ => none := by
  have hrun : (runGate env.ungated config gate.toGate (i + 1) t).map (·.ungated gate.name (i + 1)) =
      runGate env config gate.toGate.ungated (i + 1) (t.ungated gate.name (i + 1)) :=
    runGate_ungated (i + 1) (i + 1) t
  have hnext : { t.ungated gate.name i with
      iteration := (t.ungated gate.name i).iteration + 1 } = t.ungated gate.name (i + 1) := rfl
  rw [survive, hnext]
  rw [show (t.ungated gate.name i).iteration + 1 = i + 1 from rfl, ← hrun]
  cases runGate env.ungated config gate.toGate (i + 1) t <;> rfl

/-- **Lockstep.** The flat loop has `n` runs left and the gate loop `m` passes behind the one it is
in, and they differ by the environment retries: the retries taken are runs that the flat loop has
counted and the gate loop has not. -/
theorem lockstep (n m i : ℕ) (t : LoopState W) (hi : t.commandAttempts.length = i)
    (hb : n + (t.memory (some gate.name)).envRetries = m + 1) :
    Agree (iterate (flatPass env config gate.toGate.ungated) n (t.ungated gate.name i))
        (rest env.ungated config gate m t) ↔
      ¬ ∃ u, survive env config gate.toGate.ungated n (t.ungated gate.name i) = some u ∧
        0 < (u.memory none).envRetries := by
  induction n generalizing m i t with
  | zero =>
    refine iff_of_false (not_agree_of_performed ?_) ?_
    · have h := @rest_performed W env.ungated config gate m t
      rwa [← performed_state_ungated gate.name i t] at h
    · intro h
      refine h ⟨t.ungated gate.name i, rfl, ?_⟩
      rw [memory_ungated]
      omega
  | succ n ih =>
    rw [rest_eq, hi, iterate_ungated, survive_ungated]
    cases hr : runGate env.ungated config gate.toGate (i + 1) t with
    | passed u => exact iff_of_true (agree_returned _ _ _ _ _ _) (by simp)
    | ended status reason u => exact iff_of_true (agree_returned _ _ _ _ _ _) (by simp)
    | raised message u => exact iff_of_true (agree_raised _ _ _ _) (by simp)
    | envRetry u =>
      have hc := runGate_envRetry_commands hr
      have he : (u.memory (some gate.name)).envRetries = _ := (runGate_envRetry hr).2
      refine ih m (i + 1) u (by omega) ?_
      rw [he]
      show n + ((t.memory (some gate.name)).envRetries + 1) = m + 1
      omega
    | repaired u =>
      obtain ⟨hc, he⟩ := runGate_repaired hr
      have he : (u.memory (some gate.name)).envRetries = (t.memory (some gate.name)).envRetries := he
      cases m with
      | succ m =>
        exact ih m (i + 1) { u with iteration := u.iteration + 1 } (by simpa [hi] using hc)
          (by dsimp only; omega)
      | zero =>
        -- the last pass ends in a repair: no retry has been taken, and both loops run out
        obtain ⟨rfl, h0⟩ : n = 0 ∧ (u.memory (some gate.name)).envRetries = 0 := by omega
        refine iff_of_true (agree_returned _ _ _ _ _ _) ?_
        rintro ⟨v, hv, hlt⟩
        cases hv
        rw [memory_ungated, h0] at hlt
        exact absurd hlt (Nat.lt_irrefl 0)

end Lockstep

/-- **The first `repair_limit + 3` runs of the command all fail and are each retried or repaired,
and one at least is retried as an infrastructure transient.** -/
def RetriedUpToBound (env : VerificationEnv W) (config : VerificationConfig) (gate : Gate) (w : W) :
    Prop :=
  ∃ t, survive env config gate (config.repairLimit + 3) { world := w } = some t ∧
    0 < (t.memory none).envRetries

theorem ungated_start (name : String) (w : W) :
    LoopState.ungated name 0 { world := w, iteration := 1 } = { world := w } := by
  simp [ungated]

/-- **The loops agree exactly where no environment retry is among the runs that exhaust the flat
loop.** The executors answer an attempt for the gate as they answer the same attempt without its
label. -/
theorem flat_and_gate_agree_iff (env : VerificationEnv W) (config : VerificationConfig)
    (gate : VerificationGate) (w : W) :
    Agree (verifyWithRecovery env config gate.argv (some gate.timeoutSeconds) w)
        (verifyGatesWithRecovery env.ungated config [gate] w) ↔
      ¬ RetriedUpToBound env config ⟨none, gate.argv, some gate.timeoutSeconds⟩ w := by
  have hlock := @lockstep W env config gate (config.repairLimit + 3) (config.repairLimit + 2) 0
    { world := w, iteration := 1 } rfl rfl
  rw [ungated_start] at hlock
  exact hlock

/-- The command is hit by two transients, then fails two tests, then one of them, then passes; every
repair completes. -/
def shakyStart : VerificationEnv ℕ :=
  { scripted (fun _ n => ([9, 9, 2, 1].getD n 0, n + 1)) fun n => (.succeeded, .null, n) with
    classifyVerificationFailure := fun c =>
      if c.exitCode = 9 then ⟨"infrastructure_transient", "timeout", ""⟩
      else ⟨"product", "product-assertion", ""⟩ }

/-- Behind two transients the flat loop is exhausted by two repairs, with its allowance renewed; the
gate loop runs the command once more. -/
theorem loops_differ_after_transients :
    (verifyWithRecovery shakyStart scriptedConfig ["pytest"] (some 60) 0).result?.map (·.answer) =
        some ("blocked", 2, ["run:verification-repair:post_implementation:3",
          "run:verification-repair:post_implementation:4"]) ∧
      ¬ Agree (verifyWithRecovery shakyStart scriptedConfig ["pytest"] (some 60) 0)
        (verifyGatesWithRecovery shakyStart.ungated scriptedConfig [⟨"tests", ["pytest"], 60⟩] 0) := by
  refine ⟨by decide +kernel, ?_⟩
  have hlock := @lockstep ℕ shakyStart scriptedConfig ⟨"tests", ["pytest"], 60⟩ 4 3 0
    { world := 0, iteration := 1 } rfl rfl
  rw [ungated_start] at hlock
  refine fun h => hlock.1 h ?_
  have hs : (survive shakyStart scriptedConfig ⟨none, ["pytest"], some 60⟩ 4
      { world := 0 }).map (fun t => (t.memory none).envRetries) = some 2 := by
    decide +kernel
  obtain ⟨t, ht, h2⟩ := Option.map_eq_some_iff.1 hs
  exact ⟨t, ht, by omega⟩

end HarnessLabs.FeatureRun
