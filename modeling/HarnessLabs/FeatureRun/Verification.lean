import HarnessLabs.FeatureRun.Command
import Mathlib.Data.String.Basic

/-!
# The verification loops

Both loops of a verification stage: one flat command, and an ordered tuple of named gates. A pass
runs the command or the gates; a failure that is not an infrastructure transient is repaired, and a
repair that changed nothing gets one recovery. `repair_limit + 3` passes bound either loop.

The parties are functions on an arbitrary world: the subprocess, the repair executors and the
worktree snapshot. What a loop does is kept in its history, newest first.

* `runGate` — one run of one gate, with what follows from it.
* `verifyWithRecovery`, `verifyGatesWithRecovery` — the loops.
-/

namespace HarnessLabs.FeatureRun

universe u

/-! ## Parties -/

/-- What a subprocess left; a timeout has exit code 124, a failed start 127. -/
structure Completed where
  exitCode : ℤ
  stdout : String
  stderr : String
  timedOut : Bool
  durationMs : ℕ

/-- The attempt that a repair executor is given, with its context. -/
structure TaskAttempt where
  attemptId : String
  contextRef : String
  objective : String
  acceptanceCriteria : List Json
  allowedPaths : List String
  failedVerification : CommandAttempt
  repairAttempt : ℕ
  repairLimit : ℕ
  gate : Option String
  recoveryReason : Option Json

inductive Executed where
  | result (result : TaskResult)
  | interrupted (message : String)
  | raised (message : String)

/-- What a verification stage consults. -/
structure VerificationEnv (W : Type u) where
  cwd : String
  workspaceSnapshot : W → Except String Workspace
  pytestBasetempArgv : String → List String → List String
  subprocess : List String → Option ℚ → W → Completed × W
  classifyVerificationFailure : Command → Failure
  failingIdentifiers : Command → Option (Finset String)
  captureFailureImages : Command → W → Option Json
  execute : TaskAttempt → W → Executed × W

structure VerificationConfig where
  runId : String
  objective : String
  acceptanceCriteria : List Json
  allowedPaths : List String
  repairLimit : ℕ
  stage : String

/-- A command to run: the flat one has no label. -/
structure Gate where
  label : Option String
  argv : List String
  timeoutSeconds : Option ℚ

structure VerificationGate where
  name : String
  argv : List String
  timeoutSeconds : ℚ

def VerificationGate.toGate (gate : VerificationGate) : Gate :=
  ⟨some gate.name, gate.argv, some gate.timeoutSeconds⟩

/-! ## Loop state -/

/-- What a loop does, with the world it leaves. -/
inductive Observation (W : Type u) where
  | command (gate : Gate) (attempt : CommandAttempt) (after : W)
  | commandRaised (gate : Gate) (message : String) (after : W)
  | budgetDelta (gate : Option String) (previous current : Option (Finset String)) (renewed : Bool)
  | dispatch (recovery : Bool) (motive : Option (Finset String)) (invocation : RepairInvocation)
  | repairCompleted (gate : Option String) (recovery : Bool) (status : AttemptStatus)
      (outside : List String) (identityChanged : Bool) (after : W)
  | repairInterrupted (gate : Option String) (message : String) (after : W)

/-- What a loop remembers of one gate. -/
structure GateMemory where
  envRetries : ℕ := 0
  previousFailingIds : Option (Finset String) := none
  awaitingRepairDelta : Bool := false

structure LoopState (W : Type u) where
  world : W
  iteration : ℕ := 0
  commandAttempts : List CommandAttempt := []
  repairAttempts : ℕ := 0
  repairBudgetConsumed : ℤ := 0
  repairInvocations : List RepairInvocation := []
  memory : Option String → GateMemory := fun _ => {}
  history : List (Observation W) := []

variable {W : Type u}

namespace LoopState

def result (s : LoopState W) (status reason : String) : VerificationResult :=
  ⟨status, reason, s.commandAttempts, s.repairAttempts, s.repairInvocations⟩

def record (s : LoopState W) (gate : Gate) (attempt : CommandAttempt) (after : W) : LoopState W :=
  { s with
    world := after
    commandAttempts := s.commandAttempts ++ [attempt]
    history := .command gate attempt after :: s.history }

def retryEnvironment (s : LoopState W) (label : Option String) : LoopState W :=
  let old := s.memory label
  { s with memory := Function.update s.memory label { old with envRetries := old.envRetries + 1 } }

end LoopState

/-- The rerun's failing set is a nonempty strict subset of the one that motivated the repair. -/
def isRenewal (previous current : Option (Finset String)) : Bool :=
  match previous, current with
  | some p, some c => decide (c ≠ ∅) && decide (c ⊂ p)
  | _, _ => false

namespace LoopState

/-- Account for the last repair of the gate. -/
def settle (s : LoopState W) (label : Option String) (current : Option (Finset String)) :
    LoopState W :=
  let previous := (s.memory label).previousFailingIds
  if (s.memory label).awaitingRepairDelta then
    { s with
      repairBudgetConsumed :=
        if isRenewal previous current then s.repairBudgetConsumed - 1 else s.repairBudgetConsumed
      history := .budgetDelta label previous current (isRenewal previous current) :: s.history }
  else s

def motivate (s : LoopState W) (label : Option String) (current : Option (Finset String)) :
    LoopState W :=
  let new := { s.memory label with previousFailingIds := current, awaitingRepairDelta := true }
  { s with memory := Function.update s.memory label new }

def dispatch (s : LoopState W) (recovery : Bool) (current : Option (Finset String))
    (invocation : RepairInvocation) : LoopState W :=
  { s with
    repairAttempts := s.repairAttempts + 1
    repairBudgetConsumed := s.repairBudgetConsumed + 1
    repairInvocations := s.repairInvocations ++ [invocation]
    history := .dispatch recovery current invocation :: s.history }

def moveTo (s : LoopState W) (after : W) : LoopState W := { s with world := after }

/-- Append to the history what left the world as it is now. -/
def observe (s : LoopState W) (observation : Observation W) (after : W) : LoopState W :=
  { s with world := after, history := observation :: s.history }

end LoopState

/-! ## One gate -/

/-- `_run_verification_command`. -/
def runVerificationCommand (env : VerificationEnv W) (stage : String) (gate : Gate) (ordinal : ℕ)
    (w : W) : Except String Command × W :=
  let executed := env.pytestBasetempArgv stage gate.argv
  let run := env.subprocess executed gate.timeoutSeconds w
  match env.workspaceSnapshot run.2 with
  | .error e => (.error e, run.2)
  | .ok workspace =>
    (.ok { stage, attempt := ordinal, argv := gate.argv, cwd := env.cwd
           exitCode := run.1.exitCode, stdout := run.1.stdout, stderr := run.1.stderr
           timedOut := run.1.timedOut, durationMs := run.1.durationMs, workspace
           executedArgv := if executed ≠ gate.argv then some executed else none }, run.2)

/-- The record of a command; a failed one is classified and has its images attached. -/
def recorded (env : VerificationEnv W) (config : VerificationConfig) (gate : Gate) (ordinal : ℕ)
    (command : Command) (after : W) : CommandAttempt where
  command := command
  evidenceRef := contentRef command.toJson
  invocationId := commandInvocationId config.runId config.stage ordinal
  gate := gate.label
  failure :=
    if command.exitCode ≠ 0 then some (env.classifyVerificationFailure command) else none
  imageArtifacts :=
    if command.exitCode ≠ 0 then env.captureFailureImages command after else none

/-- What one run of a gate leads to. -/
inductive GateStep (W : Type u) where
  | passed (s : LoopState W)
  | envRetry (s : LoopState W)
  | repaired (s : LoopState W)
  | ended (status reason : String) (s : LoopState W)
  | raised (message : String) (s : LoopState W)

/-- The changed paths outside the scope, and whether head or branch moved. -/
def inspectRepair (env : VerificationEnv W) (config : VerificationConfig) (prior : Workspace)
    (w : W) : Except String (List String × Bool) :=
  match env.workspaceSnapshot w with
  | .error e => .error e
  | .ok workspace =>
    match pathsOutsideScope workspace.changedPaths config.allowedPaths with
    | .error e => .error e
    | .ok outside =>
      .ok (outside, decide (workspace.head ≠ prior.head ∨ workspace.branch ≠ prior.branch))

def effectiveStatus (outside : List String) (identityChanged : Bool) (status : AttemptStatus) :
    AttemptStatus :=
  if outside ≠ [] ∨ identityChanged then .failed else status

def noChangeError : String := "writable worker completed without changing the repository"

def failureKeysOf (current : Option (Finset String)) : List String :=
  current.elim [] fun ids => ids.sort (· ≤ ·)

def repairTask (config : VerificationConfig) (gate : Gate) (ordinal : ℕ)
    (failed : CommandAttempt) (suffix : String) (reason : Option Json) : TaskAttempt where
  attemptId := config.runId ++ "/verification-repair/" ++ toString ordinal ++ suffix
  contextRef := failed.evidenceRef
  objective := config.objective
  acceptanceCriteria := config.acceptanceCriteria
  allowedPaths := config.allowedPaths
  failedVerification := failed
  repairAttempt := ordinal
  repairLimit := config.repairLimit
  gate := gate.label
  recoveryReason := reason

/-- The one recovery of a repair that changed nothing. Its interruption is not caught. -/
def recoverRepair (env : VerificationEnv W) (config : VerificationConfig) (gate : Gate)
    (ordinal : ℕ) (failed : CommandAttempt) (classification : String)
    (current : Option (Finset String)) (repair : TaskResult) (s : LoopState W) : GateStep W :=
  let task := repairTask config gate ordinal failed "-recovery-1" (repair.payload.get? "error")
  let s := s.dispatch true current
    ⟨recoveryInvocationId config.runId config.stage ordinal, classification,
      failureKeysOf current, gate.label⟩
  match env.execute task s.world with
  | (.interrupted message, w) => .raised message (s.moveTo w)
  | (.raised message, w) => .raised message (s.moveTo w)
  | (.result recovery, w) =>
    match inspectRepair env config failed.command.workspace w with
    | .error e => .raised e (s.moveTo w)
    | .ok (outside, identityChanged) =>
      let status := effectiveStatus outside identityChanged recovery.status
      let s := s.observe (.repairCompleted gate.label true status outside identityChanged w) w
      if status = .succeeded then .repaired s
      else .ended "blocked" ("verification repair " ++ repair.status.text) s

/-- Dispatch a repair of the failed command. -/
def dispatchRepair (env : VerificationEnv W) (config : VerificationConfig) (gate : Gate)
    (ordinal : ℕ) (failed : CommandAttempt) (classification : String)
    (current : Option (Finset String)) (s : LoopState W) : GateStep W :=
  let task := repairTask config gate ordinal failed "" none
  let s := (s.motivate gate.label current).dispatch false current
    ⟨repairInvocationId config.runId config.stage ordinal, classification,
      failureKeysOf current, gate.label⟩
  match env.execute task s.world with
  | (.interrupted message, w) =>
    .ended "interrupted" (if message = "" then "verification repair interrupted" else message)
      (s.observe (.repairInterrupted gate.label message w) w)
  | (.raised message, w) => .raised message (s.moveTo w)
  | (.result repair, w) =>
    match inspectRepair env config failed.command.workspace w with
    | .error e => .raised e (s.moveTo w)
    | .ok (outside, identityChanged) =>
      let status := effectiveStatus outside identityChanged repair.status
      let s := s.observe (.repairCompleted gate.label false status outside identityChanged w) w
      if status = .succeeded then .repaired s
      else if outside = [] ∧ identityChanged = false ∧ repair.status = .failed ∧
          repair.payload.get? "error" = some (.str noChangeError) then
        recoverRepair env config gate ordinal failed classification current repair s
      else
        .ended "blocked"
          (if outside ≠ [] ∨ identityChanged then "verification repair escaped its grant"
           else "verification repair " ++ repair.status.text) s

/-- What follows a failed command: an environment retry, the end of the budget, or a repair. -/
def handleFailure (env : VerificationEnv W) (config : VerificationConfig) (gate : Gate)
    (ordinal : ℕ) (failed : CommandAttempt) (s : LoopState W) : GateStep W :=
  let classification := (env.classifyVerificationFailure failed.command).classification
  if classification = "infrastructure_transient" ∧ (s.memory gate.label).envRetries < 2 then
    .envRetry (s.retryEnvironment gate.label)
  else
    let current := env.failingIdentifiers failed.command
    let s := s.settle gate.label current
    if s.repairBudgetConsumed ≥ config.repairLimit then
      .ended "blocked" "declared verification command still fails after repair budget" s
    else dispatchRepair env config gate ordinal failed classification current s

/-- One run of a gate. -/
def runGate (env : VerificationEnv W) (config : VerificationConfig) (gate : Gate) (ordinal : ℕ)
    (s : LoopState W) : GateStep W :=
  match runVerificationCommand env config.stage gate ordinal s.world with
  | (.error e, w) => .raised e (s.observe (.commandRaised gate e w) w)
  | (.ok command, w) =>
    let attempt := recorded env config gate ordinal command w
    let s := s.record gate attempt w
    if command.exitCode = 0 then .passed s
    else handleFailure env config gate ordinal attempt s

/-! ## Passes -/

/-- What one pass of a loop leads to. -/
inductive Pass (W : Type u) where
  | succeeded (reason : String) (s : LoopState W)
  | again (s : LoopState W)
  | ended (status reason : String) (s : LoopState W)
  | raised (message : String) (s : LoopState W)

/-- The body of the flat loop: an environment retry takes a pass of its own. -/
def flatPass (env : VerificationEnv W) (config : VerificationConfig) (gate : Gate)
    (s : LoopState W) : Pass W :=
  match runGate env config gate s.iteration s with
  | .passed s => .succeeded "declared verification command passed" s
  | .envRetry s => .again s
  | .repaired s => .again s
  | .ended status reason s => .ended status reason s
  | .raised message s => .raised message s

/-! ## What one run of a gate can do -/

/-- How an executor that was dispatched from `s` ends. -/
inductive RepairEnds (label : Option String) (s : LoopState W) : GateStep W → Prop
  | interrupted (message reason : String) (w : W) :
      RepairEnds label s
        (.ended "interrupted" reason (s.observe (.repairInterrupted label message w) w))
  | raised (message : String) (w : W) : RepairEnds label s (.raised message (s.moveTo w))
  | repaired (recovery : Bool) (w : W) :
      RepairEnds label s
        (.repaired (s.observe (.repairCompleted label recovery .succeeded [] false w) w))
  | failed (recovery : Bool) (status : AttemptStatus) (outside : List String) (changed : Bool)
      (reason : String) (w : W) : status ≠ .succeeded →
      RepairEnds label s
        (.ended "blocked" reason
          (s.observe (.repairCompleted label recovery status outside changed w) w))

theorem effectiveStatus_succeeded {outside : List String} {changed : Bool} {status : AttemptStatus}
    (h : effectiveStatus outside changed status = .succeeded) : outside = [] ∧ changed = false := by
  unfold effectiveStatus at h
  split_ifs at h with he
  push Not at he
  exact ⟨he.1, by simpa using he.2⟩

variable {env : VerificationEnv W} {config : VerificationConfig} {gate : Gate} {ordinal : ℕ}
  {failed : CommandAttempt} {s t : LoopState W} {r : GateStep W}

theorem recoverRepair_ends {classification : String} {current : Option (Finset String)}
    {repair : TaskResult} :
    RepairEnds gate.label
      (s.dispatch true current ⟨recoveryInvocationId config.runId config.stage ordinal,
        classification, failureKeysOf current, gate.label⟩)
      (recoverRepair env config gate ordinal failed classification current repair s) := by
  unfold recoverRepair
  dsimp only
  rcases env.execute _ _ with ⟨recovery | message | message, w⟩ <;> dsimp only
  · rcases inspectRepair env config failed.command.workspace w with e | ⟨outside, changed⟩
    · exact .raised e w
    · dsimp only
      split_ifs with hs
      · obtain ⟨rfl, rfl⟩ := effectiveStatus_succeeded hs
        rw [hs]
        exact .repaired true w
      · exact .failed true _ outside changed _ w hs
  · exact .raised message w
  · exact .raised message w

/-- A dispatched repair ends, or it changed nothing and its recovery ends. -/
theorem dispatchRepair_ends {classification : String} {current : Option (Finset String)}
    (ht : t = (s.motivate gate.label current).dispatch false current
      ⟨repairInvocationId config.runId config.stage ordinal, classification,
        failureKeysOf current, gate.label⟩)
    (hr : dispatchRepair env config gate ordinal failed classification current s = r) :
    RepairEnds gate.label t r ∨ ∃ w, RepairEnds gate.label
      ((t.observe (.repairCompleted gate.label false .failed [] false w) w).dispatch true current
        ⟨recoveryInvocationId config.runId config.stage ordinal, classification,
          failureKeysOf current, gate.label⟩) r := by
  subst ht hr
  unfold dispatchRepair
  dsimp only
  rcases env.execute _ _ with ⟨repair | message | message, w⟩ <;> dsimp only
  · rcases inspectRepair env config failed.command.workspace w with e | ⟨outside, changed⟩
    · exact .inl (.raised e w)
    · dsimp only
      split_ifs with hs hn he
      · obtain ⟨rfl, rfl⟩ := effectiveStatus_succeeded hs
        rw [hs]
        exact .inl (.repaired false w)
      · obtain ⟨rfl, rfl, hf, -⟩ := hn
        refine .inr ⟨w, ?_⟩
        have he : effectiveStatus [] false repair.status = .failed := by
          simp [effectiveStatus, hf]
        rw [he]
        exact recoverRepair_ends
      · exact .inl (.failed false _ outside changed _ w hs)
      · exact .inl (.failed false _ outside changed _ w hs)
  · exact .inl (.interrupted message _ w)
  · exact .inl (.raised message w)

/-- What a failed run of a gate leads to. -/
theorem handleFailure_cases (hr : handleFailure env config gate ordinal failed s = r) :
    ((s.memory gate.label).envRetries < 2 ∧ r = .envRetry (s.retryEnvironment gate.label)) ∨
    (∃ reason, r = .ended "blocked" reason
      (s.settle gate.label (env.failingIdentifiers failed.command))) ∨
    ((s.settle gate.label (env.failingIdentifiers failed.command)).repairBudgetConsumed <
        config.repairLimit ∧
      ∃ classification, dispatchRepair env config gate ordinal failed classification
        (env.failingIdentifiers failed.command)
        (s.settle gate.label (env.failingIdentifiers failed.command)) = r) := by
  unfold handleFailure at hr
  dsimp only at hr
  split_ifs at hr with he hb
  · exact .inl ⟨he.2, hr.symm⟩
  · exact .inr (.inl ⟨_, hr.symm⟩)
  · exact .inr (.inr ⟨not_le.1 hb, _, hr⟩)

/-- What a run of a gate leads to. -/
theorem runGate_cases (hr : runGate env config gate ordinal s = r) :
    (∃ e w, runVerificationCommand env config.stage gate ordinal s.world = (.error e, w) ∧
      r = .raised e (s.observe (.commandRaised gate e w) w)) ∨
    ∃ command w, runVerificationCommand env config.stage gate ordinal s.world = (.ok command, w) ∧
      (command.exitCode = 0 ∧
          r = .passed (s.record gate (recorded env config gate ordinal command w) w) ∨
        command.exitCode ≠ 0 ∧
          handleFailure env config gate ordinal (recorded env config gate ordinal command w)
            (s.record gate (recorded env config gate ordinal command w) w) = r) := by
  unfold runGate at hr
  rcases hc : runVerificationCommand env config.stage gate ordinal s.world with ⟨e | command, w⟩
  · rw [hc] at hr
    exact .inl ⟨e, w, rfl, hr.symm⟩
  · rw [hc] at hr
    refine .inr ⟨command, w, rfl, ?_⟩
    by_cases h0 : command.exitCode = 0
    · exact .inl ⟨h0, by rw [← hr]; exact if_pos h0⟩
    · exact .inr ⟨h0, by rw [← hr]; exact (if_neg h0).symm⟩

theorem RepairEnds.ne_envRetry {label : Option String} (h : RepairEnds label s r) :
    r ≠ .envRetry t := by
  intro hr
  cases h <;> cases hr

/-- An environment retry takes one of the gate's two retries. -/
theorem runGate_envRetry (h : runGate env config gate ordinal s = .envRetry t) :
    (s.memory gate.label).envRetries < 2 ∧
      (t.memory gate.label).envRetries = (s.memory gate.label).envRetries + 1 := by
  rcases runGate_cases h with ⟨e, w, -, he⟩ | ⟨command, w, -, ⟨-, hp⟩ | ⟨-, hf⟩⟩
  · cases he
  · cases hp
  · rcases handleFailure_cases hf with ⟨hlt, ht⟩ | ⟨reason, hb⟩ | ⟨-, classification, hd⟩
    · cases ht
      exact ⟨hlt, by simp [LoopState.retryEnvironment, LoopState.record]⟩
    · cases hb
    · rcases dispatchRepair_ends rfl hd with hr | ⟨w, hr⟩
      · exact absurd rfl hr.ne_envRetry
      · exact absurd rfl hr.ne_envRetry

/-! ## Gates -/

/-- One pass over the gates that are left. -/
def gatesPass (env : VerificationEnv W) (config : VerificationConfig)
    (gates : List VerificationGate) (s : LoopState W) : Pass W :=
  match gates with
  | [] => .succeeded "declared verification gate tuple passed" s
  | gate :: rest =>
    match _h : runGate env config gate.toGate (s.commandAttempts.length + 1) s with
    | .passed t => gatesPass env config rest t
    | .envRetry t => gatesPass env config (gate :: rest) t
    | .repaired t => .again t
    | .ended status reason t => .ended status reason t
    | .raised message t => .raised message t
termination_by (gates.length, gates.head?.elim 0 fun g => 2 - (s.memory (some g.name)).envRetries)
decreasing_by
  · simp only [List.length_cons]
    exact Prod.Lex.left _ _ (Nat.lt_succ_self _)
  · have hm := runGate_envRetry _h
    apply Prod.Lex.right
    simp only [List.head?_cons, Option.elim_some]
    simp only [VerificationGate.toGate] at hm
    omega

/-! ## Loops -/

inductive Outcome (W : Type u) where
  | returned (result : VerificationResult) (s : LoopState W)
  | raised (message : String) (s : LoopState W)

def Outcome.state : Outcome W → LoopState W
  | .returned _ s => s
  | .raised _ s => s

def Outcome.result? : Outcome W → Option VerificationResult
  | .returned result _ => some result
  | .raised _ _ => none

def notConverged : String :=
  "verification did not converge within the loop's bounded iteration limit"

/-- At most `n` further passes. -/
def iterate (pass : LoopState W → Pass W) : ℕ → LoopState W → Outcome W
  | 0, s => .returned (s.result "blocked" notConverged) s
  | n + 1, s =>
    match pass { s with iteration := s.iteration + 1 } with
    | .succeeded reason t => .returned (t.result "succeeded" reason) t
    | .again t => iterate pass n t
    | .ended status reason t => .returned (t.result status reason) t
    | .raised message t => .raised message t

/-- `_verify_with_recovery`. -/
def verifyWithRecovery (env : VerificationEnv W) (config : VerificationConfig)
    (argv : List String) (timeoutSeconds : Option ℚ) (w : W) : Outcome W :=
  iterate (flatPass env config ⟨none, argv, timeoutSeconds⟩) (config.repairLimit + 3)
    { world := w }

/-- `_verify_gates_with_recovery`. -/
def verifyGatesWithRecovery (env : VerificationEnv W) (config : VerificationConfig)
    (gates : List VerificationGate) (w : W) : Outcome W :=
  iterate (gatesPass env config gates) (config.repairLimit + 3) { world := w }

/-- `_run_verification_stage`: a declared tuple of gates goes before the flat command. -/
def runVerificationStage (env : VerificationEnv W) (config : VerificationConfig)
    (argv : List String) (timeoutSeconds : Option ℚ) (gates : List VerificationGate) (w : W) :
    Outcome W :=
  if gates ≠ [] then verifyGatesWithRecovery env config gates w
  else verifyWithRecovery env config argv timeoutSeconds w

end HarnessLabs.FeatureRun
