import HarnessLabs.Controller.Command

/-!
# Recovery decisions

What a FeatureRun does about an abnormal ending of one of its stages: it charges the ending to a
budget, asks the recovery agent while the budget lasts, and records one decision. A review that
stopped at its cycle limit is charged to the continuations, every other ending to the general budget.

Every decision goes into one list, also the stops. The classes are counted in it, and so is the total
ceiling; so a general ending that was stopped counts against the ceiling of a continuation.

* `recoverAbnormal` — one ending.
* `Recorded` — what the calls and the list have in common.
* `recovery_budgets_iff` — **the budgets are bounded, and they are independent exactly when no
  continuation with allowance left comes behind as many endings as both budgets allow.**
-/

namespace HarnessLabs.FeatureRun

open List
open Controller (textOr isBlank isBlank_append)

/-! ## Endings -/

inductive RecoveryCondition where
  | blocked
  | failed
  | interrupted
  deriving DecidableEq

inductive RecoveryClass where
  | general
  | reviewContinuation
  deriving DecidableEq

/-- An abnormal ending, with the detail of its stage. -/
structure Ending where
  stage : String
  condition : RecoveryCondition
  reason : String
  detail : Json := .obj []

/-- `_recovery_class`. -/
def Ending.recoveryClass (e : Ending) : RecoveryClass :=
  if e.stage = "review" ∧ e.condition = .blocked ∧
      textOr e.detail "stop_reason" "" = "cycle_limit" then .reviewContinuation
  else .general

/-! ## Decisions -/

inductive RecoveryAction where
  | retry
  | adjustPlan
  | stop
  deriving DecidableEq

/-- A decision. The plan adjustments are a type of non-empty mappings with its equality. -/
structure RecoveryDecision (A : Type) where
  action : RecoveryAction
  reason : String
  planAdjustment : Option A
  reasoned : isBlank reason = false
  adjusted : planAdjustment.isSome = true ↔ action = .adjustPlan

/-- Why a recovery was stopped. -/
inductive StopCause where
  | budgetExhausted
  | agentError
  | repeatedStrategy
  | policy
  deriving DecidableEq

/-- The budget that an ending is charged to. -/
structure RecoveryBudget where
  recoveryClass : RecoveryClass
  classAttempt : ℕ
  classLimit : ℕ
  totalAttempt : ℕ
  totalLimit : ℕ

/-- A decision as it is recorded. -/
structure RecordedDecision (A : Type) where
  attempt : ℕ
  stage : String
  condition : RecoveryCondition
  blockedReason : String
  recoveryClass : RecoveryClass
  budget : RecoveryBudget
  checkpointRevision : ℕ
  checkpointHeadHash : Option String
  action : RecoveryAction
  reason : String
  planAdjustment : Option A
  stopCause : Option StopCause

/-- `_RecoveryState`. -/
structure RecoveryState (A : Type) where
  limit : ℕ
  continuationLimit : ℕ
  decisions : List (RecordedDecision A) := []

namespace RecoveryState

variable {A : Type} (state : RecoveryState A)

def classLimit : RecoveryClass → ℕ
  | .reviewContinuation => state.continuationLimit
  | .general => state.limit

def classUsed (recoveryClass : RecoveryClass) : ℕ :=
  state.decisions.countP (·.recoveryClass = recoveryClass)

def totalLimit : ℕ := state.limit + state.continuationLimit

end RecoveryState

/-! ## The audit and the agent -/

/-- The audit of the run, as far as recoveries write it: the checkpoint's place, and the events
`recovery_decision` with their status. -/
structure RecoveryAudit (A : Type) where
  revision : ℕ
  headHash : Option String
  events : List (String × RecordedDecision A) := []

/-- What a run tells its recovery agent that no ending changes. -/
structure RecoverySetting where
  runId : String
  objective : String
  acceptanceCriteria : List Json
  worktreePath : String
  allowedPaths : List String

structure RecoveryContext (A : Type) where
  setting : RecoverySetting
  ending : Ending
  attempt : ℕ
  checkpointRevision : ℕ
  checkpointHeadHash : Option String
  budget : RecoveryBudget
  workspace : Json
  priorDecisions : List (RecordedDecision A)
  planAdjustments : List A

/-- What a recovery agent does. -/
inductive AgentAnswer (A : Type) where
  | decision (d : RecoveryDecision A)
  | otherValue
  | raised (typeName message : String)

/-- A call of `_recover_abnormal`: its ending and its agent, the snapshot of the workspace, and the
hash of the event that the call appends. -/
structure RecoveryCall (A : Type) where
  ending : Ending
  agent : Option (RecoveryContext A → AgentAnswer A)
  workspace : Json
  eventHash : String

/-- What a call reads and writes. -/
structure RecoveryRun (A : Type) where
  state : RecoveryState A
  audit : RecoveryAudit A

/-! ## One ending -/

variable {A : Type}

/-- `RecoveryDecision("stop", reason)`. -/
def RecoveryDecision.stop (reason : String) (reasoned : isBlank reason = false) :
    RecoveryDecision A where
  action := .stop
  reason := reason
  planAdjustment := none
  reasoned := reasoned
  adjusted := by simp

def limitLabel : RecoveryClass → String
  | .reviewContinuation => "review-continuation recovery limit"
  | .general => "recovery limit"

theorem isBlank_limitLabel (recoveryClass : RecoveryClass) :
    isBlank (limitLabel recoveryClass) = false := by
  cases recoveryClass <;> decide

/-- `as_dict` of a decision has the members that are compared. -/
def RecoveryDecision.sameProposal [BEq A] (d : RecoveryDecision A) (last : RecordedDecision A) :
    Bool :=
  d.action = last.action && d.reason = last.reason && d.planAdjustment == last.planAdjustment

/-- A decision with the status of its event and the cause that a stop is recorded with. -/
structure RecoveryOutcome (A : Type) where
  decision : RecoveryDecision A
  status : Option String := none
  stopCause : StopCause

/-- The decision that a call records, of an ending with these budget and context. -/
def dispose [BEq A] (state : RecoveryState A) (agent : RecoveryContext A → AgentAnswer A)
    (context : RecoveryContext A) : RecoveryOutcome A :=
  let budget := context.budget
  if budget.classLimit < budget.classAttempt then
    { decision := .stop
        (limitLabel budget.recoveryClass ++ (" of " ++ toString budget.classLimit ++ " exhausted"))
        (isBlank_append (isBlank_limitLabel _) _)
      stopCause := .budgetExhausted }
  else if budget.totalLimit < budget.totalAttempt then
    { decision := .stop
        ("total recovery limit of " ++ (toString budget.totalLimit ++ " exhausted"))
        (isBlank_append (by decide) _)
      stopCause := .budgetExhausted }
  else
    match agent context with
    | .decision decision =>
      if state.decisions.getLast?.any decision.sameProposal = true then
        { decision := .stop "recovery proposal repeated an unchanged strategy" (by decide)
          stopCause := .repeatedStrategy }
      else { decision := decision, stopCause := .policy }
    | .otherValue =>
      { decision := .stop
          "recovery agent failed: TypeError: recovery agent must return RecoveryDecision"
          (by decide)
        status := some "failed"
        stopCause := .agentError }
    | .raised typeName message =>
      { decision := .stop ("recovery agent failed: " ++ (typeName ++ ": " ++ message))
          (isBlank_append (by decide) _)
        status := some "failed"
        stopCause := .agentError }

/-- The budget of an ending. -/
def RecoveryState.budget (state : RecoveryState A) (e : Ending) : RecoveryBudget where
  recoveryClass := e.recoveryClass
  classAttempt := state.classUsed e.recoveryClass + 1
  classLimit := state.classLimit e.recoveryClass
  totalAttempt := state.decisions.length + 1
  totalLimit := state.totalLimit

/-- What the agent is told about an ending, behind the checkpoint that the call merges. -/
def RecoveryRun.context (setting : RecoverySetting) (r : RecoveryRun A) (call : RecoveryCall A) :
    RecoveryContext A where
  setting := setting
  ending := call.ending
  attempt := r.state.decisions.length + 1
  checkpointRevision := r.audit.revision + 1
  checkpointHeadHash := r.audit.headHash
  budget := r.state.budget call.ending
  workspace := call.workspace
  priorDecisions := r.state.decisions
  planAdjustments := r.state.decisions.filterMap (·.planAdjustment)

/-- `record` of `_recover_abnormal`. -/
def RecoveryRun.recorded (r : RecoveryRun A) (call : RecoveryCall A) (d : RecoveryOutcome A) :
    RecordedDecision A where
  attempt := r.state.decisions.length + 1
  stage := call.ending.stage
  condition := call.ending.condition
  blockedReason := call.ending.reason
  recoveryClass := call.ending.recoveryClass
  budget := r.state.budget call.ending
  checkpointRevision := r.audit.revision + 1
  checkpointHeadHash := r.audit.headHash
  action := d.decision.action
  reason := d.decision.reason
  planAdjustment := d.decision.planAdjustment
  stopCause := if d.decision.action = .stop then some d.stopCause else none

def RecoveryOutcome.eventStatus (d : RecoveryOutcome A) : String :=
  d.status.getD (if d.decision.action = .stop then "blocked" else "succeeded")

/-- `_recover_abnormal`: whether the run goes on, and what it leaves. -/
def recoverAbnormal [BEq A] (setting : RecoverySetting) (call : RecoveryCall A)
    (r : RecoveryRun A) : Bool × RecoveryRun A :=
  match call.agent with
  | none => (false, r)
  | some agent =>
    let d := dispose r.state agent (r.context setting call)
    let value := r.recorded call d
    (d.decision.action ≠ .stop,
      { state := { r.state with decisions := r.state.decisions ++ [value] }
        audit :=
          { revision := r.audit.revision + 1
            headHash := some call.eventHash
            events := r.audit.events ++ [(d.eventStatus, value)] } })

/-! ## Sequences of endings -/

section Sequences

variable [BEq A] (setting : RecoverySetting)

/-- What some calls leave. -/
def recoverAll (r : RecoveryRun A) (calls : List (RecoveryCall A)) : RecoveryRun A :=
  calls.foldl (fun r call => (recoverAbnormal setting call r).2) r

/-- What some calls answer, with the class of each. -/
def recoveryAnswers (r : RecoveryRun A) : List (RecoveryCall A) → List (RecoveryClass × Bool)
  | [] => []
  | call :: rest =>
    let outcome := recoverAbnormal setting call r
    (call.ending.recoveryClass, outcome.1) :: recoveryAnswers outcome.2 rest

/-- The calls with an agent. -/
def consulted (calls : List (RecoveryCall A)) : List (RecoveryCall A) :=
  calls.filter (·.agent.isSome)

/-- The continuations among some calls. -/
def continuations (calls : List (RecoveryCall A)) : ℕ :=
  (consulted calls).countP (·.ending.recoveryClass = .reviewContinuation)

/-- A run of a FeatureRun before its first abnormal ending. -/
def RecoveryRun.fresh (limit continuationLimit revision : ℕ) (headHash : Option String) :
    RecoveryRun A := ⟨⟨limit, continuationLimit, []⟩, ⟨revision, headHash, []⟩⟩

/-- What the recoveries of a run keep to. A call is taken behind those before it. -/
structure RecoveryBudgeted (r : RecoveryRun A) (calls : List (RecoveryCall A)) : Prop where
  oneDecision : ∀ before call, before ++ [call] <+: calls → call.agent.isSome = true →
    ∃ d, (recoverAll setting r (before ++ [call])).state.decisions =
      (recoverAll setting r before).state.decisions ++ [d]
  classBound : ∀ c, (recoveryAnswers setting r calls).countP (fun a => a.1 = c ∧ a.2 = true) ≤
    r.state.classLimit c
  totalBound : (recoveryAnswers setting r calls).countP (·.2) ≤ r.state.totalLimit
  changed : ∀ before call, before ++ [call] <+: calls →
    (recoverAbnormal setting call (recoverAll setting r before)).1 = true →
    ∃ agent decision, call.agent = some agent ∧
      agent ((recoverAll setting r before).context setting call) = .decision decision ∧
      ∀ last, (recoverAll setting r before).state.decisions.getLast? = some last →
        decision.sameProposal last = false
  independent : ∀ before call d, before ++ [call] <+: calls →
    call.ending.recoveryClass = .reviewContinuation →
    (recoverAll setting r (before ++ [call])).state.decisions =
      (recoverAll setting r before).state.decisions ++ [d] →
    d.stopCause = some .budgetExhausted →
    r.state.continuationLimit ≤
      (recoverAll setting r before).state.classUsed .reviewContinuation

end Sequences

/-! ## What a call records -/

section Calls

variable [BEq A] {setting : RecoverySetting} {r : RecoveryRun A} {call : RecoveryCall A}

variable {agent : RecoveryContext A → AgentAnswer A}

/-- **A recovery that is granted** has allowance left in its class, and is the agent's own decision,
which is not the last one. -/
theorem dispose_granted {state : RecoveryState A} {context : RecoveryContext A}
    (h : (dispose state agent context).decision.action ≠ .stop) :
    context.budget.classAttempt ≤ context.budget.classLimit ∧
      ∃ decision, agent context = .decision decision ∧
        ∀ last, state.decisions.getLast? = some last → decision.sameProposal last = false := by
  unfold dispose at h
  dsimp only at h
  split at h
  · exact absurd rfl h
  rename_i hclass
  split at h
  · exact absurd rfl h
  split at h
  · rename_i decision hdecision
    split at h
    · exact absurd rfl h
    · rename_i hsame
      refine ⟨Nat.le_of_not_lt hclass, decision, hdecision, fun last hlast => ?_⟩
      rw [hlast] at hsame
      exact Bool.eq_false_of_not_eq_true hsame
  · exact absurd rfl h
  · exact absurd rfl h

/-- **A call is stopped for its budget** when its class or the ceiling is spent. -/
theorem dispose_budgetExhausted {state : RecoveryState A} {context : RecoveryContext A} :
    ((dispose state agent context).decision.action = .stop ∧
        (dispose state agent context).stopCause = .budgetExhausted) ↔
      context.budget.classLimit < context.budget.classAttempt ∨
        context.budget.totalLimit < context.budget.totalAttempt := by
  unfold dispose
  dsimp only
  split
  · rename_i hclass
    exact iff_of_true ⟨rfl, rfl⟩ (.inl hclass)
  rename_i hclass
  split
  · rename_i htotal
    exact iff_of_true ⟨rfl, rfl⟩ (.inr htotal)
  rename_i htotal
  refine iff_of_false (fun h => ?_) (not_or.2 ⟨hclass, htotal⟩)
  obtain ⟨-, hcause⟩ := h
  split at hcause
  · split at hcause
    · cases hcause
    · cases hcause
  · cases hcause
  · cases hcause

/-- The record of a call says that its budget is exhausted when its class or the ceiling is spent. -/
theorem recorded_budgetExhausted :
    (r.recorded call (dispose r.state agent (r.context setting call))).stopCause =
        some .budgetExhausted ↔
      r.state.classLimit call.ending.recoveryClass ≤ r.state.classUsed call.ending.recoveryClass ∨
        r.state.totalLimit ≤ r.state.decisions.length := by
  have hcause : (r.recorded call (dispose r.state agent (r.context setting call))).stopCause =
      some .budgetExhausted ↔
        ((dispose r.state agent (r.context setting call)).decision.action = .stop ∧
          (dispose r.state agent (r.context setting call)).stopCause = .budgetExhausted) := by
    rw [RecoveryRun.recorded]
    split
    · rename_i hstop
      rw [Option.some.injEq]
      exact (and_iff_right hstop).symm
    · rename_i hgranted
      exact iff_of_false nofun fun h => hgranted h.1
  rw [hcause, dispose_budgetExhausted]
  exact or_congr Nat.lt_succ_iff Nat.lt_succ_iff

theorem recoverAbnormal_none (h : call.agent = none) :
    recoverAbnormal setting call r = (false, r) := by
  rw [recoverAbnormal, h]

/-- A call with an agent appends its decision, and answers what the decision says. -/
theorem recoverAbnormal_some (setting : RecoverySetting) (r : RecoveryRun A)
    (h : call.agent = some agent) :
    (recoverAbnormal setting call r).2.state = { r.state with
        decisions := r.state.decisions ++
          [r.recorded call (dispose r.state agent (r.context setting call))] } ∧
      ((recoverAbnormal setting call r).1 = true ↔
        (dispose r.state agent (r.context setting call)).decision.action ≠ .stop) := by
  rw [recoverAbnormal, h]
  exact ⟨rfl, decide_eq_true_iff⟩

theorem recoverAll_concat (before : List (RecoveryCall A)) :
    recoverAll setting r (before ++ [call]) =
      (recoverAbnormal setting call (recoverAll setting r before)).2 := by
  rw [recoverAll, foldl_append]
  rfl

theorem recoverAll_cons (rest : List (RecoveryCall A)) :
    recoverAll setting r (call :: rest) =
      recoverAll setting (recoverAbnormal setting call r).2 rest := rfl

end Calls

/-! ## What the calls and the list have in common -/

section Runs

variable {setting : RecoverySetting} {r start : RecoveryRun A} {call : RecoveryCall A}
  {before calls : List (RecoveryCall A)}

/-- The decisions behind some calls are charged to the classes of the calls with an agent. -/
structure Recorded (start : RecoveryRun A) (before : List (RecoveryCall A)) (r : RecoveryRun A) :
    Prop where
  limit : r.state.limit = start.state.limit
  continuationLimit : r.state.continuationLimit = start.state.continuationLimit
  classes : r.state.decisions.map (·.recoveryClass) =
    (consulted before).map (·.ending.recoveryClass)

theorem recorded_recoverAll [BEq A] (setting : RecoverySetting)
    (hfresh : start.state.decisions = []) (before : List (RecoveryCall A)) :
    Recorded start before (recoverAll setting start before) := by
  induction before using List.reverseRecOn with
  | nil =>
    refine ⟨rfl, rfl, ?_⟩
    show start.state.decisions.map _ = _
    rw [hfresh]
    rfl
  | append_singleton before call ih =>
    rw [recoverAll_concat]
    cases hagent : call.agent with
    | none =>
      have hconsulted : consulted (before ++ [call]) = consulted before := by
        simp [consulted, hagent]
      rw [recoverAbnormal_none hagent]
      exact ⟨ih.limit, ih.continuationLimit, by rw [hconsulted, ih.classes]⟩
    | some agent =>
      have hconsulted : consulted (before ++ [call]) = consulted before ++ [call] := by
        simp [consulted, hagent]
      obtain ⟨hstate, -⟩ := recoverAbnormal_some setting
        (recoverAll setting start before) hagent
      refine ⟨?_, ?_, ?_⟩
      · rw [hstate]
        exact ih.limit
      · rw [hstate]
        exact ih.continuationLimit
      · rw [hstate, hconsulted, map_append, map_append, ih.classes]
        rfl

theorem Recorded.length (h : Recorded start before r) :
    r.state.decisions.length = (consulted before).length := by
  rw [← length_map (·.recoveryClass), h.classes, length_map]

theorem countP_class {α : Type} (f : α → RecoveryClass) (l : List α) (c : RecoveryClass) :
    l.countP (f · = c) = (l.map f).countP (· = c) := by
  rw [countP_map]
  rfl

theorem Recorded.used (h : Recorded start before r) :
    r.state.classUsed .reviewContinuation = continuations before := by
  have hdecisions := countP_class (fun d : RecordedDecision A => d.recoveryClass)
  have hcalls := countP_class (fun call : RecoveryCall A => call.ending.recoveryClass)
  rw [RecoveryState.classUsed, continuations, hdecisions, hcalls, h.classes]

theorem Recorded.classLimit (h : Recorded start before r) (c : RecoveryClass) :
    r.state.classLimit c = start.state.classLimit c := by
  cases c with
  | general => exact h.limit
  | reviewContinuation => exact h.continuationLimit

/-- The recoveries of a class. -/
def RecoveryState.granted (state : RecoveryState A) (c : RecoveryClass) : ℕ :=
  state.decisions.countP fun d => d.recoveryClass = c ∧ d.action ≠ .stop

theorem RecoveryState.granted_le_classUsed (state : RecoveryState A) (c : RecoveryClass) :
    state.granted c ≤ state.classUsed c :=
  countP_mono_left fun _ _ hd => decide_eq_true (of_decide_eq_true hd).1

/-- What a call adds to the recoveries of a class. -/
theorem granted_recoverAbnormal [BEq A] (c : RecoveryClass) :
    (recoverAbnormal setting call r).2.state.granted c = r.state.granted c +
      if call.ending.recoveryClass = c ∧ (recoverAbnormal setting call r).1 = true then 1
      else 0 := by
  cases hagent : call.agent with
  | none =>
    rw [recoverAbnormal_none hagent]
    simp
  | some agent =>
    obtain ⟨hstate, hanswer⟩ := recoverAbnormal_some setting r hagent
    rw [hstate, RecoveryState.granted, RecoveryState.granted, countP_append,
      countP_singleton]
    simp only [hanswer, decide_eq_true_eq]
    rfl

/-- **A class is never granted more than its limit.** -/
theorem granted_le_classLimit [BEq A] (h : ∀ c, r.state.granted c ≤ r.state.classLimit c)
    (c : RecoveryClass) : (recoverAbnormal setting call r).2.state.granted c ≤
      (recoverAbnormal setting call r).2.state.classLimit c := by
  cases hagent : call.agent with
  | none =>
    rw [recoverAbnormal_none hagent]
    exact h c
  | some agent =>
    obtain ⟨hstate, hanswer⟩ := recoverAbnormal_some setting r hagent
    have hlimit : (recoverAbnormal setting call r).2.state.classLimit c = r.state.classLimit c := by
      rw [hstate]
      cases c <;> rfl
    rw [granted_recoverAbnormal, hlimit]
    split
    · rename_i hgranted
      obtain ⟨rfl, hgoes⟩ := hgranted
      obtain ⟨hallowed, -⟩ := dispose_granted (hanswer.1 hgoes)
      have hused := r.state.granted_le_classUsed call.ending.recoveryClass
      have hroom : r.state.classUsed call.ending.recoveryClass + 1 ≤
          r.state.classLimit call.ending.recoveryClass := hallowed
      omega
    · exact h c

/-- The recoveries that are answered are those that are recorded. -/
theorem countP_recoveryAnswers [BEq A] (setting : RecoverySetting) (r : RecoveryRun A) (c : RecoveryClass) (calls : List (RecoveryCall A)) :
    (recoveryAnswers setting r calls).countP (fun a => a.1 = c ∧ a.2 = true) +
      r.state.granted c = (recoverAll setting r calls).state.granted c := by
  induction calls generalizing r with
  | nil => exact Nat.zero_add _
  | cons call rest ih =>
    rw [recoverAll_cons, ← ih, granted_recoverAbnormal, recoveryAnswers, countP_cons]
    simp only [decide_eq_true_eq]
    omega

theorem granted_recoverAll [BEq A] (setting : RecoverySetting) (h : ∀ c, r.state.granted c ≤ r.state.classLimit c)
    (calls : List (RecoveryCall A)) (c : RecoveryClass) :
    (recoverAll setting r calls).state.granted c ≤
      (recoverAll setting r calls).state.classLimit c := by
  induction calls generalizing r with
  | nil => exact h c
  | cons call rest ih => exact ih (fun c => granted_le_classLimit h c)

/-- The recoveries are those of both classes. -/
theorem countP_classes (l : List (RecoveryClass × Bool)) :
    l.countP (·.2) = l.countP (fun a => a.1 = .general ∧ a.2 = true) +
      l.countP (fun a => a.1 = .reviewContinuation ∧ a.2 = true) := by
  induction l with
  | nil => rfl
  | cons a rest ih =>
    obtain ⟨c, b⟩ := a
    rw [countP_cons, countP_cons, countP_cons, ih]
    cases c <;> cases b <;> simp <;> omega

/-! ## The budgets -/

section Budgets

variable [BEq A] (setting : RecoverySetting)

/-- A continuation that is stopped for its budget has none left, where the ceiling is not reached. -/
theorem independent_iff (hrecorded : Recorded start before r)
    (agent : RecoveryContext A → AgentAnswer A)
    (hclass : call.ending.recoveryClass = .reviewContinuation) :
    ((r.recorded call (dispose r.state agent (r.context setting call))).stopCause =
        some .budgetExhausted → start.state.continuationLimit ≤ continuations before) ↔
      (continuations before < start.state.continuationLimit →
        (consulted before).length < start.state.totalLimit) := by
  have htotal : r.state.totalLimit = start.state.totalLimit := by
    rw [RecoveryState.totalLimit, RecoveryState.totalLimit, hrecorded.limit,
      hrecorded.continuationLimit]
  have hlimit : r.state.classLimit .reviewContinuation = start.state.continuationLimit :=
    hrecorded.continuationLimit
  rw [recorded_budgetExhausted, hclass, hlimit, hrecorded.used, hrecorded.length, htotal]
  omega

/-- The recoveries of a run that begins without decisions. -/
theorem answered_le_classLimit (hfresh : start.state.decisions = [])
    (calls : List (RecoveryCall A)) (c : RecoveryClass) :
    (recoveryAnswers setting start calls).countP (fun a => a.1 = c ∧ a.2 = true) ≤
      start.state.classLimit c := by
  have hnone : ∀ c, start.state.granted c = 0 := by
    intro c
    rw [RecoveryState.granted, hfresh]
    rfl
  have hgranted := granted_recoverAll setting
    (fun c => le_of_eq_of_le (hnone c) (Nat.zero_le (start.state.classLimit c))) calls c
  have hanswered := countP_recoveryAnswers setting start c calls
  rw [(recorded_recoverAll setting hfresh calls).classLimit c] at hgranted
  omega

theorem recoveryBudgeted_iff (hfresh : start.state.decisions = [])
    (calls : List (RecoveryCall A)) : RecoveryBudgeted setting start calls ↔
      ∀ before call, before ++ [call] <+: calls → call.agent.isSome = true →
        call.ending.recoveryClass = .reviewContinuation →
        continuations before < start.state.continuationLimit →
        (consulted before).length < start.state.totalLimit := by
  have hrecorded := recorded_recoverAll setting hfresh
  constructor
  · intro h before call hpre hagent hclass
    obtain ⟨agent, hagent⟩ := Option.isSome_iff_exists.1 hagent
    obtain ⟨hstate, -⟩ := recoverAbnormal_some setting (recoverAll setting start before) hagent
    refine (independent_iff setting (hrecorded before) agent hclass).1 fun hcause => ?_
    rw [← (hrecorded before).used]
    refine h.independent before call _ hpre hclass ?_ hcause
    rw [recoverAll_concat, hstate]
  · intro h
    have hbound := answered_le_classLimit setting hfresh calls
    constructor
    · intro before call hpre hagent
      obtain ⟨agent, hagent⟩ := Option.isSome_iff_exists.1 hagent
      obtain ⟨hstate, -⟩ := recoverAbnormal_some setting (recoverAll setting start before) hagent
      rw [recoverAll_concat, hstate]
      exact ⟨_, rfl⟩
    · exact hbound
    · rw [countP_classes]
      exact Nat.add_le_add (hbound .general) (hbound .reviewContinuation)
    · intro before call hpre hgoes
      cases hagent : call.agent with
      | none =>
        rw [recoverAbnormal_none hagent] at hgoes
        cases hgoes
      | some agent =>
        obtain ⟨-, hanswer⟩ := recoverAbnormal_some setting (recoverAll setting start before) hagent
        obtain ⟨-, decision, hdecision, hchanged⟩ := dispose_granted (hanswer.1 hgoes)
        exact ⟨agent, decision, rfl, hdecision, hchanged⟩
    · intro before call d hpre hclass hd hcause
      cases hagent : call.agent with
      | none =>
        rw [recoverAll_concat, recoverAbnormal_none hagent] at hd
        simp at hd
      | some agent =>
        obtain ⟨hstate, -⟩ := recoverAbnormal_some setting (recoverAll setting start before) hagent
        rw [recoverAll_concat, hstate] at hd
        obtain rfl := singleton_inj.1 (append_cancel_left hd)
        rw [(hrecorded before).used]
        exact (independent_iff setting (hrecorded before) agent hclass).2
          (h before call hpre (by rw [hagent]; rfl) hclass) hcause

/-- **The recovery budgets are bounded, and independent exactly within the ceiling.** For every
sequence of endings and every behaviour of the agent: a call with an agent records one decision, the
recoveries keep to the limit of their class and to the total, and none repeats the last decision. No
continuation with allowance left is stopped for its budget if and only if fewer calls come before
each such continuation than both limits allow together. -/
theorem recovery_budgets_iff (limit continuationLimit revision : ℕ) (headHash : Option String)
    (calls : List (RecoveryCall A)) :
    RecoveryBudgeted setting (.fresh limit continuationLimit revision headHash) calls ↔
      ∀ before call, before ++ [call] <+: calls → call.agent.isSome = true →
        call.ending.recoveryClass = .reviewContinuation →
        continuations before < continuationLimit →
        (consulted before).length < limit + continuationLimit :=
  recoveryBudgeted_iff setting rfl calls

end Budgets

/-! ## A continuation behind two stream deaths -/

def streamDeath : RecoveryCall Unit where
  ending := ⟨"dispatch", .interrupted, "stream disconnected", .obj []⟩
  agent := some fun context => .decision
    ⟨.retry, "attempt " ++ toString context.attempt, none, isBlank_append (by decide) _, by simp⟩
  workspace := .obj []
  eventHash := "e"

def cycleLimit : RecoveryCall Unit :=
  { streamDeath with
    ending := ⟨"review", .blocked, "cycle limit reached",
      .obj [("stop_reason", .str "cycle_limit")]⟩ }

def recoverySetting : RecoverySetting := ⟨"run", "objective", [], "worktree", []⟩

/-- With one general recovery and one continuation: the second stream death is stopped, and its stop
takes the place of the continuation. -/
theorem stop_denies_continuation :
    ¬ RecoveryBudgeted recoverySetting (.fresh 1 1 1 none) [streamDeath, streamDeath, cycleLimit] ∧
      (recoverAll recoverySetting (.fresh 1 1 1 none)
        [streamDeath, streamDeath, cycleLimit]).state.decisions.map
          (fun d => (d.recoveryClass, d.action, d.stopCause)) =
        [(.general, .retry, none), (.general, .stop, some .budgetExhausted),
          (.reviewContinuation, .stop, some .budgetExhausted)] := by
  have hend : (recoverAll recoverySetting (.fresh 1 1 1 none)
      [streamDeath, streamDeath, cycleLimit]).state.decisions.map
        (fun d => (d.recoveryClass, d.action, d.stopCause)) =
      [(.general, .retry, none), (.general, .stop, some .budgetExhausted),
        (.reviewContinuation, .stop, some .budgetExhausted)] := by decide
  refine ⟨fun h => ?_, hend⟩
  have hbudget := h.independent [streamDeath, streamDeath] cycleLimit _ (prefix_refl _)
    (by decide) rfl (by decide)
  exact absurd hbudget (by decide)

end Runs

end HarnessLabs.FeatureRun
