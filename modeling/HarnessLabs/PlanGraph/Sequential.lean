import HarnessLabs.Lib.Runs
import HarnessLabs.PlanGraph.Seal
import HarnessLabs.PlanGraph.Successor

/-!
# Running a graph node by node

How a run of the controller begins and ends, and the loop of a controller without parallelism: the
nodes in plan order, each on the candidate of the one before.

* `StartsOn` — what a run begins with.
* `finalizeWithFunctionality`, `transitionToBlocked` — how it ends.
* `sequentialStep` — the turn of one node.
-/

namespace HarnessLabs.PlanGraph

universe u

variable {C : Type u}

/-! ## Beginning -/

/-- `_validate_completed_dependencies`. -/
def validateCompletedDependencies (ordered : List PlanRun) (completed : Dict String C) :
    Except String Unit :=
  match ordered.find? fun run =>
      run.id ∈ completed.keys ∧ run.dependsOn.any (· ∉ completed.keys) with
  | some run => .error s!"PlanGraph state marks '{run.id}' complete before its dependency"
  | none => .ok ()

/-- What `run` begins with, on an audit without interrupted children. -/
def startRun (plan : PlanGraphPlan C) (audit : AttemptState C) (rejected : List String) :
    Except String (RunState C) :=
  match audit.loadAuditCompleted with
  | .error message => .error message
  | .ok completed =>
    (validateCompletedDependencies plan.ordered completed).map fun _ =>
      { audit, completed, obligations := loadFindingObligations audit, rejected }

/-- A run begins on an attempt of the plan that is not finished. -/
structure StartsOn (plan : PlanGraphPlan C) (audit : AttemptState C) (s : RunState C) : Prop where
  nodes : ∀ id, id ∈ audit.nodes.keys ↔ id ∈ runIds plan.runs
  running : audit.terminalGraphStatus = none
  begins : ∃ rejected, startRun plan audit rejected = .ok s

theorem StartsOn.begun {plan : PlanGraphPlan C} {audit : AttemptState C} {s : RunState C}
    (h : StartsOn plan audit s) : ∃ completed rejected, s =
      { audit, completed, obligations := loadFindingObligations audit, rejected } := by
  obtain ⟨rejected, hbegins⟩ := h.begins
  rw [startRun] at hbegins
  split at hbegins
  · exact nomatch hbegins
  · rename_i completed _
    cases hvalid : validateCompletedDependencies plan.ordered completed with
    | error message =>
      rw [hvalid] at hbegins
      exact nomatch hbegins
    | ok u =>
      rw [hvalid] at hbegins
      exact ⟨completed, rejected, (Except.ok.inj hbegins).symm⟩

/-! ## Ending -/

inductive Ending (C : Type u) where
  | returned (result : PlanGraphResult C)
  | raised (message : String)

/-- A state of the run, and how the run ended in it. -/
structure Ended (C : Type u) where
  state : RunState C
  ending : Ending C

def RunState.finalize (s : RunState C) (status : GraphStatus) (result : PlanGraphResult C) :
    Ended C :=
  ⟨{ s with audit := s.audit.finalize status }, .returned result⟩

/-- `_with_deviation_records`. -/
def PlanGraphResult.withDeviationRecords (result : PlanGraphResult C)
    (records : List DeviationRecord) : PlanGraphResult C :=
  if result.deviationRecords.isEmpty then { result with deviationRecords := records } else result

/-- `_transition_to_blocked`. -/
def transitionToBlocked (s : RunState C) (result : PlanGraphResult C)
    (records : List DeviationRecord) : Ended C :=
  s.finalize .blocked (result.withDeviationRecords records)

/-- What a run meets at its end: the errors of the functionality tests, by their number, and the
deviations that the ledger records. -/
structure Finishing where
  testErrors : ℕ → Option String := fun _ => none
  deviationRecords : List DeviationRecord := []

/-- The functionality tests, until one fails. -/
def runFunctionalityTests (errors : ℕ → Option String) :
    ℕ → AttemptState C → List String → AttemptState C × Option (String × String)
  | _, audit, [] => (audit, none)
  | n, audit, command :: rest =>
    match errors n with
    | some error => (audit.functionalityFailed command error, some (command, error))
    | none => runFunctionalityTests errors (n + 1) (audit.functionalityCompleted command) rest

/-- `_finalize_with_functionality`. The journal accepts no other status of a success than
`succeeded`. -/
def finalizeWithFunctionality (tests : List String) (finishing : Finishing) (s : RunState C)
    (candidate : C) : Ended C :=
  let result : PlanGraphResult C :=
    { status := .failed, candidateCommit := some candidate, completed := s.completed
      deviationRecords := finishing.deviationRecords }
  let (audit, failure) := runFunctionalityTests finishing.testErrors 0 s.audit tests
  let s := { s with audit := audit }
  match failure with
  | some (command, error) =>
    s.finalize .failed { result with functionalityFailure := some s!"{command}: {error}" }
  | none =>
    let status := completionStatus finishing.deviationRecords
    if status = .succeeded then s.finalize status { result with status := status }
    else ⟨s, .raised "audit final status must be terminal"⟩

/-! ## The loop -/

structure SequentialLoop (C : Type u) where
  state : RunState C
  candidate : C
  remaining : List PlanRun
  ending : Option (Ending C) := none

/-- What a launcher raises. -/
structure LaunchError where
  message : String
  errorType : String

/-- What a turn meets: a refusal of the ledger, what the launcher returns or raises, and the end of
the run. -/
structure Turn (C : Type u) where
  refusal : Option String := none
  launch : Except LaunchError (Launched C) := .error ⟨"no launch", "RuntimeError"⟩
  finishing : Finishing := {}

namespace SequentialLoop

def ended (l : SequentialLoop C) (e : Ended C) : SequentialLoop C :=
  { l with state := e.state, ending := some e.ending }

variable [PartialOrder C] (g : Controller C)

def start (s : RunState C) : SequentialLoop C :=
  { state := s, candidate := g.plan.baseCommit, remaining := g.plan.ordered }

/-- The launch of a node that is not completed. -/
def launchNode (turn : Turn C) (run : PlanRun) (rest : List PlanRun) (l : SequentialLoop C) :
    SequentialLoop C :=
  let s := l.state
  match turn.refusal with
  | some _ =>
    l.ended (transitionToBlocked { s with audit := s.audit.nodeFailed run.id .blocked none }
      (stoppedResult s run .blocked none []) turn.finishing.deviationRecords)
  | none =>
    let request := requestForRun g run l.candidate (s.obligations.owed run.id)
    let s := { s with audit := s.audit.nodeStarted run.id, requests := s.requests ++ [request] }
    match turn.launch with
    | .error error => l.ended ⟨s, .raised error.message⟩
    | .ok launched =>
      match sealOutcome g run request launched s with
      | (s, .error message) => l.ended ⟨s, .raised message⟩
      | (s, .ok (.sealed obligations)) =>
        { l with
          state := { s with obligations := obligations }
          candidate := s.completed.getD run.id l.candidate
          remaining := rest }
      | (s, .ok (.blocked result _ _)) =>
        l.ended (transitionToBlocked s result turn.finishing.deviationRecords)
      | (s, .ok (.failed result)) => l.ended (s.finalize .failed result)

end SequentialLoop

/-- One turn of the loop in `run`. -/
def sequentialStep [PartialOrder C] (g : Controller C) (turn : Turn C) (l : SequentialLoop C) :
    Option (SequentialLoop C) :=
  match l.ending, l.remaining with
  | some _, _ => none
  | none, [] =>
    some (l.ended
      (finalizeWithFunctionality g.plan.functionalityTests turn.finishing l.state l.candidate))
  | none, run :: rest =>
    match l.state.completed.get? run.id with
    | some candidate => some { l with candidate := candidate, remaining := rest }
    | none => some (l.launchNode g turn run rest)

/-- A run of the sequential controller on an attempt. -/
def SequentialRun [PartialOrder C] (g : Controller C) (audit : AttemptState C)
    (l : SequentialLoop C) : Prop :=
  ∃ s, StartsOn g.plan audit s ∧ Inputs.Runs (sequentialStep g) (SequentialLoop.start g s) l

end HarnessLabs.PlanGraph
