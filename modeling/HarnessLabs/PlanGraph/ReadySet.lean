import HarnessLabs.PlanGraph.Scheduler
import HarnessLabs.PlanGraph.Sequential

/-!
# Running a graph in parallel

The loop of a controller with parallelism: the scheduler admits nodes on the join of their
dependencies' candidates, outcomes are sealed as they come back, and the final candidate joins the
candidates of the sinks.

* `ReadySetLoop.admitReady` — the admission of the selected nodes.
* `ReadySetLoop.completeNode` — an outcome that came back.
* `readySetStep` — one turn of the loop.
-/

namespace HarnessLabs.PlanGraph

universe u

variable {C : Type u}

/-! ## Joining -/

/-- The candidates of the dependencies. -/
def dependencyCandidates (completed : Dict String C) (run : PlanRun) : Except String (List C) :=
  run.dependsOn.mapM fun d => (completed.get? d).elim
    (.error s!"run '{run.id}' admitted before dependency '{d}' sealed") .ok

/-- The runs that no run depends on. -/
def sinks (ordered : List PlanRun) : List PlanRun :=
  ordered.filter fun run => !ordered.any fun other => run.id ∈ other.dependsOn

/-- `completed[sink]` of every sink. -/
def sinkCandidates (ordered : List PlanRun) (completed : Dict String C) : Except String (List C) :=
  (sinks ordered).mapM fun run => (completed.get? run.id).elim (.error s!"KeyError: '{run.id}'") .ok

section Joins

variable [PartialOrder C] [DecidableEq C] [DecidableLE C] (g : Controller C)

/-- `_base_commit_for_run`. -/
def baseCommitForRun (run : PlanRun) (completed : Dict String C) : Except String C :=
  match dependencyCandidates completed run with
  | .error message => .error message
  | .ok [] => .ok g.plan.baseCommit
  | .ok parents => joinCandidates g.git run.id parents

/-- `_final_candidate`. -/
def finalCandidate (completed : Dict String C) : Except String C :=
  match sinkCandidates g.plan.ordered completed with
  | .error message => .error message
  | .ok parents => joinCandidates g.git "final" parents

end Joins

/-- The scheduler of the controller. It is not given any barriers. -/
def Controller.scheduler [PartialOrder C] (g : Controller C) : ReadySetScheduler where
  runs := g.plan.ordered
  maxParallelism := g.maxParallelism
  barrierNodeIds := []
  positive := g.positive
  uniqueIds := g.plan.ordered_ids.nodup
  nonemptyIds := fun _ hrun => (g.plan.wellFormed (g.plan.mem_ordered.1 hrun)).1
  knownDependencies := by
    intro run hrun d hd
    have hknown := ((g.plan.wellFormed (g.plan.mem_ordered.1 hrun)).2 d hd).1
    obtain ⟨other, hother, rfl⟩ := List.mem_map.1 hknown
    exact mem_runIds (g.plan.mem_ordered.2 hother)
  knownBarriers := fun _ h => absurd h List.not_mem_nil

/-! ## The loop -/

/-- The first decision that ended a node, and whether it has escalations to surface. -/
structure Terminal (C : Type u) where
  result : PlanGraphResult C
  blocks : Bool
  escalation : Option EscalationDisposition

structure ReadySetLoop (C : Type u) where
  state : RunState C
  inFlight : Dict String (FeatureRunRequest C) := ∅
  withheld : List String := []
  terminal : Option (Terminal C) := none
  deferredError : Option String := none
  admitting : Bool := true
  ending : Option (Ending C) := none

/-- What a turn meets: the refusals of the ledger, and what the launches returned or raised that
came back. -/
structure Round (C : Type u) where
  refusal : String → Option String := fun _ => none
  done : String → Option (Except LaunchError (Launched C)) := fun _ => none
  finishing : Finishing := {}

namespace ReadySetLoop

def ended (l : ReadySetLoop C) (e : Ended C) : ReadySetLoop C :=
  { l with state := e.state, ending := some e.ending }

/-- What the scheduler is asked about. -/
def schedulerState (l : ReadySetLoop C) : ReadySetScheduler.State where
  sealed := l.state.completed.keys
  active := (l.inFlight.keys.mergeSort fun a b => a ≤ b).map (⟨·, .featureRun⟩)
  withheld := l.withheld.mergeSort fun a b => a ≤ b

/-- Admission stops at a node whose base cannot be joined or that the ledger refuses. -/
def refuse (l : ReadySetLoop C) (run : PlanRun) : ReadySetLoop C :=
  let s := l.state
  { l with
    state := { s with audit := s.audit.nodeFailed run.id .blocked none }
    terminal := l.terminal.orElse fun _ => some ⟨stoppedResult s run .blocked none [], true, none⟩
    withheld := l.withheld ++ [run.id]
    admitting := false }

/-- Record a decision that ended a node. -/
def stop (l : ReadySetLoop C) (nodeId : String) (t : Terminal C) : ReadySetLoop C :=
  { l with
    withheld := l.withheld ++ [nodeId]
    terminal :=
      match l.terminal with
      | none => some t
      | some first => if first.escalation.isNone ∧ t.escalation.isSome then some t else some first }

/-- Admission goes on. -/
def admits (continueIndependent : Bool) (l : ReadySetLoop C) : Bool :=
  l.admitting && l.deferredError.isNone && (l.terminal.isNone || continueIndependent)

variable [PartialOrder C] [DecidableEq C] [DecidableLE C] (g : Controller C)

/-- The admission of one selected node. -/
def admitNode (refusal : String → Option String) (l : ReadySetLoop C) (run : PlanRun) :
    ReadySetLoop C :=
  let s := l.state
  match baseCommitForRun g run s.completed, refusal run.id with
  | .error _, _ | .ok _, some _ => l.refuse run
  | .ok base, none =>
    let request := requestForRun g run base (s.obligations.owed run.id)
    { l with
      state := { s with audit := s.audit.nodeStarted run.id, requests := s.requests ++ [request] }
      inFlight := l.inFlight.set run.id request }

/-- The admission of the selected nodes, until one is refused. -/
def admitNodes (refusal : String → Option String) : ReadySetLoop C → List PlanRun → ReadySetLoop C
  | l, [] => l
  | l, run :: rest =>
    let next := l.admitNode g refusal run
    if next.admitting then admitNodes refusal next rest else next

/-- The part of a turn before it waits. -/
def admitReady (refusal : String → Option String) (l : ReadySetLoop C) : Except String (ReadySetLoop C) :=
  if ¬ l.admits g.continueIndependentAfterBlock then .ok l
  else
    match g.scheduler.select l.schedulerState with
    | .error message => .error message
    | .ok units => .ok (l.admitNodes g refusal (units.filterMap fun unit =>
        runById g.plan.ordered unit.nodeId))

/-- A launch that raises is a child that failed. -/
def launchedOf : Except LaunchError (Launched C) → Launched C
  | .ok launched => launched
  | .error error =>
    { outcome :=
      { status := "failed"
        evidence := .obj [("error", .str error.message), ("error_type", .str error.errorType)] } }

/-- The outcome of a node in flight. -/
def completeNode (launch : Except LaunchError (Launched C)) (l : ReadySetLoop C) (nodeId : String) :
    ReadySetLoop C :=
  match l.inFlight.get? nodeId with
  | none => l
  | some request =>
    let l := { l with inFlight := l.inFlight.erase nodeId }
    match sealOutcome g request.run request (launchedOf launch) l.state with
    | (s, .error message) =>
      { l with
        state := s
        deferredError := l.deferredError.orElse fun _ => some message
        withheld := l.withheld ++ [nodeId] }
    | (s, .ok (.sealed obligations)) => { l with state := { s with obligations := obligations } }
    | (s, .ok (.blocked result _ escalation)) =>
      { l with state := s }.stop nodeId ⟨result, true, escalation⟩
    | (s, .ok (.failed result)) => { l with state := s }.stop nodeId ⟨result, false, none⟩

/-- The nodes in flight whose launches came back, in the order of their ids. -/
def doneIds (done : String → Option (Except LaunchError (Launched C))) (l : ReadySetLoop C) :
    List String :=
  (l.inFlight.keys.filter fun id => (done id).isSome).mergeSort fun a b => a ≤ b

def completeNodes (done : String → Option (Except LaunchError (Launched C))) (l : ReadySetLoop C)
    (ids : List String) : ReadySetLoop C :=
  ids.foldl (fun acc id => match done id with
    | some launch => acc.completeNode g launch id
    | none => acc) l

omit [DecidableEq C] [DecidableLE C] in
theorem completeNodes_concat (done : String → Option (Except LaunchError (Launched C)))
    (l : ReadySetLoop C) (ids : List String) (id : String) :
    l.completeNodes g done (ids ++ [id]) =
      match done id with
      | some launch => (l.completeNodes g done ids).completeNode g launch id
      | none => l.completeNodes g done ids := by
  rw [completeNodes, List.foldl_append]
  rfl

omit [DecidableEq C] [DecidableLE C] in
theorem completeNodes_cons (done : String → Option (Except LaunchError (Launched C)))
    (l : ReadySetLoop C) (id : String) (ids : List String) :
    l.completeNodes g done (id :: ids) =
      (match done id with
      | some launch => l.completeNode g launch id
      | none => l).completeNodes g done ids := rfl

/-- How the loop ends when nothing is in flight. -/
def conclude (finishing : Finishing) (l : ReadySetLoop C) : ReadySetLoop C :=
  match l.terminal, l.deferredError with
  | none, some message => l.ended ⟨l.state, .raised message⟩
  | some t, _ =>
    let result := { t.result with completed := l.state.completed }
    if t.blocks then l.ended (transitionToBlocked l.state result finishing.deviationRecords)
    else l.ended (l.state.finalize result.status result)
  | none, none =>
    match finalCandidate g l.state.completed with
    | .error message => l.ended ⟨l.state, .raised message⟩
    | .ok candidate =>
      l.ended (finalizeWithFunctionality g.plan.functionalityTests finishing l.state candidate)

end ReadySetLoop

/-- One turn of the loop in `_run_ready_set`. It waits until a launch came back. -/
def readySetStep [PartialOrder C] [DecidableEq C] [DecidableLE C] (g : Controller C)
    (round : Round C) (l : ReadySetLoop C) : Option (ReadySetLoop C) :=
  match l.ending with
  | some _ => none
  | none =>
    match l.admitReady g round.refusal with
    | .error message => some (l.ended ⟨l.state, .raised message⟩)
    | .ok l =>
      if l.inFlight.keys = [] then some (l.conclude g round.finishing)
      else
        match l.doneIds round.done with
        | [] => none
        | ids => some (l.completeNodes g round.done ids)

/-- A run of the parallel controller on an attempt. -/
def ReadySetRun [PartialOrder C] [DecidableEq C] [DecidableLE C] (g : Controller C)
    (audit : AttemptState C) (l : ReadySetLoop C) : Prop :=
  ∃ s, StartsOn g.plan audit s ∧ Inputs.Runs (readySetStep g) { state := s } l

end HarnessLabs.PlanGraph
