import HarnessLabs.Core.Restamp
import HarnessLabs.PlanGraph.Contenders
import HarnessLabs.PlanGraph.Reconcile

/-!
# Gate slots and the head of the journal

The audit of an attempt in one process. The coordinating thread makes transitions, reserves and
invalidates allocations and reconciles interrupted ones; the launchers' threads journal that they
have taken the gate slot and given it back, and stamp the checkpoint again behind their event. Four
records of the coordinating thread are appended and not stamped, among them that of a gate slot which
was bypassed. A reconciliation that finds a node which is not active raises behind the events of the
children that it has settled.

* `planGraphCoordinator` — the operations of `PlanGraphAudit` on its journal.
* `Unstamped` — the steps that leave an event which nothing stamps.
* `checkpoint_binds_head_iff` — **the checkpoint binds the journal head between operations exactly
  when a gate slot is being journaled at every such step.**
-/

namespace HarnessLabs.PlanGraph

open Audit Inputs
open Audit.Threads

variable {C : Type}

/-! ## Events -/

/-- An event of the audit: its type, its status and the node that its payload names. -/
structure JournalEntry where
  eventType : String
  status : String
  planNodeId : Option String := none
  deriving DecidableEq

inductive GateSlotAction where
  | acquired
  | released

def GateSlotAction.text : GateSlotAction → String
  | .acquired => "acquired"
  | .released => "released"

/-- The arguments of `_gate_slot_event`. -/
structure GateSlotEvent where
  nodeId : String
  action : GateSlotAction
  admittedConcurrency : ℤ

/-- `_gate_slot_event`, up to its writes. -/
def GateSlotEvent.entry (g : GateSlotEvent) : Except String JournalEntry := do
  require (g.nodeId ≠ "") "gate slot event requires a non-empty node id"
  require (1 ≤ g.admittedConcurrency)
    "gate slot admitted_concurrency must be a positive integer"
  return {
    eventType := "plan_graph_gate_slot_" ++ g.action.text
    status := match g.action with
      | .acquired => "running"
      | .released => "succeeded"
    planNodeId := some g.nodeId }

/-- `gate_slot_bypassed`, `record_finding_escalated`, `record_escalation_judged` and
`record_node_unsealed`. -/
inductive PlainRecord where
  | gateSlotBypassed (nodeId : String)
  | findingEscalated (nodeId findingKey ownerNode : String) (requiredPaths : List String)
  | escalationJudged (nodeId findingKey : String) (judgment : Json)
  | nodeUnsealed (unsealedNodeId findingKey escalatingNode : String)

/-- The event of a record. -/
def PlainRecord.entry : PlainRecord → Except String JournalEntry
  | .gateSlotBypassed nodeId => do
    require (nodeId ≠ "") "gate slot event requires a non-empty node id"
    return ⟨"plan_graph_gate_slot_bypassed", "failed", some nodeId⟩
  | .findingEscalated nodeId _ _ _ => .ok ⟨"plan_graph_finding_escalated", "running", some nodeId⟩
  | .escalationJudged nodeId _ _ => .ok ⟨"plan_graph_escalation_judged", "running", some nodeId⟩
  | .nodeUnsealed nodeId _ _ => .ok ⟨"plan_graph_node_unsealed", "running", some nodeId⟩

/-! ## Transitions -/

/-- The transitions of the audit: those of the nodes, the two around a transfer of obligations, and
`functionality_completed` and `functionality_failed`. -/
inductive AuditTransition (C : Type) where
  | node (t : Transition C)
  | candidateVerifiedPendingTransfer (nodeId : String) (candidate : C)
  | transferConflictBlocked (nodeId : String) (obligations : Option Obligations)
  | functionalityCompleted (command : String)
  | functionalityFailed (command error : String)

/-- What a transition writes behind its first look at the checkpoint. -/
inductive AuditUpdate (C : Type) where
  | node (update : Update C)
  | candidateVerifiedPendingTransfer (nodeId : String) (candidate : C)
  | transferConflictBlocked (nodeId : String) (obligations : Option Obligations)
  | functionalityCompleted (command : String)
  | functionalityFailed (command error : String)

namespace AuditTransition

/-- The part of a transition before it reads the state that it writes. -/
def prepare : AuditTransition C → AttemptState C → Except String (AuditUpdate C)
  | .node t, state => (state.prepare t).map .node
  | .candidateVerifiedPendingTransfer id candidate, _ =>
    .ok (.candidateVerifiedPendingTransfer id candidate)
  | .transferConflictBlocked id obligations, state => do
    require (id ∈ state.nodes.keys) s!"PlanGraph checkpoint has no node '{id}'"
    require ((state.pendingCandidateCommit id).isSome = true)
      "transfer conflict has no verified-candidate checkpoint"
    return .transferConflictBlocked id obligations
  | .functionalityCompleted command, _ => .ok (.functionalityCompleted command)
  | .functionalityFailed command error, _ => .ok (.functionalityFailed command error)

end AuditTransition

def Update.entry : Update C → JournalEntry
  | .started id _ => ⟨"plan_node_started", "running", some id⟩
  | .completed id _ _ _ _ => ⟨"plan_node_completed", "succeeded", some id⟩
  | .failed id status _ =>
    ⟨"plan_node_failed", if status.1 = .blocked then "blocked" else "failed", some id⟩

/-- The state that a transition writes, from the one that it reads, and its event. -/
def AuditUpdate.load : AuditUpdate C → AttemptState C →
    Except String (AttemptState C × JournalEntry)
  | .node update, state => (state.applyUpdate update).map fun next => (next, update.entry)
  | .candidateVerifiedPendingTransfer id candidate, state => do
    require (id ∈ state.nodes.keys) s!"PlanGraph checkpoint has no node '{id}'"
    return (state.candidateVerifiedPendingTransfer id candidate,
      ⟨"plan_graph_candidate_verified_pending_transfer", "running", some id⟩)
  | .transferConflictBlocked id obligations, state => do
    require (id ∈ state.nodes.keys) s!"PlanGraph checkpoint has no node '{id}'"
    return (state.transferConflictBlocked id obligations,
      ⟨"plan_graph_transfer_conflict_blocked", "blocked", some id⟩)
  | .functionalityCompleted command, state =>
    .ok (state.functionalityCompleted command, ⟨"functionality_test_completed", "succeeded", none⟩)
  | .functionalityFailed command error, state =>
    .ok (state.functionalityFailed command error,
      ⟨"functionality_test_completed", "failed", none⟩)

/-! ## Reconciliation -/

/-- The events of `_adopt_seal`, `_quarantine_late_manifest` and `_block_recovery_node`. -/
def ChildVerdict.entries (nodeId : String) : ChildVerdict C → List JournalEntry
  | .running => []
  | .sealed _ _ => [⟨"plan_graph_child_seal_adopted", "succeeded", some nodeId⟩]
  | .blocked _ _ lateManifest =>
    (lateManifest.toList.map fun _ =>
      ⟨"plan_graph_late_manifest_quarantined", "blocked", some nodeId⟩) ++
      [⟨"plan_graph_child_recovery_blocked", "blocked", some nodeId⟩]

namespace AttemptState

variable [DecidableEq C] (evidence : Evidence C) (forced : List ForceRecord)

/-- The events that the loop of `reconcile_interrupted_attempts` appends, to its end or until it
raises. -/
def reconcileEntries : AttemptState C → List (SuccessorAttempt C) → List JournalEntry
  | _, [] => []
  | state, attempt :: rest =>
    if attempt.nodeId ∈ state.activeNodeIds then
      match state.nodes.get? attempt.nodeId with
      | none => []
      | some node =>
        if interrupted node then
          (judge evidence forced attempt).entries attempt.nodeId ++ reconcileEntries
            (state.settle attempt.nodeId node (judge evidence forced attempt)) rest
        else []
    else reconcileEntries state rest

/-- `reconcile_interrupted_attempts` with its events. -/
def reconcileSweep (state : AttemptState C) (evidence : Evidence C) (records : List ForceRecord) :
    Sweep (AttemptState C) JournalEntry :=
  match state.forceRecords evidence [] records with
  | .error _ => .raises []
  | .ok forced =>
    match state.reconcileFrom evidence forced state.successorAttempts with
    | .error _ => .raises (reconcileEntries evidence forced state state.successorAttempts)
    | .ok ⟨_, []⟩ => .nothing
    | .ok ⟨next, _ :: _⟩ =>
      .closes (reconcileEntries evidence forced state state.successorAttempts) next
        ⟨"plan_graph_interrupted_attempts_reconciled", "running", none⟩

end AttemptState

/-! ## The threads of an attempt -/

def AllocationOp.entry : AllocationOp C → JournalEntry
  | .reserve _ => ⟨"plan_graph_successor_attempts_reserved", "reserved", none⟩
  | .invalidate _ _ _ => ⟨"plan_graph_successor_attempt_invalidated", "invalidated", none⟩

/-- `PlanGraphAudit` on its journal. -/
def planGraphCoordinator (C : Type) [DecidableEq C] :
    Coordinator (AttemptState C) (AuditTransition C) (AuditUpdate C) (AllocationOp C)
      (Evidence C × List ForceRecord) PlainRecord GateSlotEvent JournalEntry where
  prepare := AuditTransition.prepare
  load := AuditUpdate.load
  check := AllocationOp.check
  expectedRevision := AllocationOp.expectedRevision
  compose := fun op state => (op.compose state).map fun result => (result.1, op.entry)
  recover := fun r state => state.reconcileSweep r.1 r.2
  note := PlainRecord.entry
  stamp := GateSlotEvent.entry

/-- The threads of an attempt. -/
abbrev AttemptThreads (W C H : Type) :=
  Threads W (AttemptState C) (AuditTransition C) (AuditUpdate C) (AllocationOp C)
    (Evidence C × List ForceRecord) JournalEntry H

abbrev AttemptAction (W C H : Type) :=
  ThreadAction W (AuditTransition C) (AllocationOp C) (Evidence C × List ForceRecord) PlainRecord
    GateSlotEvent H

/-- A step that leaves an event which nothing stamps: a record of an escalation, a bypass of a named
node, and a reconciliation that raises while the checkpoint is behind its events. -/
def Unstamped {W H : Type} [DecidableEq H] (s : AttemptThreads W C H) : AttemptAction W C H → Prop
  | .note (.gateSlotBypassed nodeId) _ => nodeId ≠ ""
  | .note _ _ => True
  | .close => (∃ r, s.stance = .recovering r [] none) ∧ ¬ s.disk.Bound
  | _ => False

variable {W H : Type} [DecidableEq W] [DecidableEq H] [DecidableEq C]

omit [DecidableEq W] in
theorem loose_iff_unstamped (s : AttemptThreads W C H) (action : AttemptAction W C H) :
    Loose (planGraphCoordinator C) s action ↔ Unstamped s action := by
  cases action with
  | note record hash =>
    show (∃ payload, record.entry = .ok payload) ↔ _
    cases record with
    | gateSlotBypassed nodeId =>
      show (∃ payload, (require (nodeId ≠ "") _ >>= _) = .ok payload) ↔ nodeId ≠ ""
      constructor
      · intro h
        obtain ⟨payload, hok⟩ := h
        exact (require_bind_eq_ok.1 hok).1
      · intro hnamed
        exact ⟨_, require_bind_eq_ok.2 ⟨hnamed, rfl⟩⟩
    | _ => exact iff_of_true ⟨_, rfl⟩ True.intro
  | close =>
    show (∃ r, s.stance = .recovering r [] none ∧ ¬ s.disk.Bound) ↔ _
    exact exists_and_right
  | _ => exact Iff.rfl

/-- **The checkpoint and the journal of an attempt stay bound exactly when no unstamped event comes
alone.** For every sequence of steps of the coordinating thread and the workers from an open journal:
in every state the nodes are those of the coordinating thread's operations alone, and in every state
without an operation in progress the checkpoint binds the journal head and no swap is refused because
it does not, if and only if every step that leaves an unstamped event is taken while a worker journals
a gate slot. -/
theorem checkpoint_binds_head_iff {s : AttemptThreads W C H} (hready : s.Ready)
    (actions : List (AttemptAction W C H)) :
    AllStates (Threads.step (planGraphCoordinator C))
        (Restamped (planGraphCoordinator C) s.disk.state) s actions ↔
      AllInputs (Threads.step (planGraphCoordinator C))
        (fun t action => Unstamped t action → t.Stamping) s actions := by
  rw [restamped_iff hready]
  have hcovered : Threads.Covered (planGraphCoordinator C) =
      fun (t : AttemptThreads W C H) action => Unstamped t action → t.Stamping := by
    funext t action
    exact propext (imp_congr_left (loose_iff_unstamped t action))
  rw [hcovered]

/-! ## A bypass -/

/-- The pair of runs behind its first event, with a worker for each node. -/
def pairThreads : AttemptThreads Bool (Finset ℕ) ℕ where
  disk :=
    { events := [⟨0, none, 0, ⟨"run_started", "running", none⟩⟩]
      revision := 1
      sequence := 1
      headHash := some 0
      state := initialState pairPlan "graph" ∅ none }
  belief := ⟨1, some 0, 1⟩
  stance := .idle
  workers := fun _ => .idle
  done := []

theorem ready_pairThreads : pairThreads.Ready :=
  ⟨by decide, by decide, rfl, ⟨rfl, fun _ => rfl⟩, rfl⟩

/-- A bypass that is journaled while a worker stamps its own event behind it. -/
def coveredBypass : List (AttemptAction Bool (Finset ℕ) ℕ) :=
  [.enter true ⟨"a", .acquired, 2⟩, .stampAppend true 1, .note (.gateSlotBypassed "b") 2,
    .stampMerge true]

theorem checkpoint_binds_head_covered :
    AllStates (Threads.step (planGraphCoordinator (Finset ℕ)))
        (Restamped (planGraphCoordinator (Finset ℕ)) pairThreads.disk.state) pairThreads
        coveredBypass ∧
      (runInputs (Threads.step (planGraphCoordinator (Finset ℕ))) pairThreads coveredBypass).map
        (fun s => (s.disk.sequence, s.disk.events.length)) = some (3, 3) := by
  refine ⟨(checkpoint_binds_head_iff ready_pairThreads coveredBypass).2 ?_, by decide +kernel⟩
  intro s hs
  refine ⟨False.elim, fun s' hs' => ⟨False.elim, ?_⟩⟩
  cases hs
  cases hs'
  exact fun s'' _ => ⟨fun _ => ⟨true, nofun⟩, fun _ _ => ⟨False.elim, True.intro⟩⟩

/-- The attempt behind the bypass of `a`. -/
def bypassed : AttemptThreads Bool (Finset ℕ) ℕ :=
  pairThreads.append 1 ⟨"plan_graph_gate_slot_bypassed", "failed", some "a"⟩ .idle

/-- A bypass returns, the checkpoint is behind the journal, and the reservation that follows is
refused. -/
theorem bypass_unbinds_checkpoint :
    ¬ AllStates (Threads.step (planGraphCoordinator (Finset ℕ)))
        (Restamped (planGraphCoordinator (Finset ℕ)) pairThreads.disk.state) pairThreads
        [.note (.gateSlotBypassed "a") 1] ∧
      (runInputs (Threads.step (planGraphCoordinator (Finset ℕ))) pairThreads
        [.note (.gateSlotBypassed "a") 1,
          .head (.reserve ⟨[("a", "a1")], 1, ∅, 1, ∅⟩), .compose]).bind
        (fun s => match s.stance with
          | .composed _ head next payload => match s.disk.swap 1 head next 2 payload with
            | .error message => some message
            | .ok _ => none
          | _ => none) = some "checkpoint does not bind the journal head" := by
  refine ⟨fun h => ?_, by decide +kernel⟩
  have hbound : bypassed.disk.Bound := (h.2 bypassed rfl).bound ⟨rfl, fun _ => rfl⟩
  exact absurd hbound (by decide)

end HarnessLabs.PlanGraph
