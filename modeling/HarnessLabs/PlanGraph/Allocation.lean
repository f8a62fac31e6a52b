import HarnessLabs.Core.AuditJournal
import HarnessLabs.PlanGraph.Selection

/-!
# Allocations

A parallel controller launches a node under an allocation, which it reserves in the checkpoint of
the audit before the launch and invalidates before it replaces it.

* `AttemptState.reserveBatch` — a batch of sibling nodes gets its allocations.
* `AttemptState.invalidateAttempt` — an allocation that has stopped is given up.
* `Update` — what a transition writes, from the two states that it reads.
* `Sound` — **a node has one live allocation at most**, in every state that these reach.
-/

namespace HarnessLabs.PlanGraph

open List
open Audit (require require_eq_ok require_bind_eq_ok unit_bind_eq_ok forM_eq_ok)

variable {C : Type}

/-! ## Reservations -/

/-- The arguments of `reserve_successor_attempt_batch`. -/
structure Reservation (C : Type) where
  allocations : List (String × String)
  logicalAttempt : ℕ
  parentCandidateCommit : C
  expectedRevision : ℕ
  expectedStagingHead : C

/-- The node ids and the allocation ids of a reservation. -/
def Reservation.nodeIds (r : Reservation C) : List String := r.allocations.map Prod.fst

def Reservation.allocationIds (r : Reservation C) : List String := r.allocations.map Prod.snd

/-- The checks on the arguments before the checkpoint is read, but for its revision. -/
def Reservation.check [DecidableEq C] (r : Reservation C) : Except String Unit := do
  require (r.allocations ≠ []) "successor-attempt batch must not be empty"
  require (1 ≤ r.logicalAttempt) "logical_attempt must be positive"
  require (1 ≤ r.expectedRevision) "expected_revision must be positive"
  require (r.parentCandidateCommit = r.expectedStagingHead)
    "parent_candidate_commit must equal expected_staging_head"

/-- The checks on the allocations, behind the one on the revision. -/
def Reservation.checkAllocations (r : Reservation C) : Except String Unit := do
  r.allocations.forM fun a => do
    require (a.1 ≠ "") "successor-attempt node_id must be non-empty"
    require (a.2 ≠ "") "successor-attempt allocation_id must be non-empty"
  require r.nodeIds.Nodup "successor-attempt batch repeats a node_id"
  require r.allocationIds.Nodup "successor-attempt batch repeats an allocation_id"

namespace AttemptState

variable (state : AttemptState C)

def invalidatedAttemptIds : List String := state.retryState.invalidations.map (·.attemptId)

/-- The records of the allocations that are not invalidated. -/
def liveRecords : List (LineageRecord C) :=
  state.attemptLineage.filter (·.attemptId ∉ state.invalidatedAttemptIds)

/-- The last allocation of a node that was invalidated. -/
def predecessorAttemptId (nodeId : String) : Option String :=
  ((state.attemptLineage.filter fun r =>
    r.nodeId = nodeId ∧ r.attemptId ∈ state.invalidatedAttemptIds).getLast?).map (·.attemptId)

def queued (nodeId : String) : Prop :=
  (state.nodes.get? nodeId).map (·.status) = some .queued

instance (nodeId : String) : Decidable (state.queued nodeId) :=
  inferInstanceAs (Decidable (_ = _))

/-- The next batch has the number behind the greatest so far. -/
def nextBatch (logicalAttempt : ℕ) : Bool :=
  match (state.successorAttempts.map (·.logicalAttempt)).max? with
  | none => true
  | some greatest => logicalAttempt = greatest + 1

/-- The checks of a reservation on the state that it read. -/
def checkReservation [DecidableEq C] (r : Reservation C) : Except String Unit := do
  require (state.currentCandidateCommit = r.expectedStagingHead) "PlanGraph staging head changed"
  r.nodeIds.forM fun id => do
    require (id ∈ state.nodes.keys) s!"PlanGraph checkpoint has no node '{id}'"
    require (state.queued id) s!"PlanGraph node '{id}' is not queued"
  require (∀ a ∈ state.successorAttempts, a.allocationId ∉ r.allocationIds)
    "PlanGraph allocation_id was already reserved"
  require (∀ record ∈ state.liveRecords, record.nodeId ∉ r.nodeIds)
    "PlanGraph node already has a live successor attempt"
  require (state.nextBatch r.logicalAttempt) "PlanGraph logical_attempt must advance by one batch"
  require (∀ id ∈ r.nodeIds, id ∉ state.activeNodeIds) "PlanGraph node is already active"

/-- A new allocation. -/
def successorAttempt (r : Reservation C) (a : String × String) : SuccessorAttempt C where
  graphId := state.graphRunId
  nodeId := a.1
  logicalAttempt := r.logicalAttempt
  allocationId := a.2
  checkpointRevision := r.expectedRevision
  expectedStagingHead := r.expectedStagingHead
  parentCandidateCommit := r.parentCandidateCommit

/-- The record of a new allocation. -/
def lineageRecord (r : Reservation C) (a : String × String) : LineageRecord C where
  attemptId := attemptIdOf state.graphRunId (some a.2)
  nodeId := a.1
  logicalAttempt := r.logicalAttempt
  allocationId := a.2
  inputCommit := r.parentCandidateCommit
  predecessorAttemptId := state.predecessorAttemptId a.1

/-- The barrier of a reservation, under the id that the node's completion gives its own. -/
def reservationBarrier (r : Reservation C) (a : String × String) : Barrier C where
  barrierId := barrierIdOf a.1 (some a.2)
  nodeId := a.1
  attemptId := attemptIdOf state.graphRunId (some a.2)
  inputCommit := r.parentCandidateCommit
  expectedStagingHead := some r.expectedStagingHead

def reserveNode (r : Reservation C) (a : String × String) (node : Node C) : Node C :=
  { node with
    status := .reserved
    parentCandidateCommit := some r.parentCandidateCommit
    allocationId := some a.2
    logicalAttempt := some r.logicalAttempt
    inputCommit := some r.parentCandidateCommit
    integratedCommit := none }

/-- One allocation of a batch. -/
def reserveOne (r : Reservation C) (state : AttemptState C) (a : String × String) :
    AttemptState C :=
  { state with
    nodes := match state.nodes.get? a.1 with
      | none => state.nodes
      | some node => state.nodes.set a.1 (reserveNode r a node)
    activeNodeIds := state.activeNodeIds ++ [a.1]
    successorAttempts := state.successorAttempts ++ [state.successorAttempt r a]
    attemptLineage := state.attemptLineage ++ [state.lineageRecord r a]
    integrationBarriers := state.integrationBarriers ++ [state.reservationBarrier r a]
    retryState := { state.retryState with
      reuse := state.retryState.reuse ++ (state.predecessorAttemptId a.1).toList.map fun previous =>
        { nodeId := a.1
          reusedFromAttemptId := previous
          replacementAttemptId := attemptIdOf state.graphRunId (some a.2) } } }

/-- `reserve_successor_attempt_batch` on the state that it read. -/
def reserveBatch [DecidableEq C] (r : Reservation C) : Except String (AttemptState C) := do
  r.checkAllocations
  state.checkReservation r
  return r.allocations.foldl (reserveOne r) state

/-! ## Invalidations -/

/-- A node whose allocation is given up. -/
def requeueNode (node : Node C) : Node C :=
  { node with
    status := .queued
    allocationId := none
    logicalAttempt := none
    inputCommit := none
    integratedCommit := none }

/-- `invalidate_successor_attempt` on the state that it read. -/
def invalidateAttempt (allocationId reason : String) : Except String (AttemptState C) :=
  match state.attemptLineage.filter (·.allocationId = allocationId) with
  | [attempt] => do
    require (attempt.attemptId ∉ state.invalidatedAttemptIds)
      "PlanGraph attempt was already invalidated"
    match state.nodes.get? attempt.nodeId with
    | none => .error "PlanGraph invalidation node is invalid"
    | some node => do
      require (node.allocationId = some allocationId)
        "PlanGraph allocation is no longer active for its node"
      require (node.status ≠ .succeeded) "PlanGraph succeeded attempt cannot be invalidated"
      return { state with
        nodes := state.nodes.set attempt.nodeId (requeueNode node)
        activeNodeIds := state.activeNodeIds.filter (· ≠ attempt.nodeId)
        retryState := { state.retryState with
          invalidations := state.retryState.invalidations ++
            [⟨attempt.attemptId, attempt.nodeId, allocationId, reason⟩] } }
  | _ => .error "PlanGraph allocation has no immutable lineage record"

end AttemptState

/-! ## Transitions -/

/-- `node_started`, `node_completed` and `node_failed`. -/
inductive Transition (C : Type) where
  | started (nodeId : String)
  | completed (nodeId : String) (candidate : C) (obligations : Option Obligations)
  | failed (nodeId : String) (status : {s : NodeStatus // s.stopped = true})
      (obligations : Option Obligations)

def Transition.nodeId : Transition C → String
  | .started id | .completed id _ _ | .failed id _ _ => id

/-- What a transition writes behind its first look at the checkpoint. -/
inductive Update (C : Type) where
  | started (nodeId : String) (inputCommit : Option C)
  | completed (nodeId : String) (candidate inputCommit : C) (barriers : List (Barrier C))
      (obligations : Option Obligations)
  | failed (nodeId : String) (status : {s : NodeStatus // s.stopped = true})
      (obligations : Option Obligations)

namespace AttemptState

variable (state : AttemptState C)

/-- The barriers behind a completion. -/
def completionBarriers (nodeId : String) (candidate : C) : List (Barrier C) :=
  let barrier := state.completionBarrier nodeId candidate
  if state.integrationBarriers.any (·.barrierId = barrier.barrierId) then
    state.integrationBarriers
  else state.integrationBarriers ++ [barrier]

/-- The part of a transition before `_transition`. -/
def prepare : Transition C → Except String (Update C)
  | .started id => .ok (.started id ((state.nodes.get? id).map fun node =>
      node.inputCommit.getD state.currentCandidateCommit))
  | .completed id candidate obligations =>
    if id ∈ state.nodes.keys then
      .ok (.completed id candidate (state.completionBarrier id candidate).inputCommit
        (state.completionBarriers id candidate) obligations)
    else .error s!"PlanGraph checkpoint has no node '{id}'"
  | .failed id status obligations => .ok (.failed id status obligations)

/-- `_transition`, on the state that it reads itself. -/
def applyUpdate : Update C → Except String (AttemptState C)
  | .started id inputCommit =>
    if id ∈ state.nodes.keys then
      .ok (state.transition id (fun node =>
        { node with status := .running, inputCommit := inputCommit }) true)
    else .error s!"PlanGraph checkpoint has no node '{id}'"
  | .completed id candidate inputCommit barriers obligations =>
    if id ∈ state.nodes.keys then
      .ok { state.transition id (fun node =>
          { node with
            status := .succeeded
            candidateCommit := some candidate
            inputCommit := some inputCommit
            integratedCommit := some candidate }) false with
        currentCandidateCommit := candidate
        integrationBarriers := barriers
        findingObligations := obligations.getD state.findingObligations }
    else .error s!"PlanGraph checkpoint has no node '{id}'"
  | .failed id status obligations =>
    if id ∈ state.nodes.keys then .ok (state.nodeFailed id status obligations)
    else .error s!"PlanGraph checkpoint has no node '{id}'"

/-- A transition that nothing comes between. -/
def performTransition (t : Transition C) : Except String (AttemptState C) := do
  let update ← state.prepare t
  state.applyUpdate update

end AttemptState

/-! ## Identities -/

theorem attemptIdOf_inj {graphRunId a b : String} (ha : a ≠ "") (hb : b ≠ "")
    (h : attemptIdOf graphRunId (some a) = attemptIdOf graphRunId (some b)) : a = b := by
  have hsuffix := (String.append_right_inj _).1 h
  rwa [allocationSuffix, allocationSuffix, Option.getD_some, Option.getD_some, if_neg ha,
    if_neg hb] at hsuffix

/-! ## Soundness -/

/-- What the records of the allocations say about each other and about the nodes. -/
structure Sound (state : AttemptState C) : Prop where
  allocations : state.successorAttempts.map (·.allocationId) =
    state.attemptLineage.map (·.allocationId)
  batches : state.successorAttempts.map (·.logicalAttempt) =
    state.attemptLineage.map (·.logicalAttempt)
  named : ∀ r ∈ state.attemptLineage,
    r.allocationId ≠ "" ∧ r.attemptId = attemptIdOf state.graphRunId (some r.allocationId)
  fresh : (state.attemptLineage.map (·.allocationId)).Nodup
  invalidated : ∀ id ∈ state.invalidatedAttemptIds, ∃ r ∈ state.attemptLineage, r.attemptId = id
  oneLive : (state.liveRecords.map (·.nodeId)).Nodup
  active : ∀ id ∈ state.activeNodeIds, ∃ r ∈ state.liveRecords, r.nodeId = id
  reserved : ∀ id node, state.nodes.get? id = some node → node.status = .reserved →
    id ∈ state.activeNodeIds

/-- A state without allocations. -/
structure Unallocated (state : AttemptState C) : Prop where
  attempts : state.successorAttempts = []
  lineage : state.attemptLineage = []
  retryState : state.retryState.invalidations = []
  active : state.activeNodeIds = []
  queued : ∀ id node, state.nodes.get? id = some node → node.status ≠ .reserved

variable {state next : AttemptState C} {id : String} {α : Type} {update : Update C}
  {r : Reservation C}

theorem Unallocated.sound (h : Unallocated state) : Sound state := by
  have hlive : state.liveRecords = [] := by
    rw [AttemptState.liveRecords, h.lineage]
    rfl
  constructor
  · rw [h.attempts, h.lineage]
    rfl
  · rw [h.attempts, h.lineage]
    rfl
  · rw [h.lineage]
    exact forall_mem_nil _
  · rw [h.lineage]
    exact nodup_nil
  · rw [AttemptState.invalidatedAttemptIds, h.retryState]
    exact forall_mem_nil _
  · rw [hlive]
    exact nodup_nil
  · rw [h.active]
    exact forall_mem_nil _
  · intro id node hnode hstatus
    exact absurd hstatus (h.queued id node hnode)

theorem unallocated_initialState (plan : PlanGraphPlan C) (graphRunId : String)
    (reused : Dict String C) (predecessor : Option String) :
    Unallocated (initialState plan graphRunId reused predecessor) := by
  refine ⟨rfl, rfl, rfl, rfl, fun id node hnode hreserved => ?_⟩
  obtain ⟨run, -, -, rfl⟩ := get?_nodes_initialState.1 hnode
  rw [initialNode] at hreserved
  split at hreserved
  · cases hreserved
  · cases hreserved

/-- The same allocations, whatever happened to the nodes. -/
structure SameAllocations (state next : AttemptState C) : Prop where
  graph : next.graphRunId = state.graphRunId
  attempts : next.successorAttempts = state.successorAttempts
  lineage : next.attemptLineage = state.attemptLineage
  invalidations : next.retryState.invalidations = state.retryState.invalidations
  active : next.activeNodeIds = state.activeNodeIds

theorem SameAllocations.liveRecords (h : SameAllocations state next) :
    next.liveRecords = state.liveRecords := by
  rw [AttemptState.liveRecords, AttemptState.liveRecords, AttemptState.invalidatedAttemptIds,
    AttemptState.invalidatedAttemptIds, h.lineage, h.invalidations]

theorem Sound.same (h : Sound state) (hsame : SameAllocations state next)
    (hreserved : ∀ id node, next.nodes.get? id = some node → node.status = .reserved →
      ∃ before, state.nodes.get? id = some before ∧ before.status = .reserved) : Sound next := by
  have hids : next.invalidatedAttemptIds = state.invalidatedAttemptIds := by
    rw [AttemptState.invalidatedAttemptIds, hsame.invalidations]
    rfl
  constructor
  · rw [hsame.attempts, hsame.lineage]
    exact h.allocations
  · rw [hsame.attempts, hsame.lineage]
    exact h.batches
  · rw [hsame.lineage, hsame.graph]
    exact h.named
  · rw [hsame.lineage]
    exact h.fresh
  · rw [hsame.lineage, hids]
    exact h.invalidated
  · rw [hsame.liveRecords]
    exact h.oneLive
  · rw [hsame.liveRecords, hsame.active]
    exact h.active
  · intro id node hnode hstatus
    obtain ⟨before, hbefore, hsame'⟩ := hreserved id node hnode hstatus
    rw [hsame.active]
    exact h.reserved id before hbefore hsame'

/-! ## Transitions keep allocations -/

/-- A node of the state behind a transition. -/
theorem get?_transition {updates : Node C → Node C} {running : Bool} {other : String}
    {node : Node C} (h : (state.transition id updates running).nodes.get? other = some node) :
    (other ≠ id ∧ state.nodes.get? other = some node) ∨
      (other = id ∧ ∃ before, state.nodes.get? id = some before ∧ node = updates before) := by
  rw [AttemptState.transition] at h
  cases hnode : state.nodes.get? id with
  | none =>
    rw [hnode] at h
    refine .inl ⟨fun hsame => ?_, h⟩
    rw [hsame, hnode] at h
    cases h
  | some before =>
    rw [hnode] at h
    by_cases hsame : other = id
    · subst hsame
      rw [Dict.get?_set_self] at h
      exact .inr ⟨rfl, before, rfl, (Option.some.inj h).symm⟩
    · rw [Dict.get?_set_ne _ _ hsame] at h
      exact .inl ⟨hsame, h⟩

/-- What the updates keep of a node. -/
theorem map_get?_transition (f : Node C → α) {updates : Node C → Node C}
    (hupdates : ∀ node, f (updates node) = f node) (state : AttemptState C) (id : String)
    (running : Bool) (other : String) :
    ((state.transition id updates running).nodes.get? other).map f =
      (state.nodes.get? other).map f := by
  rw [AttemptState.transition]
  cases hnode : state.nodes.get? id with
  | none => rfl
  | some node =>
    by_cases hsame : other = id
    · rw [hsame, Dict.get?_set_self, hnode, Option.map_some, Option.map_some, hupdates]
    · rw [Dict.get?_set_ne _ _ hsame]

theorem sameAllocations_transition (state : AttemptState C) (id : String)
    (updates : Node C → Node C) (running : Bool) :
    SameAllocations state (state.transition id updates running) := by
  rw [AttemptState.transition]
  cases state.nodes.get? id <;> exact ⟨rfl, rfl, rfl, rfl, rfl⟩

/-- What a transition does: it sets the status of one node, and none that an allocation waits on. -/
theorem applyUpdate_cases (h : state.applyUpdate update = .ok next) : ∃ id updates running,
    next.nodes = (state.transition id updates running).nodes ∧ SameAllocations state next ∧
      ∀ node, ∃ status input candidate integrated, updates node = { node with
          status := status
          inputCommit := input
          candidateCommit := candidate
          integratedCommit := integrated } ∧ status ≠ .reserved ∧ status ≠ .queued := by
  have hok {id message : String} {r : AttemptState C}
      (h : (if id ∈ state.nodes.keys then .ok r else .error message) = Except.ok next) :
      r = next := by
    split_ifs at h
    exact Except.ok.inj h
  have hsame (id : String) (updates : Node C → Node C) (running : Bool) :=
    sameAllocations_transition state id updates running
  cases update with
  | started id inputCommit =>
    cases hok h
    exact ⟨id, _, true, rfl, hsame .., fun node => ⟨_, _, _, _, rfl, nofun, nofun⟩⟩
  | completed id candidate inputCommit barriers obligations =>
    cases hok h
    obtain ⟨hgraph, hattempts, hlineage, hinvalidations, hactive⟩ := hsame id (fun node =>
      { node with
        status := .succeeded
        candidateCommit := some candidate
        inputCommit := some inputCommit
        integratedCommit := some candidate }) false
    exact ⟨id, _, false, rfl, ⟨hgraph, hattempts, hlineage, hinvalidations, hactive⟩,
      fun node => ⟨_, _, _, _, rfl, nofun, nofun⟩⟩
  | failed id status obligations =>
    cases hok h
    obtain ⟨hgraph, hattempts, hlineage, hinvalidations, hactive⟩ := hsame id (fun node =>
      { node with status := status.1 }) false
    refine ⟨id, _, false, rfl, ⟨hgraph, hattempts, hlineage, hinvalidations, hactive⟩,
      fun node => ⟨_, _, _, _, rfl, ?_, ?_⟩⟩ <;>
    · obtain ⟨status, hstopped⟩ := status
      rintro rfl
      cases hstopped

/-- **What a transition writes**: the node that it names has the status of the transition, the
other nodes and the allocations are those of the state. -/
theorem applyUpdate_ok (h : state.applyUpdate update = .ok next) :
    SameAllocations state next ∧ ∀ id node, next.nodes.get? id = some node →
      state.nodes.get? id = some node ∨ (node.status ≠ .reserved ∧ node.status ≠ .queued) := by
  obtain ⟨id, updates, running, hnodes, hsame, hupdates⟩ := applyUpdate_cases h
  refine ⟨hsame, fun other node hnode => ?_⟩
  obtain ⟨-, hold⟩ | ⟨-, before, -, rfl⟩ := get?_transition (hnodes ▸ hnode)
  · exact .inl hold
  · obtain ⟨status, _, _, _, heq, hnot⟩ := hupdates before
    rw [heq]
    exact .inr hnot

/-- A transition keeps the allocation of a node and what it depends on. -/
theorem map_get?_applyUpdate {f : Node C → α}
    (hf : ∀ node status input candidate integrated, f { node with
      status := status
      inputCommit := input
      candidateCommit := candidate
      integratedCommit := integrated } = f node) (h : state.applyUpdate update = .ok next)
    (id : String) : (next.nodes.get? id).map f = (state.nodes.get? id).map f := by
  obtain ⟨nodeId, updates, running, hnodes, -, hupdates⟩ := applyUpdate_cases h
  rw [hnodes]
  refine map_get?_transition f (fun node => ?_) state nodeId running id
  obtain ⟨status, _, _, _, heq, -⟩ := hupdates node
  rw [heq, hf]

theorem Sound.applyUpdate (hsound : Sound state) (h : state.applyUpdate update = .ok next) :
    Sound next := by
  obtain ⟨hsame, hnodes⟩ := applyUpdate_ok h
  refine hsound.same hsame fun id node hnode hreserved => ?_
  obtain hold | ⟨hnot, -⟩ := hnodes id node hnode
  · exact ⟨node, hold, hreserved⟩
  · exact absurd hreserved hnot

/-- A transition that nothing comes between is the one that `node_started` writes. -/
theorem performTransition_started (h : id ∈ state.nodes.keys) :
    state.performTransition (.started id) = .ok (state.nodeStarted id) := by
  obtain ⟨node, hnode⟩ := Dict.mem_keys_iff.1 h
  show state.applyUpdate (.started id ((state.nodes.get? id).map fun node =>
    node.inputCommit.getD state.currentCandidateCommit)) = _
  rw [AttemptState.applyUpdate, if_pos h, AttemptState.nodeStarted, AttemptState.transition,
    AttemptState.transition, hnode]
  rfl

theorem performTransition_completed {candidate : C} {obligations : Option Obligations}
    (h : id ∈ state.nodes.keys) :
    state.performTransition (.completed id candidate obligations) =
      .ok (state.nodeCompleted id candidate (obligations.getD state.findingObligations)) := by
  show (state.prepare (.completed id candidate obligations) >>= fun update =>
    state.applyUpdate update) = _
  rw [AttemptState.prepare, if_pos h]
  show state.applyUpdate (.completed id candidate _ _ obligations) = _
  rw [AttemptState.applyUpdate, if_pos h]
  rfl

theorem performTransition_failed {status : {s : NodeStatus // s.stopped = true}}
    {obligations : Option Obligations} (h : id ∈ state.nodes.keys) :
    state.performTransition (.failed id status obligations) =
      .ok (state.nodeFailed id status obligations) := by
  show state.applyUpdate (.failed id status obligations) = _
  rw [AttemptState.applyUpdate, if_pos h]

/-! ## Reservations keep it -/

/-- What a node's allocation needs of the records. -/
structure Grantable (state : AttemptState C) (a : String × String) : Prop where
  named : a.2 ≠ ""
  fresh : a.2 ∉ state.attemptLineage.map (·.allocationId)
  idle : ∀ r ∈ state.liveRecords, r.nodeId ≠ a.1

section ReserveOne

variable {state : AttemptState C} {r : Reservation C} {a : String × String}

/-- The identity of a new allocation is new. -/
theorem Grantable.attemptId_notMem (hsound : Sound state) (h : Grantable state a) :
    attemptIdOf state.graphRunId (some a.2) ∉ state.invalidatedAttemptIds := by
  intro hmem
  obtain ⟨record, hrecord, hid⟩ := hsound.invalidated _ hmem
  obtain ⟨hname, hattempt⟩ := hsound.named record hrecord
  rw [hattempt] at hid
  have hsame := attemptIdOf_inj hname h.named hid
  exact h.fresh (mem_map.2 ⟨record, hrecord, hsame⟩)

theorem liveRecords_reserveOne (hsound : Sound state) (h : Grantable state a) :
    (state.reserveOne r a).liveRecords = state.liveRecords ++ [state.lineageRecord r a] := by
  have hnew := h.attemptId_notMem hsound
  show (state.attemptLineage ++ [state.lineageRecord r a]).filter
    (fun record => decide (record.attemptId ∉ state.invalidatedAttemptIds)) = _
  simp [AttemptState.lineageRecord, hnew, AttemptState.liveRecords]

theorem predecessorAttemptId_reserveOne (hsound : Sound state) (h : Grantable state a)
    (id : String) : (state.reserveOne r a).predecessorAttemptId id =
      state.predecessorAttemptId id := by
  have hnew := h.attemptId_notMem hsound
  show (((state.attemptLineage ++ [state.lineageRecord r a]).filter fun record =>
    decide (record.nodeId = id ∧ record.attemptId ∈ state.invalidatedAttemptIds)).getLast?).map
      _ = _
  simp [AttemptState.lineageRecord, hnew, AttemptState.predecessorAttemptId]

theorem lineageRecord_reserveOne (hsound : Sound state) (h : Grantable state a)
    (b : String × String) : (state.reserveOne r a).lineageRecord r b = state.lineageRecord r b := by
  rw [AttemptState.lineageRecord, predecessorAttemptId_reserveOne hsound h]
  rfl

/-- A node of the state behind one allocation. -/
theorem get?_reserveOne (state : AttemptState C) (r : Reservation C) (a : String × String)
    (id : String) : (state.reserveOne r a).nodes.get? id =
      if id = a.1 then (state.nodes.get? id).map (AttemptState.reserveNode r a)
      else state.nodes.get? id := by
  rw [AttemptState.reserveOne]
  cases hget : state.nodes.get? a.1 with
  | none =>
    by_cases hsame : id = a.1
    · rw [if_pos hsame, hsame, hget]
      rfl
    · rw [if_neg hsame]
  | some before =>
    by_cases hsame : id = a.1
    · rw [if_pos hsame, hsame, Dict.get?_set_self, hget]
      rfl
    · rw [if_neg hsame, Dict.get?_set_ne _ _ hsame]

theorem Sound.reserveOne (hsound : Sound state) (h : Grantable state a) :
    Sound (state.reserveOne r a) := by
  have hlineage : (state.reserveOne r a).attemptLineage =
      state.attemptLineage ++ [state.lineageRecord r a] := rfl
  constructor
  · rw [hlineage, map_append, ← hsound.allocations]
    show (state.successorAttempts ++ [_]).map _ = _
    rw [map_append]
    rfl
  · rw [hlineage, map_append, ← hsound.batches]
    show (state.successorAttempts ++ [_]).map _ = _
    rw [map_append]
    rfl
  · rw [hlineage]
    exact forall_mem_append.2 ⟨hsound.named, forall_mem_singleton.2 ⟨h.named, rfl⟩⟩
  · rw [hlineage, map_append]
    refine nodup_append.2 ⟨hsound.fresh, nodup_singleton _, fun x hx y hy hxy => ?_⟩
    rw [hxy, mem_singleton.1 hy] at hx
    exact h.fresh hx
  · intro id hid
    obtain ⟨record, hrecord, hsame⟩ := hsound.invalidated id hid
    exact ⟨record, mem_append_left _ hrecord, hsame⟩
  · rw [liveRecords_reserveOne hsound h, map_append]
    refine nodup_append.2 ⟨hsound.oneLive, nodup_singleton _, fun x hx y hy hxy => ?_⟩
    obtain ⟨record, hrecord, rfl⟩ := mem_map.1 hx
    exact h.idle record hrecord (by rw [hxy, mem_singleton.1 hy]; rfl)
  · rw [liveRecords_reserveOne hsound h]
    refine forall_mem_append.2 ⟨fun id hid => ?_, forall_mem_singleton.2 ?_⟩
    · obtain ⟨record, hrecord, hsame⟩ := hsound.active id hid
      exact ⟨record, mem_append_left _ hrecord, hsame⟩
    · exact ⟨_, mem_append_right _ (mem_singleton_self _), rfl⟩
  · intro id node hnode hstatus
    rw [get?_reserveOne] at hnode
    by_cases hsame : id = a.1
    · rw [hsame]
      exact mem_append_right _ (mem_singleton_self _)
    · rw [if_neg hsame] at hnode
      exact mem_append_left _ (hsound.reserved id node hnode hstatus)

/-- Another allocation stays possible. -/
theorem Grantable.reserveOne (hsound : Sound state) (h : Grantable state a) {b : String × String}
    (hb : Grantable state b) (hnode : b.1 ≠ a.1) (hallocation : b.2 ≠ a.2) :
    Grantable (state.reserveOne r a) b := by
  refine ⟨hb.named, ?_, ?_⟩
  · show b.2 ∉ (state.attemptLineage ++ [state.lineageRecord r a]).map (·.allocationId)
    rw [map_append, mem_append]
    intro hmem
    obtain hold | hnew := hmem
    · exact hb.fresh hold
    · exact hallocation (mem_singleton.1 hnew)
  · rw [liveRecords_reserveOne hsound h]
    exact forall_mem_append.2 ⟨hb.idle, forall_mem_singleton.2 hnode.symm⟩

end ReserveOne

/-- What a batch leaves. -/
structure Grants (state : AttemptState C) (r : Reservation C) (allocations : List (String × String))
    (next : AttemptState C) : Prop where
  sound : Sound next
  graph : next.graphRunId = state.graphRunId
  attempts : next.successorAttempts =
    state.successorAttempts ++ allocations.map (state.successorAttempt r)
  lineage : next.attemptLineage = state.attemptLineage ++ allocations.map (state.lineageRecord r)
  live : next.liveRecords = state.liveRecords ++ allocations.map (state.lineageRecord r)
  invalidations : next.retryState.invalidations = state.retryState.invalidations
  active : next.activeNodeIds = state.activeNodeIds ++ allocations.map Prod.fst
  barriers : next.integrationBarriers =
    state.integrationBarriers ++ allocations.map (state.reservationBarrier r)
  untouched : ∀ id, id ∉ allocations.map Prod.fst → next.nodes.get? id = state.nodes.get? id
  granted : ∀ a ∈ allocations, next.nodes.get? a.1 =
    (state.nodes.get? a.1).map (AttemptState.reserveNode r a)

theorem grants_foldl {allocations : List (String × String)} (hsound : Sound state)
    (hall : ∀ a ∈ allocations, Grantable state a) (hnodes : (allocations.map Prod.fst).Nodup)
    (hids : (allocations.map Prod.snd).Nodup) :
    Grants state r allocations (allocations.foldl (AttemptState.reserveOne r) state) := by
  induction allocations generalizing state with
  | nil =>
    exact ⟨hsound, rfl, (append_nil _).symm, (append_nil _).symm,
      (append_nil _).symm, rfl, (append_nil _).symm, (append_nil _).symm,
      fun _ _ => rfl, forall_mem_nil _⟩
  | cons a rest ih =>
    obtain ⟨ha, hrest⟩ := forall_mem_cons.1 hall
    obtain ⟨hnode, hnodes⟩ := nodup_cons.1 hnodes
    obtain ⟨hid, hids⟩ := nodup_cons.1 hids
    have hnext : ∀ b ∈ rest, Grantable (state.reserveOne r a) b := by
      intro b hb
      refine ha.reserveOne hsound (hrest b hb) (fun hsame => ?_) (fun hsame => ?_)
      · exact hnode (mem_map.2 ⟨b, hb, hsame⟩)
      · exact hid (mem_map.2 ⟨b, hb, hsame⟩)
    have hgrants := ih (hsound.reserveOne ha) hnext hnodes hids
    have hrecords : rest.map ((state.reserveOne r a).lineageRecord r) =
        rest.map (state.lineageRecord r) :=
      map_congr_left fun b _ => lineageRecord_reserveOne hsound ha b
    constructor
    · exact hgrants.sound
    · exact hgrants.graph
    · rw [foldl_cons, hgrants.attempts, map_cons, append_cons]
      rfl
    · rw [foldl_cons, hgrants.lineage, hrecords, map_cons, append_cons]
      rfl
    · rw [foldl_cons, hgrants.live, hrecords, map_cons, append_cons,
        liveRecords_reserveOne hsound ha]
    · exact hgrants.invalidations
    · rw [foldl_cons, hgrants.active, map_cons, append_cons]
      rfl
    · rw [foldl_cons, hgrants.barriers, map_cons, append_cons]
      rfl
    · intro id hout
      obtain ⟨hother, hout⟩ := not_or.1 (mt mem_cons.2 hout)
      rw [foldl_cons, hgrants.untouched id hout, get?_reserveOne, if_neg hother]
    · refine forall_mem_cons.2 ⟨?_, fun b hb => ?_⟩
      · rw [foldl_cons, hgrants.untouched a.1 hnode, get?_reserveOne, if_pos rfl]
      · have hother : b.1 ≠ a.1 := fun hsame => hnode (mem_map.2 ⟨b, hb, hsame⟩)
        rw [foldl_cons, hgrants.granted b hb, get?_reserveOne, if_neg hother]

/-- The checks that an accepted reservation has passed. -/
structure Accepted [DecidableEq C] (state : AttemptState C) (r : Reservation C) : Prop where
  named : ∀ a ∈ r.allocations, a.1 ≠ "" ∧ a.2 ≠ ""
  nodes : r.nodeIds.Nodup
  ids : r.allocationIds.Nodup
  staging : state.currentCandidateCommit = r.expectedStagingHead
  queued : ∀ id ∈ r.nodeIds, id ∈ state.nodes.keys ∧ state.queued id
  fresh : ∀ a ∈ state.successorAttempts, a.allocationId ∉ r.allocationIds
  idle : ∀ record ∈ state.liveRecords, record.nodeId ∉ r.nodeIds
  batch : state.nextBatch r.logicalAttempt = true
  inactive : ∀ id ∈ r.nodeIds, id ∉ state.activeNodeIds

theorem checkAllocations_eq_ok : r.checkAllocations = .ok () ↔
    (∀ a ∈ r.allocations, a.1 ≠ "" ∧ a.2 ≠ "") ∧ r.nodeIds.Nodup ∧ r.allocationIds.Nodup := by
  rw [Reservation.checkAllocations, unit_bind_eq_ok, forM_eq_ok]
  simp only [require_bind_eq_ok, require_eq_ok]

theorem checkReservation_eq_ok [DecidableEq C] :
    state.checkReservation r = .ok () ↔
      state.currentCandidateCommit = r.expectedStagingHead ∧
      (∀ id ∈ r.nodeIds, id ∈ state.nodes.keys ∧ state.queued id) ∧
      (∀ a ∈ state.successorAttempts, a.allocationId ∉ r.allocationIds) ∧
      (∀ record ∈ state.liveRecords, record.nodeId ∉ r.nodeIds) ∧
      state.nextBatch r.logicalAttempt = true ∧ ∀ id ∈ r.nodeIds, id ∉ state.activeNodeIds := by
  rw [AttemptState.checkReservation, require_bind_eq_ok, unit_bind_eq_ok, forM_eq_ok]
  simp only [require_bind_eq_ok, require_eq_ok]

theorem reserveBatch_eq_ok [DecidableEq C] :
    state.reserveBatch r = .ok next ↔
      Accepted state r ∧ next = r.allocations.foldl (AttemptState.reserveOne r) state := by
  rw [AttemptState.reserveBatch, unit_bind_eq_ok, unit_bind_eq_ok, checkAllocations_eq_ok,
    checkReservation_eq_ok]
  constructor
  · rintro ⟨⟨hnamed, hnodes, hids⟩, ⟨hstaging, hqueued, hfresh, hidle, hbatch, hinactive⟩, hnext⟩
    exact ⟨⟨hnamed, hnodes, hids, hstaging, hqueued, hfresh, hidle, hbatch, hinactive⟩,
      (Except.ok.inj hnext).symm⟩
  · rintro ⟨h, rfl⟩
    exact ⟨⟨h.named, h.nodes, h.ids⟩,
      ⟨h.staging, h.queued, h.fresh, h.idle, h.batch, h.inactive⟩, rfl⟩

/-- **What a reservation does**: it is accepted with its checks, and its batch is granted. -/
theorem reserveBatch_grants [DecidableEq C] (hsound : Sound state)
    (h : state.reserveBatch r = .ok next) :
    Accepted state r ∧ Grants state r r.allocations next := by
  obtain ⟨haccepted, rfl⟩ := reserveBatch_eq_ok.1 h
  refine ⟨haccepted, grants_foldl hsound (fun a ha => ⟨(haccepted.named a ha).2, ?_, ?_⟩)
    haccepted.nodes haccepted.ids⟩
  · rw [← hsound.allocations]
    intro hmem
    obtain ⟨attempt, hattempt, hsame⟩ := mem_map.1 hmem
    exact haccepted.fresh attempt hattempt (mem_map.2 ⟨a, ha, hsame.symm⟩)
  · intro record hrecord hsame
    exact haccepted.idle record hrecord (mem_map.2 ⟨a, ha, hsame.symm⟩)

/-! ## Invalidations keep it -/

/-- What an invalidation leaves. -/
structure GivesUp (state : AttemptState C) (allocationId : String) (next : AttemptState C) :
    Prop where
  sound : Sound next
  graph : next.graphRunId = state.graphRunId
  attempts : next.successorAttempts = state.successorAttempts
  lineage : next.attemptLineage = state.attemptLineage
  barriers : next.integrationBarriers = state.integrationBarriers
  record : ∃ record ∈ state.liveRecords, record.allocationId = allocationId ∧
    next.invalidatedAttemptIds = state.invalidatedAttemptIds ++ [record.attemptId] ∧
    next.liveRecords = state.liveRecords.filter (·.allocationId ≠ allocationId) ∧
    next.activeNodeIds = state.activeNodeIds.filter (· ≠ record.nodeId) ∧
    (∀ id ≠ record.nodeId, next.nodes.get? id = state.nodes.get? id) ∧
    ∃ node, state.nodes.get? record.nodeId = some node ∧ node.allocationId = some allocationId ∧
      node.status ≠ .succeeded ∧
      next.nodes.get? record.nodeId = some (AttemptState.requeueNode node)

theorem Sound.attemptId_eq_iff (h : Sound state) {a b : LineageRecord C}
    (ha : a ∈ state.attemptLineage) (hb : b ∈ state.attemptLineage) :
    a.attemptId = b.attemptId ↔ a.allocationId = b.allocationId := by
  obtain ⟨hnameA, hidA⟩ := h.named a ha
  obtain ⟨hnameB, hidB⟩ := h.named b hb
  rw [hidA, hidB]
  exact ⟨attemptIdOf_inj hnameA hnameB, fun hsame => by rw [hsame]⟩

theorem Sound.eq_of_allocationId (h : Sound state) {a b : LineageRecord C}
    (ha : a ∈ state.attemptLineage) (hb : b ∈ state.attemptLineage)
    (hsame : a.allocationId = b.allocationId) : a = b :=
  inj_on_of_nodup_map h.fresh ha hb hsame

/-- The record and the node that an invalidation is about. -/
theorem invalidateAttempt_eq_ok {allocationId reason : String}
    (h : state.invalidateAttempt allocationId reason = .ok next) :
    ∃ record ∈ state.liveRecords, record.allocationId = allocationId ∧
      ∃ node, state.nodes.get? record.nodeId = some node ∧ node.allocationId = some allocationId ∧
        node.status ≠ .succeeded ∧ next = { state with
          nodes := state.nodes.set record.nodeId (AttemptState.requeueNode node)
          activeNodeIds := state.activeNodeIds.filter (· ≠ record.nodeId)
          retryState := { state.retryState with
            invalidations := state.retryState.invalidations ++
              [⟨record.attemptId, record.nodeId, allocationId, reason⟩] } } := by
  rw [AttemptState.invalidateAttempt] at h
  split at h
  · rename_i record hfilter
    have hmem : record ∈ state.attemptLineage.filter (·.allocationId = allocationId) := by
      rw [hfilter]
      exact mem_singleton_self _
    obtain ⟨hrecord, hallocation⟩ := mem_filter.1 hmem
    obtain ⟨hlive, h⟩ := require_bind_eq_ok.1 h
    refine ⟨record, mem_filter.2 ⟨hrecord, decide_eq_true hlive⟩,
      of_decide_eq_true hallocation, ?_⟩
    cases hnode : state.nodes.get? record.nodeId with
    | none =>
      rw [hnode] at h
      cases h
    | some node =>
      rw [hnode] at h
      obtain ⟨hcurrent, h⟩ := require_bind_eq_ok.1 h
      obtain ⟨hstatus, h⟩ := require_bind_eq_ok.1 h
      exact ⟨node, rfl, hcurrent, hstatus, (Except.ok.inj h).symm⟩
  · cases h

theorem invalidateAttempt_givesUp {allocationId reason : String} (hsound : Sound state)
    (h : state.invalidateAttempt allocationId reason = .ok next) :
    GivesUp state allocationId next := by
  obtain ⟨record, hlive, hallocation, node, hnode, hcurrent, hstatus, hnext⟩ :=
    invalidateAttempt_eq_ok h
  have hrecord := mem_of_mem_filter hlive
  have hids : next.invalidatedAttemptIds =
      state.invalidatedAttemptIds ++ [record.attemptId] := by
    rw [AttemptState.invalidatedAttemptIds, hnext, map_append]
    rfl
  have hlineage : next.attemptLineage = state.attemptLineage := by rw [hnext]
  have hrecords : next.liveRecords = state.liveRecords.filter (·.allocationId ≠ allocationId) := by
    rw [AttemptState.liveRecords, AttemptState.liveRecords, hids, hlineage, filter_filter]
    refine filter_congr fun r hr => ?_
    have hiff := hsound.attemptId_eq_iff hr hrecord
    rw [hallocation] at hiff
    simp [hiff, and_comm]
  have hactive : next.activeNodeIds = state.activeNodeIds.filter (· ≠ record.nodeId) := by
    rw [hnext]
  have hother : ∀ id ≠ record.nodeId, next.nodes.get? id = state.nodes.get? id := by
    intro id hid
    rw [hnext]
    exact Dict.get?_set_ne _ _ hid
  have hself : next.nodes.get? record.nodeId = some (AttemptState.requeueNode node) := by
    rw [hnext]
    exact Dict.get?_set_self _ _ _
  refine ⟨?_, by rw [hnext], by rw [hnext], hlineage, by rw [hnext],
    record, hlive, hallocation, hids, hrecords, hactive, hother, node, hnode, hcurrent, hstatus,
    hself⟩
  constructor
  · rw [hnext]
    exact hsound.allocations
  · rw [hnext]
    exact hsound.batches
  · rw [hnext]
    exact hsound.named
  · rw [hlineage]
    exact hsound.fresh
  · rw [hids, hlineage]
    exact forall_mem_append.2
      ⟨hsound.invalidated, forall_mem_singleton.2 ⟨record, hrecord, rfl⟩⟩
  · rw [hrecords]
    exact hsound.oneLive.sublist (filter_sublist.map _)
  · rw [hactive, hrecords]
    intro id hid
    obtain ⟨hid, hne⟩ := mem_filter.1 hid
    obtain ⟨r, hr, rfl⟩ := hsound.active id hid
    refine ⟨r, mem_filter.2 ⟨hr, decide_eq_true fun hsame => ?_⟩, rfl⟩
    have hall := hsound.eq_of_allocationId (mem_of_mem_filter hr) hrecord
      (hsame.trans hallocation.symm)
    exact of_decide_eq_true hne (by rw [hall])
  · intro id other hget hreserved
    by_cases hid : id = record.nodeId
    · rw [hid, hself] at hget
      cases hget
      cases hreserved
    · rw [hother id hid] at hget
      rw [hactive]
      exact mem_filter.2 ⟨hsound.reserved id other hget hreserved, decide_eq_true hid⟩

/-! ## Sequences of operations -/

/-- An operation of an audit that nothing comes between. -/
inductive AuditOp (C : Type) where
  | reserve (r : Reservation C)
  | invalidate (allocationId reason : String)
  | transition (t : Transition C)

/-- The state that an accepted operation leaves. -/
def AuditOp.perform [DecidableEq C] : AuditOp C → AttemptState C → Option (AttemptState C)
  | .reserve r, state => (state.reserveBatch r).toOption
  | .invalidate allocationId reason, state => (state.invalidateAttempt allocationId reason).toOption
  | .transition t, state => (state.performTransition t).toOption

theorem toOption_eq_some {x : Except String α} {a : α} :
    x.toOption = some a ↔ x = .ok a := by
  cases x with
  | error message => simp [Except.toOption]
  | ok b => simp [Except.toOption]

theorem performTransition_update {t : Transition C} (h : state.performTransition t = .ok next) :
    ∃ update, state.prepare t = .ok update ∧ state.applyUpdate update = .ok next :=
  Audit.bind_eq_ok.1 h

/-- **Every operation keeps the records sound.** -/
theorem Sound.perform [DecidableEq C] (h : Sound state) {op : AuditOp C}
    (hop : op.perform state = some next) : Sound next := by
  cases op with
  | reserve r => exact (reserveBatch_grants h (toOption_eq_some.1 hop)).2.sound
  | invalidate allocationId reason =>
    exact (invalidateAttempt_givesUp h (toOption_eq_some.1 hop)).sound
  | transition t =>
    obtain ⟨update, -, hupdate⟩ := performTransition_update (toOption_eq_some.1 hop)
    exact h.applyUpdate hupdate

end HarnessLabs.PlanGraph
