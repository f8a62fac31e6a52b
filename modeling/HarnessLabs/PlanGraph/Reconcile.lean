import HarnessLabs.PlanGraph.Allocation

/-!
# Interrupted attempts

What a controller that restarts does with the allocations that its predecessor left active: it looks
at the evidence of each child, and keeps, seals or blocks the node.

The loop goes over the records of all attempts and takes those whose node is active. A node that was
reserved again has an older record in front of the one of its current allocation, so the older
record comes to judgement first, against evidence that names another allocation.

* `reconcileInterruptedAttempts` — the loop.
* `NamesCurrent` — every active node has the last of its records as its allocation.
* `reconcile_judges_current_iff` — **the loop judges the current allocations exactly when no active
  node has a record of another one.**
-/

namespace HarnessLabs.PlanGraph

open Audit (require map_eq_ok)
open Inputs List Option

variable {C : Type}

/-! ## Evidence -/

inductive LivenessState where
  | live
  | dead
  | unavailable
  | ambiguous
  deriving DecidableEq

/-- The liveness object in the directory of a child. -/
structure ChildLiveness where
  graphId : String
  nodeId : String
  logicalAttempt : ℕ
  allocationId : String
  pid : ℕ
  processStartToken : String
  state : LivenessState

structure SealReceipt (C : Type) where
  graphId : String
  nodeId : String
  logicalAttempt : ℕ
  allocationId : String
  parentCandidateCommit : C
  candidateCommit : C

/-- A child with a verified journal, a manifest that says `succeeded` and a receipt whose references
are in its evidence. `request` is what its descriptor binds. -/
structure SealedChild (C : Type) where
  receipt : SealReceipt C
  manifestHash : String
  request : SuccessorAttempt C

/-- The directory of a node's child. -/
structure ChildRun (C : Type) where
  liveness : Option ChildLiveness
  sealed : Option (SealedChild C)

inductive ForceDisposition where
  | blocked
  | sealed
  deriving DecidableEq

structure ForceRecord where
  graphId : String
  nodeId : String
  logicalAttempt : ℕ
  allocationId : String
  disposition : ForceDisposition
  evidenceRef : String

/-- What a recovery is given: the children by node, the process probe (`none` when it raises), and
whether an evidence reference is bound to the journal. -/
structure Evidence (C : Type) where
  children : String → ChildRun C
  processProbe : ℕ → Option (Option String)
  durable : String → Bool

inductive Liveness where
  | running
  | dead
  | ambiguous
  deriving DecidableEq

/-- `_liveness_disposition`. -/
def livenessDisposition (probe : ℕ → Option (Option String)) : Option ChildLiveness → Liveness
  | none => .ambiguous
  | some l =>
    match probe l.pid with
    | none => .ambiguous
    | some token =>
      if l.state = .live ∧ token = some l.processStartToken then .running
      else if l.state = .dead ∧ token ≠ some l.processStartToken then .dead
      else .ambiguous

namespace Evidence

variable (evidence : Evidence C)

/-- `_child_liveness`. -/
def childLiveness (attempt : SuccessorAttempt C) : Option ChildLiveness :=
  (evidence.children attempt.nodeId).liveness.filter fun l =>
    l.graphId = attempt.graphId ∧ l.nodeId = attempt.nodeId ∧
      l.logicalAttempt = attempt.logicalAttempt ∧ l.allocationId = attempt.allocationId

def liveness (attempt : SuccessorAttempt C) : Liveness :=
  livenessDisposition evidence.processProbe (evidence.childLiveness attempt)

variable [DecidableEq C]

/-- `_child_seal_proof`. -/
def childSealProof (attempt : SuccessorAttempt C) : Option (SealedChild C) :=
  (evidence.children attempt.nodeId).sealed.filter fun c =>
    (c.receipt.graphId = attempt.graphId ∧ c.receipt.nodeId = attempt.nodeId ∧
      c.receipt.logicalAttempt = attempt.logicalAttempt ∧
      c.receipt.allocationId = attempt.allocationId ∧
      c.receipt.parentCandidateCommit = attempt.parentCandidateCommit) ∧
    (c.request.graphId = attempt.graphId ∧ c.request.nodeId = attempt.nodeId ∧
      c.request.parentCandidateCommit = attempt.parentCandidateCommit ∧
      c.request.logicalAttempt = attempt.logicalAttempt ∧
      c.request.allocationId = attempt.allocationId ∧
      c.request.checkpointRevision = attempt.checkpointRevision ∧
      c.request.expectedStagingHead = attempt.expectedStagingHead)

end Evidence

/-- What becomes of a node. A late manifest is put in quarantine before the node is blocked. -/
inductive ChildVerdict (C : Type) where
  | running
  | sealed (receipt : SealReceipt C) (forceEvidenceRef : Option String)
  | blocked (reason : String) (evidenceRef lateManifest : Option String)

def ChildVerdict.outcome : ChildVerdict C → String
  | .running => "running"
  | .sealed _ _ => "sealed"
  | .blocked _ _ _ => "blocked"

/-! ## Force records -/

def ForceRecord.names (f : ForceRecord) (attempt : SuccessorAttempt C) : Prop :=
  f.nodeId = attempt.nodeId ∧ f.logicalAttempt = attempt.logicalAttempt ∧
    f.allocationId = attempt.allocationId

instance (f : ForceRecord) (attempt : SuccessorAttempt C) : Decidable (f.names attempt) :=
  inferInstanceAs (Decidable (_ ∧ _ ∧ _))

namespace AttemptState

variable (state : AttemptState C)

def interrupted (node : Node C) : Prop := node.status = .reserved ∨ node.status = .running

instance (node : Node C) : Decidable (interrupted node) := inferInstanceAs (Decidable (_ ∨ _))

/-- The attempt is the one that its node is launched under now. -/
def activeAllocation (attempt : SuccessorAttempt C) : Bool :=
  attempt.nodeId ∈ state.activeNodeIds && (state.nodes.get? attempt.nodeId).any fun node =>
    interrupted node ∧ node.logicalAttempt = some attempt.logicalAttempt ∧
      node.allocationId = some attempt.allocationId

/-- `_force_records`. -/
def forceRecords (evidence : Evidence C) :
    List ForceRecord → List ForceRecord → Except String (List ForceRecord)
  | accepted, [] => .ok accepted
  | accepted, f :: rest => do
    require (f.graphId = state.graphRunId ∧
        (∃ attempt ∈ state.successorAttempts, state.activeAllocation attempt = true ∧
          f.names attempt) ∧
        evidence.durable f.evidenceRef = true ∧
        ¬ ∃ other ∈ accepted, other.nodeId = f.nodeId ∧ other.logicalAttempt = f.logicalAttempt ∧
          other.allocationId = f.allocationId)
      "force-reconcile record does not match an active allocation"
    forceRecords evidence (accepted ++ [f]) rest

/-! ## The loop -/

variable [DecidableEq C]

/-- What one attempt record makes of its node. -/
def judge (evidence : Evidence C) (forced : List ForceRecord) (attempt : SuccessorAttempt C) :
    ChildVerdict C :=
  let proof := evidence.childSealProof attempt
  match evidence.liveness attempt, forced.find? fun f => f.names attempt with
  | .running, _ => .running
  | _, some force =>
    match force.disposition, proof with
    | .sealed, some p => .sealed p.receipt (some force.evidenceRef)
    | _, _ => .blocked "force_reconcile" (some force.evidenceRef) (proof.map (·.manifestHash))
  | .dead, none =>
    match proof with
    | some p => .sealed p.receipt none
    | none => .blocked "ambiguous_child_identity" none none
  | .ambiguous, none => .blocked "ambiguous_child_identity" none none

/-- `_adopt_seal`, `_block_recovery_node`, or a child that goes on. -/
def settle (nodeId : String) (node : Node C) :
    ChildVerdict C → AttemptState C
  | .running => { state with nodes := state.nodes.set nodeId { node with status := .running } }
  | .sealed receipt _ =>
    { state with
      nodes := state.nodes.set nodeId
        { node with
          status := .succeeded
          candidateCommit := some receipt.candidateCommit
          integratedCommit := none }
      activeNodeIds := state.activeNodeIds.erase nodeId }
  | .blocked _ _ _ =>
    { state with
      nodes := state.nodes.set nodeId { node with status := .blocked }
      activeNodeIds := state.activeNodeIds.erase nodeId }

/-- The state behind the loop, and the records that were judged. -/
structure Reconciled (C : Type) where
  state : AttemptState C
  judgements : List (SuccessorAttempt C × ChildVerdict C)

/-- What `reconcile_interrupted_attempts` returns. -/
def Reconciled.outcomes (r : Reconciled C) : Dict String String :=
  Dict.ofList (r.judgements.map fun j => (j.1.nodeId, j.2.outcome))

/-- The loop of `reconcile_interrupted_attempts` over attempt records. -/
def reconcileFrom (evidence : Evidence C) (forced : List ForceRecord) :
    AttemptState C → List (SuccessorAttempt C) → Except String (Reconciled C)
  | state, [] => .ok ⟨state, []⟩
  | state, attempt :: rest =>
    if attempt.nodeId ∈ state.activeNodeIds then
      match state.nodes.get? attempt.nodeId with
      | none => .error s!"PlanGraph recovery node '{attempt.nodeId}' is not active"
      | some node =>
        if interrupted node then
          let verdict := judge evidence forced attempt
          (reconcileFrom evidence forced (state.settle attempt.nodeId node verdict) rest).map
            fun r => ⟨r.state, (attempt, verdict) :: r.judgements⟩
        else .error s!"PlanGraph recovery node '{attempt.nodeId}' is not active"
    else reconcileFrom evidence forced state rest

/-- `reconcile_interrupted_attempts`. -/
def reconcileInterruptedAttempts (evidence : Evidence C) (records : List ForceRecord) :
    Except String (Reconciled C) := do
  let forced ← state.forceRecords evidence [] records
  reconcileFrom evidence forced state state.successorAttempts

end AttemptState

/-! ## Histories -/

/-- The attempt records of a node, in the order of their reservations. -/
def AttemptState.recordsOf (state : AttemptState C) (id : String) : List (SuccessorAttempt C) :=
  state.successorAttempts.filter (·.nodeId = id)

/-- An active node is launched under the last of its records. -/
def NamesCurrent (state : AttemptState C) : Prop :=
  ∀ id ∈ state.activeNodeIds, ∃ node last, state.nodes.get? id = some node ∧
    (state.recordsOf id).getLast? = some last ∧ node.allocationId = some last.allocationId

variable {state next : AttemptState C} {id : String} {r : AttemptState.Reconciled C}

theorem recordsOf_append {r : Reservation C} (hgrants : Grants state r r.allocations next)
    (id : String) : next.recordsOf id =
      state.recordsOf id ++ (r.allocations.map (state.successorAttempt r)).filter (·.nodeId = id) := by
  rw [AttemptState.recordsOf, hgrants.attempts, filter_append]
  rfl

/-- A batch has one record of each of its nodes. -/
theorem filter_successorAttempts {r : Reservation C} {allocations : List (String × String)}
    (hnodup : (allocations.map Prod.fst).Nodup) {a : String × String} (ha : a ∈ allocations) :
    (allocations.map (state.successorAttempt r)).filter (·.nodeId = a.1) =
      [state.successorAttempt r a] := by
  induction allocations with
  | nil => cases ha
  | cons b rest ih =>
    obtain ⟨hb, hrest⟩ := nodup_cons.1 hnodup
    rw [map_cons]
    rcases mem_cons.1 ha with rfl | ha
    · have hself : (state.successorAttempt r a).nodeId = a.1 := rfl
      rw [filter_cons, if_pos (decide_eq_true hself)]
      refine congrArg (_ :: ·) (filter_eq_nil_iff.2 fun attempt hattempt hsame => ?_)
      obtain ⟨c, hc, rfl⟩ := mem_map.1 hattempt
      exact hb (mem_map.2 ⟨c, hc, of_decide_eq_true hsame⟩)
    · have hother : ¬ decide ((state.successorAttempt r b).nodeId = a.1) = true := fun hsame =>
        hb (mem_map.2 ⟨a, ha, (of_decide_eq_true hsame).symm⟩)
      rw [filter_cons, if_neg hother]
      exact ih hrest ha

theorem settle_other {other : String} {node : Node C} {verdict : ChildVerdict C} (h : other ≠ id) :
    (other ∈ (state.settle id node verdict).activeNodeIds ↔ other ∈ state.activeNodeIds) ∧
      (state.settle id node verdict).nodes.get? other = state.nodes.get? other := by
  cases verdict with
  | running => exact ⟨Iff.rfl, Dict.get?_set_ne _ _ h⟩
  | sealed receipt force => exact ⟨mem_erase_of_ne h, Dict.get?_set_ne _ _ h⟩
  | blocked reason ref late => exact ⟨mem_erase_of_ne h, Dict.get?_set_ne _ _ h⟩

theorem active_of_settle {other : String} {node : Node C} {verdict : ChildVerdict C}
    (h : other ∈ (state.settle id node verdict).activeNodeIds) :
    other ∈ state.activeNodeIds := by
  cases verdict with
  | running => exact h
  | sealed receipt force => exact mem_of_mem_erase h
  | blocked reason ref late => exact mem_of_mem_erase h

variable [DecidableEq C]

theorem NamesCurrent.perform (hsound : Sound state) (h : NamesCurrent state) {op : AuditOp C}
    (hop : op.perform state = some next) :
    NamesCurrent next := by
  cases op with
  | reserve r =>
    obtain ⟨haccepted, hgrants⟩ := reserveBatch_grants hsound (toOption_eq_some.1 hop)
    intro id hid
    rw [recordsOf_append hgrants]
    by_cases hnew : id ∈ r.nodeIds
    · obtain ⟨a, ha, rfl⟩ := mem_map.1 hnew
      obtain ⟨node, hnode⟩ := Dict.mem_keys_iff.1 (haccepted.queued a.1 hnew).1
      refine ⟨AttemptState.reserveNode r a node, state.successorAttempt r a, ?_, ?_, rfl⟩
      · rw [hgrants.granted a ha, hnode]
        rfl
      · rw [filter_successorAttempts haccepted.nodes ha, List.getLast?_concat]
    · rw [hgrants.active] at hid
      obtain ⟨node, last, hnode, hlast, hallocation⟩ :=
        h id ((mem_append.1 hid).resolve_right hnew)
      refine ⟨node, last, (hgrants.untouched id hnew).trans hnode, ?_, hallocation⟩
      have hnone : (r.allocations.map (state.successorAttempt r)).filter (·.nodeId = id) = [] := by
        refine filter_eq_nil_iff.2 fun attempt hattempt hsame => ?_
        obtain ⟨c, hc, rfl⟩ := mem_map.1 hattempt
        exact hnew (mem_map.2 ⟨c, hc, of_decide_eq_true hsame⟩)
      rw [hnone, append_nil, hlast]
  | invalidate allocationId reason =>
    have hgives := invalidateAttempt_givesUp hsound (toOption_eq_some.1 hop)
    obtain ⟨record, -, -, -, -, hactive, hother, -⟩ := hgives.record
    intro id hid
    rw [hactive] at hid
    obtain ⟨hid, hne⟩ := mem_filter.1 hid
    obtain ⟨node, last, hnode, hlast, hallocation⟩ := h id hid
    refine ⟨node, last, (hother id (of_decide_eq_true hne)).trans hnode, ?_, hallocation⟩
    rw [AttemptState.recordsOf, hgives.attempts]
    exact hlast
  | transition t =>
    obtain ⟨update, -, hupdate⟩ := performTransition_update (toOption_eq_some.1 hop)
    obtain ⟨hsame, -⟩ := applyUpdate_ok hupdate
    intro id hid
    rw [hsame.active] at hid
    obtain ⟨node, last, hnode, hlast, hallocation⟩ := h id hid
    have hkept := map_get?_applyUpdate (f := fun node => node.allocationId)
      (fun _ _ _ _ _ => rfl) hupdate id
    rw [hnode, map_some, hallocation, map_eq_some_iff] at hkept
    obtain ⟨node', hnode', hallocation'⟩ := hkept
    refine ⟨node', last, hnode', ?_, hallocation'⟩
    rw [AttemptState.recordsOf, hsame.attempts]
    exact hlast

/-- **Every history keeps the allocations of the active nodes current.** -/
theorem namesCurrent_history (hstart : Unallocated state) (hrun : Runs AuditOp.perform state next) :
    Sound next ∧ NamesCurrent next := by
  have hcurrent : NamesCurrent state := by
    intro id hid
    rw [hstart.active] at hid
    exact absurd hid not_mem_nil
  exact hrun.invariant (P := fun s => Sound s ∧ NamesCurrent s)
    (fun _ _ _ hop h => ⟨h.1.perform hop, h.2.perform h.1 hop⟩) ⟨hstart.sound, hcurrent⟩

/-! ## What the loop judges -/

variable {evidence : Evidence C} {forced : List ForceRecord}

/-- One record of the loop. -/
theorem reconcileFrom_cons {attempt : SuccessorAttempt C} {rest : List (SuccessorAttempt C)}
    (h : state.reconcileFrom evidence forced (attempt :: rest) = .ok r) :
    (attempt.nodeId ∉ state.activeNodeIds ∧ state.reconcileFrom evidence forced rest = .ok r) ∨
      (attempt.nodeId ∈ state.activeNodeIds ∧ ∃ node later,
        (state.settle attempt.nodeId node (AttemptState.judge evidence forced attempt)).reconcileFrom
          evidence forced rest = .ok later ∧
        r = ⟨later.state,
          (attempt, AttemptState.judge evidence forced attempt) :: later.judgements⟩) := by
  rw [AttemptState.reconcileFrom] at h
  by_cases hactive : attempt.nodeId ∈ state.activeNodeIds
  · rw [if_pos hactive] at h
    cases hnode : state.nodes.get? attempt.nodeId with
    | none =>
      rw [hnode] at h
      cases h
    | some node =>
      rw [hnode] at h
      dsimp only at h
      by_cases hinterrupted : AttemptState.interrupted node
      · rw [if_pos hinterrupted] at h
        obtain ⟨later, hlater, rfl⟩ := map_eq_ok.1 h
        exact .inr ⟨hactive, node, later, hlater, rfl⟩
      · rw [if_neg hinterrupted] at h
        cases h
  · rw [if_neg hactive] at h
    exact .inl ⟨hactive, h⟩

/-- Only records of active nodes are judged. -/
theorem judged_active {attempts : List (SuccessorAttempt C)}
    (h : state.reconcileFrom evidence forced attempts = .ok r) :
    ∀ j ∈ r.judgements, j.1 ∈ attempts ∧ j.1.nodeId ∈ state.activeNodeIds := by
  induction attempts generalizing state r with
  | nil =>
    cases h
    exact forall_mem_nil _
  | cons attempt rest ih =>
    obtain ⟨-, hrest⟩ | ⟨hactive, node, later, hlater, rfl⟩ := reconcileFrom_cons h
    · intro j hj
      obtain ⟨hmem, hjactive⟩ := ih hrest j hj
      exact ⟨mem_cons_of_mem _ hmem, hjactive⟩
    · refine forall_mem_cons.2 ⟨⟨mem_cons_self, hactive⟩, fun j hj => ?_⟩
      obtain ⟨hmem, hjactive⟩ := ih hlater j hj
      exact ⟨mem_cons_of_mem _ hmem, active_of_settle hjactive⟩

/-- **The first record of an active node is judged**, whatever the loop does before. -/
theorem first_judged {attempts : List (SuccessorAttempt C)}
    (h : state.reconcileFrom evidence forced attempts = .ok r) (hactive : id ∈ state.activeNodeIds)
    {first : SuccessorAttempt C} (hfirst : (attempts.filter (·.nodeId = id)).head? = some first) :
    (first, AttemptState.judge evidence forced first) ∈ r.judgements := by
  induction attempts generalizing state r with
  | nil => cases hfirst
  | cons attempt rest ih =>
    by_cases hsame : attempt.nodeId = id
    · rw [filter_cons, if_pos (decide_eq_true hsame)] at hfirst
      cases hfirst
      rw [← hsame] at hactive
      obtain ⟨hnot, -⟩ | ⟨-, node, later, hlater, rfl⟩ := reconcileFrom_cons h
      · exact absurd hactive hnot
      · exact mem_cons_self
    · rw [filter_cons, if_neg (by simpa using hsame)] at hfirst
      obtain ⟨-, hrest⟩ | ⟨-, node, later, hlater, rfl⟩ := reconcileFrom_cons h
      · exact ih hrest hactive hfirst
      · exact mem_cons_of_mem _
          (ih hlater ((settle_other (Ne.symm hsame)).1.2 hactive) hfirst)

/-- Every node is judged from the record that its allocation names. -/
def JudgesCurrent (state : AttemptState C) (r : AttemptState.Reconciled C) : Prop :=
  ∀ j ∈ r.judgements, (state.nodes.get? j.1.nodeId).bind (·.allocationId) =
    some j.1.allocationId

instance (state : AttemptState C) (r : AttemptState.Reconciled C) :
    Decidable (JudgesCurrent state r) :=
  inferInstanceAs (Decidable (∀ j ∈ r.judgements, _ = _))

/-- **Recovery judges the live allocations exactly when no active node was reserved twice.** Behind
every history of an attempt and for every evidence: an active node with one record is judged from
it; of an active node with more of them the oldest one is judged, which is not the record of its
allocation. -/
theorem reconcile_judges_current_iff {start state : AttemptState C} (hstart : Unallocated start)
    (hrun : Runs AuditOp.perform start state) {evidence : Evidence C} {records : List ForceRecord}
    {r : AttemptState.Reconciled C}
    (h : state.reconcileInterruptedAttempts evidence records = .ok r) :
    JudgesCurrent state r ↔ ∀ id ∈ state.activeNodeIds, (state.recordsOf id).length = 1 := by
  obtain ⟨hsound, hcurrent⟩ := namesCurrent_history hstart hrun
  obtain ⟨forced, -, hloop⟩ := Audit.bind_eq_ok.1 h
  constructor
  · intro hjudges id hid
    obtain ⟨node, last, hnode, hlast, hallocation⟩ := hcurrent id hid
    have hnodup : ((state.recordsOf id).map (·.allocationId)).Nodup := by
      have hall := hsound.fresh
      rw [← hsound.allocations] at hall
      exact hall.sublist (filter_sublist.map _)
    cases hrecords : state.recordsOf id with
    | nil =>
      rw [hrecords] at hlast
      cases hlast
    | cons first rest =>
      have hfirst : (state.recordsOf id).head? = some first := by
        rw [hrecords]
        rfl
      have hallocation' := hjudges _ (first_judged hloop hid hfirst)
      have hid' : first.nodeId = id := by
        have hmem := mem_of_mem_head? hfirst
        exact of_decide_eq_true (mem_filter.1 hmem).2
      rw [hid', hnode, bind_some, hallocation] at hallocation'
      cases rest with
      | nil => rfl
      | cons second rest =>
        rw [hrecords, List.getLast?_cons_cons] at hlast
        rw [hrecords, map_cons] at hnodup
        refine absurd ?_ (nodup_cons.1 hnodup).1
        rw [← Option.some.inj hallocation']
        exact mem_map_of_mem (mem_of_getLast? hlast)
  · intro hone j hj
    obtain ⟨hmem, hactive⟩ := judged_active hloop j hj
    obtain ⟨node, last, hnode, hlast, hallocation⟩ := hcurrent _ hactive
    obtain ⟨only, honly⟩ := length_eq_one_iff.1 (hone _ hactive)
    have hj' : j.1 ∈ state.recordsOf j.1.nodeId := mem_filter.2 ⟨hmem, decide_eq_true rfl⟩
    rw [honly] at hlast hj'
    have hsame : only = last := Option.some.inj hlast
    rw [hnode, bind_some, hallocation, mem_singleton.1 hj', hsame]

/-! ## A node that was reserved again -/

/-- A child of `allocation` that is alive. -/
def liveChild (number : ℕ) (allocation : String) : Evidence (Finset ℕ) where
  children := fun _ => ⟨some ⟨"graph", "a", number, allocation, 41, "token", .live⟩, none⟩
  processProbe := fun _ => some (some "token")
  durable := fun _ => false

def reserveFirst (number revision : ℕ) (allocation : String) : AuditOp (Finset ℕ) :=
  .reserve ⟨[("a", allocation)], number, ∅, revision, ∅⟩

/-- The recovery behind some operations on the pair of runs. -/
def recoverBehind (ops : List (AuditOp (Finset ℕ))) (evidence : Evidence (Finset ℕ)) :
    Option (AttemptState (Finset ℕ) × AttemptState.Reconciled (Finset ℕ)) :=
  (runInputs AuditOp.perform (initialState pairPlan "graph" ∅ none) ops).bind fun state =>
    (state.reconcileInterruptedAttempts evidence []).toOption.map fun r => (state, r)

theorem recoverBehind_eq_some {ops : List (AuditOp (Finset ℕ))} {evidence : Evidence (Finset ℕ)}
    {state : AttemptState (Finset ℕ)} {r : AttemptState.Reconciled (Finset ℕ)}
    (h : recoverBehind ops evidence = some (state, r)) :
    Runs AuditOp.perform (initialState pairPlan "graph" ∅ none) state ∧
      state.reconcileInterruptedAttempts evidence [] = .ok r := by
  obtain ⟨s, hs, h⟩ := bind_eq_some_iff.1 h
  obtain ⟨r', hr, hsame⟩ := map_eq_some_iff.1 h
  obtain ⟨rfl, rfl⟩ := Prod.mk.inj hsame
  exact ⟨runs_of_runInputs hs, toOption_eq_some.1 hr⟩

theorem reconcile_judges_current_iff_once : ∃ state r,
    state.reconcileInterruptedAttempts (liveChild 1 "a1") [] = .ok r ∧ JudgesCurrent state r ∧
      r.outcomes.get? "a" = some "running" := by
  have hend : (recoverBehind [reserveFirst 1 1 "a1"] (liveChild 1 "a1")).map (fun p =>
      decide ((∀ id ∈ p.1.activeNodeIds, (p.1.recordsOf id).length = 1) ∧
        p.2.outcomes.get? "a" = some "running")) = some true := by decide +kernel
  obtain ⟨⟨state, r⟩, hp, hgood⟩ := map_eq_some_iff.1 hend
  obtain ⟨hrun, hreconcile⟩ := recoverBehind_eq_some hp
  obtain ⟨hone, houtcome⟩ := of_decide_eq_true hgood
  exact ⟨state, r, hreconcile,
    (reconcile_judges_current_iff (unallocated_initialState _ _ _ _) hrun hreconcile).2 hone,
    houtcome⟩

/-- The child of the replacement is alive, and its node is blocked. -/
theorem replacement_blocked : ∃ state r,
    Runs AuditOp.perform (initialState pairPlan "graph" ∅ none) state ∧
      state.reconcileInterruptedAttempts (liveChild 2 "a2") [] = .ok r ∧ ¬ JudgesCurrent state r ∧
      r.outcomes.get? "a" = some "blocked" ∧
      ((state.recordsOf "a").getLast?).map (liveChild 2 "a2").liveness = some .running := by
  have hend : (recoverBehind
      [reserveFirst 1 1 "a1", .invalidate "a1" "stopped", reserveFirst 2 3 "a2"]
      (liveChild 2 "a2")).map (fun p => decide (¬ JudgesCurrent p.1 p.2 ∧
        p.2.outcomes.get? "a" = some "blocked" ∧
        ((p.1.recordsOf "a").getLast?).map (liveChild 2 "a2").liveness = some .running)) =
      some true := by decide +kernel
  obtain ⟨⟨state, r⟩, hp, hbad⟩ := map_eq_some_iff.1 hend
  obtain ⟨hrun, hreconcile⟩ := recoverBehind_eq_some hp
  exact ⟨state, r, hrun, hreconcile, of_decide_eq_true hbad⟩

end HarnessLabs.PlanGraph
