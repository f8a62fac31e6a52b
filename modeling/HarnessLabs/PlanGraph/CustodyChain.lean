import HarnessLabs.PlanGraph.Allocation

/-!
# Custody along successors

A sealed node is in custody when a barrier of the checkpoint or a reuse receipt binds its candidate.
A completion writes its barrier under an id that is made of the node and its allocation, unless a
barrier has this id already. The reservation of the allocation has written one, without a candidate.

* `Recordable` — a completion whose barrier is written, or whose candidate is in custody already.
* `InCustody.perform_iff` — **an operation keeps every sealed node in custody exactly when it is
  recordable.**
* `custody_complete` — **behind recordable operations custody is complete, and it survives every
  chain of repair successors.**
-/

namespace HarnessLabs.PlanGraph

open List Option

variable {C : Type}

/-! ## Sealed nodes -/

/-- The node is sealed with this candidate. -/
def SealedWith (state : AttemptState C) (id : String) (c : C) : Prop :=
  ∃ node, state.nodes.get? id = some node ∧ node.status = .succeeded ∧
    node.candidateCommit = some c

/-- Every node that a sealed one depends on is sealed. -/
def DependenciesSealed (state : AttemptState C) : Prop :=
  ∀ id c, SealedWith state id c → ∀ d ∈ nodeDeps state.nodes id, ∃ c', SealedWith state d c'

variable {state next predecessor : AttemptState C} {id attemptId : String} {c : C}
  {t : Transition C} {op : AuditOp C} {inherited : Dict String C} {plan : PlanGraphPlan C}
  {frontier : List String} {successor : Successor C}

theorem SealedWith.of_get? (h : SealedWith state id c)
    (hget : next.nodes.get? id = state.nodes.get? id) :
    SealedWith next id c := by
  obtain ⟨node, hnode, hsealed⟩ := h
  exact ⟨node, hget.trans hnode, hsealed⟩

/-! ## Operations -/

/-- What a transition makes of the state. -/
def AttemptState.after (state : AttemptState C) : Transition C → AttemptState C
  | .started id => state.nodeStarted id
  | .completed id c obligations =>
    state.nodeCompleted id c (obligations.getD state.findingObligations)
  | .failed id status obligations => state.nodeFailed id status obligations

theorem performTransition_eq_ok :
    state.performTransition t = .ok next ↔ t.nodeId ∈ state.nodes.keys ∧ next = state.after t := by
  by_cases hknown : t.nodeId ∈ state.nodes.keys
  · have hok : state.performTransition t = .ok (state.after t) := by
      cases t with
      | started id => exact performTransition_started hknown
      | completed id c obligations => exact performTransition_completed hknown
      | failed id status obligations => exact performTransition_failed hknown
    rw [hok]
    exact ⟨fun h => ⟨hknown, (Except.ok.inj h).symm⟩, fun h => by rw [h.2]⟩
  · refine iff_of_false (fun h => ?_) fun h => hknown h.1
    obtain ⟨update, hprepare, hupdate⟩ := performTransition_update h
    cases t with
    | started id =>
      change id ∉ state.nodes.keys at hknown
      cases hprepare
      rw [AttemptState.applyUpdate, if_neg hknown] at hupdate
      cases hupdate
    | completed id c obligations =>
      change id ∉ state.nodes.keys at hknown
      rw [AttemptState.prepare, if_neg hknown] at hprepare
      cases hprepare
    | failed id status obligations =>
      change id ∉ state.nodes.keys at hknown
      cases hprepare
      rw [AttemptState.applyUpdate, if_neg hknown] at hupdate
      cases hupdate

/-- What an operation does to the sealed nodes and to their custody. -/
structure Evolves (state : AttemptState C) (op : AuditOp C) (next : AttemptState C) : Prop where
  deps : ∀ id, (next.nodes.get? id).map (·.dependsOn) = (state.nodes.get? id).map (·.dependsOn)
  barriers : ∀ b ∈ state.integrationBarriers, b ∈ next.integrationBarriers
  sealing : ∀ id c, SealedWith next id c → SealedWith state id c ∨
    ∃ obligations, op = .transition (.completed id c obligations)
  sealed : ∀ id c, SealedWith state id c → SealedWith next id c ∨
    ∃ t, op = .transition t ∧ t.nodeId = id

theorem evolves_reserve [DecidableEq C] (hsound : Sound state) {r : Reservation C}
    (h : state.reserveBatch r = .ok next) :
    Evolves state (.reserve r) next := by
  obtain ⟨haccepted, hgrants⟩ := reserveBatch_grants hsound h
  have hnew : ∀ id ∈ r.nodeIds, ∃ a, ∃ before, state.nodes.get? id = some before ∧
      before.status = .queued ∧
      next.nodes.get? id = some (AttemptState.reserveNode r a before) := by
    intro id hid
    obtain ⟨hknown, hqueued⟩ := haccepted.queued id hid
    obtain ⟨before, hbefore⟩ := Dict.mem_keys_iff.1 hknown
    obtain ⟨a, ha, rfl⟩ := mem_map.1 hid
    rw [AttemptState.queued, hbefore] at hqueued
    refine ⟨a, before, hbefore, Option.some.inj hqueued, ?_⟩
    rw [hgrants.granted a ha, hbefore]
    rfl
  refine ⟨fun id => ?_, fun b hb => ?_, fun id c hsealed => ?_, fun id c hsealed => ?_⟩
  · by_cases hid : id ∈ r.nodeIds
    · obtain ⟨a, before, hbefore, -, hnext⟩ := hnew id hid
      rw [hnext, hbefore]
      rfl
    · rw [hgrants.untouched id hid]
  · rw [hgrants.barriers]
    exact mem_append_left _ hb
  · by_cases hid : id ∈ r.nodeIds
    · obtain ⟨a, before, -, -, hnext⟩ := hnew id hid
      obtain ⟨node, hnode, hstatus, -⟩ := hsealed
      rw [hnext] at hnode
      cases hnode
      cases hstatus
    · exact .inl (hsealed.of_get? (hgrants.untouched id hid).symm)
  · by_cases hid : id ∈ r.nodeIds
    · obtain ⟨a, before, hbefore, hqueued, -⟩ := hnew id hid
      obtain ⟨node, hnode, hstatus, -⟩ := hsealed
      rw [hbefore] at hnode
      cases hnode
      rw [hqueued] at hstatus
      cases hstatus
    · exact .inl (hsealed.of_get? (hgrants.untouched id hid))

theorem evolves_invalidate (hsound : Sound state) {allocationId reason : String}
    (h : state.invalidateAttempt allocationId reason = .ok next) :
    Evolves state (.invalidate allocationId reason) next := by
  have hgives := invalidateAttempt_givesUp hsound h
  obtain ⟨record, -, -, -, -, -, hother, before, hbefore, -, hstatus, hself⟩ := hgives.record
  refine ⟨fun id => ?_, fun b hb => ?_, fun id c hsealed => ?_, fun id c hsealed => ?_⟩
  · by_cases hid : id = record.nodeId
    · rw [hid, hself, hbefore]
      rfl
    · rw [hother id hid]
  · rw [hgives.barriers]
    exact hb
  · by_cases hid : id = record.nodeId
    · obtain ⟨node, hnode, hstatus', -⟩ := hsealed
      rw [hid, hself] at hnode
      cases hnode
      cases hstatus'
    · exact .inl (hsealed.of_get? (hother id hid).symm)
  · by_cases hid : id = record.nodeId
    · obtain ⟨node, hnode, hstatus', -⟩ := hsealed
      rw [hid, hbefore] at hnode
      cases hnode
      exact absurd hstatus' hstatus
    · exact .inl (hsealed.of_get? (hother id hid))

theorem get?_after_ne (h : id ≠ t.nodeId) :
    (state.after t).nodes.get? id = state.nodes.get? id := by
  have hkept : ∀ (updates : Node C → Node C) (running : Bool),
      (state.transition t.nodeId updates running).nodes.get? id = state.nodes.get? id := by
    intro updates running
    rw [AttemptState.transition]
    cases state.nodes.get? t.nodeId with
    | none => rfl
    | some node => exact Dict.get?_set_ne _ _ h
  cases t with
  | started nodeId => exact hkept _ _
  | completed nodeId c obligations => exact hkept _ _
  | failed nodeId status obligations => exact hkept _ _

theorem get?_after_self {before : Node C} (h : state.nodes.get? t.nodeId = some before) :
    ∃ node, (state.after t).nodes.get? t.nodeId = some node ∧ node.dependsOn = before.dependsOn ∧
      ∀ c, node.status = .succeeded → node.candidateCommit = some c →
        ∃ obligations, t = .completed t.nodeId c obligations := by
  have hset : ∀ (updates : Node C → Node C) (running : Bool),
      (state.transition t.nodeId updates running).nodes.get? t.nodeId = some (updates before) := by
    intro updates running
    rw [AttemptState.transition, h]
    exact Dict.get?_set_self _ _ _
  cases t with
  | started nodeId => exact ⟨_, hset _ _, rfl, by simp⟩
  | completed nodeId c obligations =>
    refine ⟨_, hset _ _, rfl, fun c' _ hc => ⟨obligations, ?_⟩⟩
    rw [← Option.some.inj hc]
    rfl
  | failed nodeId status obligations =>
    refine ⟨_, hset _ _, rfl, fun c' hstatus _ => ?_⟩
    have hstopped := status.2
    rw [show status.1 = .succeeded from hstatus] at hstopped
    cases hstopped

theorem integrationBarriers_after (state : AttemptState C) (t : Transition C) :
    ∀ b ∈ state.integrationBarriers, b ∈ (state.after t).integrationBarriers := by
  have hkept : ∀ (id : String) (updates : Node C → Node C) (running : Bool),
      (state.transition id updates running).integrationBarriers = state.integrationBarriers := by
    intro id updates running
    rw [AttemptState.transition]
    cases state.nodes.get? id <;> rfl
  intro b hb
  cases t with
  | started nodeId =>
    show b ∈ (state.transition nodeId _ true).integrationBarriers
    rw [hkept]
    exact hb
  | completed nodeId c obligations =>
    show b ∈ state.completionBarriers nodeId c
    rw [AttemptState.completionBarriers]
    split
    · exact hb
    · exact mem_append_left _ hb
  | failed nodeId status obligations =>
    show b ∈ (state.transition nodeId _ false).integrationBarriers
    rw [hkept]
    exact hb

theorem evolves_transition (hknown : t.nodeId ∈ state.nodes.keys) :
    Evolves state (.transition t) (state.after t) := by
  obtain ⟨before, hbefore⟩ := Dict.mem_keys_iff.1 hknown
  obtain ⟨node, hself, hdeps, hsealing⟩ := get?_after_self hbefore
  refine ⟨fun id => ?_, integrationBarriers_after state t, fun id c hsealed => ?_,
    fun id c hsealed => ?_⟩
  · by_cases hid : id = t.nodeId
    · rw [hid, hself, hbefore, map_some, map_some, hdeps]
    · rw [get?_after_ne hid]
  · by_cases hid : id = t.nodeId
    · obtain ⟨node', hnode', hstatus, hc⟩ := hsealed
      rw [hid, hself] at hnode'
      cases hnode'
      obtain ⟨obligations, ht⟩ := hsealing c hstatus hc
      exact .inr ⟨obligations, by rw [hid, ← ht]⟩
    · exact .inl (hsealed.of_get? (get?_after_ne hid).symm)
  · by_cases hid : id = t.nodeId
    · exact .inr ⟨t, rfl, hid.symm⟩
    · exact .inl (hsealed.of_get? (get?_after_ne hid))

variable [DecidableEq C]

theorem perform_transition (h : t.nodeId ∈ state.nodes.keys) :
    (AuditOp.transition t).perform state = some (state.after t) :=
  toOption_eq_some.2 (performTransition_eq_ok.2 ⟨h, rfl⟩)

/-- **What an operation does.** -/
theorem AuditOp.evolves (hsound : Sound state) (hop : op.perform state = some next) :
    Evolves state op next := by
  cases op with
  | reserve r => exact evolves_reserve hsound (toOption_eq_some.1 hop)
  | invalidate allocationId reason => exact evolves_invalidate hsound (toOption_eq_some.1 hop)
  | transition t =>
    obtain ⟨hknown, rfl⟩ := performTransition_eq_ok.1 (toOption_eq_some.1 hop)
    exact evolves_transition hknown

/-! ## Custody -/

/-- Every sealed node is in custody, with its candidate. -/
def InCustody (state : AttemptState C) (inherited : Dict String C) : Prop :=
  ∀ id c, SealedWith state id c →
    custodyMatches state.integrationBarriers inherited id c = true

/-- A completion finds no barrier under the id of its own, or its candidate is in custody. -/
def Recordable (inherited : Dict String C) (state : AttemptState C) : AuditOp C → Prop
  | .transition (.completed id c _) =>
    (∀ b ∈ state.integrationBarriers, b.barrierId ≠ (state.completionBarrier id c).barrierId) ∨
      custodyMatches state.integrationBarriers inherited id c = true
  | _ => True

theorem custodyMatches_iff {barriers : List (Barrier C)} :
    custodyMatches barriers inherited id c = true ↔
      (∃ b ∈ barriers, b.nodeId = id ∧ b.integratedCommit = some c) ∨
        inherited.get? id = some c := by
  rw [custodyMatches, Bool.or_eq_true, List.any_eq_true, decide_eq_true_eq]
  simp only [decide_eq_true_eq]

theorem custodyMatches_mono {barriers barriers' : List (Barrier C)}
    (hsub : ∀ b ∈ barriers, b ∈ barriers') (h : custodyMatches barriers inherited id c = true) :
    custodyMatches barriers' inherited id c = true := by
  rw [custodyMatches_iff] at h ⊢
  obtain ⟨b, hb, hbinds⟩ | hreceipt := h
  · exact .inl ⟨b, hsub b hb, hbinds⟩
  · exact .inr hreceipt

/-- **When a completion is in custody.** -/
theorem custody_completed_iff (state : AttemptState C) (inherited : Dict String C) (id : String)
    (c : C) (obligations : Option Obligations) :
    custodyMatches (state.completionBarriers id c) inherited id c = true ↔
      Recordable inherited state (.transition (.completed id c obligations)) := by
  rw [AttemptState.completionBarriers, Recordable]
  by_cases hany : state.integrationBarriers.any
      (·.barrierId = (state.completionBarrier id c).barrierId) = true
  · rw [if_pos hany]
    refine ⟨.inr, fun h => h.resolve_left fun hfresh => ?_⟩
    obtain ⟨b, hb, hsame⟩ := any_eq_true.1 hany
    exact hfresh b hb (of_decide_eq_true hsame)
  · rw [if_neg hany]
    refine iff_of_true ?_ (.inl fun b hb hsame => ?_)
    · rw [custodyMatches_iff]
      exact .inl ⟨_, mem_append_right _ (mem_singleton_self _), rfl, rfl⟩
    · exact hany (any_eq_true.2 ⟨b, hb, decide_eq_true hsame⟩)

/-- **Custody and one operation.** -/
theorem InCustody.perform_iff (h : InCustody state inherited) (hsound : Sound state)
    (hop : op.perform state = some next) : InCustody next inherited ↔
      Recordable inherited state op := by
  have hevolves := op.evolves hsound hop
  constructor
  · intro hnext
    cases op with
    | reserve r => exact True.intro
    | invalidate allocationId reason => exact True.intro
    | transition t =>
      obtain ⟨hknown, rfl⟩ := performTransition_eq_ok.1 (toOption_eq_some.1 hop)
      cases t with
      | started id => exact True.intro
      | failed id status obligations => exact True.intro
      | completed id c obligations =>
        obtain ⟨before, hbefore⟩ := Dict.mem_keys_iff.1 hknown
        refine (custody_completed_iff state inherited id c obligations).1 (hnext id c ?_)
        change state.nodes.get? id = some before at hbefore
        rw [SealedWith, AttemptState.after, AttemptState.nodeCompleted, AttemptState.transition,
          hbefore]
        exact ⟨_, Dict.get?_set_self _ _ _, rfl, rfl⟩
  · intro hrecordable id c hsealed
    obtain hold | ⟨obligations, rfl⟩ := hevolves.sealing id c hsealed
    · exact custodyMatches_mono hevolves.barriers (h id c hold)
    · obtain ⟨-, rfl⟩ := performTransition_eq_ok.1 (toOption_eq_some.1 hop)
      exact (custody_completed_iff state inherited id c obligations).2 hrecordable

/-! ## Attempts -/

/-- The launch loops name no node that is sealed, and complete a node behind what it needs. -/
def Orderly (state : AttemptState C) : AuditOp C → Prop
  | .transition (.completed id _ _) => (∀ c, ¬ SealedWith state id c) ∧
      ∀ d ∈ nodeDeps state.nodes id, ∃ c, SealedWith state d c
  | .transition t => ∀ c, ¬ SealedWith state t.nodeId c
  | _ => True

omit [DecidableEq C] in
theorem Orderly.unsealed (h : Orderly state (.transition t)) (c : C) :
    ¬ SealedWith state t.nodeId c := by
  cases t with
  | started id => exact h c
  | completed id candidate obligations => exact h.1 c
  | failed id status obligations => exact h c

/-- The operations of one attempt, each allowed in the state that it finds. -/
abbrev Performs (allowed : AttemptState C → AuditOp C → Prop) :
    AttemptState C → AttemptState C → Prop :=
  Inputs.RunsUnder allowed AuditOp.perform

/-- The states of the attempts at a plan, with what their reuse receipts name: of a first attempt,
and of a repair successor of any of them that has stopped. -/
inductive Attempted (plan : PlanGraphPlan C)
    (allowed : Dict String C → AttemptState C → AuditOp C → Prop) :
    AttemptState C → Dict String C → Prop
  | fresh {graphRunId : String} {state : AttemptState C}
      (run : Performs (allowed ∅) (initialState plan graphRunId ∅ none) state) :
      Attempted plan allowed state ∅
  | successor {predecessor state : AttemptState C} {inherited : Dict String C}
      {status : GraphStatus} {frontier : List String} {attemptId : String}
      {successor : Successor C} (stopped : Attempted plan allowed predecessor inherited)
      (opened : openSuccessor plan (predecessor.finalize status) inherited frontier attemptId =
        .ok successor)
      (run : Performs (allowed successor.reused) successor.audit state) :
      Attempted plan allowed state successor.reused

/-- A repair successor that does not launch the node again, and what becomes of it. -/
def Hop (plan : PlanGraphPlan C) (allowed : Dict String C → AttemptState C → AuditOp C → Prop)
    (id : String) (a b : AttemptState C × Dict String C) : Prop :=
  ∃ status frontier attemptId successor,
    openSuccessor plan (a.1.finalize status) a.2 frontier attemptId = .ok successor ∧
    ¬ BehindFrontier a.1.nodes frontier id ∧ b.2 = successor.reused ∧
    Performs (allowed successor.reused) successor.audit b.1

theorem openSuccessor_selects (hplan : OfPlan plan predecessor)
    (h : openSuccessor plan predecessor inherited frontier attemptId = .ok successor) :
    ∃ selection, Selects predecessor inherited frontier selection ∧
      successor.reused = selection.reusedCompleted ∧
      successor.audit = carryBarriers predecessor (initialState plan attemptId
        selection.reusedCompleted (some predecessor.graphRunId)) := by
  rw [openSuccessor] at h
  split_ifs at h
  obtain ⟨selection, hselection, rfl⟩ := Audit.map_eq_ok.1 h
  refine ⟨selection, ?_, rfl, rfl⟩
  have hvalid : ¬ (frontier = [] ∨ ¬ frontier.Nodup ∨
      frontier.any (· ∉ predecessor.nodes.keys) = true) := by
    intro hinvalid
    rw [repairSelection, if_pos hinvalid] at hselection
    cases hselection
  push Not at hvalid
  obtain ⟨hne, hnodup, hknown⟩ := hvalid
  have hacyclic : Dag.Acyclic (nodeDeps predecessor.nodes) := by
    rw [hplan.deps]
    exact plan.acyclic
  obtain ⟨selection', hselection', hselects, -⟩ := repairSelection_selects inherited hacyclic hne
    hnodup fun f hf => by
      by_contra hout
      exact hknown (any_eq_true.2 ⟨f, hf, decide_eq_true hout⟩)
  rw [hselection] at hselection'
  cases hselection'
  exact hselects

/-! ## What holds of every attempt -/

omit [DecidableEq C] in
theorem OfPlan.evolves (h : OfPlan plan state) (hevolves : Evolves state op next) :
    OfPlan plan next := by
  refine ⟨fun id => ?_, ?_⟩
  · rw [← h.keys, Dict.mem_keys_iff, Dict.mem_keys_iff, ← isSome_iff_exists,
      ← isSome_iff_exists, ← isSome_map (f := (·.dependsOn)), hevolves.deps,
      isSome_map]
  · rw [← h.deps]
    funext id
    rw [nodeDeps, nodeDeps, hevolves.deps]

omit [DecidableEq C] in
theorem OfPlan.finalize (h : OfPlan plan state) (status : GraphStatus) :
    OfPlan plan (state.finalize status) :=
  ⟨h.keys, h.deps⟩

/-- A new attempt of the plan without allocations. -/
structure Opens (plan : PlanGraphPlan C) (state : AttemptState C) (inherited : Dict String C) :
    Prop where
  unallocated : Unallocated state
  ofPlan : OfPlan plan state
  sealed : ∀ id c, SealedWith state id c ↔ inherited.get? id = some c
  closed : ∀ id ∈ inherited.keys, ∀ d ∈ nodeDeps state.nodes id, d ∈ inherited.keys

omit [DecidableEq C] in
theorem sealedWith_initialState (graphRunId : String) {reused : Dict String C}
    (hknown : ∀ id ∈ reused.keys, id ∈ runIds plan.runs) {predecessor : Option String} :
    SealedWith (initialState plan graphRunId reused predecessor) id c ↔
      reused.get? id = some c := by
  constructor
  · rintro ⟨node, hnode, -, hc⟩
    obtain ⟨run, -, rfl, rfl⟩ := get?_nodes_initialState.1 hnode
    exact hc
  · intro hc
    have hmem : id ∈ reused.keys := Dict.mem_keys_iff.2 ⟨c, hc⟩
    obtain ⟨run, hrun, rfl⟩ := mem_map.1 (hknown id hmem)
    refine ⟨_, get?_nodes_initialState.2 ⟨run, plan.mem_ordered.2 hrun, rfl, rfl⟩, ?_, hc⟩
    rw [initialNode]
    exact if_pos hmem

omit [DecidableEq C] in
theorem opens_initialState (plan : PlanGraphPlan C) (graphRunId : String) :
    Opens plan (initialState plan graphRunId ∅ none) ∅ :=
  ⟨unallocated_initialState plan graphRunId ∅ none, ofPlan_initialState plan graphRunId ∅ none,
    fun _ _ => sealedWith_initialState graphRunId fun _ hid => absurd hid not_mem_nil,
    fun _ hid => absurd hid not_mem_nil⟩

theorem opens_successor (hplan : OfPlan plan predecessor)
    (h : openSuccessor plan predecessor inherited frontier attemptId = .ok successor) :
    Opens plan successor.audit successor.reused := by
  obtain ⟨selection, hselects, hreused, haudit⟩ := openSuccessor_selects hplan h
  rw [hreused, haudit]
  have hunallocated := unallocated_initialState plan attemptId selection.reusedCompleted
    (some predecessor.graphRunId)
  have hofPlan := ofPlan_initialState plan attemptId selection.reusedCompleted
    (some predecessor.graphRunId)
  refine ⟨⟨hunallocated.attempts, hunallocated.lineage, hunallocated.retryState,
    hunallocated.active, hunallocated.queued⟩, ⟨hofPlan.keys, hofPlan.deps⟩, fun id c => ?_,
    fun id hid d hd => ?_⟩
  · exact sealedWith_initialState attemptId fun id hid =>
      (hplan.keys id).1 (hselects.known id hid)
  · change d ∈ nodeDeps (initialState plan attemptId selection.reusedCompleted
      (some predecessor.graphRunId)).nodes id at hd
    rw [hofPlan.deps, ← hplan.deps] at hd
    exact hselects.closed id hid d hd

/-- A new attempt has custody by its receipts. -/
theorem Opens.inCustody (h : Opens plan state inherited) : InCustody state inherited := by
  intro id c hsealed
  exact custodyMatches_iff.2 (.inr ((h.sealed id c).1 hsealed))

omit [DecidableEq C] in
theorem Opens.dependenciesSealed (h : Opens plan state inherited) : DependenciesSealed state := by
  intro id c hsealed d hd
  have hmem := h.closed id (Dict.mem_keys_iff.2 ⟨c, (h.sealed id c).1 hsealed⟩) d hd
  obtain ⟨c', hc'⟩ := Dict.mem_keys_iff.1 hmem
  exact ⟨c', (h.sealed d c').2 hc'⟩

/-- The invariant of an attempt, whatever its operations. -/
structure Attempting (plan : PlanGraphPlan C) (state : AttemptState C) : Prop where
  sound : Sound state
  ofPlan : OfPlan plan state

theorem Attempting.perform (h : Attempting plan state) (hop : op.perform state = some next) :
    Attempting plan next :=
  ⟨h.sound.perform hop, h.ofPlan.evolves (op.evolves h.sound hop)⟩

/-- What every allowed operation keeps holds of a whole attempt. -/
theorem Performs.invariant {allowed : AttemptState C → AuditOp C → Prop} {P : AttemptState C → Prop}
    (hstep : ∀ state op next, Attempting plan state → allowed state op →
      op.perform state = some next → P state → P next) (hrun : Performs allowed state next)
    (h : Attempting plan state) (hP : P state) : Attempting plan next ∧ P next :=
  Inputs.RunsUnder.invariant (P := fun state => Attempting plan state ∧ P state) hrun
    (fun op state next hallowed hop ⟨hattempting, hP⟩ =>
      ⟨hattempting.perform hop, hstep state op next hattempting hallowed hop hP⟩) ⟨h, hP⟩

/-- What holds of a new attempt, and every allowed operation keeps, holds of every attempt. -/
theorem Attempted.invariant {allowed : Dict String C → AttemptState C → AuditOp C → Prop}
    {P : AttemptState C → Dict String C → Prop}
    (hopen : ∀ state inherited, Opens plan state inherited → P state inherited)
    (hstep : ∀ inherited state op next, Attempting plan state → allowed inherited state op →
      op.perform state = some next → P state inherited → P next inherited)
    (h : Attempted plan allowed state inherited) : Attempting plan state ∧ P state inherited := by
  have hruns : ∀ {start state : AttemptState C} {inherited : Dict String C},
      Opens plan start inherited → Performs (allowed inherited) start state →
      Attempting plan state ∧ P state inherited := by
    intro start state inherited hopens hrun
    exact Performs.invariant (P := (P · inherited)) (hstep inherited) hrun
      ⟨hopens.unallocated.sound, hopens.ofPlan⟩ (hopen start inherited hopens)
  induction h with
  | fresh run => exact hruns (opens_initialState plan _) run
  | successor stopped opened run ih =>
    exact hruns (opens_successor (ih.1.ofPlan.finalize _) opened) run

theorem Attempted.inCustody {allowed : Dict String C → AttemptState C → AuditOp C → Prop}
    (hallowed : ∀ inherited state op, allowed inherited state op →
      Recordable inherited state op) (h : Attempted plan allowed state inherited) :
    InCustody state inherited :=
  (h.invariant (P := InCustody) (fun _ _ hopens => hopens.inCustody)
    fun inherited state op _ hattempting hop hperform hcustody =>
      (hcustody.perform_iff hattempting.sound hperform).2 (hallowed inherited state op hop)).2

omit [DecidableEq C] in
/-- An orderly operation leaves the sealed nodes alone. -/
theorem SealedWith.evolves (h : SealedWith state id c) (horderly : Orderly state op)
    (hevolves : Evolves state op next) :
    SealedWith next id c := by
  refine (hevolves.sealed id c h).resolve_right ?_
  rintro ⟨t, rfl, rfl⟩
  exact horderly.unsealed c h

omit [DecidableEq C] in
theorem DependenciesSealed.evolves (h : DependenciesSealed state) (horderly : Orderly state op)
    (hplan : OfPlan plan state) (hevolves : Evolves state op next) : DependenciesSealed next := by
  intro id c hsealed d hd
  rw [(hplan.evolves hevolves).deps, ← hplan.deps] at hd
  have hbefore : ∃ c', SealedWith state d c' := by
    obtain hold | ⟨obligations, rfl⟩ := hevolves.sealing id c hsealed
    · exact h id c hold d hd
    · exact horderly.2 d hd
  obtain ⟨c', hc'⟩ := hbefore
  exact ⟨c', hc'.evolves horderly hevolves⟩

/-- A node in custody behind sealed nodes is reused, unless it is launched again. -/
theorem reused_of_custody (hplan : OfPlan plan predecessor)
    (hcustody : InCustody predecessor inherited) (hsealed : DependenciesSealed predecessor)
    {status : GraphStatus}
    (h : openSuccessor plan (predecessor.finalize status) inherited frontier attemptId =
      .ok successor) (hid : SealedWith predecessor id c)
    (hkept : ¬ BehindFrontier predecessor.nodes frontier id) :
    successor.reused.get? id = some c := by
  obtain ⟨selection, hselects, hreused, -⟩ := openSuccessor_selects (hplan.finalize status) h
  have hreusable : ∀ {id : String} {c : C}, SealedWith predecessor id c →
      ¬ BehindFrontier predecessor.nodes frontier id →
      Reusable (predecessor.finalize status) inherited frontier id c := by
    intro id c hid hkept
    exact ⟨hid, hcustody id c hid, hkept⟩
  have hmem : id ∈ selection.reusedCompleted.keys := by
    refine hselects.greatest
      {id | (∃ c, SealedWith predecessor id c) ∧ ¬ BehindFrontier predecessor.nodes frontier id}
      ?_ ?_ id ⟨⟨c, hid⟩, hkept⟩
    · rintro id ⟨⟨c, hid⟩, hkept⟩
      exact ⟨c, hreusable hid hkept⟩
    · rintro id ⟨⟨c, hid⟩, hkept⟩ d hd
      refine ⟨hsealed id c hid d hd, ?_⟩
      rintro ⟨f, hf, hpath⟩
      exact hkept ⟨f, hf, hpath.tail hd⟩
  obtain ⟨c', hc'⟩ := Dict.mem_keys_iff.1 hmem
  rw [hreused, hc', (hselects.reusable id c' hc').unique (hreusable hid hkept)]

/-- The steps that the chains below are about. -/
def OrderlyRecordable (inherited : Dict String C) (state : AttemptState C) (op : AuditOp C) :
    Prop :=
  Recordable inherited state op ∧ Orderly state op

theorem Attempted.dependenciesSealed (h : Attempted plan OrderlyRecordable state inherited) :
    Attempting plan state ∧ DependenciesSealed state :=
  h.invariant (P := fun state _ => DependenciesSealed state)
    (fun _ _ hopens => hopens.dependenciesSealed)
    fun _ _ op _ hattempting hop hperform hsealed =>
      hsealed.evolves hop.2 hattempting.ofPlan (op.evolves hattempting.sound hperform)

/-- **One hop.** -/
theorem Hop.reuses {a b : AttemptState C × Dict String C} (h : Hop plan OrderlyRecordable id a b)
    (ha : Attempted plan OrderlyRecordable a.1 a.2) (hsealed : SealedWith a.1 id c) :
    Attempted plan OrderlyRecordable b.1 b.2 ∧ b.2.get? id = some c ∧ SealedWith b.1 id c := by
  obtain ⟨status, frontier, attemptId, successor, hopened, hkept, hreceipts, hrun⟩ := h
  obtain ⟨hattempting, hdeps⟩ := ha.dependenciesSealed
  have hcustody := ha.inCustody fun _ _ _ h => h.1
  have hreused := reused_of_custody hattempting.ofPlan hcustody hdeps hopened hsealed hkept
  have hopens := opens_successor (hattempting.ofPlan.finalize status) hopened
  have hlater : Attempting plan b.1 ∧ SealedWith b.1 id c := by
    refine Performs.invariant (P := fun state => SealedWith state id c) ?_ hrun
      ⟨hopens.unallocated.sound, hopens.ofPlan⟩ ((hopens.sealed id c).2 hreused)
    intro state op next hattempting hop hperform hid
    exact hid.evolves hop.2 (op.evolves hattempting.sound hperform)
  rw [hreceipts]
  exact ⟨.successor ha hopened hrun, hreused, hlater.2⟩

/-- **Custody is complete behind recordable operations, and survives successors.** Every sealed node
of every attempt is in custody with its candidate while the operations are recordable, and one that
is not ends this. Along every chain of repair successors of orderly attempts, a sealed node that is
never launched again is reused with the same candidate by each of them. -/
theorem custody_complete (plan : PlanGraphPlan C) :
    (∀ state inherited, Attempted plan Recordable state inherited → InCustody state inherited) ∧
    (∀ allowed state inherited op next, Attempted plan allowed state inherited →
      InCustody state inherited → op.perform state = some next →
      (InCustody next inherited ↔ Recordable inherited state op)) ∧
    ∀ a b id c, Attempted plan OrderlyRecordable a.1 a.2 → SealedWith a.1 id c →
      Relation.TransGen (Hop plan OrderlyRecordable id) a b →
      b.2.get? id = some c ∧ SealedWith b.1 id c := by
  refine ⟨fun state inherited h => h.inCustody fun _ _ _ h => h, ?_, ?_⟩
  · intro allowed state inherited op next h hcustody hop
    have hsound : Attempting plan state ∧ True :=
      h.invariant (P := fun _ _ => True) (fun _ _ _ => True.intro)
        fun _ _ _ _ _ _ _ _ => True.intro
    exact hcustody.perform_iff hsound.1.sound hop
  · intro a b id c ha hsealed hchain
    suffices Attempted plan OrderlyRecordable b.1 b.2 ∧ b.2.get? id = some c ∧
        SealedWith b.1 id c from this.2
    induction hchain with
    | single hhop => exact hhop.reuses ha hsealed
    | tail _ hhop ih => exact hhop.reuses ih.1 ih.2.2

/-! ## A node that is completed under its allocation -/

section Pair

omit [DecidableEq C]

theorem sealedWith_iff {state : AttemptState C} {id : String} {c : C} :
    SealedWith state id c ↔
      (state.nodes.get? id).bind AttemptState.sealedCandidate = some c := by
  rw [bind_eq_some_iff]
  refine exists_congr fun node => and_congr_right fun _ => ?_
  rw [AttemptState.sealedCandidate]
  by_cases hstatus : node.status = .succeeded
  · rw [if_pos hstatus]
    exact and_iff_right hstatus
  · rw [if_neg hstatus]
    exact iff_of_false (fun h => hstatus h.1) (by simp)

theorem not_sealedWith {state : AttemptState C} {id : String}
    (h : ((state.nodes.get? id).bind AttemptState.sealedCandidate).isNone = true) (c : C) :
    ¬ SealedWith state id c := by
  intro hsealed
  rw [sealedWith_iff.1 hsealed] at h
  cases h

end Pair

/-- The first run starts. -/
def pairStarted : AttemptState (Finset ℕ) :=
  (initialState pairPlan "graph" ∅ none).nodeStarted "a"

/-- It is completed, and the run behind it fails. -/
def pairStopped : AttemptState (Finset ℕ) :=
  (pairStarted.nodeCompleted "a" {1} ∅).nodeFailed "b" .failed none

theorem attempted_pairStopped : Attempted pairPlan OrderlyRecordable pairStopped ∅ := by
  have hstarted : Performs (OrderlyRecordable ∅) (initialState pairPlan "graph" ∅ none)
      pairStarted := by
    refine .single ⟨.transition (.started "a"), ⟨True.intro, ?_⟩,
      perform_transition (t := .started "a") (by decide +kernel)⟩
    exact not_sealedWith (by decide +kernel)
  have hcompleted : Performs (OrderlyRecordable ∅) (initialState pairPlan "graph" ∅ none)
      (pairStarted.nodeCompleted "a" {1} ∅) := by
    refine hstarted.tail ⟨.transition (.completed "a" {1} (some ∅)), ⟨.inl ?_, ?_, ?_⟩,
      perform_transition (t := .completed "a" {1} (some ∅)) (by decide +kernel)⟩
    · exact forall_mem_nil _
    · exact not_sealedWith (by decide +kernel)
    · exact forall_mem_nil _
  refine .fresh (hcompleted.tail ⟨.transition (.failed "b" ⟨.failed, rfl⟩ none), ⟨True.intro, ?_⟩,
    perform_transition (t := .failed "b" ⟨.failed, rfl⟩ none) (by decide +kernel)⟩)
  exact not_sealedWith (by decide +kernel)

theorem custody_complete_pair : ∃ b, Hop pairPlan OrderlyRecordable "a" (pairStopped, ∅) b ∧
    b.2.get? "a" = some {1} := by
  have hsealed : SealedWith pairStopped "a" {1} := sealedWith_iff.2 (by decide +kernel)
  have hopened : (openSuccessor pairPlan (pairStopped.finalize .failed) ∅ ["b"]
      "graph-attempt-1").isOk = true := by decide +kernel
  have hkept : "a" ∉ invalidated pairStopped.nodes ["b"] := by decide +kernel
  cases hsuccessor : openSuccessor pairPlan (pairStopped.finalize .failed) ∅ ["b"]
      "graph-attempt-1" with
  | error message =>
    rw [hsuccessor] at hopened
    cases hopened
  | ok successor =>
    have hhop : Hop pairPlan OrderlyRecordable "a" (pairStopped, ∅)
        (successor.audit, successor.reused) := by
      refine ⟨.failed, ["b"], "graph-attempt-1", successor, hsuccessor, fun hbehind => ?_, rfl,
        .refl⟩
      exact hkept ((mem_invalidated_iff (nodup_singleton "b") (by decide +kernel)).2 hbehind)
    exact ⟨_, hhop, ((custody_complete pairPlan).2.2 (pairStopped, ∅) _ "a" {1}
      attempted_pairStopped hsealed (.single hhop)).1⟩

/-- The allocation of the first run. -/
def pairReservation : Reservation (Finset ℕ) where
  allocations := [("a", "a1")]
  logicalAttempt := 1
  parentCandidateCommit := ∅
  expectedRevision := 1
  expectedStagingHead := ∅

/-- The first run is completed under its allocation. -/
def pairAllocated : Option (AttemptState (Finset ℕ)) :=
  Inputs.runInputs AuditOp.perform (initialState pairPlan "graph" ∅ none)
    [.reserve pairReservation, .transition (.started "a"), .transition (.completed "a" {1} none)]

/-- The barrier of the reservation keeps that of the completion out: the sealed node is not in
custody, and a successor that only has to launch the run behind it launches it again. -/
theorem allocated_completion_without_custody : ∃ state,
    Attempted pairPlan (fun _ _ _ => True) state ∅ ∧ SealedWith state "a" {1} ∧
    ¬ InCustody state ∅ ∧ ¬ BehindFrontier state.nodes ["b"] "a" ∧
    ∃ successor, openSuccessor pairPlan (state.finalize .failed) ∅ ["b"] "graph-attempt-1" =
      .ok successor ∧ successor.reused.get? "a" = none := by
  have hsome : pairAllocated.isSome = true := by decide +kernel
  obtain ⟨state, hstate⟩ := isSome_iff_exists.1 hsome
  have hsealed : (pairAllocated.bind fun state =>
      (state.nodes.get? "a").bind AttemptState.sealedCandidate) = some {1} := by decide +kernel
  have hcustody : (pairAllocated.map fun state =>
      custodyMatches state.integrationBarriers ∅ "a" {1}) = some false := by decide +kernel
  have hkept : (pairAllocated.map fun state =>
      decide ("a" ∉ invalidated state.nodes ["b"] ∧ "b" ∈ state.nodes.keys)) = some true := by
    decide +kernel
  have hopened : (pairAllocated.map fun state =>
      match openSuccessor pairPlan (state.finalize .failed) ∅ ["b"] "graph-attempt-1" with
      | .ok successor => decide (successor.reused.get? "a" = none)
      | .error _ => false) = some true := by decide +kernel
  rw [hstate, bind_some, ← sealedWith_iff] at hsealed
  rw [hstate, map_some, some_inj] at hcustody hkept hopened
  obtain ⟨hkept, hknown⟩ := of_decide_eq_true hkept
  have hrun : Performs (fun _ _ => True) (initialState pairPlan "graph" ∅ none) state :=
    (Inputs.runs_of_runInputs hstate).under
  refine ⟨state, .fresh hrun, hsealed, fun h => ?_, fun hbehind => ?_, ?_⟩
  · rw [h "a" {1} hsealed] at hcustody
    cases hcustody
  · exact hkept ((mem_invalidated_iff (nodup_singleton "b")
      (forall_mem_singleton.2 hknown)).2 hbehind)
  · cases hsuccessor : openSuccessor pairPlan (state.finalize .failed) ∅ ["b"]
        "graph-attempt-1" with
    | error message =>
      rw [hsuccessor] at hopened
      cases hopened
    | ok successor =>
      rw [hsuccessor] at hopened
      exact ⟨successor, rfl, of_decide_eq_true hopened⟩

end HarnessLabs.PlanGraph
