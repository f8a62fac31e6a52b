import HarnessLabs.Core.Contention
import HarnessLabs.PlanGraph.Allocation

/-!
# Contending controllers of an attempt

Any number of PlanGraph controllers on one attempt: they reserve and invalidate allocations through
the guarded checkpoint, and start, complete and fail nodes through plain transitions.

The journal's history of the reservations is complete: as long as the hash chain holds it is the
lineage of the checkpoint, and behind a broken link there are no reservations.

* `Journaled` — the events agree with the state behind them.
* `allocations_safe` — **the allocations are safe in every interleaving.**
-/

namespace HarnessLabs.PlanGraph

open Audit Inputs List

variable {C : Type}

/-! ## What the events say -/

/-- What an event of the attempt says about its allocations. -/
inductive Note (C : Type) where
  | other
  | transition (update : Update C)
  | reserved (batch : List (LineageRecord C))
  | invalidated (attemptId : String)

variable {H : Type}

def Note.batch : Note C → List (LineageRecord C)
  | .reserved batch => batch
  | _ => []

def Note.invalidatedId : Note C → List String
  | .invalidated id => [id]
  | _ => []

/-- The allocations that were reserved, in order. -/
def reservations (es : List (ChainEvent H (Note C))) : List (LineageRecord C) :=
  es.flatMap (·.payload.batch)

def invalidations (es : List (ChainEvent H (Note C))) : List String :=
  es.flatMap (·.payload.invalidatedId)

/-- The allocations that were reserved and not invalidated. -/
def outstanding (es : List (ChainEvent H (Note C))) : List (LineageRecord C) :=
  (reservations es).filter (·.attemptId ∉ invalidations es)

/-- A batch behind some events: it has the number behind the greatest so far, and each of its records
names the allocation that the node had before, which was invalidated. -/
structure Follows (before : List (ChainEvent H (Note C))) (batch : List (LineageRecord C)) : Prop where
  number : ∃ n, (∀ r ∈ batch, r.logicalAttempt = n) ∧
    ∀ greatest, ((reservations before).map (·.logicalAttempt)).max? = some greatest →
      n = greatest + 1
  predecessor : ∀ r ∈ batch, r.predecessorAttemptId =
    (((reservations before).filter (·.nodeId = r.nodeId)).getLast?).map (·.attemptId)
  replaced : ∀ r ∈ batch, ∀ p ∈ reservations before, p.nodeId = r.nodeId →
    p.attemptId ∈ invalidations before

/-- Every batch follows the events before it. -/
def Successive (es : List (ChainEvent H (Note C))) : Prop :=
  ∀ before e behind batch, es = before ++ e :: behind → e.payload = .reserved batch →
    Follows before batch

/-- The events agree with the state behind them. -/
structure Journaled (es : List (ChainEvent H (Note C))) (state : AttemptState C) : Prop where
  sound : Sound state
  lineage : reservations es = state.attemptLineage
  invalidated : invalidations es = state.invalidatedAttemptIds
  successive : Successive es

theorem reservations_append (es fs : List (ChainEvent H (Note C))) :
    reservations (es ++ fs) = reservations es ++ reservations fs := flatMap_append

theorem invalidations_append (es fs : List (ChainEvent H (Note C))) :
    invalidations (es ++ fs) = invalidations es ++ invalidations fs := flatMap_append

theorem reservations_singleton (e : ChainEvent H (Note C)) :
    reservations [e] = e.payload.batch := flatMap_singleton _ _

theorem invalidations_singleton (e : ChainEvent H (Note C)) :
    invalidations [e] = e.payload.invalidatedId := flatMap_singleton _ _

variable {es : List (ChainEvent H (Note C))} {e : ChainEvent H (Note C)}
  {state next : AttemptState C}

theorem Successive.snoc (h : Successive es)
    (he : ∀ batch, e.payload = .reserved batch → Follows es batch) :
    Successive (es ++ [e]) := by
  intro before f behind batch heq hbatch
  rcases eq_nil_or_concat behind with rfl | ⟨rest, last, rfl⟩
  · obtain ⟨rfl, hlast⟩ := append_inj' heq rfl
    obtain rfl := singleton_inj.1 hlast
    exact he batch hbatch
  · rw [concat_eq_append, ← cons_append, ← append_assoc] at heq
    obtain ⟨rfl, -⟩ := append_inj' heq rfl
    exact h before f rest batch rfl hbatch

/-! ## The operations -/

inductive AllocationOp (C : Type) where
  | reserve (r : Reservation C)
  | invalidate (allocationId reason : String) (expectedRevision : ℕ)

def AllocationOp.expectedRevision : AllocationOp C → ℕ
  | .reserve r => r.expectedRevision
  | .invalidate _ _ revision => revision

variable [DecidableEq C]

def AllocationOp.check : AllocationOp C → Except String Unit
  | .reserve r => r.check
  | .invalidate allocationId reason _ => do
    require (allocationId ≠ "") "allocation_id must be non-empty"
    require (reason ≠ "") "invalidation reason must be non-empty"

/-- The state and the event that an operation composes, from the state that it read. -/
def AllocationOp.compose : AllocationOp C → AttemptState C → Except String (AttemptState C × Note C)
  | .reserve r, state => (state.reserveBatch r).map fun next =>
      (next, .reserved (next.attemptLineage.filter (·.allocationId ∈ r.allocationIds)))
  | .invalidate allocationId reason _, state =>
      (state.invalidateAttempt allocationId reason).map fun next =>
        (next, .invalidated (attemptIdOf state.graphRunId (some allocationId)))

/-- `PlanGraphAudit` as a client of its journal. -/
def auditClient (C : Type) [DecidableEq C] :
    Client (AttemptState C) (Transition C) (Update C) (AllocationOp C) (Note C) where
  prepare := fun t state => state.prepare t
  load := fun update state => (state.applyUpdate update).map fun next => (next, .transition update)
  check := AllocationOp.check
  expectedRevision := AllocationOp.expectedRevision
  compose := AllocationOp.compose

/-- Transitions say nothing about allocations. -/
theorem Journaled.transition (h : Journaled es state) {update : Update C}
    (hload : (auditClient C).load update state = .ok (next, e.payload)) :
    Journaled (es ++ [e]) next := by
  obtain ⟨result, happly, hresult⟩ := map_eq_ok.1 hload
  obtain ⟨rfl, hpayload⟩ := Prod.mk.inj hresult
  obtain ⟨hsame, -⟩ := applyUpdate_ok happly
  have hbatch : e.payload.batch = [] := by
    rw [← hpayload]
    rfl
  have hinvalidated : e.payload.invalidatedId = [] := by
    rw [← hpayload]
    rfl
  constructor
  · exact h.sound.applyUpdate happly
  · rw [reservations_append, reservations_singleton, hbatch, append_nil, h.lineage,
      hsame.lineage]
  · rw [invalidations_append, invalidations_singleton, hinvalidated, append_nil,
      h.invalidated, AttemptState.invalidatedAttemptIds, AttemptState.invalidatedAttemptIds,
      hsame.invalidations]
  · refine h.successive.snoc fun batch hreserved => ?_
    rw [← hpayload] at hreserved
    cases hreserved

/-- The records that a reservation adds are those of its allocation ids. -/
theorem filter_lineage {r : Reservation C} (hsound : Sound state) (haccepted : Accepted state r)
    (hgrants : Grants state r r.allocations next) :
    next.attemptLineage.filter (·.allocationId ∈ r.allocationIds) =
      r.allocations.map (state.lineageRecord r) := by
  have hold : state.attemptLineage.filter (·.allocationId ∈ r.allocationIds) = [] := by
    rw [filter_eq_nil_iff]
    intro record hrecord hmem
    have hid : record.allocationId ∈ state.successorAttempts.map (·.allocationId) := by
      rw [hsound.allocations]
      exact mem_map_of_mem hrecord
    obtain ⟨attempt, hattempt, hsame⟩ := mem_map.1 hid
    exact haccepted.fresh attempt hattempt (hsame ▸ of_decide_eq_true hmem)
  rw [hgrants.lineage, filter_append, hold, nil_append, filter_eq_self]
  intro record hrecord
  obtain ⟨a, ha, rfl⟩ := mem_map.1 hrecord
  exact decide_eq_true (mem_map_of_mem ha)

/-- A batch that is accepted follows the events. -/
theorem Journaled.follows (h : Journaled es state) {r : Reservation C}
    (haccepted : Accepted state r) :
    Follows es (r.allocations.map (state.lineageRecord r)) := by
  have hreplaced : ∀ a ∈ r.allocations, ∀ p ∈ state.attemptLineage, p.nodeId = a.1 →
      p.attemptId ∈ state.invalidatedAttemptIds := by
    intro a ha p hp hnode
    by_contra hlive
    refine haccepted.idle p (mem_filter.2 ⟨hp, decide_eq_true hlive⟩) ?_
    rw [hnode]
    exact mem_map_of_mem ha
  constructor
  · refine ⟨r.logicalAttempt, ?_, fun greatest hgreatest => ?_⟩
    · intro record hrecord
      obtain ⟨a, -, rfl⟩ := mem_map.1 hrecord
      rfl
    · have hbatch := haccepted.batch
      rw [h.lineage, ← h.sound.batches] at hgreatest
      rw [AttemptState.nextBatch, hgreatest] at hbatch
      exact of_decide_eq_true hbatch
  · intro record hrecord
    obtain ⟨a, ha, rfl⟩ := mem_map.1 hrecord
    show state.predecessorAttemptId a.1 = _
    rw [AttemptState.predecessorAttemptId, h.lineage]
    refine congrArg (fun l => Option.map _ (List.getLast? l)) (filter_congr fun p hp => ?_)
    rw [decide_eq_decide]
    exact ⟨And.left, fun hnode => ⟨hnode, hreplaced a ha p hp hnode⟩⟩
  · intro record hrecord
    obtain ⟨a, ha, rfl⟩ := mem_map.1 hrecord
    rw [h.lineage, h.invalidated]
    exact hreplaced a ha

/-- Guarded operations record what they do. -/
theorem Journaled.guarded (h : Journaled es state) {op : AllocationOp C}
    (hcompose : (auditClient C).compose op state = .ok (next, e.payload)) :
    Journaled (es ++ [e]) next := by
  cases op with
  | reserve r =>
    obtain ⟨result, hreserve, hresult⟩ := map_eq_ok.1 hcompose
    obtain ⟨rfl, hpayload⟩ := Prod.mk.inj hresult
    obtain ⟨haccepted, hgrants⟩ := reserveBatch_grants h.sound hreserve
    rw [filter_lineage h.sound haccepted hgrants] at hpayload
    have hbatch : e.payload.batch = r.allocations.map (state.lineageRecord r) := by
      rw [← hpayload]
      rfl
    have hinvalidated : e.payload.invalidatedId = [] := by
      rw [← hpayload]
      rfl
    constructor
    · exact hgrants.sound
    · rw [reservations_append, reservations_singleton, hbatch, h.lineage, hgrants.lineage]
    · rw [invalidations_append, invalidations_singleton, hinvalidated, append_nil,
        h.invalidated, AttemptState.invalidatedAttemptIds, AttemptState.invalidatedAttemptIds,
        hgrants.invalidations]
    · refine h.successive.snoc fun batch hreserved => ?_
      rw [← hpayload] at hreserved
      rw [← Note.reserved.inj hreserved]
      exact h.follows haccepted
  | invalidate allocationId reason revision =>
    obtain ⟨result, hinvalidate, hresult⟩ := map_eq_ok.1 hcompose
    obtain ⟨rfl, hpayload⟩ := Prod.mk.inj hresult
    have hgives := invalidateAttempt_givesUp h.sound hinvalidate
    obtain ⟨record, hlive, hallocation, hids, -⟩ := hgives.record
    have hbatch : e.payload.batch = [] := by
      rw [← hpayload]
      rfl
    have hinvalidated : e.payload.invalidatedId = [record.attemptId] := by
      obtain ⟨-, hattempt⟩ := h.sound.named record (mem_of_mem_filter hlive)
      rw [← hpayload, hattempt, hallocation]
      rfl
    constructor
    · exact hgives.sound
    · rw [reservations_append, reservations_singleton, hbatch, append_nil, h.lineage,
        hgives.lineage]
    · rw [invalidations_append, invalidations_singleton, hinvalidated, h.invalidated, hids]
    · refine h.successive.snoc fun batch hreserved => ?_
      rw [← hpayload] at hreserved
      cases hreserved

/-- **The events of operations that are one step agree with the state.** -/
theorem Journaled.history {es₀ : List (ChainEvent H (Note C))} {σ₀ : AttemptState C}
    (hstart : Journaled es₀ σ₀) (h : History (auditClient C) es₀ σ₀ es state) :
    Journaled es state := by
  induction h with
  | start => exact hstart
  | transition h hload ih => exact ih.transition hload
  | guarded h hcompose ih => exact ih.guarded hcompose

/-- Transitions behind some events say nothing about allocations. -/
theorem transitions_silent {rest : List (ChainEvent H (Note C))} (hes : Successive es)
    (hrest : ∀ e ∈ rest, ∃ update before next,
      (auditClient C).load update before = .ok (next, e.payload)) :
    reservations (es ++ rest) = reservations es ∧ invalidations (es ++ rest) = invalidations es ∧
      Successive (es ++ rest) := by
  induction rest using List.reverseRecOn with
  | nil =>
    rw [append_nil]
    exact ⟨rfl, rfl, hes⟩
  | append_singleton rest e ih =>
    obtain ⟨hrest, he⟩ := forall_mem_append.1 hrest
    obtain ⟨hreservations, hinvalidations, hsuccessive⟩ := ih hrest
    obtain ⟨update, before, next, hload⟩ := he e (mem_singleton_self e)
    obtain ⟨result, -, hresult⟩ := map_eq_ok.1 hload
    obtain ⟨-, hpayload⟩ := Prod.mk.inj hresult
    rw [← append_assoc]
    refine ⟨?_, ?_, hsuccessive.snoc fun batch hreserved => ?_⟩
    · rw [reservations_append, hreservations, reservations_singleton, ← hpayload]
      exact append_nil _
    · rw [invalidations_append, hinvalidations, invalidations_singleton, ← hpayload]
      exact append_nil _
    · rw [← hpayload] at hreserved
      cases hreserved

/-! ## Every interleaving -/

section Interleaving

variable {K : Type} [DecidableEq K] [DecidableEq H]

/-- The system of the contenders `K`. -/
abbrev Contenders (K C H : Type) :=
  System K (AttemptState C) (Update C) (AllocationOp C) (Note C) H

/-- An attempt that the contenders have opened before its first allocation. -/
structure FreshAttempt (s : Contenders K C H) : Prop where
  opened : Opened s
  state : Unallocated s.disk.state
  events : ∀ e ∈ s.disk.events, e.payload = .other

/-- What holds of the allocations wherever the contenders stand. -/
structure AllocationsSafe (s : Contenders K C H) : Prop where
  oneLive : (s.disk.state.liveRecords.map (·.nodeId)).Nodup
  oneOutstanding : ((outstanding s.disk.events).map (·.nodeId)).Nodup
  fresh : ((reservations s.disk.events).map (·.allocationId)).Nodup
  successive : Successive s.disk.events
  reserved : ∀ id node, s.disk.state.nodes.get? id = some node → node.status = .reserved →
    id ∈ s.disk.state.activeNodeIds
  active : ∀ id ∈ s.disk.state.activeNodeIds, ∃ r ∈ s.disk.state.liveRecords, r.nodeId = id
  staleHead : ∀ k op s', s.disk.revision ≠ op.expectedRevision →
    s.step (auditClient C) (.head k op) = some s' → s' = s
  staleSwap : ∀ k hash expectedRevision head next payload s',
    s.phases k = .composed expectedRevision head next payload →
    s.disk.revision ≠ expectedRevision ∨ s.disk.headHash ≠ head →
    s.step (auditClient C) (.swap k hash) = some s' → s' = s.moveTo k .idle

omit [DecidableEq C] [DecidableEq K] in
theorem FreshAttempt.journaled {s : Contenders K C H} (h : FreshAttempt s) :
    Journaled s.disk.events s.disk.state := by
  have hreservations : reservations s.disk.events = [] := by
    refine flatMap_eq_nil_iff.2 fun e he => ?_
    rw [h.events e he]
    rfl
  have hinvalidations : invalidations s.disk.events = [] := by
    refine flatMap_eq_nil_iff.2 fun e he => ?_
    rw [h.events e he]
    rfl
  refine ⟨h.state.sound, ?_, ?_, fun before e behind batch heq hbatch => ?_⟩
  · rw [hreservations, h.state.lineage]
  · rw [hinvalidations, AttemptState.invalidatedAttemptIds, h.state.retryState]
    rfl
  · have hmem : e ∈ s.disk.events := by
      rw [heq]
      exact mem_append_right _ mem_cons_self
    rw [h.events e hmem] at hbatch
    cases hbatch

/-- **Allocations are safe under contention.** Whatever contenders do and in whatever order their
reads and writes come: a node has one live allocation at most in every checkpoint and in the journal,
no allocation id is reserved twice, every batch has the number behind the greatest so far and names
the allocations that it replaces, a reserved node is active, an active node has a live allocation,
and an operation that expects another revision or head writes nothing. -/
theorem allocations_safe {s s' : Contenders K C H} (hfresh : FreshAttempt s)
    (hrun : Runs (System.step (auditClient C)) s s') : AllocationsSafe s' := by
  have hsound : Sound s'.disk.state := by
    refine (run_invariant (fun update state next payload hload hsound => ?_)
      (fun op state next payload hcompose hsound => ?_) hfresh.opened hfresh.state.sound hrun).disk
    · obtain ⟨result, happly, hresult⟩ := map_eq_ok.1 hload
      rw [← (Prod.mk.inj hresult).1]
      exact hsound.applyUpdate happly
    · cases op with
      | reserve r =>
        obtain ⟨result, hreserve, hresult⟩ := map_eq_ok.1 hcompose
        rw [← (Prod.mk.inj hresult).1]
        exact (reserveBatch_grants hsound hreserve).2.sound
      | invalidate allocationId reason revision =>
        obtain ⟨result, hinvalidate, hresult⟩ := map_eq_ok.1 hcompose
        rw [← (Prod.mk.inj hresult).1]
        exact (invalidateAttempt_givesUp hsound hinvalidate).sound
  obtain ⟨es, rest, state, hevents, hhistory, hrest⟩ := (run_history hfresh.opened hrun).events
  have hjournaled := hfresh.journaled.history hhistory
  obtain ⟨hreservations, hinvalidations, hsuccessive⟩ :=
    transitions_silent hjournaled.successive hrest
  rw [← hevents] at hreservations hinvalidations hsuccessive
  refine ⟨hsound.oneLive, ?_, ?_, hsuccessive, hsound.reserved, hsound.active, ?_, ?_⟩
  · rw [outstanding, hreservations, hinvalidations, hjournaled.lineage, hjournaled.invalidated]
    exact hjournaled.sound.oneLive
  · rw [hreservations, hjournaled.lineage]
    exact hjournaled.sound.fresh
  · exact fun k op s'' hstale hstep => head_stale hstale hstep
  · exact fun k hash revision head next payload s'' hphase hstale hstep =>
      swap_stale hphase hstale hstep

end Interleaving

/-! ## Two contenders -/

/-- An attempt of the pair of runs that two contenders have opened. -/
def pairOpened : Contenders Bool (Finset ℕ) ℕ where
  disk :=
    { events := [⟨0, none, 0, .other⟩]
      revision := 1
      sequence := 1
      headHash := some 0
      state := initialState pairPlan "graph" ∅ none }
  beliefs := fun _ => ⟨1, some 0, 1⟩
  phases := fun _ => .idle

theorem freshAttempt_pairOpened : FreshAttempt pairOpened :=
  ⟨⟨by decide, by decide, fun _ => rfl, fun _ => rfl⟩, unallocated_initialState _ _ _ _,
    forall_mem_singleton.2 rfl⟩

/-- A contender reserves one node. -/
def reserves (k : Bool) (node allocation : String) (number revision hash : ℕ) :
    List (Action Bool (Transition (Finset ℕ)) (AllocationOp (Finset ℕ)) ℕ) :=
  [.head k (.reserve ⟨[(node, allocation)], number, ∅, revision, ∅⟩), .compose k, .swap k hash]

theorem allocations_safe_pair : ∃ s', Runs (System.step (auditClient (Finset ℕ))) pairOpened s' ∧
    AllocationsSafe s' ∧ s'.disk.state.activeNodeIds = ["a", "b"] := by
  have hend : (runInputs (System.step (auditClient (Finset ℕ))) pairOpened
      (reserves true "a" "a1" 1 1 1 ++ reserves false "b" "b1" 2 2 2)).map
        (·.disk.state.activeNodeIds) = some ["a", "b"] := by decide +kernel
  obtain ⟨s', hs', hactive⟩ := Option.map_eq_some_iff.1 hend
  have hrun := runs_of_runInputs hs'
  exact ⟨s', hrun, allocations_safe freshAttempt_pairOpened hrun, hactive⟩

/-- The allocation that replaces the first one of a node has the number of its own batch, and the
completion of a node leaves it active. -/
theorem replacement_skips_number : ∃ s', Runs (System.step (auditClient (Finset ℕ))) pairOpened s' ∧
    (∃ p ∈ reservations s'.disk.events, ∃ r ∈ reservations s'.disk.events, p.nodeId = r.nodeId ∧
      r.predecessorAttemptId = some p.attemptId ∧ r.logicalAttempt ≠ p.logicalAttempt + 1) ∧
    ∃ id ∈ s'.disk.state.activeNodeIds,
      (s'.disk.state.nodes.get? id).map (·.status) = some .succeeded := by
  have hend : (runInputs (System.step (auditClient (Finset ℕ))) pairOpened
      (reserves true "a" "a1" 1 1 1 ++ reserves false "b" "b1" 2 2 2 ++
        [.head true (.invalidate "a1" "stopped" 3), .compose true, .swap true 3] ++
        reserves true "a" "a2" 3 4 4 ++
        [.prepare true (.completed "b" {1} none), .load true, .append true 5, .checkpoint true])).map
        (fun s' : Contenders Bool (Finset ℕ) ℕ => decide ((∃ p ∈ reservations s'.disk.events, ∃ r ∈ reservations s'.disk.events,
            p.nodeId = r.nodeId ∧ r.predecessorAttemptId = some p.attemptId ∧
              r.logicalAttempt ≠ p.logicalAttempt + 1) ∧
          ∃ id ∈ s'.disk.state.activeNodeIds,
            (s'.disk.state.nodes.get? id).map (·.status) = some .succeeded)) = some true := by
    decide +kernel
  obtain ⟨s', hs', hbad⟩ := Option.map_eq_some_iff.1 hend
  exact ⟨s', runs_of_runInputs hs', of_decide_eq_true hbad⟩

end HarnessLabs.PlanGraph
