import HarnessLabs.PlanGraph.Progress

/-!
# Running a finished attempt again

A run returns its result from what it has in memory; a run on the finished attempt reads one back
from the checkpoint. The checkpoint keeps the candidate that was sealed last, and its nodes are in
the order of their ids.

* `Closing` — what a run is ended with.
* `RunState.Mirrored` — the nodes of the audit and the candidates in memory agree.
* `rerun_agrees_iff` — **the result that is read back is the one returned exactly when the sealed
  candidate is the final one, or the reported node is the first one that stopped.**
-/

namespace HarnessLabs.PlanGraph

open List Option

universe u

variable {C : Type u}

/-! ## Running again -/

/-- What `run` does first: a finished attempt is read back, and nothing is launched. -/
inductive Begun (C : Type u) where
  | readBack (result : PlanGraphResult C)
  | started (state : RunState C)

def beginRun (plan : PlanGraphPlan C) (audit : AttemptState C) (records : List DeviationRecord)
    (rejected : List String) : Except String (Begun C) :=
  match audit.terminalGraphStatus with
  | some status => (resultFromAudit audit status records).map .readBack
  | none => (startRun plan audit rejected).map .started

/-- The results agree on the status, the candidate, the completed nodes and the failed one. -/
structure PlanGraphResult.Same (r again : PlanGraphResult C) : Prop where
  status : again.status = r.status
  candidate : again.candidateCommit = r.candidateCommit
  completed : ∀ id, again.completed.get? id = r.completed.get? id
  failed : again.failedRunId = r.failedRunId

/-- Another run on the attempt reads the result back. -/
def ReadsBack (plan : PlanGraphPlan C) (audit : AttemptState C) (records : List DeviationRecord)
    (rejected : List String) (r : PlanGraphResult C) : Prop :=
  ∃ again, beginRun plan audit records rejected = .ok (.readBack again) ∧ r.Same again

/-! ## Closing -/

/-- What a run is ended with: a blocked node, a failed node, or the final candidate. -/
inductive Closing (C : Type u) where
  | blocked (result : PlanGraphResult C)
  | failed (result : PlanGraphResult C)
  | finished (candidate : C)

def RunState.close (tests : List String) (finishing : Finishing) (s : RunState C) :
    Closing C → Ended C
  | .blocked result => transitionToBlocked s result finishing.deviationRecords
  | .failed result => s.finalize .failed result
  | .finished candidate => finalizeWithFunctionality tests finishing s candidate

namespace AttemptState

variable {state : AttemptState C} {id : String}

theorem mem_stoppedNodes : id ∈ state.stoppedNodes ↔
    ∃ node, state.nodes.get? id = some node ∧ node.status.stopped = true := by
  rw [stoppedNodes, (List.mergeSort_perm _ _).mem_iff, List.mem_map]
  constructor
  · rintro ⟨⟨other, node⟩, hmem, rfl⟩
    obtain ⟨hitem, hstopped⟩ := mem_filter.1 hmem
    exact ⟨node, Dict.get?_eq_some_iff.2 hitem, hstopped⟩
  · rintro ⟨node, hnode, hstopped⟩
    exact ⟨(id, node), mem_filter.2 ⟨Dict.get?_eq_some_iff.1 hnode, hstopped⟩, rfl⟩

/-- The node that is read back as the failed one is the first in the order of the ids. -/
theorem head?_stoppedNodes : state.stoppedNodes.head? = some id ↔
    id ∈ state.stoppedNodes ∧ ∀ other ∈ state.stoppedNodes, id ≤ other := by
  have hsorted : state.stoppedNodes.Pairwise (· ≤ ·) := by
    have htrans : ∀ a b c : String, decide (a ≤ b) = true → decide (b ≤ c) = true →
        decide (a ≤ c) = true := by
      intro a b c hab hbc
      exact decide_eq_true (String.le_trans (of_decide_eq_true hab) (of_decide_eq_true hbc))
    have htotal : ∀ a b : String, (decide (a ≤ b) || decide (b ≤ a)) = true := by
      intro a b
      simpa using String.le_total a b
    exact (pairwise_mergeSort htrans htotal _).imp of_decide_eq_true
  cases hlist : state.stoppedNodes with
  | nil => simp
  | cons first rest =>
    rw [hlist, pairwise_cons] at hsorted
    constructor
    · intro heq
      obtain rfl := Option.some.inj heq
      exact ⟨mem_cons_self, forall_mem_cons.2 ⟨String.le_refl _, hsorted.1⟩⟩
    · rintro ⟨hmem, hleast⟩
      refine congrArg some (String.le_antisymm ?_ (hleast first mem_cons_self))
      rcases mem_cons.1 hmem with rfl | hmem
      · exact String.le_refl _
      · exact hsorted.1 id hmem

end AttemptState

/-- What the run is ended with fits the state. -/
def Closing.Fits (s : RunState C) : Closing C → Prop
  | .blocked result => result.status = .blocked ∧ result.completed = s.completed ∧
      ∃ id ∈ s.audit.stoppedNodes, result.failedRunId = some id
  | .failed result => result.status = .failed ∧ result.candidateCommit = none
  | .finished _ => s.audit.stoppedNodes = []

/-- When the end can be read back. -/
def Closing.Rereads (s : RunState C) : Closing C → Prop
  | .blocked result => ∃ id, result.failedRunId = some id ∧
      (∀ other ∈ s.audit.stoppedNodes, id ≤ other) ∧
      s.audit.pendingCandidateCommit id = result.candidateCommit
  | .failed _ => False
  | .finished candidate => candidate = s.audit.currentCandidateCommit

/-- The candidates in memory are those of the sealed nodes of the audit. -/
structure RunState.Mirrored (plan : PlanGraphPlan C) (s : RunState C) : Prop where
  nodes : ∀ id, id ∈ s.audit.nodes.keys ↔ id ∈ runIds plan.runs
  sealed : ∀ id, (s.audit.nodes.get? id).bind AttemptState.sealedCandidate = s.completed.get? id

/-! ## Reading back -/

section Reading

variable {plan : PlanGraphPlan C} {s : RunState C}

theorem runFunctionalityTests_audit (errors : ℕ → Option String) (tests : List String) (n : ℕ)
    (audit : AttemptState C) :
    (runFunctionalityTests errors n audit tests).1.nodes = audit.nodes ∧
      (runFunctionalityTests errors n audit tests).1.currentCandidateCommit =
        audit.currentCandidateCommit := by
  induction tests generalizing n audit with
  | nil => exact ⟨rfl, rfl⟩
  | cons test tests ih =>
    rw [runFunctionalityTests]
    cases errors n with
    | some error => exact ⟨rfl, rfl⟩
    | none => exact ih (n + 1) (audit.functionalityCompleted test)

theorem RunState.Mirrored.completed (h : s.Mirrored plan) (id : String) :
    (s.audit.nodes.filterMap fun _ node => AttemptState.sealedCandidate node).get? id =
      s.completed.get? id := by
  rw [Dict.get?_filterMap]
  exact h.sealed id

/-- An attempt whose nodes did not stop and whose tests ran. -/
theorem readsBack_finished (h : s.Mirrored plan) {audit : AttemptState C}
    (hnodes : audit.nodes = s.audit.nodes)
    (hcurrent : audit.currentCandidateCommit = s.audit.currentCandidateCommit)
    (hstopped : s.audit.stoppedNodes = []) {status : GraphStatus} (hstatus : status ≠ .blocked)
    {r : PlanGraphResult C} {candidate : C} (hr : r.status = status ∧
      r.candidateCommit = some candidate ∧ r.completed = s.completed ∧ r.failedRunId = none)
    (records : List DeviationRecord) (rejected : List String) :
    ReadsBack plan (audit.finalize status) records rejected r ↔
      candidate = s.audit.currentCandidateCommit ∧
        ¬ (status.success = true ∧ status ≠ completionStatus records) := by
  obtain ⟨hsame, hcandidate, hcompleted, hfailed⟩ := hr
  have hnone : (audit.finalize status).stoppedNodes.head? = none := by
    rw [AttemptState.stoppedNodes, show (audit.finalize status).nodes = s.audit.nodes from hnodes]
    rw [AttemptState.stoppedNodes] at hstopped
    rw [hstopped]
    rfl
  have hread : beginRun plan (audit.finalize status) records rejected =
      (PlanGraphResult.check
        { status := status, candidateCommit := some s.audit.currentCandidateCommit
          completed := s.audit.nodes.filterMap fun _ node => AttemptState.sealedCandidate node
          failedRunId := none, functionalityFailure := audit.functionalityTest.error?
          deviationRecords := records }).map .readBack := by
    rw [beginRun]
    unfold resultFromAudit
    rw [hnone]
    cases status with
    | blocked => exact absurd rfl hstatus
    | _ => rw [← hcurrent, ← hnodes]; rfl
  rw [ReadsBack, hread, PlanGraphResult.check]
  by_cases hcheck : status.success = true ∧ status ≠ completionStatus records
  · rw [if_pos hcheck]
    exact iff_of_false (fun ⟨_, heq, _⟩ => by cases heq) fun hall => hall.2 hcheck
  · rw [if_neg hcheck]
    refine Iff.trans ?_ (and_iff_left hcheck).symm
    constructor
    · rintro ⟨again, heq, hagain⟩
      obtain rfl := Begun.readBack.inj (Except.ok.inj heq)
      have hcand := hagain.candidate
      rw [hcandidate] at hcand
      exact (Option.some.inj hcand).symm
    · rintro rfl
      exact ⟨_, rfl, hsame.symm, hcandidate.symm, fun id => by rw [hcompleted]; exact h.completed id,
        hfailed.symm⟩

theorem readsBack_blocked (h : s.Mirrored plan) {result : PlanGraphResult C}
    (hfits : (Closing.blocked result).Fits s) (records' records : List DeviationRecord)
    (rejected : List String) :
    ReadsBack plan (s.audit.finalize .blocked) records rejected
        (result.withDeviationRecords records') ↔ (Closing.blocked result).Rereads s := by
  obtain ⟨hstatus, hcompleted, id, hid, hfailed⟩ := hfits
  have hfields : (result.withDeviationRecords records').status = .blocked ∧
      (result.withDeviationRecords records').candidateCommit = result.candidateCommit ∧
      (result.withDeviationRecords records').completed = s.completed ∧
      (result.withDeviationRecords records').failedRunId = some id := by
    rw [PlanGraphResult.withDeviationRecords]
    split_ifs <;> exact ⟨hstatus, rfl, hcompleted, hfailed⟩
  obtain ⟨hstatus', hcandidate', hcompleted', hfailed'⟩ := hfields
  obtain ⟨first, hfirst⟩ : ∃ first, s.audit.stoppedNodes.head? = some first := by
    cases hlist : s.audit.stoppedNodes with
    | nil =>
      rw [hlist] at hid
      cases hid
    | cons first rest => exact ⟨first, rfl⟩
  have hread : beginRun plan (s.audit.finalize .blocked) records rejected =
      .ok (.readBack
        { status := .blocked, candidateCommit := s.audit.pendingCandidateCommit first
          completed := s.audit.nodes.filterMap fun _ node => AttemptState.sealedCandidate node
          failedRunId := some first, functionalityFailure := s.audit.functionalityTest.error?
          deviationRecords := records }) := by
    rw [beginRun]
    unfold resultFromAudit
    rw [show (s.audit.finalize .blocked).stoppedNodes.head? = some first from hfirst]
    rfl
  rw [ReadsBack, hread]
  constructor
  · rintro ⟨again, heq, hagain⟩
    obtain rfl := Begun.readBack.inj (Except.ok.inj heq)
    have hsame := hagain.failed
    rw [hfailed'] at hsame
    obtain rfl := Option.some.inj hsame
    refine ⟨first, hfailed, (AttemptState.head?_stoppedNodes.1 hfirst).2, ?_⟩
    rw [← hcandidate', ← hagain.candidate]
  · rintro ⟨other, hother, hleast, hpending⟩
    cases hfailed.symm.trans hother
    obtain rfl := Option.some.inj
      (hfirst.symm.trans (AttemptState.head?_stoppedNodes.2 ⟨hid, hleast⟩))
    exact ⟨_, rfl, hstatus'.symm, hpending.trans hcandidate'.symm,
      fun id => by rw [hcompleted']; exact h.completed id, hfailed'.symm⟩

theorem not_readsBack_failed {result : PlanGraphResult C}
    (hfits : (Closing.failed result).Fits s) (records : List DeviationRecord)
    (rejected : List String) :
    ¬ ReadsBack plan (s.audit.finalize .failed) records rejected result := by
  rintro ⟨again, heq, hagain⟩
  obtain rfl := Begun.readBack.inj (Except.ok.inj heq)
  have hcandidate := hagain.candidate
  rw [hfits.2] at hcandidate
  cases hcandidate

/-- **The end of a run and its reading.** -/
theorem readsBack_close_iff (h : s.Mirrored plan) {closing : Closing C} (hfits : closing.Fits s)
    (tests : List String) (finishing : Finishing) {r : PlanGraphResult C}
    (hr : (s.close tests finishing closing).ending = .returned r) (records : List DeviationRecord)
    (rejected : List String) :
    ReadsBack plan (s.close tests finishing closing).state.audit records rejected r ↔
      closing.Rereads s ∧ (r.status.success = true → records = []) := by
  cases closing with
  | blocked result =>
    obtain rfl := Ending.returned.inj hr
    refine (readsBack_blocked h hfits _ records rejected).trans (and_iff_left ?_).symm
    have hstatus : (result.withDeviationRecords finishing.deviationRecords).status = .blocked := by
      rw [PlanGraphResult.withDeviationRecords]
      split_ifs <;> exact hfits.1
    rw [hstatus]
    rintro ⟨⟩
  | failed result =>
    obtain rfl := Ending.returned.inj hr
    exact iff_of_false (not_readsBack_failed hfits records rejected) fun hall => hall.1
  | finished candidate =>
    obtain ⟨hnodes, hcurrent⟩ :=
      runFunctionalityTests_audit finishing.testErrors tests 0 s.audit
    simp only [RunState.close, finalizeWithFunctionality] at hr ⊢
    generalize runFunctionalityTests finishing.testErrors 0 s.audit tests = ran at *
    obtain ⟨audit, failure⟩ := ran
    cases failure with
    | some failure =>
      have hfields : r.status = .failed ∧ r.candidateCommit = some candidate ∧
          r.completed = s.completed ∧ r.failedRunId = none := by
        rw [← Ending.returned.inj hr]
        exact ⟨rfl, rfl, rfl, rfl⟩
      refine (readsBack_finished h hnodes hcurrent hfits (by decide) hfields records
        rejected).trans (and_congr_right fun _ => iff_of_true ?_ ?_)
      · exact fun hall => by cases hall.1
      · rw [hfields.1]
        rintro ⟨⟩
    | none =>
      by_cases hstatus : completionStatus finishing.deviationRecords = .succeeded
      · rw [if_pos hstatus] at hr ⊢
        rw [hstatus] at hr ⊢
        have hfields : r.status = .succeeded ∧ r.candidateCommit = some candidate ∧
            r.completed = s.completed ∧ r.failedRunId = none := by
          rw [← Ending.returned.inj hr]
          exact ⟨rfl, rfl, rfl, rfl⟩
        refine (readsBack_finished h hnodes hcurrent hfits (by decide) hfields records
          rejected).trans (and_congr_right fun _ => ?_)
        rw [hfields.1, ← completionStatus_eq_succeeded]
        constructor
        · intro hcheck _
          by_contra hne
          exact hcheck ⟨rfl, Ne.symm hne⟩
        · rintro hsame ⟨hsuccess, hne⟩
          exact hne (hsame hsuccess).symm
      · rw [if_neg hstatus] at hr
        cases hr

end Reading

/-! ## Nodes -/

namespace AttemptState

variable {state : AttemptState C}

theorem get?_transition (state : AttemptState C) (id other : String) (updates : Node C → Node C)
    (running : Bool) : (state.transition id updates running).nodes.get? other =
      if other = id then (state.nodes.get? id).map updates else state.nodes.get? other := by
  rw [transition]
  cases hnode : state.nodes.get? id with
  | none =>
    by_cases h : other = id
    · rw [if_pos h, h, map_none]
      exact hnode
    · rw [if_neg h]
  | some node => rw [Dict.get?_set, map_some]

theorem mem_stoppedNodes_congr {before after : AttemptState C} {id : String}
    (h : after.nodes.get? id = before.nodes.get? id) :
    id ∈ after.stoppedNodes ↔ id ∈ before.stoppedNodes := by
  rw [mem_stoppedNodes, mem_stoppedNodes, h]

end AttemptState

/-- Only the one node is written. -/
def Writes (id : String) (updates : Node C → Node C) (before after : AttemptState C) : Prop :=
  ∀ other, after.nodes.get? other =
    if other = id then (before.nodes.get? id).map updates else before.nodes.get? other

section Nodes

variable {plan : PlanGraphPlan C} {s s' : RunState C} {id : String} {updates : Node C → Node C}

theorem Writes.other {before after : AttemptState C} (h : Writes id updates before after)
    {other : String} (hne : other ≠ id) : after.nodes.get? other = before.nodes.get? other := by
  rw [h other, if_neg hne]

theorem writes_nodeStarted (audit : AttemptState C) (id : String) :
    Writes id (fun node => { node with
      status := .running
      inputCommit := some (node.inputCommit.getD audit.currentCandidateCommit) })
      audit (audit.nodeStarted id) :=
  fun other => AttemptState.get?_transition audit id other _ _

theorem writes_nodeFailed (audit : AttemptState C) (id : String) (status : NodeStatus)
    (obligations : Option Obligations) :
    Writes id (fun node => { node with status := status }) audit
      (audit.nodeFailed id status obligations) :=
  fun other => AttemptState.get?_transition audit id other _ _

theorem writes_transferConflictBlocked (audit : AttemptState C) (id : String) (candidate : C)
    (obligations : Option Obligations) :
    Writes id (fun node => { node with pendingTransfer := some candidate, status := .blocked }) audit
      ((audit.candidateVerifiedPendingTransfer id candidate).transferConflictBlocked id
        obligations) := by
  intro other
  refine (AttemptState.get?_transition _ id other _ _).trans ?_
  by_cases h : other = id
  · rw [if_pos h, if_pos h]
    rw [AttemptState.candidateVerifiedPendingTransfer, AttemptState.get?_transition, if_pos rfl,
      Option.map_map]
    rfl
  · rw [if_neg h, if_neg h, AttemptState.candidateVerifiedPendingTransfer,
      AttemptState.get?_transition, if_neg h]

theorem writes_nodeCompleted (audit : AttemptState C) (id : String) (candidate : C)
    (obligations : Obligations) : ∃ input,
    Writes id (fun node => { node with
      pendingTransfer := some candidate
      status := .succeeded
      candidateCommit := some candidate
      inputCommit := input
      integratedCommit := some candidate }) audit
      ((audit.candidateVerifiedPendingTransfer id candidate).nodeCompleted id candidate
        obligations) := by
  refine ⟨some ((audit.candidateVerifiedPendingTransfer id candidate).completionBarrier id
    candidate).inputCommit, fun other => ?_⟩
  refine (AttemptState.get?_transition _ id other _ _).trans ?_
  by_cases h : other = id
  · rw [if_pos h, if_pos h]
    rw [AttemptState.candidateVerifiedPendingTransfer, AttemptState.get?_transition, if_pos rfl,
      Option.map_map]
    rfl
  · rw [if_neg h, if_neg h, AttemptState.candidateVerifiedPendingTransfer,
      AttemptState.get?_transition, if_neg h]

theorem Writes.keys {before after : AttemptState C} (h : Writes id updates before after)
    (other : String) : other ∈ after.nodes.keys ↔ other ∈ before.nodes.keys := by
  rw [Dict.mem_keys_iff, Dict.mem_keys_iff, h other]
  by_cases heq : other = id
  · rw [if_pos heq, heq]
    simp
  · rw [if_neg heq]

/-- A written node stands for what memory has of it. -/
theorem RunState.Mirrored.write (h : s.Mirrored plan) (hid : id ∈ runIds plan.runs)
    (hwrites : Writes id updates s.audit s'.audit) (candidate : Option C)
    (hcompleted : ∀ other, s'.completed.get? other =
      if other = id then candidate else s.completed.get? other)
    (hsealed : ∀ node, AttemptState.sealedCandidate (updates node) = candidate) :
    s'.Mirrored plan where
  nodes := fun other => (hwrites.keys other).trans (h.nodes other)
  sealed := by
    intro other
    rw [hwrites other, hcompleted other]
    by_cases heq : other = id
    · obtain ⟨node, hnode⟩ := Dict.mem_keys_iff.1 ((h.nodes id).2 hid)
      rw [if_pos heq, if_pos heq, hnode]
      exact hsealed node
    · rw [if_neg heq, if_neg heq]
      exact h.sealed other

/-- A node that is not completed is written without a candidate. -/
theorem RunState.Mirrored.write_open (h : s.Mirrored plan) (hid : id ∈ runIds plan.runs)
    (hopen : id ∉ s.completed.keys) (hwrites : Writes id updates s.audit s'.audit)
    (hcompleted : s'.completed = s.completed)
    (hsealed : ∀ node, (updates node).status ≠ .succeeded) : s'.Mirrored plan := by
  refine h.write hid hwrites none (fun other => ?_) fun node => ?_
  · rw [hcompleted]
    split_ifs with heq
    · rw [heq]
      exact Dict.get?_eq_none_iff.2 hopen
    · rfl
  · rw [AttemptState.sealedCandidate, if_neg (hsealed node)]

theorem RunState.Mirrored.stopped (h : s.Mirrored plan) (hid : id ∈ runIds plan.runs)
    {after : AttemptState C} (hwrites : Writes id updates s.audit after)
    (hstatus : ∀ node, (updates node).status.stopped = true) : id ∈ after.stoppedNodes := by
  obtain ⟨node, hnode⟩ := Dict.mem_keys_iff.1 ((h.nodes id).2 hid)
  refine AttemptState.mem_stoppedNodes.2 ⟨updates node, ?_, hstatus node⟩
  rw [hwrites id, if_pos rfl, hnode]
  rfl

/-- Where every node is completed, none stopped. -/
theorem RunState.Mirrored.stoppedNodes_eq_nil (h : s.Mirrored plan)
    (hall : ∀ run ∈ plan.runs, run.id ∈ s.completed.keys) : s.audit.stoppedNodes = [] := by
  rw [eq_nil_iff_forall_not_mem]
  intro id hid
  obtain ⟨node, hnode, hstopped⟩ := AttemptState.mem_stoppedNodes.1 hid
  obtain ⟨run, hrun, rfl⟩ := mem_map.1 ((h.nodes id).1 (Dict.mem_keys_iff.2 ⟨node, hnode⟩))
  obtain ⟨candidate, hcandidate⟩ := Dict.mem_keys_iff.1 (hall run hrun)
  have hsealed := h.sealed run.id
  rw [hnode, hcandidate, bind_some, AttemptState.sealedCandidate] at hsealed
  split_ifs at hsealed with hsucceeded
  rw [hsucceeded] at hstopped
  cases hstopped

end Nodes

/-! ## Sealing -/

section Sealing

variable {plan : PlanGraphPlan C} {s s' : RunState C}

/-- The result of a node that stopped, with the node recorded. -/
structure Stopped (s : RunState C) (id : String) (blocks : Bool) (result : PlanGraphResult C) :
    Prop where
  status : result.status = stopGraphStatus blocks
  candidate : blocks = false → result.candidateCommit = none
  failed : result.failedRunId = some id
  stopped : id ∈ s.audit.stoppedNodes

theorem Stopped.congr {id : String} {blocks : Bool} {result : PlanGraphResult C}
    (h : Stopped s id blocks result) (hsame : s'.audit.nodes.get? id = s.audit.nodes.get? id) :
    Stopped s' id blocks result :=
  ⟨h.status, h.candidate, h.failed, (AttemptState.mem_stoppedNodes_congr hsame).2 h.stopped⟩

/-- What a decision says of the node. -/
def Decides (s : RunState C) (id : String) : Except String (SealDecision C) → Prop
  | .error _ => True
  | .ok (.sealed _) => id ∈ s.completed.keys
  | .ok (.blocked result _ _) => Stopped s id true result ∧ result.completed = s.completed
  | .ok (.failed result) => Stopped s id false result

/-- **The step of an outcome**: the candidates stay mirrored, one node is written, and a node that
stopped is reported. -/
theorem Seals.mirrored [PartialOrder C] {run : PlanRun} {request : FeatureRunRequest C}
    {launched : Launched C} {decision : Except String (SealDecision C)}
    (hseals : Seals run request launched s s' decision) (h : s.Mirrored plan)
    (hrun : run.id ∈ runIds plan.runs) (hopen : run.id ∉ s.completed.keys) :
    s'.Mirrored plan ∧ Decides s' run.id decision ∧
      (∀ other, other ≠ run.id → s'.audit.nodes.get? other = s.audit.nodes.get? other) ∧
      ∀ other ∈ s.completed.keys, other ∈ s'.completed.keys := by
  cases hseals with
  | raised rejected message => exact ⟨⟨h.nodes, h.sealed⟩, trivial, fun _ _ => rfl, fun _ h => h⟩
  | stopped rejected escalation merged blocks decision hmerged hdecision =>
    have hwrites := writes_nodeFailed s.audit run.id (stopStatus blocks) merged
    have hstop : ∀ node : Node C, ({ node with status := stopStatus blocks }).status.stopped = true := by
      cases blocks <;> exact fun _ => rfl
    have hsealed : ∀ node : Node C, ({ node with status := stopStatus blocks }).status ≠
        .succeeded := by
      cases blocks <;> exact fun _ => nofun
    refine ⟨h.write_open hrun hopen hwrites rfl hsealed, ?_, fun _ hne => hwrites.other hne,
      fun _ h => h⟩
    have hstopped := h.stopped hrun hwrites hstop
    subst hdecision
    cases blocks with
    | true => exact ⟨⟨rfl, nofun, rfl, hstopped⟩, rfl⟩
    | false => exact ⟨rfl, fun _ => rfl, rfl, hstopped⟩
  | conflict rejected escalation candidate message =>
    have hwrites := writes_transferConflictBlocked s.audit run.id candidate none
    exact ⟨h.write_open hrun hopen hwrites rfl fun _ => nofun,
      ⟨⟨rfl, nofun, rfl, h.stopped hrun hwrites fun _ => rfl⟩, rfl⟩,
      fun _ hne => hwrites.other hne, fun _ h => h⟩
  | escalated rejected escalation candidate advanced hadvanced =>
    have hwrites := writes_transferConflictBlocked s.audit run.id candidate (some advanced)
    exact ⟨h.write_open hrun hopen hwrites rfl fun _ => nofun,
      ⟨⟨rfl, nofun, rfl, h.stopped hrun hwrites fun _ => rfl⟩, rfl⟩,
      fun _ hne => hwrites.other hne, fun _ h => h⟩
  | sealed rejected escalation candidate advanced houtcome hadvanced =>
    obtain ⟨input, hwrites⟩ := writes_nodeCompleted s.audit run.id candidate advanced
    refine ⟨h.write hrun hwrites (some candidate) (fun other => Dict.get?_set _ _ _ _) fun _ => rfl,
      Dict.mem_keys_set.2 (.inl rfl), fun _ hne => hwrites.other hne,
      fun _ hmem => Dict.mem_keys_set.2 (.inr hmem)⟩

theorem StartsOn.mirrored {audit : AttemptState C} (h : StartsOn plan audit s) :
    s.Mirrored plan := by
  obtain ⟨rejected, hbegins⟩ := h.begins
  rw [startRun, AttemptState.loadAuditCompleted] at hbegins
  split_ifs at hbegins
  dsimp only at hbegins
  cases hvalid : validateCompletedDependencies plan.ordered
      (audit.nodes.filterMap fun _ node => AttemptState.sealedCandidate node) with
  | error message =>
    rw [hvalid] at hbegins
    cases hbegins
  | ok u =>
    rw [hvalid] at hbegins
    cases hbegins
    refine ⟨h.nodes, fun id => ?_⟩
    rw [Dict.get?_filterMap]

end Sealing

/-! ## Ends of runs -/

/-- The run was ended with something that fits its state. -/
def ClosedBy (plan : PlanGraphPlan C) (state : RunState C) (r : PlanGraphResult C) : Prop :=
  ∃ (s : RunState C) (closing : Closing C) (finishing : Finishing), s.Mirrored plan ∧
    closing.Fits s ∧ s.close plan.functionalityTests finishing closing = ⟨state, .returned r⟩

theorem RunState.Mirrored.closedBy {plan : PlanGraphPlan C} {s : RunState C}
    (h : s.Mirrored plan) (finishing : Finishing) {closing : Closing C} (hfits : closing.Fits s)
    {r : PlanGraphResult C}
    (hr : (s.close plan.functionalityTests finishing closing).ending = .returned r) :
    ClosedBy plan (s.close plan.functionalityTests finishing closing).state r :=
  ⟨s, closing, finishing, h, hfits, by rw [← hr]⟩

section Sequential

variable [PartialOrder C] {g : Controller C}

/-- The invariant of the sequential loop. -/
structure SequentialLoop.Tracks (g : Controller C) (l : SequentialLoop C) : Prop where
  closed : ∀ r, l.ending = some (.returned r) → ClosedBy g.plan l.state r
  mirrored : l.ending = none → l.state.Mirrored g.plan
  planned : l.ending = none → ∀ run ∈ l.remaining, run ∈ g.plan.ordered
  completed : l.ending = none → ∀ run ∈ g.plan.ordered, run ∈ l.remaining ∨
    run.id ∈ l.state.completed.keys

theorem SequentialLoop.Tracks.of_ended {l : SequentialLoop C} {e : Ended C}
    (h : ∀ r, e.ending = .returned r → ClosedBy g.plan e.state r) : (l.ended e).Tracks g where
  closed := fun r hr => h r (Option.some.inj hr)
  mirrored := nofun
  planned := nofun
  completed := nofun

theorem SequentialLoop.Tracks.launchNode {l : SequentialLoop C} (h : l.Tracks g)
    (hending : l.ending = none) {run : PlanRun} {rest : List PlanRun}
    (hremaining : l.remaining = run :: rest) (hopen : run.id ∉ l.state.completed.keys)
    (turn : Turn C) : (l.launchNode g turn run rest).Tracks g := by
  have hmirrored := h.mirrored hending
  have hplanned := h.planned hending
  rw [hremaining] at hplanned
  have hrun : run.id ∈ runIds g.plan.runs :=
    (mem_runIds_ordered g.plan).1 (mem_runIds (hplanned run mem_cons_self))
  rw [SequentialLoop.launchNode]
  cases turn.refusal with
  | some refusal =>
    have hwrites := writes_nodeFailed l.state.audit run.id .blocked none
    have hblocked : RunState.Mirrored g.plan
        { l.state with audit := l.state.audit.nodeFailed run.id .blocked none } :=
      hmirrored.write_open hrun hopen hwrites rfl fun _ => nofun
    have hfits : Closing.Fits { l.state with audit := l.state.audit.nodeFailed run.id .blocked none }
        (.blocked (stoppedResult l.state run .blocked none [])) :=
      ⟨rfl, rfl, run.id, hmirrored.stopped hrun hwrites fun _ => rfl, rfl⟩
    exact .of_ended fun r hr => hblocked.closedBy turn.finishing hfits hr
  | none =>
    cases turn.launch with
    | error error => exact .of_ended fun r hr => by cases hr
    | ok launched =>
      have hstarted : RunState.Mirrored g.plan
          { l.state with
            audit := l.state.audit.nodeStarted run.id
            requests := l.state.requests ++
              [requestForRun g run l.candidate (l.state.obligations.owed run.id)] } :=
        hmirrored.write_open hrun hopen (writes_nodeStarted l.state.audit run.id) rfl
          fun _ => nofun
      have hcases := sealOutcome_cases g run
        (requestForRun g run l.candidate (l.state.obligations.owed run.id)) launched
        { l.state with
          audit := l.state.audit.nodeStarted run.id
          requests := l.state.requests ++
            [requestForRun g run l.candidate (l.state.obligations.owed run.id)] }
      obtain ⟨hsealed, hdecides, -, hkept⟩ := hcases.mirrored hstarted hrun hopen
      dsimp only
      generalize sealOutcome g run _ launched _ = t at *
      obtain ⟨s, decision⟩ := t
      cases decision with
      | error message => exact .of_ended fun r hr => by cases hr
      | ok decision =>
        cases decision with
        | sealed obligations =>
          exact
            { closed := fun r hr => by rw [hending] at hr; cases hr
              mirrored := fun _ => ⟨hsealed.nodes, hsealed.sealed⟩
              planned := fun _ other hother => hplanned other (mem_cons_of_mem _ hother)
              completed := by
                intro _ other hother
                have hcompleted := h.completed hending other hother
                rw [hremaining] at hcompleted
                rcases hcompleted with hmem | hmem
                · rcases mem_cons.1 hmem with rfl | hmem
                  · exact .inr hdecides
                  · exact .inl hmem
                · exact .inr (hkept _ hmem) }
        | blocked result reason escalation =>
          obtain ⟨hstopped, hcompleted⟩ := hdecides
          have hfits : Closing.Fits s (.blocked result) :=
            ⟨hstopped.status, hcompleted, run.id, hstopped.stopped, hstopped.failed⟩
          exact .of_ended fun r hr => hsealed.closedBy turn.finishing hfits hr
        | failed result =>
          have hfits : Closing.Fits s (.failed result) := ⟨hdecides.status, hdecides.candidate rfl⟩
          exact .of_ended fun r hr => hsealed.closedBy turn.finishing hfits hr

theorem SequentialLoop.Tracks.step {l next : SequentialLoop C} (h : l.Tracks g) {turn : Turn C}
    (hstep : sequentialStep g turn l = some next) : next.Tracks g := by
  rw [sequentialStep] at hstep
  cases hending : l.ending with
  | some e =>
    rw [hending] at hstep
    cases hstep
  | none =>
    rw [hending] at hstep
    cases hremaining : l.remaining with
    | nil =>
      rw [hremaining] at hstep
      cases hstep
      have hall : ∀ run ∈ g.plan.runs, run.id ∈ l.state.completed.keys := by
        intro run hrun
        have hcompleted := h.completed hending run (g.plan.mem_ordered.2 hrun)
        rw [hremaining] at hcompleted
        exact hcompleted.resolve_left not_mem_nil
      have hfits : Closing.Fits l.state (.finished l.candidate) :=
        (h.mirrored hending).stoppedNodes_eq_nil hall
      exact .of_ended fun r hr => (h.mirrored hending).closedBy turn.finishing hfits hr
    | cons run rest =>
      rw [hremaining] at hstep
      dsimp only at hstep
      cases hcandidate : l.state.completed.get? run.id with
      | none =>
        rw [hcandidate] at hstep
        cases hstep
        exact h.launchNode hending hremaining (Dict.get?_eq_none_iff.1 hcandidate) turn
      | some candidate =>
        rw [hcandidate] at hstep
        cases hstep
        refine ⟨nofun, fun _ => h.mirrored hending, fun _ other hother => ?_,
          fun _ other hother => ?_⟩
        · refine h.planned hending other ?_
          rw [hremaining]
          exact mem_cons_of_mem _ hother
        · have hcompleted := h.completed hending other hother
          rw [hremaining] at hcompleted
          rcases hcompleted with hmem | hmem
          · rcases mem_cons.1 hmem with rfl | hmem
            · exact .inr (Dict.mem_keys_iff.2 ⟨candidate, hcandidate⟩)
            · exact .inl hmem
          · exact .inr hmem

theorem SequentialRun.tracks {audit : AttemptState C} {l : SequentialLoop C}
    (h : SequentialRun g audit l) : l.Tracks g := by
  obtain ⟨s, hstart, hrun⟩ := h
  refine hrun.invariant (fun _ _ _ hstep hx => hx.step hstep) ?_
  exact ⟨nofun, fun _ => hstart.mirrored, fun _ _ hother => hother, fun _ _ hother => .inl hother⟩

end Sequential

section ReadySet

namespace ReadySetLoop

variable [PartialOrder C] {g : Controller C} {l : ReadySetLoop C}

/-- The candidates are mirrored, and the decision that is kept is one of a withheld node. -/
structure Reports (g : Controller C) (l : ReadySetLoop C) : Prop where
  mirrored : l.state.Mirrored g.plan
  terminal : ∀ t, l.terminal = some t → ∃ id ∈ l.withheld, Stopped l.state id t.blocks t.result

theorem Reports.refuse (h : Reports g l) {run : PlanRun} (hrun : Launchable g l run.id) :
    Reports g (l.refuse run) := by
  have hwrites := writes_nodeFailed l.state.audit run.id .blocked none
  refine ⟨h.mirrored.write_open hrun.known hrun.isOpen hwrites rfl fun _ => (by simp), fun t ht => ?_⟩
  cases hterminal : l.terminal with
  | none =>
    simp only [ReadySetLoop.refuse, hterminal] at ht
    cases ht
    exact ⟨run.id, mem_append_right _ (mem_singleton.2 rfl), rfl, (by simp), rfl,
      h.mirrored.stopped hrun.known hwrites fun _ => rfl⟩
  | some first =>
    simp only [ReadySetLoop.refuse, hterminal] at ht
    obtain rfl := Option.some.inj ht
    obtain ⟨id, hid, hstopped⟩ := h.terminal first hterminal
    refine ⟨id, mem_append_left _ hid, hstopped.congr (hwrites.other ?_)⟩
    rintro rfl
    exact hrun.allowed hid

theorem Reports.stop (h : Reports g l) {id : String} {t : Terminal C}
    (ht : Stopped l.state id t.blocks t.result) : Reports g (l.stop id t) := by
  refine ⟨h.mirrored, fun t' ht' => ?_⟩
  have hnew : ∃ other ∈ (l.stop id t).withheld, Stopped (l.stop id t).state other t.blocks t.result :=
    ⟨id, mem_append_right _ (mem_singleton.2 rfl), ht⟩
  cases hterminal : l.terminal with
  | none =>
    simp only [ReadySetLoop.stop, hterminal] at ht'
    cases ht'
    exact hnew
  | some first =>
    simp only [ReadySetLoop.stop, hterminal] at ht'
    split_ifs at ht'
    · cases ht'
      exact hnew
    · obtain rfl := Option.some.inj ht'
      obtain ⟨other, hother, hstopped⟩ := h.terminal first hterminal
      exact ⟨other, mem_append_left _ hother, hstopped⟩

theorem Reports.completeNode (h : Reports g l) (hsound : Sound g l)
    (launch : Except LaunchError (Launched C)) (id : String) :
    Reports g (l.completeNode g launch id) := by
  rw [ReadySetLoop.completeNode]
  cases hrequest : l.inFlight.get? id with
  | none => exact h
  | some request =>
    have hflight := hsound.flight id (Dict.mem_keys_iff.2 ⟨request, hrequest⟩)
    obtain rfl := hsound.request id request hrequest
    obtain ⟨hmirrored, hdecides, hothers, -⟩ :=
      (sealOutcome_cases g request.run request (launchedOf launch) l.state).mirrored h.mirrored
        hflight.known hflight.isOpen
    dsimp only
    generalize sealOutcome g request.run request (launchedOf launch) l.state = t at *
    obtain ⟨s, decision⟩ := t
    -- the nodes that stopped before are others
    have hkept : ∀ t, l.terminal = some t →
        ∃ id ∈ l.withheld, Stopped s id t.blocks t.result := by
      intro t ht
      obtain ⟨other, hother, hstopped⟩ := h.terminal t ht
      refine ⟨other, hother, hstopped.congr (hothers other ?_)⟩
      rintro rfl
      exact hflight.allowed hother
    cases decision with
    | error message =>
      refine ⟨hmirrored, fun t ht => ?_⟩
      obtain ⟨other, hother, hstopped⟩ := hkept t ht
      exact ⟨other, mem_append_left _ hother, hstopped⟩
    | ok decision =>
      cases decision with
      | sealed obligations =>
        refine ⟨⟨hmirrored.nodes, hmirrored.sealed⟩, fun t ht => ?_⟩
        obtain ⟨other, hother, hstopped⟩ := hkept t ht
        exact ⟨other, hother, hstopped.congr rfl⟩
      | blocked result reason escalation => exact Reports.stop ⟨hmirrored, hkept⟩ hdecides.1
      | failed result => exact Reports.stop ⟨hmirrored, hkept⟩ hdecides

theorem Reports.completeNodes (h : Reports g l) (hsound : Sound g l)
    (done : String → Option (Except LaunchError (Launched C))) (ids : List String) :
    Reports g (l.completeNodes g done ids) := by
  induction ids generalizing l with
  | nil => exact h
  | cons id rest ih =>
    refine ih ?_ ?_
    · dsimp only
      split
      · exact h.completeNode hsound _ id
      · exact h
    · dsimp only
      split
      · exact hsound.completeNode _ id
      · exact hsound

variable [DecidableEq C] [DecidableLE C]

theorem Reports.admitNode (h : Reports g l) {run : PlanRun} (hrun : Launchable g l run.id)
    (refusal : String → Option String) : Reports g (l.admitNode g refusal run) := by
  rw [ReadySetLoop.admitNode]
  split
  · exact h.refuse hrun
  · exact h.refuse hrun
  · have hwrites := writes_nodeStarted l.state.audit run.id
    refine ⟨h.mirrored.write_open hrun.known hrun.isOpen hwrites rfl fun _ => (by simp),
      fun t ht => ?_⟩
    obtain ⟨id, hid, hstopped⟩ := h.terminal t ht
    refine ⟨id, hid, hstopped.congr (hwrites.other ?_)⟩
    rintro rfl
    exact hrun.allowed hid

theorem Reports.admitNodes (h : Reports g l) (hsound : Sound g l) {rest : List PlanRun}
    (hadmits : Admits g l rest) (refusal : String → Option String) :
    Reports g (l.admitNodes g refusal rest) := by
  induction rest generalizing l with
  | nil => exact h
  | cons run rest ih =>
    have hnode := h.admitNode (hadmits.launchable run mem_cons_self) refusal
    obtain ⟨hnext, hrest, -⟩ := hsound.admitNode refusal hadmits
    rw [ReadySetLoop.admitNodes]
    split_ifs with hadmitting
    · exact ih hnode hnext (hrest hadmitting)
    · exact hnode

theorem Reports.admitReady (h : Reports g l) (hsound : Sound g l) {refusal : String → Option String}
    {next : ReadySetLoop C} (hnext : l.admitReady g refusal = .ok next) : Reports g next := by
  rw [ReadySetLoop.admitReady] at hnext
  split_ifs at hnext
  · cases hunits : g.scheduler.select l.schedulerState with
    | error message =>
      rw [hunits] at hnext
      cases hnext
    | ok units =>
      rw [hunits] at hnext
      cases hnext
      exact h.admitNodes hsound (hsound.admits_selected hunits) refusal
  · obtain rfl := Except.ok.inj hnext
    exact h

/-- The end of the loop, where nothing is in flight. -/
theorem Reports.closed (h : Reports g l) {finishing : Finishing} {r : PlanGraphResult C}
    (hall : l.terminal = none → l.deferredError = none →
      ∀ run ∈ g.plan.runs, run.id ∈ l.state.completed.keys)
    (hr : (l.conclude g finishing).ending = some (.returned r)) :
    ClosedBy g.plan (l.conclude g finishing).state r := by
  rw [conclude] at hr ⊢
  cases hterminal : l.terminal with
  | some t =>
    rw [hterminal] at hr
    obtain ⟨id, -, hstopped⟩ := h.terminal t hterminal
    dsimp only at hr ⊢
    cases hblocks : t.blocks with
    | true =>
      rw [hblocks] at hr hstopped
      have hfits : Closing.Fits l.state
          (.blocked { t.result with completed := l.state.completed }) :=
        ⟨hstopped.status, rfl, id, hstopped.stopped, hstopped.failed⟩
      exact h.mirrored.closedBy finishing hfits (Option.some.inj hr)
    | false =>
      rw [hblocks] at hr hstopped
      have hstatus : t.result.status = .failed := hstopped.status
      rw [hstatus] at hr ⊢
      have hfits : Closing.Fits l.state
          (.failed { t.result with completed := l.state.completed, status := .failed }) :=
        ⟨rfl, hstopped.candidate rfl⟩
      exact h.mirrored.closedBy finishing hfits (Option.some.inj hr)
  | none =>
    rw [hterminal] at hr
    cases hdeferred : l.deferredError with
    | some message =>
      rw [hdeferred] at hr
      cases hr
    | none =>
      rw [hdeferred] at hr
      cases hcandidate : finalCandidate g l.state.completed with
      | error message =>
        rw [hcandidate] at hr
        cases hr
      | ok candidate =>
        rw [hcandidate] at hr
        have hfits : Closing.Fits l.state (.finished candidate) :=
          h.mirrored.stoppedNodes_eq_nil (hall hterminal hdeferred)
        exact h.mirrored.closedBy finishing hfits (Option.some.inj hr)

/-- The invariant of the parallel loop. -/
structure Tracks (g : Controller C) (l : ReadySetLoop C) : Prop where
  sound : Sound g l
  reports : l.ending = none → Reports g l
  closed : ∀ r, l.ending = some (.returned r) → ClosedBy g.plan l.state r

theorem Tracks.step (h : Tracks g l) {round : Round C} {next : ReadySetLoop C}
    (hstep : readySetStep g round l = some next) : Tracks g next := by
  have hsound := (h.sound.step hstep).1
  obtain ⟨hending, admitted, hentered, hadmitted, hturn⟩ := h.sound.turns hstep
  have hnext := (h.reports hending).admitReady h.sound hentered
  obtain ⟨-, hcomplete, rfl⟩ | ⟨-, rfl⟩ := hturn
  · refine ⟨hsound, fun hnone => ?_, fun r hr => hnext.closed hcomplete hr⟩
    obtain ⟨state, ending, heq, -⟩ := conclude_eq g round.finishing admitted
    rw [heq] at hnone
    cases hnone
  · refine ⟨hsound, fun _ => hnext.completeNodes hadmitted round.done _, fun r hr => ?_⟩
    rw [ending_completeNodes, ending_admitReady hentered, hending] at hr
    cases hr

end ReadySetLoop

theorem ReadySetRun.tracks [PartialOrder C] [DecidableEq C] [DecidableLE C] {g : Controller C}
    {audit : AttemptState C} {l : ReadySetLoop C} (h : ReadySetRun g audit l) : l.Tracks g := by
  obtain ⟨s, hstart, hrun⟩ := h
  have hreports : ReadySetLoop.Reports g { state := s } :=
    ⟨hstart.mirrored, fun t ht => by cases ht⟩
  exact hrun.invariant (fun _ _ _ hstep hx => hx.step hstep)
    ⟨ReadySetLoop.sound_start hstart, fun _ => hreports, fun r hr => by cases hr⟩

end ReadySet

/-! ## Idempotence -/

section Idempotence

variable [PartialOrder C] [DecidableEq C] [DecidableLE C]

/-- A run of the controller that returned. -/
inductive Returns (g : Controller C) (audit : AttemptState C) :
    RunState C → PlanGraphResult C → Prop
  | sequential (l : SequentialLoop C) (r : PlanGraphResult C) (hrun : SequentialRun g audit l)
      (hr : l.ending = some (.returned r)) : Returns g audit l.state r
  | readySet (l : ReadySetLoop C) (r : PlanGraphResult C) (hrun : ReadySetRun g audit l)
      (hr : l.ending = some (.returned r)) : Returns g audit l.state r

end Idempotence

/-! ## Two sinks -/

def forkController : Controller (Finset ℕ) :=
  { pairController with plan := forkPlan, positive := Nat.two_pos }

/-- A launch that comes back with a candidate. -/
def sealedLaunch (g : Controller (Finset ℕ)) (id : String) (candidate : Finset ℕ) :
    Launched (Finset ℕ) where
  outcome :=
    { status := "succeeded"
      candidateCommit := some candidate
      planGraphId := some g.graphRunId
      planNodeId := some id
      featureRunId := some (featureRunId g id)
      runDir := some s!"{g.runRoot}/{featureRunId g id}" }

/-- The launches come back one after the other. -/
def firstRound : Round (Finset ℕ) where
  done := fun id =>
    if id = "a" then some (.ok (sealedLaunch forkController "a" {1})) else none

def secondRound : Round (Finset ℕ) where
  done := fun id =>
    if id = "b" then some (.ok (sealedLaunch forkController "b" {2})) else none

/-- Both runs are launched, and both are sealed. -/
def forkAttempt : Option (ReadySetLoop (Finset ℕ)) :=
  Inputs.runInputs (readySetStep forkController)
    { state := { audit := initialState forkPlan "graph" ∅ none, completed := ∅, obligations := ∅ } }
    [firstRound, secondRound, secondRound]

def Ending.result? {C : Type u} : Ending C → Option (PlanGraphResult C)
  | .returned result => some result
  | .raised _ => none

/-- The candidate that another run reads back. -/
def rereadCandidate {C : Type u} (plan : PlanGraphPlan C) (audit : AttemptState C) : Option C :=
  match beginRun plan audit [] [] with
  | .ok (.readBack again) => again.candidateCommit
  | _ => none

/-- The result of the attempt, and the candidate that another run reads back. -/
theorem forkAttempt_results : (forkAttempt.bind fun l => (l.ending.bind Ending.result?).map fun r =>
    (r.status, r.candidateCommit, rereadCandidate forkPlan l.state.audit)) =
      some (.succeeded, some {1, 2}, some {2}) := by
  decide +kernel

theorem forkAttempt_returns : ∃ l r, forkAttempt = some l ∧ l.ending = some (.returned r) ∧
    Returns forkController (initialState forkPlan "graph" ∅ none) l.state r ∧
    r.status = .succeeded ∧ r.candidateCommit = some {1, 2} ∧
    rereadCandidate forkPlan l.state.audit = some {2} := by
  have hresults := forkAttempt_results
  rw [bind_eq_some_iff] at hresults
  obtain ⟨l, hl, hr⟩ := hresults
  rw [map_eq_some_iff] at hr
  obtain ⟨r, hr, hfields⟩ := hr
  rw [bind_eq_some_iff] at hr
  obtain ⟨ending, hending, hresult⟩ := hr
  cases ending with
  | raised message => cases hresult
  | returned result =>
    obtain rfl := Option.some.inj hresult
    have hrun : ReadySetRun forkController (initialState forkPlan "graph" ∅ none) l :=
      ⟨_, ⟨fun id => Iff.rfl, rfl, [], rfl⟩, Inputs.runs_of_runInputs hl⟩
    simp only [Prod.mk.injEq] at hfields
    exact ⟨l, result, hl, hending, .readySet l result hrun hending, hfields⟩

end HarnessLabs.PlanGraph
