import HarnessLabs.Budget.Operations
import HarnessLabs.Core.AuditFiled
import HarnessLabs.PlanGraph.Sequential

/-!
# Completing a run

The status that the controller chooses for a finished run from the deviations in the retry budget's
ledger, and the journal below it that has its own list of terminal statuses.

* `deviationRecords` — the deviations of a ledger.
* `finalizeAudit` — `PlanGraphAudit.finalize` on the journal of the attempt.
* `completion_finalized_iff` — **a finished run is finalized exactly when the ledger records no
  deviation and the events of its journal can be read line by line.**
-/

namespace HarnessLabs.PlanGraph

open Audit Lines

universe u

/-! ## The ledger -/

def deviationRecord? : Budget.Event → Option DeviationRecord
  | .recoveryDecision decision _ => some (.recoveryDecision decision)
  | .registered _ _ _ (some transition) _ => some (.planVersionTransition transition)
  | _ => none

/-- `_deviation_records`: the whole ledger is folded first. -/
def deviationRecords (ledger : Budget.Ledger) : Except String (List DeviationRecord) :=
  match Budget.fold ledger with
  | none => .error "could not read recovery deviation records"
  | some _ => .ok (ledger.filterMap deviationRecord?)

/-- The ledger records a recovery decision or a transition of the plan. -/
def Deviates (ledger : Budget.Ledger) : Prop :=
  ∃ event ∈ ledger, (deviationRecord? event).isSome = true

theorem deviates_iff {ledger : Budget.Ledger} {records : List DeviationRecord}
    (h : deviationRecords ledger = .ok records) : Deviates ledger ↔ records ≠ [] := by
  rw [deviationRecords] at h
  cases hfold : Budget.fold ledger with
  | none =>
    rw [hfold] at h
    cases h
  | some s =>
    rw [hfold] at h
    cases h
    simp only [Deviates, Ne, List.filterMap_eq_nil_iff, not_forall, exists_prop,
      Option.isSome_iff_ne_none]

/-! ## The journal -/

/-- `_ACTOR`. -/
def graphActor : AuditActor := ⟨"plan-graph", "plan_graph_controller", none⟩

variable {host : Host}

/-- The state of the checkpoint with the final status. -/
def completedState (disk : Disk) (status : GraphStatus) : Payload :=
  (((disk.checkpoint.map (·.state)).getD Payload.empty).set "current_node_id" ⟨.null, trivial⟩).set
    "terminal_graph_status" (Payload.text status.text)

/-- The event of a completion. -/
def completedDraft (tick : Tick host) (status : GraphStatus) : Draft :=
  Journal.plainDraft tick "plan_graph_completed" status.text
    (Payload.empty.set "terminal_graph_status" (Payload.text status.text)) graphActor

/-- `PlanGraphAudit.finalize`: the completion is recorded, and then the journal is finalized. -/
def finalizeAudit (clock : ℕ → Tick host) (disk : Disk) (j : Journal) (status : GraphStatus)
    (result : Payload) : Outcome :=
  let recorded := j.perform clock disk (.append (completedDraft (clock 0) status))
  match recorded.answer with
  | .error message => ⟨recorded.journal, recorded.writes, .error message⟩
  | .ok _ =>
    let finalized := recorded.journal.perform (fun n => clock (n + 1))
      (disk.writeAll recorded.writes)
      (.finalize status.text result (some (completedState disk status)))
    ⟨finalized.journal, recorded.writes ++ finalized.writes, finalized.answer⟩

theorem finalizeAudit_eq (clock : ℕ → Tick host) (disk : Disk) {j : Journal}
    (hopen : ¬ j.finalized = true) (status : GraphStatus) (result : Payload) :
    let e := j.newEvent (clock 0) (completedDraft (clock 0) status)
    let finalized := (j.afterEvent e).finalize (fun n => clock (n + 1)) (disk.write (.event e))
      status.text result (some (completedState disk status))
    finalizeAudit clock disk j status result =
      ⟨finalized.journal, [.event e] ++ finalized.writes, finalized.answer⟩ := by
  intro e finalized
  have hperform : j.perform clock disk (.append (completedDraft (clock 0) status)) =
      ⟨j.afterEvent e, [.event e], .ok (.event e)⟩ := by
    rw [Journal.perform, if_neg hopen]
  rw [finalizeAudit, hperform]
  rfl

/-! ## Finishing -/

section Finishing

variable {C : Type u}

theorem runFunctionalityTests_passing (tests : List String) (n : ℕ) (audit : AttemptState C) :
    (runFunctionalityTests (fun _ => none) n audit tests).2 = none := by
  induction tests generalizing n audit with
  | nil => rfl
  | cons test tests ih => exact ih (n + 1) (audit.functionalityCompleted test)

/-- A run without failing tests returns exactly when the ledger records no deviation. -/
theorem finalizeWithFunctionality_returns_iff (tests : List String) (records : List DeviationRecord)
    (s : RunState C) (candidate : C) :
    (∃ r, (finalizeWithFunctionality tests { deviationRecords := records } s candidate).ending =
      .returned r ∧ r.status = completionStatus records) ↔ records = [] := by
  have hpassing := runFunctionalityTests_passing tests 0 s.audit
  rw [finalizeWithFunctionality]
  dsimp only
  rw [hpassing]
  rw [← completionStatus_eq_succeeded]
  by_cases hstatus : completionStatus records = .succeeded
  · rw [if_pos hstatus]
    exact iff_of_true ⟨_, rfl, rfl⟩ hstatus
  · rw [if_neg hstatus]
    exact iff_of_false (fun ⟨_, hr, _⟩ => by cases hr) hstatus

theorem lawful_completed (files : Dict String (List ℕ)) (tick : Tick host) (status : GraphStatus) :
    Operation.Lawful files (.append (completedDraft tick status)) := by
  refine ⟨lawful_plainDraft (by decide) ?_ ⟨by decide, by decide⟩ files tick _, rfl⟩
  cases status <;> decide

theorem unbroken_graphActor : Unbroken graphActor.value := by
  have hascii : ∀ text ∈ ["id", "parent_id", "role", "plan-graph", "plan_graph_controller"],
      Unbroken (.str text) := by
    intro text htext
    refine unbroken_of_all ?_
    revert text
    decide
  rw [AuditActor.value, unbroken_obj]
  simp [graphActor, hascii, unbroken_textOrNull]

/-- The recorded completion holds no boundary that was not there. -/
theorem unbroken_completed {runId evidenceClassification : String} {disk : Disk}
    {es : List AuditEvent} {c : Checkpoint} {j : Journal}
    (h : Intact host runId evidenceClassification disk es c)
    (hj : Live host runId evidenceClassification disk es j) (hall : ∀ e ∈ es, Unbroken e.value)
    {tick : Tick host} (htick : Unbroken (.str tick.timestamp.1)) (status : GraphStatus) :
    Unbroken (j.newEvent tick (completedDraft tick status)).value := by
  have hstatus : Unbroken (.str status.text) := by
    refine unbroken_of_all ?_
    cases status <;> decide
  have htype : Unbroken (.str "plan_graph_completed") := unbroken_of_all (by decide)
  exact hj.unbroken_newEvent h hall htick unbroken_graphActor (List.forall_mem_nil _)
    ⟨rfl, rfl, rfl, rfl⟩ htype hstatus (unbroken_member (unbroken_of_all (by decide)) hstatus)

theorem finalized_append {disk : Disk} {status : String} {j : Journal} {before ws : List FileWrite}
    {answer : Except String Answer} :
    Finalized host disk status ⟨j, before ++ ws, answer⟩ ↔
      Finalized host (disk.writeAll before) status ⟨j, ws, answer⟩ := by
  constructor
  · rintro ⟨hanswer, hterminal, hverifies⟩
    rw [writeAll_append] at hanswer hterminal hverifies
    exact ⟨hanswer, hterminal, hverifies⟩
  · rintro ⟨hanswer, hterminal, hverifies⟩
    rw [← writeAll_append] at hanswer hterminal hverifies
    exact ⟨hanswer, hterminal, hverifies⟩

/-- **Finalizing a finished run.** A run whose functionality tests pass returns its result and
leaves the journal of its attempt terminal, with a manifest, exactly when the ledger records no
deviation and no string of an event holds a line boundary that the journal writes as it is. -/
theorem completion_finalized_iff (hsummary : host.Summarizes)
    {runId evidenceClassification : String} (hnamed : Named runId evidenceClassification)
    {disk : Disk} {j : Journal}
    (hrecorded : Recorded host graphActor runId evidenceClassification ⟨disk, some j⟩)
    (hopen : ¬ j.finalized = true) {clock : ℕ → Tick host}
    (hclock : ∀ n, Unbroken (.str (clock n).timestamp.1)) {ledger : Budget.Ledger}
    {records : List DeviationRecord} (hrecords : deviationRecords ledger = .ok records)
    (tests : List String) (s : RunState C) (candidate : C) (result : Payload) :
    ∃ es, disk.events = journalText es ∧
      ((∃ r, (finalizeWithFunctionality tests { deviationRecords := records } s candidate).ending =
          .returned r ∧ r.status = completionStatus records) ∧
        Finalized host disk (completionStatus records).text
          (finalizeAudit clock disk j (completionStatus records) result) ↔
        ¬ Deviates ledger ∧ ∀ e ∈ es, Unbroken e.value) := by
  obtain ⟨es, c, hintact, hlive⟩ := hrecorded.reached.sound hnamed
  have hj := hlive j rfl
  refine ⟨es, hintact.events, ?_⟩
  rw [finalizeWithFunctionality_returns_iff, deviates_iff hrecords, not_not]
  refine and_congr_right ?_
  rintro rfl
  -- the completion is recorded
  let d := completedDraft (clock 0) .succeeded
  let e := j.newEvent (clock 0) d
  have hperform : j.perform clock disk (.append d) = ⟨j.afterEvent e, [.event e], .ok (.event e)⟩ := by
    rw [Journal.perform, if_neg hopen]
  have hmanifest := hj.manifest_eq_none hopen
  have hintact' := hintact.writeEvent hmanifest (hj.linked_newEvent hintact (clock 0) d)
  have hj' := hj.afterEvent e
  have hstep : LawfulStep host graphActor _ _ := .perform disk j clock (.append d)
    (lawful_completed disk.files (clock 0) .succeeded)
  rw [hperform] at hstep
  have hrecorded' : Recorded host graphActor runId evidenceClassification
      ⟨disk.write (.event e), some (j.afterEvent e)⟩ := by
    obtain ⟨clock₀, hsteps⟩ := hrecorded
    exact ⟨clock₀, hsteps.tail hstep⟩
  obtain ⟨hactor, hverifies⟩ :=
    hrecorded'.verified hnamed ⟨by decide, by decide⟩ (j.afterEvent e) rfl
  obtain ⟨hfiles, hcount⟩ := hrecorded'.numbered
  -- and the journal behind it is finalized
  have hnamed' : (j.afterEvent e).actor.Named := by
    rw [hactor]
    exact ⟨by decide, by decide⟩
  have hplain : Unbroken (j.afterEvent e).actor.value := by
    rw [hactor]
    exact unbroken_graphActor
  have hclock' : ∀ n, Unbroken (.str ((fun n => clock (n + 1)) n).timestamp.1) :=
    fun n => hclock (n + 1)
  have hterminal : "succeeded" ∈ terminalStatuses := by decide
  have hfinalized := hj'.finalized_iff hintact' hopen hverifies hrecorded'.unmetered hfiles
    (hcount _ rfl) hnamed' hplain hsummary hclock' hterminal result
  rw [finalizeAudit_eq clock disk hopen, finalized_append]
  refine (hfinalized _).trans ?_
  rw [List.forall_mem_append, List.forall_mem_singleton]
  exact and_iff_left_of_imp fun hall => unbroken_completed hintact hj hall (hclock 0) .succeeded

end Finishing

/-! ## A run with a deviation -/

def approvedPlan : String := "aaaaaaaaaaaaaaaaaaaaaaaaaaaaaaaaaaaaaaaaaaaaaaaaaaaaaaaaaaaaaaaa"

def extensionAuthority : Json := .obj [("protocol", .str Budget.authorityProtocol),
  ("allowed_actions", .arr [.str "extend_budget"]), ("max_extra_node_launches", .int 1),
  ("max_structural_decisions", .int 0)]

def extensionDecision : Json := .obj [("protocol", .str Budget.decisionProtocol),
  ("action", .str "extend_budget"), ("target", .str "node"),
  ("expected_prior_digest", .str approvedPlan), ("payload", .obj [("launches", .int 1)])]

/-- The ledger of a registration. -/
def registrationLedger : Budget.Ledger :=
  (Budget.State.run {} .standard (.register approvedPlan (Dict.ofList [("node", "gate")])
    (some extensionAuthority) none)).appended

/-- The ledger behind a decision of the registered authority. -/
def extendedLedger : Budget.Ledger :=
  registrationLedger ++ (Budget.State.run ((Budget.fold registrationLedger).getD {}) .standard
    (.applyRecoveryDecision extensionDecision approvedPlan)).appended

/-- The audit of a new attempt. -/
def graphSite : Site := newSite plainClock graphActor "graph" "production_lifecycle"

def graphJournal : Journal :=
  (newJournal plainClock graphActor "graph" "production_lifecycle").journal

/-- A run whose nodes are all sealed. -/
def finishedRun : RunState ℕ where
  audit := { graphRunId := "graph", nodes := ∅, currentCandidateCommit := 0 }
  completed := ∅
  obligations := ∅

theorem completion_finalized_iff_new :
    ∃ es, graphSite.disk.events = journalText es ∧
      ((∃ r, (finalizeWithFunctionality [] { deviationRecords := [] } finishedRun 0).ending =
          .returned r ∧ r.status = completionStatus []) ∧
        Finalized plainHost graphSite.disk (completionStatus []).text
          (finalizeAudit plainClock graphSite.disk graphJournal (completionStatus []) Payload.empty) ↔
        ¬ Deviates [] ∧ ∀ e ∈ es, Unbroken e.value) := by
  have hsummary : plainHost.Summarizes := fun _ _ _ _ _ _ _ => rfl
  have hrecorded : Recorded plainHost graphActor "graph" "production_lifecycle"
      ⟨graphSite.disk, some graphJournal⟩ := ⟨plainClock, .refl⟩
  have hclock : ∀ n, Unbroken (.str (plainClock n).timestamp.1) :=
    fun _ => unbroken_of_all (s := "2026-01-01T00:00:00Z") (by decide)
  exact completion_finalized_iff hsummary ⟨by decide, by decide⟩ hrecorded Bool.false_ne_true hclock
    rfl [] finishedRun 0 Payload.empty

/-- An accepted extension of the budget, and then a run whose nodes are all sealed: the completion
is recorded, the journal refuses the status, and no manifest is written. -/
theorem completion_raises :
    Recorded plainHost graphActor "graph" "production_lifecycle" graphSite ∧
    graphSite.journal = some graphJournal ∧
    (Budget.State.run ((Budget.fold registrationLedger).getD {}) {}
      (.applyRecoveryDecision extensionDecision approvedPlan)).result = .ok () ∧
    ∃ records, deviationRecords extendedLedger = .ok records ∧
      (∃ message, (finalizeWithFunctionality [] { deviationRecords := records } finishedRun 0).ending =
        .raised message) ∧
      (∃ e, (finalizeAudit plainClock graphSite.disk graphJournal (completionStatus records)
          Payload.empty).writes = [.event e] ∧ e.eventType = "plan_graph_completed") ∧
      (finalizeAudit plainClock graphSite.disk graphJournal (completionStatus records)
          Payload.empty).answer = .error "audit final status must be terminal" ∧
      ¬ Finalized plainHost graphSite.disk (completionStatus records).text
        (finalizeAudit plainClock graphSite.disk graphJournal (completionStatus records)
          Payload.empty) := by
  refine ⟨⟨plainClock, .refl⟩, rfl, rfl, [.recoveryDecision extensionDecision], rfl,
    ⟨_, rfl⟩, ⟨_, rfl, rfl⟩, rfl, ?_⟩
  rintro ⟨⟨m, hm, -⟩, -, -⟩
  cases hm

end HarnessLabs.PlanGraph
