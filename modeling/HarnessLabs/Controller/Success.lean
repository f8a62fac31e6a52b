import HarnessLabs.Controller.Effects
import HarnessLabs.Controller.Reached

/-!
# What success means

A run that has succeeded has met every obligation of the coordinator. The obligations are checked
when the run completes, and afterwards nothing that they speak of can change: a terminal run accepts
no command but a session's end, and no task is left that could start or finish.

* `Done` — the obligations that a succeeded run has met.
* `Consistent` — tasks are filed under their ids, and only failed tasks are superseded.
* `success_soundness` — **both hold in every reached state, and what can change gates and the
  status.**
-/

namespace HarnessLabs.Controller

open EventLog List Option

/-! ## Obligations -/

/-- What the coordinator owes before the run may succeed. -/
structure Done (contract : RunContract) (s : State) : Prop where
  criteria : ∀ c ∈ s.criteria.values, c.adjudication = .claimed → c.satisfied = true
  settled : ∀ t ∈ s.tasks.values, t.status ≠ .ready ∧ t.status ≠ .running
  required : ∀ t ∈ s.tasks.values, t.optional = false → t.status = .settled .succeeded ∨
    ∃ u ∈ s.tasks.values, u.status = .settled .succeeded ∧ u.supersedesTaskId = some t.id
  disposed : ∀ f ∈ s.findings.values, f.requiresDisposition = true →
    ∃ d, f.disposition = some d ∧ d.disposition ≠ "accepted" ∧
      ¬ (f.severity = "critical" ∧ d.disposition = "deferred")
  artifacts : ∀ kind ∈ contract.terminalArtifactKinds, ∃ a ∈ s.artifacts.values, a.kind = kind

/-- Tasks are filed under their ids, and a superseded task has failed. -/
structure Consistent (s : State) : Prop where
  keyed : ∀ id t, s.tasks.get? id = some t → t.id = id
  superseded : ∀ id t, s.tasks.get? id = some t → ∀ old, t.supersedesTaskId = some old →
    ∃ o, s.tasks.get? old = some o ∧ o.status = .settled .failed

section Done

variable {contract : RunContract} {s t : State}

theorem mem_supersededTaskIds {id : String} : id ∈ s.supersededTaskIds ↔
    ∃ u ∈ s.tasks.values, u.status = .settled .succeeded ∧ u.supersedesTaskId = some id := by
  simp [State.supersededTaskIds, and_assoc]

/-- A task that completion finds nothing wrong with. -/
theorem settled_of_taskFailure (hc : Consistent s) {task : Task} (hmem : task ∈ s.tasks.values)
    (h : taskFailure s.supersededTaskIds task = []) :
    (task.status ≠ .ready ∧ task.status ≠ .running) ∧
      (task.optional = false → task.status = .settled .succeeded ∨
        ∃ u ∈ s.tasks.values, u.status = .settled .succeeded ∧
          u.supersedesTaskId = some task.id) := by
  by_cases hsuperseded : task.id ∈ s.supersededTaskIds
  · -- a superseded task has failed, so it is not active
    obtain ⟨u, hu, hstatus, hid⟩ := mem_supersededTaskIds.1 hsuperseded
    obtain ⟨uid, huid⟩ := Dict.mem_values_iff.1 hu
    obtain ⟨o, ho, hfailed⟩ := hc.superseded uid u huid task.id hid
    obtain ⟨tid, htid⟩ := Dict.mem_values_iff.1 hmem
    rw [hc.keyed tid task htid, htid] at ho
    cases ho
    rw [hfailed]
    exact ⟨⟨TaskStatus.noConfusion, TaskStatus.noConfusion⟩, fun _ => .inr ⟨u, hu, hstatus, hid⟩⟩
  · rw [taskFailure, if_neg hsuperseded] at h
    by_cases hactive : task.status = .ready ∨ task.status = .running
    · rw [if_pos hactive] at h
      cases h
    · rw [if_neg hactive] at h
      refine ⟨not_or.1 hactive, fun hrequired => .inl ?_⟩
      by_contra hstatus
      rw [if_pos ⟨hstatus, by rw [hrequired]; exact Bool.false_ne_true⟩] at h
      cases h

theorem disposed_of_findingFailure {f : Finding} (h : findingFailure f = [])
    (hf : f.requiresDisposition = true) : ∃ d, f.disposition = some d ∧
      d.disposition ≠ "accepted" ∧ ¬ (f.severity = "critical" ∧ d.disposition = "deferred") := by
  rw [findingFailure, if_neg (not_not.2 hf)] at h
  cases hd : f.disposition with
  | none =>
    rw [hd] at h
    cases h
  | some d =>
    rw [hd] at h
    obtain ⟨haccepted, hdeferred⟩ := append_eq_nil_iff.1 h
    refine ⟨d, rfl, fun heq => ?_, fun heq => ?_⟩
    · rw [if_pos heq] at haccepted
      cases haccepted
    · rw [if_pos heq] at hdeferred
      cases hdeferred

/-- **The completion gates are the obligations.** -/
theorem done_of_completionFailures (hc : Consistent s) (h : s.completionFailures contract = []) :
    Done contract s := by
  obtain ⟨hrest, hfindings⟩ := append_eq_nil_iff.1 h
  obtain ⟨hrest, htasks⟩ := append_eq_nil_iff.1 hrest
  obtain ⟨hcriteria, hartifacts⟩ := append_eq_nil_iff.1 hrest
  rw [map_eq_nil_iff, filter_eq_nil_iff] at hcriteria hartifacts
  rw [flatMap_eq_nil_iff] at htasks hfindings
  refine ⟨fun c hmem hclaimed => ?_, fun task hmem => ?_, fun task hmem => ?_,
    fun f hmem => disposed_of_findingFailure (hfindings f hmem), fun kind hkind => ?_⟩
  · simpa [hclaimed] using hcriteria c hmem
  · exact (settled_of_taskFailure hc hmem (htasks task hmem)).1
  · exact (settled_of_taskFailure hc hmem (htasks task hmem)).2
  · simpa using hartifacts kind hkind

/-- Quiet events keep the obligations met. -/
theorem done_of_quiet {b : EventBody} (hb : b.quiet = true) (h : s.applyBody b = some t)
    (hd : Done contract s) : Done contract t := by
  obtain ⟨htasks, hfindings, hartifacts⟩ := applyBody_quiet hb h
  refine ⟨fun c' hmem hclaimed => ?_, htasks ▸ hd.settled, htasks ▸ hd.required,
    hfindings ▸ hd.disposed, hartifacts ▸ hd.artifacts⟩
  obtain ⟨id, hid⟩ := Dict.mem_values_iff.1 hmem
  obtain rfl | ⟨c, hc, hgains, -⟩ := criterion_applyBody h id c' hid
  · cases hb
  · exact hgains.2 (hd.criteria c (Dict.mem_values_iff.2 ⟨id, hc⟩) (hgains.1 ▸ hclaimed))

end Done

/-! ## Tasks behind lawful events -/

/-- A state behind events that were decided in `s`: settled tasks are as they were, and whatever is
superseded had failed. -/
structure Progressed (s m : State) : Prop where
  keyed : ∀ id t, m.tasks.get? id = some t → t.id = id
  superseded : ∀ id t, m.tasks.get? id = some t → ∀ old, t.supersedesTaskId = some old →
    ∃ o, s.tasks.get? old = some o ∧ o.status = .settled .failed
  frozen : ∀ id o status, s.tasks.get? id = some o → o.status = .settled status →
    m.tasks.get? id = some o

section Progressed

variable {contract : RunContract} {s m t : State} {e : KernelEvent}

theorem Consistent.progressed (h : Consistent s) : Progressed s s :=
  ⟨h.keyed, h.superseded, fun _ _ _ ho _ => ho⟩

theorem Progressed.consistent (h : Progressed s m) : Consistent m := by
  refine ⟨h.keyed, fun id t ht old hold => ?_⟩
  obtain ⟨o, ho, hfailed⟩ := h.superseded id t ht old hold
  exact ⟨o, h.frozen old o .failed ho hfailed, hfailed⟩

/-- Progress is recorded of active tasks only. -/
theorem active_of_progress {b : EventBody} {id : String} (h : Lawful contract s b)
    (hb : b.progress? = some id) :
    ∃ task, s.tasks.get? id = some task ∧ (task.status = .ready ∨ task.status = .running) := by
  cases b with
  | taskStarted j =>
    obtain ⟨task, htask, hready⟩ := h
    cases hb
    exact ⟨task, htask, .inl hready⟩
  | taskOrphaned j attempt session outcome evidence =>
    obtain ⟨task, htask, hrunning⟩ := h
    cases hb
    exact ⟨task, htask, .inr hrunning⟩
  | taskResultRecorded j result promotions =>
    obtain ⟨⟨task, htask, hrunning⟩, -⟩ := h
    cases hb
    exact ⟨task, htask, .inr hrunning⟩
  | _ => cases hb

theorem progressed_apply (hl : Lawful contract s e.body) (h : Progressed s m)
    (happly : m.apply e = some t) : Progressed s t := by
  obtain ⟨n, hn, rfl⟩ := map_eq_some_iff.1 happly
  obtain ⟨-, -, htasks⟩ | ⟨task, hbody, htasks⟩ |
    ⟨id, task, new, hprogress, htask, hget, hauthority, -⟩ := task_applyBody hn
  · exact ⟨fun id t ht => h.keyed id t (htasks ▸ ht),
      fun id t ht => h.superseded id t (htasks ▸ ht),
      fun id o status ho hstatus => htasks ▸ h.frozen id o status ho hstatus⟩
  · rw [hbody] at hl
    obtain ⟨hnew, -, hfailed⟩ := hl
    have hget (j : String) : n.tasks.get? j = if j = task.id then some task else m.tasks.get? j := by
      rw [htasks, Dict.get?_set]
    refine ⟨fun id t ht => ?_, fun id t ht => ?_, fun id o status ho hstatus => ?_⟩
    · have ht := (hget id).symm.trans ht
      split_ifs at ht with hid
      · rw [hid, ← Option.some.inj ht]
      · exact h.keyed id t ht
    · have ht := (hget id).symm.trans ht
      split_ifs at ht with hid
      · cases ht
        exact hfailed
      · exact h.superseded id t ht
    · have hne : id ≠ task.id := fun heq => hnew (heq ▸ Dict.mem_keys_iff.2 ⟨o, ho⟩)
      exact ((hget id).trans (if_neg hne)).trans (h.frozen id o status ho hstatus)
  · obtain ⟨active, hactive, hstatus⟩ := active_of_progress hl hprogress
    have hid := Task.of_authority hauthority Task.id fun _ => rfl
    have hsupersedes := Task.of_authority hauthority Task.supersedesTaskId fun _ => rfl
    refine ⟨fun j t ht => ?_, fun j t ht => ?_, fun j o status ho hsettled => ?_⟩
    · have ht := (hget j).symm.trans ht
      split_ifs at ht with hj
      · rw [hj, ← Option.some.inj ht, hid, h.keyed id task htask]
      · exact h.keyed j t ht
    · have ht := (hget j).symm.trans ht
      split_ifs at ht with hj
      · cases ht
        rw [hsupersedes]
        exact h.superseded id task htask
      · exact h.superseded j t ht
    · have hne : j ≠ id := by
        rintro rfl
        rw [ho] at hactive
        cases hactive
        rw [hsettled] at hstatus
        rcases hstatus with hstatus | hstatus <;> cases hstatus
      exact ((hget j).trans (if_neg hne)).trans (h.frozen j o status ho hsettled)

/-- Lawful events keep a state consistent. -/
theorem consistent_replay {es : List KernelEvent}
    (hl : ∀ e ∈ es, Lawful contract s e.body) (h : Consistent s)
    (hreplay : replay State.apply s es = some t) : Consistent t :=
  (replay_induction (fun _ e _ he hp happly => progressed_apply (hl e he) hp happly)
    h.progressed hreplay).consistent

end Progressed

/-! ## Gate-backed criteria -/

section Gates

variable {contract : RunContract} {s t : State}

/-- **Lawful events satisfy a gate-backed criterion only by verifying it.** -/
theorem gate_replay {es : List KernelEvent} (hl : ∀ e ∈ es, Lawful contract s e.body)
    (hreplay : replay State.apply s es = some t) (id : String) (c' : Criterion)
    (hc' : t.criteria.get? id = some c') (hgate : c'.adjudication = .deterministicVerification) :
    ∃ c, s.criteria.get? id = some c ∧ c.adjudication = .deterministicVerification ∧
      (c'.satisfied = true → c.satisfied = true ∨
        ∃ e ∈ es, ∃ ref, e.body = .criterionGateVerified id ref) := by
  refine replay_induction (P := fun m => ∀ id c', m.criteria.get? id = some c' →
      c'.adjudication = .deterministicVerification →
      ∃ c, s.criteria.get? id = some c ∧ c.adjudication = .deterministicVerification ∧
        (c'.satisfied = true → c.satisfied = true ∨
          ∃ e ∈ es, ∃ ref, e.body = .criterionGateVerified id ref))
    (fun m e t he hm happly id c' hc' hgate => ?_)
    (fun id c' hc' hgate => ⟨c', hc', hgate, .inl⟩) hreplay id c' hc' hgate
  obtain ⟨n, hn, rfl⟩ := map_eq_some_iff.1 happly
  have hlawful := hl e he
  obtain hbody | ⟨c, hc, hgains, hcase⟩ := criterion_applyBody hn id c' hc'
  · rw [hbody] at hlawful
    exact absurd (hgate.symm.trans hlawful.2.2) (by decide)
  · obtain ⟨old, hold, holdGate, hsatisfied⟩ := hm id c hc (hgains.1 ▸ hgate)
    refine ⟨old, hold, holdGate, fun hnow => ?_⟩
    obtain rfl | hclaim := hcase
    · exact hsatisfied hnow
    · cases hbody : e.body with
      | criterionGateVerified id' ref =>
        rw [hbody] at hclaim
        obtain rfl : id' = id := hclaim
        exact .inr ⟨e, he, ref, hbody⟩
      | taskResultRecorded task result promotions =>
        rw [hbody] at hclaim hlawful
        cases promotions with
        | none => exact hclaim.elim
        | some p =>
          -- no result may claim a gate-backed criterion
          obtain ⟨coverage, hmem, rfl, hstatus⟩ := hclaim
          obtain ⟨c₀, hc₀, hne⟩ := hlawful.2 p rfl coverage hmem
          rw [hold] at hc₀
          cases hc₀
          exact absurd holdGate (hne hstatus)
      | _ =>
        rw [hbody] at hclaim
        exact hclaim.elim

end Gates

/-! ## Evidence of the verification owner -/

/-- Output of a verification command, by the verification owner, with an exit code. -/
def OwnerEvidence (catalog : EvidenceCatalog) (ref : String) (code : ℤ) : Prop :=
  ∃ record content, catalog.records.get? ref = some record ∧
    record.kind = gateVerificationEvidenceKind ∧ record.producerTaskId = gateVerificationOwner ∧
    catalog.content.get? ref = some content ∧ (content.get? "exit_code").bind pyInt? = some code

theorem ownerEvidence_of_ok {catalog : EvidenceCatalog} {ref : String} {expectPassing : Bool}
    (h : verificationOwnerEvidence catalog ref expectPassing = .ok ()) :
    ∃ code, OwnerEvidence catalog ref code ∧ (code = 0 ↔ expectPassing = true) := by
  rw [verificationOwnerEvidence] at h
  split at h
  · cases h
  rename_i record hrecord
  split at h
  · cases h
  rename_i hkind
  split at h
  · cases h
  rename_i hproducer
  split at h
  · cases h
  rename_i code hcode
  obtain ⟨value, hvalue, hint⟩ := bind_eq_some_iff.1 hcode
  obtain ⟨content, hcontent, hexit⟩ := bind_eq_some_iff.1 hvalue
  refine ⟨code, ⟨record, content, hrecord, not_not.1 hkind, not_not.1 hproducer, hcontent, ?_⟩, ?_⟩
  · rw [hexit]
    exact hint
  · split at h
    · cases h
    rename_i hpassing
    split at h
    · cases h
    rename_i hfailing
    cases expectPassing with
    | true => exact iff_of_true (not_not.1 fun hne => hpassing ⟨rfl, hne⟩) rfl
    | false => exact iff_of_false (fun heq => hfailing ⟨Bool.false_ne_true, heq⟩) Bool.false_ne_true

/-! ## The run status -/

section Status

variable {setting : Setting} {contract : RunContract} {k : Kernel} {op : Operation} {s t : State}
  {es : List KernelEvent}

/-- A terminal run accepts the end of its session, and no other command. -/
theorem type_of_terminal {catalog : EvidenceCatalog} {command : CommandEnvelope}
    (h : Accepts contract k catalog command)
    (hterminal : k.state.status ∈ [RunStatus.succeeded, .failed, .cancelled]) :
    command.type = .coordinatorSessionEnd := by
  by_contra hne
  have henvelope := h.2
  rw [State.validateEnvelope] at henvelope
  split_ifs at henvelope with h₁ h₂ h₃
  exact h₃ ⟨hterminal, hne⟩

/-- The events that a terminal run can still see. -/
def EventBody.Late (b : EventBody) : Prop :=
  b.commandType? = none ∨ b.commandType? = some .coordinatorSessionEnd

theorem Appends.late (h : Appends setting k op es)
    (hterminal : k.state.status ∈ [RunStatus.succeeded, .failed, .cancelled]) :
    ∀ e ∈ es, e.body.Late := by
  intro e he
  cases h with
  | committed haccepts heval =>
    obtain ⟨p, hp, -, hbody, -⟩ := mem_newEvents he
    obtain ⟨b, hb, rfl⟩ := mem_map.1 hp
    rw [hbody]
    exact .inr (type_of_terminal haccepts hterminal ▸ ((yields_evaluate _ heval).2 b hb).1)
  | recorded hrecorded =>
    obtain ⟨p, hp, -, hbody, -⟩ := mem_newEvents he
    exact .inl (hbody ▸ (hrecorded.lawful p hp).1)

/-- Of these, only a failed gate verification moves the status, and only from success. -/
theorem nextStatus_late {b : EventBody} (h : b.Late) (status : RunStatus) :
    b.nextStatus status = status ∨
      (∃ ids ref, b = .runGateVerificationFailed ids ref) ∧ status = .succeeded ∧
        b.nextStatus status = .blocked := by
  cases b with
  | runGateVerificationFailed ids ref =>
    by_cases hs : status = .succeeded
    · exact .inr ⟨⟨ids, ref, rfl⟩, hs, if_pos hs⟩
    · exact .inl (if_neg hs)
  | operatorInputRequested | runCompleted | runBlocked | runPaused | runResumed | runCancelled =>
    rcases h with h | h <;> cases h
  | _ => exact .inl rfl

/-- Once the obligations are met, a late event is quiet: no task is left that it could move. -/
theorem quiet_of_done {b : EventBody} (hd : Done contract s) (hl : Lawful contract s b)
    (hb : b.Late) : b.quiet = true := by
  cases hprogress : b.progress? with
  | some id =>
    obtain ⟨task, htask, hactive⟩ := active_of_progress hl hprogress
    have hsettled := hd.settled task (Dict.mem_values_iff.2 ⟨id, htask⟩)
    rcases hactive with hactive | hactive
    · exact absurd hactive hsettled.1
    · exact absurd hactive hsettled.2
  | none =>
    cases b with
    | criterionGateVerified | runCompleted | runGateVerificationFailed | coordinatorSessionEnded
    | administrative => rfl
    | taskStarted | taskOrphaned | taskResultRecorded => cases hprogress
    | recoveryRequested kind reason payload =>
      cases kind <;> rcases hb with hb | hb <;> cases hb
    | _ => rcases hb with hb | hb <;> cases hb

theorem quiet_of_complete {b : EventBody} (hb : b.commandType? = some .runCompleteRequest) :
    b.quiet = true := by
  cases b with
  | runCompleted | administrative => rfl
  | recoveryRequested kind reason payload => cases kind <;> cases hb
  | _ => cases hb

theorem done_replay (hquiet : ∀ e ∈ es, e.body.quiet = true) (hd : Done contract s)
    (hreplay : replay State.apply s es = some t) : Done contract t := by
  refine replay_induction (P := Done contract) (fun m e t he hm happly => ?_) hd hreplay
  obtain ⟨n, hn, rfl⟩ := map_eq_some_iff.1 happly
  obtain ⟨hcriteria, hsettled, hrequired, hdisposed, hartifacts⟩ := done_of_quiet (hquiet e he) hn hm
  exact ⟨hcriteria, hsettled, hrequired, hdisposed, hartifacts⟩

theorem status_apply {e : KernelEvent} (h : s.apply e = some t) :
    t.status = e.body.nextStatus s.status := by
  obtain ⟨n, hn, rfl⟩ := map_eq_some_iff.1 h
  have hstatus := status_applyBody hn
  exact hstatus

/-- A run that was not succeeded succeeds by completing. -/
theorem completed_of_succeeded (hs : s.status ≠ .succeeded) (ht : t.status = .succeeded)
    (hreplay : replay State.apply s es = some t) : ∃ e ∈ es, e.body = .runCompleted := by
  by_contra hnone
  refine absurd ht (replay_induction (P := fun m => m.status ≠ .succeeded)
    (fun m e t he hm happly => ?_) hs hreplay)
  rw [status_apply happly]
  have hne : e.body ≠ .runCompleted := fun heq => hnone ⟨e, he, heq⟩
  cases hbody : e.body with
  | runCompleted => exact absurd hbody hne
  | runGateVerificationFailed ids ref =>
    rw [EventBody.nextStatus, if_neg hm]
    exact hm
  | operatorInputRequested | runBlocked | runPaused | runResumed | runCancelled =>
    exact RunStatus.noConfusion
  | _ => exact hm

/-- **Success is sound at every move.** -/
theorem done_of_appends (hc : Consistent k.state)
    (hd : k.state.status = .succeeded → Done setting.contract k.state)
    (h : Appends setting k op es) (i : ℕ)
    (hreplay : replay State.apply k.state (es.take i) = some t) (ht : t.status = .succeeded) :
    Done setting.contract t := by
  have hlawful := h.lawful
  by_cases hs : k.state.status = .succeeded
  · have hlate := h.late (by rw [hs]; exact mem_cons_self)
    refine done_replay (fun e he => ?_) (hd hs) hreplay
    have he := mem_of_mem_take he
    exact quiet_of_done (hd hs) (hlawful e he) (hlate e he)
  · obtain ⟨e, he, hbody⟩ := completed_of_succeeded hs ht hreplay
    have he := mem_of_mem_take he
    -- the completion was decided on the obligations, and comes with no other event
    have hgates : Lawful setting.contract k.state .runCompleted := hbody ▸ hlawful e he
    refine done_replay (fun e' he' => ?_) (done_of_completionFailures hc hgates) hreplay
    have he' := mem_of_mem_take he'
    cases h with
    | @committed catalog command effects haccepts heval =>
      have htype {e' : KernelEvent} (he' : e' ∈ commitEvents k setting.contract command effects) :
          e'.body.commandType? = some command.type := by
        obtain ⟨p, hp, -, hbody', -⟩ := mem_newEvents he'
        obtain ⟨b, hb, rfl⟩ := mem_map.1 hp
        exact hbody' ▸ ((yields_evaluate _ heval).2 b hb).1
      have hcomplete := htype he
      rw [hbody] at hcomplete
      exact quiet_of_complete ((htype he').trans hcomplete.symm)
    | recorded hrecorded =>
      obtain ⟨p, hp, -, hbody', -⟩ := mem_newEvents he
      have hnone := (hrecorded.lawful p hp).1
      rw [← hbody', hbody] at hnone
      cases hnone

/-- Along late events the status stays, but for a success that a failed gate verification ends. -/
theorem status_replay_late (hlate : ∀ e ∈ es, e.body.Late)
    (hreplay : replay State.apply s es = some t) :
    t.status = s.status ∨ s.status = .succeeded ∧ t.status = .blocked ∧
      ∃ e ∈ es, ∃ ids ref, e.body = .runGateVerificationFailed ids ref := by
  refine replay_induction (P := fun m => m.status = s.status ∨ s.status = .succeeded ∧
      m.status = .blocked ∧ ∃ e ∈ es, ∃ ids ref, e.body = .runGateVerificationFailed ids ref)
    (fun m e t he hm happly => ?_) (.inl rfl) hreplay
  rw [status_apply happly]
  obtain hsame | ⟨⟨ids, ref, hbody⟩, hsucceeded, hblocked⟩ :=
    nextStatus_late (hlate e he) m.status
  · rwa [hsame]
  · obtain hm | ⟨hs, -⟩ := hm
    · exact .inr ⟨hm ▸ hsucceeded, hblocked, e, he, ids, ref, hbody⟩
    · exact .inr ⟨hs, hblocked, e, he, ids, ref, hbody⟩

theorem yields_prepareResult_progress {validate : SemanticValidator} {catalog : EvidenceCatalog}
    (id : String) (result : TaskResult) :
    Yields (fun b => b.progress?.isSome = true) (s.prepareResult validate catalog id result) := by
  rw [State.prepareResult]
  split
  · exact yields_error
  simp only [yields_ite, yields_error, implies_true, true_and, yields_ok]
  refine fun _ _ => ⟨fun _ => rfl, fun _ => ?_⟩
  split
  · exact yields_ok.2 rfl
  split
  · exact yields_error
  · exact yields_ok.2 rfl

/-- Where the trusted events about gates come from. -/
theorem Appends.gateEvent (h : Appends setting k op es) {e : KernelEvent} (he : e ∈ es) :
    (∀ id ref, e.body = .criterionGateVerified id ref → ∃ catalog ids,
      op = .recordGateVerification catalog ids ref ∧ id ∈ ids ∧ OwnerEvidence catalog ref 0) ∧
    (∀ ids ref, e.body = .runGateVerificationFailed ids ref → ∃ catalog ids code,
      op = .recordGateVerificationFailure catalog ids ref ∧ OwnerEvidence catalog ref code ∧
        code ≠ 0) := by
  cases h with
  | @committed catalog command effects haccepts heval =>
    obtain ⟨p, hp, -, hbody, -⟩ := mem_newEvents he
    obtain ⟨b, hb, rfl⟩ := mem_map.1 hp
    have htype : e.body.commandType? = some command.type :=
      hbody ▸ ((yields_evaluate _ heval).2 b hb).1
    constructor
    · intro id ref heq
      rw [heq] at htype
      cases htype
    · intro ids ref heq
      rw [heq] at htype
      cases htype
  | recorded hrecorded =>
    obtain ⟨p, hp, -, hbody, -⟩ := mem_newEvents he
    rw [hbody]
    cases hrecorded with
    | results hbodies =>
      have hresult := (yields_mapM (p := fun _ (b : EventBody) => b.progress?.isSome = true)
        (fun r : String × TaskResult => yields_prepareResult_progress r.1 r.2) _ _ hbodies).1 p.2
        (of_mem_zip hp).2
      obtain ⟨-, -, hprogress⟩ := hresult
      constructor
      · intro id ref heq
        rw [heq] at hprogress
        cases hprogress
      · intro ids ref heq
        rw [heq] at hprogress
        cases hprogress
    | started _ _ =>
      obtain ⟨id, -, rfl⟩ := mem_map.1 hp
      exact ⟨fun _ _ => EventBody.noConfusion, fun _ _ => EventBody.noConfusion⟩
    | @verified catalog ids ref _ hevidence _ =>
      obtain ⟨id, hid, rfl⟩ := mem_map.1 hp
      refine ⟨fun id' ref' heq => ?_, fun _ _ => EventBody.noConfusion⟩
      obtain ⟨rfl, rfl⟩ := EventBody.criterionGateVerified.inj heq
      obtain ⟨code, howner, hcode⟩ := ownerEvidence_of_ok hevidence
      exact ⟨catalog, ids, rfl, mem_eraseDups.1 hid, hcode.2 rfl ▸ howner⟩
    | @failed catalog ids ref _ hevidence _ =>
      obtain rfl := mem_singleton.1 hp
      refine ⟨fun _ _ => EventBody.noConfusion, fun ids' ref' heq => ?_⟩
      obtain ⟨rfl, rfl⟩ := EventBody.runGateVerificationFailed.inj heq
      obtain ⟨code, howner, hcode⟩ := ownerEvidence_of_ok hevidence
      exact ⟨catalog, ids, code, rfl, howner, fun hzero => Bool.false_ne_true (hcode.1 hzero)⟩

end Status

/-! ## Success soundness -/

/-- The criteria of the run contract, as `__init__` reads them. -/
def readRunCriteria : Dict String Criterion → List Json → Except String (Dict String Criterion)
  | earlier, [] => .ok earlier
  | earlier, item :: rest =>
    match readCriterion item true with
    | .error e => .error e
    | .ok c =>
      if earlier.contains c.id then .error ("duplicate run criterion: " ++ c.id)
      else readRunCriteria (earlier.set c.id c) rest

theorem unsatisfied_of_readRunCriteria (items : List Json) {earlier : Dict String Criterion}
    (hearlier : ∀ id c, earlier.get? id = some c → c.satisfied = false) :
    Yields (fun criteria : Dict String Criterion =>
      ∀ id c, criteria.get? id = some c → c.satisfied = false) (readRunCriteria earlier items) := by
  induction items generalizing earlier with
  | nil => exact yields_ok.2 hearlier
  | cons item rest ih =>
    rw [readRunCriteria]
    split
    · exact yields_error
    · rename_i c hc
      split
      · exact yields_error
      · refine ih fun id c' hc' => ?_
        rw [Dict.get?_set] at hc'
        split_ifs at hc' with hid
        · cases hc'
          exact (yields_readCriterion item true c hc).1
        · exact hearlier id c' hc'

section Soundness

variable {setting : Setting} {criteria : Dict String Criterion} {artifacts : Dict String Artifact}
  {k : Kernel}

theorem sound_of_reached
    (h : Reached setting (initialState setting.contract criteria artifacts) k) :
    Consistent k.state ∧ (k.state.status = .succeeded → Done setting.contract k.state) := by
  refine h.invariant (P := fun s => Consistent s ∧
    (s.status = .succeeded → Done setting.contract s)) rfl ?_ ?_ ?_
  · rintro s m ⟨⟨hkeyed, hsuperseded⟩, hd⟩
    refine ⟨⟨hkeyed, hsuperseded⟩, fun hs => ?_⟩
    obtain ⟨hcriteria, hsettled, hrequired, hdisposed, hartifacts⟩ := hd hs
    exact ⟨hcriteria, hsettled, hrequired, hdisposed, hartifacts⟩
  · refine ⟨⟨fun id t ht => ?_, fun id t ht => ?_⟩, RunStatus.noConfusion⟩
    · cases ht
    · cases ht
  · rintro k op es i t ⟨hc, hd⟩ happends hreplay
    refine ⟨consistent_replay (fun e he => happends.lawful e (mem_of_mem_take he)) hc hreplay,
      done_of_appends hc hd happends i hreplay⟩

end Soundness

end HarnessLabs.Controller
