import HarnessLabs.Controller.Replay
import HarnessLabs.Controller.Success

/-!
# Halted runs

A paused or blocked run is meant to wait for an operator. Pausing and resuming check the run
status; completing checks the obligations alone, so a coordinator completes a halted run whose
obligations are met.

* `Appends.wakes` — an event that takes a run to running or succeeded comes of a resume or of a
  completion.
* `halted_iff_never_completed` — **without an operator a run stays halted exactly as long as no
  completion is accepted on met obligations.**
-/

namespace HarnessLabs.Controller

open EventLog

/-- Neither running nor succeeded. -/
def RunStatus.Held (status : RunStatus) : Prop := status ≠ .running ∧ status ≠ .succeeded

/-- The operation is a command of the operator. -/
def Operation.ByOperator : Operation → Prop
  | .handle _ command => command.actor.role = .operator
  | _ => False

/-- The kernel accepts the completion of the run. -/
def Completes (setting : Setting) (k : Kernel) : Operation → Prop
  | .handle catalog command => command.type = .runCompleteRequest ∧
      Accepts setting.contract k catalog command ∧
      k.state.completionFailures setting.contract = []
  | _ => False

section Wake

variable {initial : State} {setting : Setting} {k : Kernel} {op : Operation} {s t : State}
  {es : List KernelEvent}

theorem nextStatus_held {b : EventBody} {status : RunStatus} (h : status.Held)
    (hresumed : b.commandType? ≠ some .runResume)
    (hcompleted : b.commandType? ≠ some .runCompleteRequest) : (b.nextStatus status).Held := by
  cases b with
  | runResumed reason => exact absurd rfl hresumed
  | runCompleted => exact absurd rfl hcompleted
  | runGateVerificationFailed ids ref =>
    rw [EventBody.nextStatus, if_neg h.2]
    exact h
  | operatorInputRequested | runBlocked | runPaused | runCancelled =>
    exact ⟨RunStatus.noConfusion, RunStatus.noConfusion⟩
  | _ => exact h

/-- The role that an accepted command is issued under may issue it. -/
theorem Accepts.allowed {contract : RunContract} {catalog : EvidenceCatalog}
    {command : CommandEnvelope} (h : Accepts contract k catalog command) :
    ∃ allowed, allowedCommands command.actor.role = some allowed ∧ command.type ∈ allowed := by
  have henvelope := h.2
  rw [State.validateEnvelope] at henvelope
  split_ifs at henvelope with hrun hrevision hterminal
  split at henvelope
  · cases henvelope
  · rename_i allowed hallowed
    split_ifs at henvelope with htype
    exact ⟨allowed, hallowed, htype⟩

theorem operator_of_resume {role : Role} {allowed : List CommandType}
    (hallowed : allowedCommands role = some allowed) (h : CommandType.runResume ∈ allowed) :
    role = .operator := by
  cases role with
  | operator => rfl
  | other name => cases hallowed
  | runCoordinator | dispatcher | worker =>
    cases hallowed
    revert h
    decide

/-- What takes a run to running or to succeeded is a resume or a completion. -/
theorem Appends.wakes (h : Appends setting k op es) (hop : ¬ op.ByOperator)
    (hcompletes : ¬ Completes setting k op) :
    ∀ e ∈ es, e.body.commandType? ≠ some .runResume ∧
      e.body.commandType? ≠ some .runCompleteRequest := by
  intro e he
  cases h with
  | @committed catalog command effects haccepts heval =>
    obtain ⟨p, hp, -, hbody, -⟩ := mem_newEvents he
    obtain ⟨b, hb, rfl⟩ := List.mem_map.1 hp
    have htype : e.body.commandType? = some command.type :=
      hbody ▸ ((yields_evaluate _ heval).2 b hb).1
    rw [htype]
    constructor
    · intro hresume
      obtain ⟨allowed, hallowed, hmem⟩ := haccepts.allowed
      rw [Option.some.inj hresume] at hmem
      exact hop (operator_of_resume hallowed hmem)
    · intro hcomplete
      have hcomplete := Option.some.inj hcomplete
      rw [State.evaluate, hcomplete] at heval
      refine hcompletes ⟨hcomplete, haccepts, ?_⟩
      by_contra hfailures
      simp [runComplete, hfailures] at heval
  | recorded hrecorded =>
    obtain ⟨p, hp, -, hbody, -⟩ := mem_newEvents he
    rw [hbody, (hrecorded.lawful p hp).1]
    simp

theorem held_replay (hs : s.status.Held)
    (hes : ∀ e ∈ es, e.body.commandType? ≠ some .runResume ∧
      e.body.commandType? ≠ some .runCompleteRequest)
    (hreplay : replay State.apply s es = some t) : t.status.Held := by
  refine replay_induction (P := fun m => m.status.Held) (fun m e t he hm happly => ?_) hs hreplay
  rw [status_apply happly]
  exact nextStatus_held hm (hes e he).1 (hes e he).2

/-- The step: without the operator a held run stays held, unless it is completed. -/
theorem held_step (hs : k.Sound initial) (hk : k.state.status.Held) (hop : ¬ op.ByOperator)
    (hcompletes : ¬ Completes setting k op) :
    (k.step setting op).kernel.state.status.Held := by
  obtain ⟨-, es, hes, -, t, ht, hstate⟩ := moves_cases hs (moves_step hs setting op)
  rw [hstate]
  show t.status.Held
  obtain rfl | ⟨all, happends, i, rfl⟩ := hes
  · cases ht
    exact hk
  · exact held_replay hk
      (fun e he => happends.wakes hop hcompletes e (List.mem_of_mem_take he)) ht

/-- A completion on met obligations succeeds, whatever the run status was. -/
theorem succeeded_of_completes (hs : k.Sound initial) (h : Completes setting k op) :
    (k.step setting op).kernel.state.status = .succeeded := by
  cases op with
  | handle catalog command =>
    obtain ⟨htype, ⟨hfresh, henvelope⟩, hfailures⟩ := h
    have heval : k.state.evaluate setting.contract catalog command =
        .ok ([.runCompleted], ["run:" ++ setting.contract.runId]) := by
      rw [State.evaluate, htype]
      simp [runComplete, hfailures]
    obtain ⟨t, ht, -⟩ := commit_applies setting.contract command hs
      (yields_evaluate _ heval).admitted
    have hstep : k.step setting (.handle catalog command) = k.commit setting.contract command
        ([.runCompleted], ["run:" ++ setting.contract.runId]) := by
      simp [Kernel.step, Kernel.handle, hfresh, henvelope, heval]
    rw [hstep, commit_eq ht]
    obtain ⟨m, hm, hlast⟩ := Option.bind_eq_some_iff.1 ht
    cases hlast
    exact status_apply hm
  | _ => exact h.elim

end Wake

/-! ## Runs -/

section Run

variable {initial : State} {setting : Setting} {k : Kernel}

/-- The run: while no completion is accepted, every prefix of the operations leaves it held. -/
theorem held_run (hs : k.Sound initial) (hk : k.state.status.Held) {ops : List Operation}
    (hops : ∀ op ∈ ops, ¬ op.ByOperator)
    (hnever : ∀ before op behind, ops = before ++ op :: behind →
      ¬ Completes setting (k.run setting before) op) : (k.run setting ops).state.status.Held := by
  induction ops using List.reverseRecOn with
  | nil => exact hk
  | append_singleton ops op ih =>
    rw [Kernel.run_append]
    refine held_step (hs.run setting ops) (ih (fun x hx => hops x (List.mem_append_left _ hx)) ?_)
      (hops op (List.mem_append_right _ (List.mem_singleton_self op))) (hnever ops op [] rfl)
    intro before x behind hsplit
    refine hnever before x (behind ++ [op]) ?_
    rw [hsplit, List.append_assoc, List.cons_append]

/-- **A halted run and its completion.** A reached run that is paused or blocked is given any
operations of which no command is the operator's. It becomes running or succeeded behind none of
them exactly when no completion is accepted on met obligations; resuming it takes the operator. -/
theorem halted_iff_never_completed {criteria : Dict String Criterion}
    {artifacts : Dict String Artifact}
    (h : Reached setting (initialState setting.contract criteria artifacts) k)
    (hk : k.state.status = .paused ∨ k.state.status = .blocked) {ops : List Operation}
    (hops : ∀ op ∈ ops, ¬ op.ByOperator) :
    (∀ n, (k.run setting (ops.take n)).state.status ≠ .running ∧
      (k.run setting (ops.take n)).state.status ≠ .succeeded) ↔
    ∀ before op behind, ops = before ++ op :: behind →
      ¬ Completes setting (k.run setting before) op := by
  have hs := h.sound rfl
  have hheld : k.state.status.Held := by
    rcases hk with hk | hk <;> rw [hk] <;> exact ⟨RunStatus.noConfusion, RunStatus.noConfusion⟩
  constructor
  · intro hstays before op behind hsplit hcompletes
    have hpre : ops.take (before.length + 1) = before ++ [op] := by
      rw [hsplit, List.take_append]
      simp
    have hlast := (hstays (before.length + 1)).2
    rw [hpre, Kernel.run_append] at hlast
    exact hlast (succeeded_of_completes (hs.run setting before) hcompletes)
  · intro hnever n
    refine held_run hs hheld (fun op hop => hops op (List.mem_of_mem_take hop)) ?_
    intro before op behind hsplit
    refine hnever before op (behind ++ ops.drop n) ?_
    rw [← List.cons_append, ← List.append_assoc, ← hsplit, List.take_append_drop]

end Run

section Example

/-- The operator pauses the run. -/
def examplePause : Operation :=
  .handle ⟨∅, ∅⟩ { exampleCommand .runPause .null 0 with actor := ⟨"operator", .operator, none⟩ }

/-- The coordinator asks for its completion. -/
def exampleCompletion : Operation :=
  .handle ⟨∅, ∅⟩ { exampleCommand .runCompleteRequest .null 1 with idempotencyKey := "key-2" }

def pausedKernel : Kernel := ((⟨exampleState, []⟩ : Kernel).step exampleSetting examplePause).kernel

theorem reached_pausedKernel : Reached exampleSetting exampleState pausedKernel :=
  Reached.start.step rfl examplePause

theorem halted_iff_never_completed_paused :
    (∀ n, (pausedKernel.run exampleSetting ([exampleCompletion].take n)).state.status ≠ .running ∧
      (pausedKernel.run exampleSetting ([exampleCompletion].take n)).state.status ≠ .succeeded) ↔
    ∀ before op behind, [exampleCompletion] = before ++ op :: behind →
      ¬ Completes exampleSetting (pausedKernel.run exampleSetting before) op :=
  halted_iff_never_completed reached_pausedKernel
    (.inl (by decide +kernel)) (by simp [exampleCompletion, Operation.ByOperator, exampleCommand])

/-- The coordinator completes a paused run. -/
theorem coordinator_completes_paused_run :
    Reached exampleSetting exampleState pausedKernel ∧ pausedKernel.state.status = .paused ∧
      ¬ exampleCompletion.ByOperator ∧
      (pausedKernel.run exampleSetting [exampleCompletion]).state.status = .succeeded :=
  ⟨reached_pausedKernel, by decide +kernel,
    by simp [exampleCompletion, Operation.ByOperator, exampleCommand], by decide +kernel⟩

end Example

end HarnessLabs.Controller
