import HarnessLabs.Controller.Operations

/-!
# Durable state and restart

What is on disk after a sequence of writes, and the kernel that a restart builds from it: the state
of the last checkpoint with the receipts of the journal, and the events behind it applied again.

* `Durable.restore` — the restarted kernel.
* `restore_events`, `restore_receipt`, `restore_checkpoint` — what written events, receipts and
  checkpoints change of it.
-/

namespace HarnessLabs.Controller

open EventLog

structure Durable where
  checkpoint : State
  events : List KernelEvent
  receipts : Dict String CommandReceipt

/-- A write is always possible. Only receipts of accepted commands are loaded. -/
def Durable.write (d : Durable) : Write → Option Durable
  | .controllerEvent event => some { d with events := d.events ++ [event] }
  | .commandProcessed key receipt =>
    some (if receipt.status = .accepted then { d with receipts := d.receipts.set key receipt }
      else d)
  | .commandRejected _ => some d
  | .checkpoint state => some { d with checkpoint := state }

def State.atLeast (s : State) (revision : ℕ) : State :=
  { s with revision := max s.revision revision }

/-- One trailing event of `from_snapshot`. -/
def restoreEvent (s : State) (e : KernelEvent) : Option State :=
  (s.apply e).map fun t => t.atLeast e.revision

/-- The state that the trailing events are applied to. -/
def Durable.base (d : Durable) : State :=
  { d.checkpoint with receipts := d.checkpoint.receipts.update d.receipts }

/-- `restore_controller_checkpoint` and `from_snapshot`. -/
def Durable.restore (d : Durable) : Option Kernel :=
  if d.checkpoint.kernelEventCount ≤ d.events.length then
    (replay restoreEvent d.base (d.events.drop d.checkpoint.kernelEventCount)).map fun s =>
      ⟨s, d.events⟩
  else none

/-! ## Marks

The revision, the receipts and the references of rejected dispatches, which no event reads or
writes. -/

structure Marks where
  revision : ℕ
  receipts : Dict String CommandReceipt
  rejectedTaskDispatchRefs : List String

namespace State

def marks (s : State) : Marks := ⟨s.revision, s.receipts, s.rejectedTaskDispatchRefs⟩

def marked (s : State) (m : Marks) : State :=
  { s with
    revision := m.revision
    receipts := m.receipts
    rejectedTaskDispatchRefs := m.rejectedTaskDispatchRefs }

@[simp] theorem marked_marks (s : State) : s.marked s.marks = s := rfl

@[simp] theorem marks_marked (s : State) (m : Marks) : (s.marked m).marks = m := rfl

@[simp] theorem marked_marked (s : State) (m m' : Marks) : (s.marked m).marked m' = s.marked m' :=
  rfl

end State

section Marked

variable (s : State) (m : Marks)

theorem updateTask_marked (id : String) (f : Task → Task) :
    (s.marked m).updateTask id f = (s.updateTask id f).map (·.marked m) := by
  show (s.tasks.get? id).map _ = ((s.tasks.get? id).map _).map _
  cases s.tasks.get? id <;> rfl

theorem updateCriterion_marked (id : String) (f : Criterion → Criterion) :
    (s.marked m).updateCriterion id f = (s.updateCriterion id f).map (·.marked m) := by
  show (s.criteria.get? id).map _ = ((s.criteria.get? id).map _).map _
  cases s.criteria.get? id <;> rfl

theorem updateFinding_marked (id : String) (f : Finding → Finding) :
    (s.marked m).updateFinding id f = (s.updateFinding id f).map (·.marked m) := by
  show (s.findings.get? id).map _ = ((s.findings.get? id).map _).map _
  cases s.findings.get? id <;> rfl

theorem coverCriteria_marked (taskId : String) (coverage : List Coverage) :
    (s.marked m).coverCriteria taskId coverage =
      (s.coverCriteria taskId coverage).map (·.marked m) := by
  induction coverage generalizing s with
  | nil => rfl
  | cons c rest ih =>
    rw [State.coverCriteria, State.coverCriteria, updateCriterion_marked]
    cases s.updateCriterion c.criterionId (·.covered taskId c) with
    | none => rfl
    | some t => exact ih t

theorem applyPromotions_marked (taskId : String) (p : Promotions) :
    (s.marked m).applyPromotions taskId p = (s.applyPromotions taskId p).map (·.marked m) := by
  rw [State.applyPromotions, State.applyPromotions, updateTask_marked]
  cases s.updateTask taskId _ with
  | none => rfl
  | some t => exact coverCriteria_marked (t.promote p) m taskId p.criterionCoverage

theorem applyBody_marked (body : EventBody) :
    (s.marked m).applyBody body = (s.applyBody body).map (·.marked m) := by
  cases body with
  | criterionGateVerified id ref => exact updateCriterion_marked s m id _
  | taskStarted id => exact updateTask_marked s m id _
  | taskOrphaned id attempt session outcome evidence => exact updateTask_marked s m id _
  | findingDispositionRecorded d => exact updateFinding_marked s m d.findingId _
  | taskResultRecorded id result promotions =>
    rw [State.applyBody, State.applyBody, State.recordResult, State.recordResult, updateTask_marked]
    cases s.updateTask id _ with
    | none => rfl
    | some t =>
      cases promotions with
      | none => rfl
      | some p => exact applyPromotions_marked t m id p
  | runGateVerificationFailed ids ref =>
    show some (if s.status = .succeeded then _ else _) = Option.map _ (some (if _ then _ else _))
    by_cases h : s.status = .succeeded
    · rw [if_pos h, if_pos h]
      rfl
    · rw [if_neg h, if_neg h]
      rfl
  | _ => rfl

/-- Events neither read nor change the marks. -/
theorem apply_marked (e : KernelEvent) :
    (s.marked m).apply e = (s.apply e).map (·.marked m) := by
  rw [State.apply, State.apply, applyBody_marked]
  cases s.applyBody e.body <;> rfl

theorem replay_marked (es : List KernelEvent) :
    replay State.apply (s.marked m) es = (replay State.apply s es).map (·.marked m) := by
  induction es generalizing s with
  | nil => rfl
  | cons e es ih =>
    rw [replay_cons, replay_cons, apply_marked]
    cases s.apply e with
    | none => rfl
    | some t => exact ih t

variable {s}

theorem marks_replay {t : State} {es : List KernelEvent} (h : replay State.apply s es = some t) :
    t.marks = s.marks := by
  have hmap := replay_marked s s.marks es
  rw [State.marked_marks, h] at hmap
  have heq : t = t.marked s.marks := Option.some.inj hmap
  rw [heq, State.marks_marked]

end Marked

/-- The marks behind trailing events: the revision is the highest one seen. -/
def Marks.behind (m : Marks) (es : List KernelEvent) : Marks :=
  { m with revision := es.foldl (fun r e => max r e.revision) m.revision }

/-- A restart applies the trailing events as the kernel did. -/
theorem replay_restoreEvent (s : State) (es : List KernelEvent) :
    replay restoreEvent s es =
      (replay State.apply s es).map (·.marked (s.marks.behind es)) := by
  induction es generalizing s with
  | nil => rfl
  | cons e es ih =>
    rw [replay_cons, replay_cons, restoreEvent]
    cases happly : s.apply e with
    | none => rfl
    | some t =>
      have hone : replay State.apply s [e] = some t := by
        rw [replay_cons_of happly]
        rfl
      have hm : t.marks = s.marks := marks_replay hone
      have hat : t.atLeast e.revision = t.marked (t.marks.behind [e]) := rfl
      show replay restoreEvent (t.atLeast e.revision) es = (replay State.apply t es).map _
      rw [ih, hat, replay_marked, hm]
      cases replay State.apply t es <;> rfl

/-! ## What a write changes -/

section Writes

variable {d : Durable} {k : Kernel}

/-- The restarted kernel: the trailing events on top of the base. -/
theorem restore_eq_some :
    d.restore = some k ↔ d.checkpoint.kernelEventCount ≤ d.events.length ∧ k.events = d.events ∧
      replay restoreEvent d.base (d.events.drop d.checkpoint.kernelEventCount) = some k.state := by
  unfold Durable.restore
  by_cases hle : d.checkpoint.kernelEventCount ≤ d.events.length
  · rw [if_pos hle]
    constructor
    · intro h
      obtain ⟨s, hs, rfl⟩ := Option.map_eq_some_iff.1 h
      exact ⟨hle, rfl, hs⟩
    · rintro ⟨-, hevents, hs⟩
      rw [hs, ← hevents]
      rfl
  · rw [if_neg hle]
    exact ⟨fun h => absurd h (Option.some_ne_none k ∘ Eq.symm), fun h => absurd h.1 hle⟩

/-- Written events are applied by the restart, under the revision that they carry. -/
theorem restore_events (h : d.restore = some k) {es : List KernelEvent} {t : State}
    (ht : replay State.apply k.state es = some t) :
    ({ d with events := d.events ++ es } : Durable).restore =
      some ⟨t.marked (k.state.marks.behind es), k.events ++ es⟩ := by
  obtain ⟨hle, hevents, hs⟩ := restore_eq_some.1 h
  refine restore_eq_some.2 ⟨?_, by rw [hevents], ?_⟩
  · rw [List.length_append]
    exact Nat.le_add_right_of_le hle
  · show replay restoreEvent d.base ((d.events ++ es).drop d.checkpoint.kernelEventCount) = _
    rw [List.drop_append_of_le_length hle, replay_append_of hs, replay_restoreEvent, ht]
    rfl

theorem receipts_of_replay {s t : State} {es : List KernelEvent}
    (h : replay restoreEvent s es = some t) : t.receipts = s.receipts := by
  rw [replay_restoreEvent] at h
  obtain ⟨u, -, rfl⟩ := Option.map_eq_some_iff.1 h
  rfl

/-- A written receipt is held after the restart. -/
theorem restore_receipt (h : d.restore = some k) {key : String} (hnew : key ∉ d.receipts.keys)
    (receipt : CommandReceipt) :
    ({ d with receipts := d.receipts.set key receipt } : Durable).restore =
      some ⟨{ k.state with receipts := k.state.receipts.set key receipt }, k.events⟩ := by
  obtain ⟨hle, hevents, hs⟩ := restore_eq_some.1 h
  refine restore_eq_some.2 ⟨hle, hevents, ?_⟩
  have hbase : ({ d with receipts := d.receipts.set key receipt } : Durable).base =
      d.base.marked { d.base.marks with receipts := d.base.receipts.set key receipt } := by
    have hset := Dict.update_set_of_notMem d.checkpoint.receipts hnew receipt
    exact congrArg (fun receipts => ({ d.checkpoint with receipts } : State)) hset
  rw [replay_restoreEvent] at hs
  obtain ⟨t, ht, htk⟩ := Option.map_eq_some_iff.1 hs
  rw [hbase, replay_restoreEvent, replay_marked, ht, ← htk]
  rfl

/-- A checkpoint of the state with all its events is the state after the restart. -/
theorem restore_checkpoint {s : State} (hcount : s.kernelEventCount = d.events.length)
    (hreceipts : ∀ p ∈ d.receipts.items, s.receipts.get? p.1 = some p.2) :
    ({ d with checkpoint := s } : Durable).restore = some ⟨s, d.events⟩ := by
  refine restore_eq_some.2 ⟨hcount.le, rfl, ?_⟩
  show replay restoreEvent { s with receipts := s.receipts.update d.receipts }
    (d.events.drop s.kernelEventCount) = some s
  have hdrop : d.events.drop s.kernelEventCount = [] := by rw [hcount, List.drop_length]
  rw [hdrop, Dict.update_eq_self hreceipts]
  rfl

/-- The restarted kernel holds the receipts of the journal. -/
theorem receipts_of_restore (h : d.restore = some k) :
    ∀ p ∈ d.receipts.items, k.state.receipts.get? p.1 = some p.2 := by
  obtain ⟨-, -, hs⟩ := restore_eq_some.1 h
  intro p hp
  rw [receipts_of_replay hs]
  exact Dict.get?_update_of_mem d.checkpoint.receipts hp

end Writes

end HarnessLabs.Controller
