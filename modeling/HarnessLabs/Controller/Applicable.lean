import HarnessLabs.Controller.Durable
import HarnessLabs.Controller.Lawful

/-!
# Accepted operations are applicable

The events of an accepted operation name entities that the state has, and no event takes an entity
away. So the events of a commit always apply, one after the other.

* `Names` — the entities that an event must find.
* `replay_of_names` — **events that find their entities apply, one after the other.**
* `Lawful.names` — the events of an accepted operation find them.
-/

namespace HarnessLabs.Controller

open EventLog

/-! ## Events and the entities they name -/

/-- The state has every entity that the event looks up. -/
def Names (s : State) : EventBody → Prop
  | .criterionGateVerified id _ => id ∈ s.criteria.keys
  | .taskStarted id => id ∈ s.tasks.keys
  | .taskOrphaned id _ _ _ _ => id ∈ s.tasks.keys
  | .findingDispositionRecorded d => d.findingId ∈ s.findings.keys
  | .taskResultRecorded id _ promotions => id ∈ s.tasks.keys ∧
      ∀ p, promotions = some p → ∀ c ∈ p.criterionCoverage, c.criterionId ∈ s.criteria.keys
  | _ => True

/-- Every entity of `s` is in `t`, and no event was counted in between. -/
structure Keeps (s t : State) : Prop where
  count : t.kernelEventCount = s.kernelEventCount
  tasks : ∀ id ∈ s.tasks.keys, id ∈ t.tasks.keys
  criteria : ∀ id ∈ s.criteria.keys, id ∈ t.criteria.keys
  findings : ∀ id ∈ s.findings.keys, id ∈ t.findings.keys

theorem Keeps.refl (s : State) : Keeps s s := ⟨rfl, fun _ h => h, fun _ h => h, fun _ h => h⟩

theorem Keeps.trans {s t u : State} (h : Keeps s t) (h' : Keeps t u) : Keeps s u :=
  ⟨h'.count.trans h.count, fun id hid => h'.tasks id (h.tasks id hid),
    fun id hid => h'.criteria id (h.criteria id hid),
    fun id hid => h'.findings id (h.findings id hid)⟩

theorem Names.keeps {s t : State} (h : Keeps s t) {b : EventBody} (hn : Names s b) : Names t b := by
  cases b with
  | criterionGateVerified id ref => exact h.criteria id hn
  | taskStarted id => exact h.tasks id hn
  | taskOrphaned id attempt session outcome evidence => exact h.tasks id hn
  | findingDispositionRecorded d => exact h.findings _ hn
  | taskResultRecorded id result promotions =>
    exact ⟨h.tasks id hn.1, fun p hp c hc => h.criteria _ (hn.2 p hp c hc)⟩
  | _ => trivial

section Apply

variable {s : State}

theorem mem_keys_set_of_mem {K V : Type} [DecidableEq K] {d : Dict K V} {k j : K} {v : V}
    (h : j ∈ d.keys) : j ∈ (d.set k v).keys := Dict.mem_keys_set.2 (.inr h)

theorem updateTask_of_mem {id : String} (f : Task → Task) (h : id ∈ s.tasks.keys) :
    ∃ t, s.updateTask id f = some t ∧ Keeps s t := by
  obtain ⟨task, ht⟩ := Dict.mem_keys_iff.1 h
  refine ⟨{ s with tasks := s.tasks.set id (f task) }, ?_, rfl, fun j hj => ?_, fun _ hj => hj,
    fun _ hj => hj⟩
  · rw [State.updateTask, ht]
    rfl
  · exact mem_keys_set_of_mem hj

theorem updateCriterion_of_mem {id : String} (f : Criterion → Criterion) (h : id ∈ s.criteria.keys) :
    ∃ t, s.updateCriterion id f = some t ∧ Keeps s t := by
  obtain ⟨c, hc⟩ := Dict.mem_keys_iff.1 h
  refine ⟨{ s with criteria := s.criteria.set id (f c) }, ?_, rfl, fun _ hj => hj, fun j hj => ?_,
    fun _ hj => hj⟩
  · rw [State.updateCriterion, hc]
    rfl
  · exact mem_keys_set_of_mem hj

theorem updateFinding_of_mem {id : String} (f : Finding → Finding) (h : id ∈ s.findings.keys) :
    ∃ t, s.updateFinding id f = some t ∧ Keeps s t := by
  obtain ⟨x, hx⟩ := Dict.mem_keys_iff.1 h
  refine ⟨{ s with findings := s.findings.set id (f x) }, ?_, rfl, fun _ hj => hj,
    fun _ hj => hj, fun j hj => ?_⟩
  · rw [State.updateFinding, hx]
    rfl
  · exact mem_keys_set_of_mem hj

theorem coverCriteria_of_mem (taskId : String) {coverage : List Coverage}
    (h : ∀ c ∈ coverage, c.criterionId ∈ s.criteria.keys) :
    ∃ t, s.coverCriteria taskId coverage = some t ∧ Keeps s t := by
  induction coverage generalizing s with
  | nil => exact ⟨s, rfl, .refl s⟩
  | cons c rest ih =>
    obtain ⟨hc, hrest⟩ := List.forall_mem_cons.1 h
    obtain ⟨m, hm, hk⟩ := updateCriterion_of_mem (·.covered taskId c) hc
    obtain ⟨t, ht, hk'⟩ := ih (s := m) fun c' hc' => hk.criteria _ (hrest c' hc')
    exact ⟨t, by rw [State.coverCriteria, hm]; exact ht, hk.trans hk'⟩

theorem keeps_promote (s : State) (p : Promotions) : Keeps s (s.promote p) := by
  refine ⟨rfl, fun _ hj => hj, fun _ hj => hj, ?_⟩
  have key : ∀ (l : List Finding) (d : Dict String Finding), ∀ id ∈ d.keys,
      id ∈ (l.foldl (fun acc (f : Finding) => acc.set f.id f) d).keys := by
    intro l
    induction l with
    | nil => exact fun _ _ h => h
    | cons f l ih =>
      intro d id hid
      exact ih _ id (mem_keys_set_of_mem hid)
  exact key p.findings s.findings

theorem recordResult_of_mem {id : String} {result : TaskResult} {promotions : Option Promotions}
    (hid : id ∈ s.tasks.keys)
    (hp : ∀ p, promotions = some p → ∀ c ∈ p.criterionCoverage, c.criterionId ∈ s.criteria.keys) :
    ∃ t, s.recordResult id result promotions = some t ∧ Keeps s t := by
  obtain ⟨m, hm, hk⟩ := updateTask_of_mem (s := s) (fun task =>
    { task with status := .settled result.status, result := some result.payload
                evidence := result.evidence }) hid
  rw [State.recordResult, hm]
  cases promotions with
  | none => exact ⟨m, rfl, hk⟩
  | some p =>
    obtain ⟨n, hn, hk'⟩ := updateTask_of_mem (s := m)
      (fun task => { task with summary := some p.summary }) (hk.tasks id hid)
    have hkn := (hk.trans hk').trans (keeps_promote n p)
    obtain ⟨t, ht, hk''⟩ := coverCriteria_of_mem (s := n.promote p) id
      fun c hc => hkn.criteria _ (hp p rfl c hc)
    refine ⟨t, ?_, hkn.trans hk''⟩
    show m.applyPromotions id p = some t
    rw [State.applyPromotions, hn]
    exact ht

/-- **An event that finds its entities applies, and keeps them.** -/
theorem applyBody_of_names {b : EventBody} (h : Names s b) :
    ∃ t, s.applyBody b = some t ∧ Keeps s t := by
  cases b with
  | criterionGateVerified id ref => exact updateCriterion_of_mem _ h
  | taskStarted id => exact updateTask_of_mem _ h
  | taskOrphaned id attempt session outcome evidence => exact updateTask_of_mem _ h
  | findingDispositionRecorded d => exact updateFinding_of_mem _ h
  | taskResultRecorded id result promotions => exact recordResult_of_mem h.1 h.2
  | criterionRegistered c =>
    exact ⟨{ s with criteria := s.criteria.set c.id c }, rfl, rfl, fun _ hj => hj,
      fun _ hj => mem_keys_set_of_mem hj, fun _ hj => hj⟩
  | taskRegistered task =>
    exact ⟨{ s with tasks := s.tasks.set task.id task }, rfl, rfl,
      fun _ hj => mem_keys_set_of_mem hj, fun _ hj => hj, fun _ hj => hj⟩
  | runGateVerificationFailed ids ref =>
    by_cases hs : s.status = .succeeded
    · have happly : s.applyBody (.runGateVerificationFailed ids ref) = some _ :=
        congrArg some (if_pos hs)
      exact ⟨_, happly, rfl, fun _ hj => hj, fun _ hj => hj, fun _ hj => hj⟩
    · exact ⟨s, congrArg some (if_neg hs), .refl s⟩
  | _ => exact ⟨_, rfl, rfl, fun _ hj => hj, fun _ hj => hj, fun _ hj => hj⟩

/-- Named events apply one after the other, each counted. -/
theorem replay_of_names {es : List KernelEvent} (h : ∀ e ∈ es, Names s e.body) :
    ∃ t, replay State.apply s es = some t ∧ t.kernelEventCount = s.kernelEventCount + es.length := by
  induction es generalizing s with
  | nil => exact ⟨s, rfl, rfl⟩
  | cons e es ih =>
    obtain ⟨he, hes⟩ := List.forall_mem_cons.1 h
    obtain ⟨m, hm, hk⟩ := applyBody_of_names he
    have happly : s.apply e = some { m with kernelEventCount := m.kernelEventCount + 1 } := by
      rw [State.apply, hm]
      rfl
    obtain ⟨t, ht, hc⟩ := ih (s := { m with kernelEventCount := m.kernelEventCount + 1 })
      fun e' he' => (hes e' he').keeps ⟨hk.count, hk.tasks, hk.criteria, hk.findings⟩
    refine ⟨t, (replay_cons_of happly es).trans ht, ?_⟩
    rw [hc, List.length_cons]
    show m.kernelEventCount + 1 + es.length = _
    rw [hk.count]
    omega

end Apply

/-! ## What handlers return -/

/-- The events of a command: there is one, and each finds its entities. -/
def Admitted (s : State) (effects : Effects) : Prop :=
  effects.1 ≠ [] ∧ ∀ b ∈ effects.1, b.fromCommand = true ∧ Names s b

/-- The events of a trusted operation: none is a command's, and each finds its entities. -/
def Trusted (s : State) (bodies : List (String × EventBody)) : Prop :=
  ∀ p ∈ bodies, p.2.fromCommand = false ∧ Names s p.2

/-- A lawful event finds its entities. -/
theorem Lawful.names {contract : RunContract} {s : State} {b : EventBody}
    (h : Lawful contract s b) : Names s b := by
  cases b with
  | criterionGateVerified id ref =>
    obtain ⟨c, hc, -⟩ := h
    exact Dict.mem_keys_iff.2 ⟨c, hc⟩
  | taskStarted id =>
    obtain ⟨task, htask, -⟩ := h
    exact Dict.mem_keys_iff.2 ⟨task, htask⟩
  | taskOrphaned id attempt session outcome evidence =>
    obtain ⟨task, htask, -⟩ := h
    exact Dict.mem_keys_iff.2 ⟨task, htask⟩
  | findingDispositionRecorded d => exact h
  | taskResultRecorded id result promotions =>
    obtain ⟨⟨task, htask, -⟩, hcoverage⟩ := h
    refine ⟨Dict.mem_keys_iff.2 ⟨task, htask⟩, fun p hp coverage hmem => ?_⟩
    obtain ⟨c, hc, -⟩ := hcoverage p hp coverage hmem
    exact Dict.mem_keys_iff.2 ⟨c, hc⟩
  | _ => trivial

theorem LawfulEffects.admitted {contract : RunContract} {s : State} {type : CommandType}
    {effects : Effects} (h : LawfulEffects contract s type effects) : Admitted s effects := by
  refine ⟨h.1, fun b hb => ⟨?_, (h.2 b hb).2.names⟩⟩
  rw [EventBody.fromCommand_eq, (h.2 b hb).1]
  rfl

theorem Recorded.trusted {setting : Setting} {k : Kernel} {op : Operation}
    {bodies : List (String × EventBody)} (h : Recorded setting k op bodies) :
    Trusted k.state bodies := by
  refine fun p hp => ⟨?_, (h.lawful p hp).2.names⟩
  rw [EventBody.fromCommand_eq, (h.lawful p hp).1]
  rfl

end HarnessLabs.Controller
