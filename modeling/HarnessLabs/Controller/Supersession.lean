import HarnessLabs.Controller.Forest
import HarnessLabs.Controller.SemanticResult

/-!
# Chains of replacements

A failed task may be replaced by a new one, and the new one by another when it fails too. Completion
asks for every required task that it succeeded, or that a task that replaces it did.

* `Replaces`, `ChainSucceeds` — a replacement, and a chain of them that ends in success.
* `Reported` — completion names the task among the failures.
* `reported_iff` — **completion looks one replacement ahead.**
* `discharge_iff` — a failed task is discharged along its chains exactly when no success lies behind
  its own replacements only.
-/

namespace HarnessLabs.Controller

open EventLog List

/-! ## Chains -/

/-- The task `new` supersedes the task `old`. -/
def Replaces (s : State) (old new : String) : Prop :=
  ∃ u, s.tasks.get? new = some u ∧ u.supersedesTaskId = some old

def HasSucceeded (s : State) (id : String) : Prop :=
  ∃ u, s.tasks.get? id = some u ∧ u.status = .settled .succeeded

/-- A chain of tasks, each superseding the previous one, leads from the task to a success. -/
def ChainSucceeds (s : State) (id : String) : Prop :=
  ∃ last, Relation.ReflTransGen (Replaces s) id last ∧ HasSucceeded s last

/-- A task that replaces this one has succeeded. -/
def ReplacedBySuccess (s : State) (id : String) : Prop :=
  ∃ new, Replaces s id new ∧ HasSucceeded s new

/-- Completion reports that the required task did not succeed. -/
def Reported (contract : RunContract) (s : State) (id : String) : Prop :=
  "required task did not succeed: " ++ id ∈ s.completionFailures contract

section Reports

variable {contract : RunContract} {s : State} {id : String} {task : Task}

theorem append_ne_of_take {start other text text' : String} (n : ℕ)
    (h : start.toList.take n ≠ other.toList.take n) (hstart : n ≤ start.toList.length)
    (hother : n ≤ other.toList.length) : start ++ text ≠ other ++ text' := by
  intro heq
  refine h ?_
  have hlists := congrArg (fun t : String => t.toList.take n) heq
  simpa only [String.toList_append, take_append_of_le_length hstart,
    take_append_of_le_length hother] using hlists

theorem mem_supersededTaskIds_iff : id ∈ s.supersededTaskIds ↔ ReplacedBySuccess s id := by
  rw [mem_supersededTaskIds]
  constructor
  · intro ⟨u, hu, hstatus, hid⟩
    obtain ⟨new, hnew⟩ := Dict.mem_values_iff.1 hu
    exact ⟨new, ⟨u, hnew, hid⟩, u, hnew, hstatus⟩
  · intro ⟨new, ⟨u, hnew, hid⟩, u', hnew', hstatus⟩
    cases hnew.symm.trans hnew'
    exact ⟨u, Dict.mem_values_iff.2 ⟨new, hnew⟩, hstatus, hid⟩

theorem start_of_findingFailure {f : Finding} {text : String} (h : text ∈ findingFailure f) :
    ∃ start ∈ ["finding is unresolved: ", "critical finding is deferred: "],
      text = start ++ f.id := by
  rw [findingFailure] at h
  split_ifs at h with hskipped
  · split at h
    · exact ⟨_, by simp, mem_singleton.1 h⟩
    · rcases mem_append.1 h with h | h
      · split_ifs at h
        · exact ⟨_, by simp, mem_singleton.1 h⟩
        · cases h
      · split_ifs at h
        · exact ⟨_, by simp, mem_singleton.1 h⟩
        · cases h
  · cases h

/-- What completion can say of a task. -/
def taskStarts : List String := ["task is still active: ", "required task did not succeed: "]

/-- Only the failures of tasks speak of a task. -/
theorem mem_completionFailures_iff {start : String} (hstart : start ∈ taskStarts) :
    start ++ id ∈ s.completionFailures contract ↔
      ∃ t ∈ s.tasks.values, start ++ id ∈ taskFailure s.supersededTaskIds t := by
  have hother (other : String) (hmem : other ∈ ["criterion ", "terminal artifact is missing: ",
      "finding is unresolved: ", "critical finding is deferred: "]) (text : String) :
      start ++ id ≠ other ++ text := by
    have hall : ∀ a ∈ taskStarts, ∀ b ∈ ["criterion ", "terminal artifact is missing: ",
        "finding is unresolved: ", "critical finding is deferred: "],
        a.toList.take 2 ≠ b.toList.take 2 ∧ 2 ≤ a.toList.length ∧ 2 ≤ b.toList.length := by
      decide
    obtain ⟨hne, ha, hb⟩ := hall start hstart other hmem
    exact append_ne_of_take 2 hne ha hb
  rw [State.completionFailures]
  simp only [mem_append, mem_flatMap]
  constructor
  · rintro (((h | h) | h) | h)
    · obtain ⟨c, -, hc⟩ := mem_map.1 h
      rw [String.append_assoc] at hc
      exact absurd hc.symm (hother _ (by simp) _)
    · obtain ⟨kind, -, hkind⟩ := mem_map.1 h
      exact absurd hkind.symm (hother _ (by simp) _)
    · exact h
    · obtain ⟨f, -, hf⟩ := h
      obtain ⟨other, hmem, heq⟩ := start_of_findingFailure hf
      exact absurd heq (hother other (mem_cons_of_mem _ (mem_cons_of_mem _ hmem)) _)
  · exact fun h => .inl (.inr h)

section

variable (hkeyed : ∀ id t, s.tasks.get? id = some t → t.id = id)
  (htask : s.tasks.get? id = some task) {status : AttemptStatus}
  (hsettled : task.status = .settled status)

include hkeyed htask hsettled

/-- Completion says nothing of a settled task but that it did not succeed. -/
theorem not_active_of_settled :
    "task is still active: " ++ id ∉ s.completionFailures contract := by
  rw [mem_completionFailures_iff (mem_cons_self)]
  intro ⟨t, ht, hmem⟩
  obtain ⟨tid, htid⟩ := Dict.mem_values_iff.1 ht
  rw [taskFailure] at hmem
  split_ifs at hmem with hsuperseded hactive hfailed
  · cases hmem
  · have heq := String.append_right_inj _ |>.1 (mem_singleton.1 hmem)
    rw [hkeyed tid t htid] at heq
    rw [← heq, htask] at htid
    cases htid
    rw [hsettled] at hactive
    rcases hactive with h | h <;> cases h
  · exact absurd (mem_singleton.1 hmem)
      (append_ne_of_take 2 (by decide) (by decide) (by decide))
  · cases hmem

/-- **Completion looks one replacement ahead.** -/
theorem reported_iff (hstatus : status ≠ .succeeded) (hrequired : task.optional = false) :
    Reported contract s id ↔ ¬ ReplacedBySuccess s id := by
  have hid := hkeyed id task htask
  rw [Reported, mem_completionFailures_iff (mem_cons_of_mem _ mem_cons_self),
    ← mem_supersededTaskIds_iff]
  constructor
  · intro ⟨t, ht, hmem⟩
    rw [taskFailure] at hmem
    split_ifs at hmem with hsuperseded hactive hfailed
    · exact absurd hmem not_mem_nil
    · exact absurd (mem_singleton.1 hmem)
        (append_ne_of_take 2 (by decide) (by decide) (by decide))
    · have heq := String.append_right_inj _ |>.1 (mem_singleton.1 hmem)
      rwa [heq]
    · exact absurd hmem not_mem_nil
  · intro hnot
    refine ⟨task, Dict.mem_values_iff.2 ⟨id, htask⟩, ?_⟩
    have hne : task.status ≠ .settled .succeeded := by
      rw [hsettled]
      exact fun heq => hstatus (TaskStatus.settled.inj heq)
    have hactive : ¬ (task.status = .ready ∨ task.status = .running) := by
      rw [hsettled]
      simp
    rw [taskFailure, if_neg (hid ▸ hnot), if_neg hactive, if_pos ⟨hne, by simp [hrequired]⟩, hid]
    exact mem_singleton_self _

end

end Reports

/-! ## Discharge along a chain -/

section Discharge

variable {setting : Setting} {criteria : Dict String Criterion} {artifacts : Dict String Artifact}
  {k : Kernel} {id : String} {task : Task}

/-- A task that has not succeeded is discharged by the first replacement of a chain, or by a later
one. -/
theorem chainSucceeds_iff {s : State} (hnot : ¬ HasSucceeded s id) :
    ChainSucceeds s id ↔ ReplacedBySuccess s id ∨
      ∃ new last, Replaces s id new ∧ Relation.TransGen (Replaces s) new last ∧
        HasSucceeded s last := by
  constructor
  · intro ⟨last, hchain, hlast⟩
    obtain rfl | ⟨new, hnew, hrest⟩ := Relation.ReflTransGen.cases_head hchain
    · exact absurd hlast hnot
    · obtain rfl | hrest := Relation.reflTransGen_iff_eq_or_transGen.1 hrest
      · exact .inl ⟨_, hnew, hlast⟩
      · exact .inr ⟨new, last, hnew, hrest, hlast⟩
  · rintro (⟨new, hnew, hsucceeded⟩ | ⟨new, last, hnew, hrest, hsucceeded⟩)
    · exact ⟨new, .single hnew, hsucceeded⟩
    · exact ⟨last, .head hnew hrest.to_reflTransGen, hsucceeded⟩

/-- **A required failed task is discharged along its chains of replacements exactly when no success
lies only behind its own replacements**: wherever a chain of two or more links ends in a success, a
task that replaces it directly has succeeded too. -/
theorem discharge_iff (h : Reached setting (initialState setting.contract criteria artifacts) k)
    (htask : k.state.tasks.get? id = some task) (hrequired : task.optional = false)
    (hfailed : task.status = .settled .failed) :
    (¬ Reported setting.contract k.state id ↔ ChainSucceeds k.state id) ↔
      ∀ new last, Replaces k.state id new → Relation.TransGen (Replaces k.state) new last →
        HasSucceeded k.state last → ReplacedBySuccess k.state id := by
  have hnot : ¬ HasSucceeded k.state id := by
    intro ⟨u, hu, hsucceeded⟩
    cases htask.symm.trans hu
    rw [hfailed] at hsucceeded
    cases hsucceeded
  rw [reported_iff (forest_of_reached h).keyed htask hfailed (by decide) hrequired, not_not,
    chainSucceeds_iff hnot]
  constructor
  · intro hiff new last hnew hrest hlast
    exact hiff.2 (.inr ⟨new, last, hnew, hrest, hlast⟩)
  · intro hdirect
    refine ⟨.inl, ?_⟩
    rintro (hsuccess | ⟨new, last, hnew, hrest, hlast⟩)
    · exact hsuccess
    · exact hdirect new last hnew hrest hlast

end Discharge

/-! ## A success two replacements away -/

section Retried

def retrySetting : Setting where
  contract := exampleSetting.contract
  validate := validateSemanticResult

/-- The `n`-th attempt at the task, which replaces the one before it. -/
def retryJson (id : String) (supersedes : Option String) : Json :=
  Json.ofMembers [("id", .str id), ("role", .str "implementer"), ("objective", .str "change"),
    ("details_schema", .str "details/1"),
    ("supersedes_task_id", supersedes.elim .null .str)]

def retryCommand (id : String) (supersedes : Option String) (revision : ℕ) : CommandEnvelope :=
  { exampleCommand .taskDispatch (Json.ofMembers [("tasks", .arr [retryJson id supersedes])])
      revision with
    commandId := "dispatch-" ++ id
    idempotencyKey := "dispatch-" ++ id }

/-- The task is dispatched, started, and its result recorded. -/
def attemptOperations (id : String) (supersedes : Option String) (revision : ℕ)
    (status : AttemptStatus) : List Operation :=
  [.handle ⟨∅, ∅⟩ (retryCommand id supersedes revision), .markTasksRunning [id],
    .recordTaskResults ⟨∅, ∅⟩
      [(id, ⟨id ++ "/attempt-1", status, semanticPayload "Built." "details/1", []⟩)]]

/-- The task fails, its replacement fails, and the replacement of that one succeeds. -/
def retriedTwice : Kernel :=
  (attemptOperations "build" none 0 .failed ++
    attemptOperations "build-2" (some "build") 3 .failed ++
    attemptOperations "build-3" (some "build-2") 6 .succeeded).foldl
    (fun k op => (k.step retrySetting op).kernel) ⟨exampleState, []⟩

theorem reached_foldl {setting : Setting} {initial : State} (hzero : initial.kernelEventCount = 0)
    (ops : List Operation) {k : Kernel} (h : Reached setting initial k) :
    Reached setting initial (ops.foldl (fun k op => (k.step setting op).kernel) k) := by
  induction ops generalizing k with
  | nil => exact h
  | cons op ops ih => exact ih (h.step hzero op)

theorem reached_retriedTwice : Reached retrySetting exampleState retriedTwice :=
  reached_foldl rfl _ .start

theorem replaces_of_map {s : State} {old new : String}
    (h : (s.tasks.get? new).map (·.supersedesTaskId) = some (some old)) : Replaces s old new :=
  Option.map_eq_some_iff.1 h

theorem hasSucceeded_of_map {s : State} {id : String}
    (h : (s.tasks.get? id).map (·.status) = some (.settled .succeeded)) : HasSucceeded s id :=
  Option.map_eq_some_iff.1 h

/-- The required task is reported although the chain of its replacements ends in a success. -/
theorem retriedTwice_reported :
    Reached retrySetting exampleState retriedTwice ∧
      (∃ task, retriedTwice.state.tasks.get? "build" = some task ∧ task.optional = false ∧
        task.status = .settled .failed) ∧
      ChainSucceeds retriedTwice.state "build" ∧
      Reported retrySetting.contract retriedTwice.state "build" := by
  refine ⟨reached_retriedTwice, ?_, ⟨"build-3", ?_, hasSucceeded_of_map (by decide +kernel)⟩, ?_⟩
  · have hmap : (retriedTwice.state.tasks.get? "build").map (fun t => (t.optional, t.status)) =
        some (false, .settled .failed) := by decide +kernel
    obtain ⟨task, htask, hpair⟩ := Option.map_eq_some_iff.1 hmap
    exact ⟨task, htask, congrArg Prod.fst hpair, congrArg Prod.snd hpair⟩
  · have hfirst : Replaces retriedTwice.state "build" "build-2" :=
      replaces_of_map (by decide +kernel)
    have hsecond : Replaces retriedTwice.state "build-2" "build-3" :=
      replaces_of_map (by decide +kernel)
    exact .tail (.single hfirst) hsecond
  · show "required task did not succeed: " ++ "build" ∈
      retriedTwice.state.completionFailures retrySetting.contract
    decide +kernel

/-- The replacement of the replacement is its only success, so the task is not discharged. -/
theorem discharge_iff_retriedTwice : ∃ task, retriedTwice.state.tasks.get? "build" = some task ∧
    ((¬ Reported retrySetting.contract retriedTwice.state "build" ↔
        ChainSucceeds retriedTwice.state "build") ↔
      ∀ new last, Replaces retriedTwice.state "build" new →
        Relation.TransGen (Replaces retriedTwice.state) new last →
        HasSucceeded retriedTwice.state last → ReplacedBySuccess retriedTwice.state "build") := by
  have hmap : (retriedTwice.state.tasks.get? "build").map (fun t => (t.optional, t.status)) =
      some (false, .settled .failed) := by decide +kernel
  obtain ⟨task, htask, hpair⟩ := Option.map_eq_some_iff.1 hmap
  exact ⟨task, htask, discharge_iff reached_retriedTwice htask (congrArg Prod.fst hpair)
    (congrArg Prod.snd hpair)⟩

end Retried

end HarnessLabs.Controller
