import HarnessLabs.PlanGraph.Progress

/-!
# What a repair successor inherits

A successor takes the candidates of the nodes that it reuses over from its predecessor. What the
predecessor's nodes owe it does not.

* `Inherits` — what a node of the predecessor still owes is owed by the successor's node.
* `successor_inherits_iff` — **a successor inherits exactly when the predecessor's nodes that are
  launched again owe nothing.**
-/

namespace HarnessLabs.PlanGraph

universe u

variable {C : Type u} [DecidableEq C]

/-- What the predecessor's nodes owe that the successor does not reuse is owed under the same key,
from the same source, by the same node. -/
def Inherits (predecessor : AttemptState C) (reused : Dict String C) (obligations : Obligations) :
    Prop :=
  ∀ node, node ∉ reused.keys → ∀ o ∈ predecessor.findingObligations.owed node,
    ∃ o' ∈ obligations.owed node, o'.key = o.key ∧ o'.source = o.source

/-- The obligations survive the opening of the successor, and every run of it up to the first
launch. -/
def Survives [PartialOrder C] [DecidableLE C] (g : Controller C) (predecessor : AttemptState C)
    (successor : Successor C) : Prop :=
  Inherits predecessor successor.reused (loadFindingObligations successor.audit) ∧
  (∀ l, SequentialRun g successor.audit l → l.state.requests = [] →
    Inherits predecessor successor.reused l.state.obligations) ∧
  ∀ l, ReadySetRun g successor.audit l → l.state.requests = [] →
    Inherits predecessor successor.reused l.state.obligations

/-- A new attempt begins without obligations. -/
theorem obligations_openSuccessor {plan : PlanGraphPlan C} {predecessor : AttemptState C}
    {inherited : Dict String C} {frontier : List String} {attemptId : String}
    {successor : Successor C}
    (h : openSuccessor plan predecessor inherited frontier attemptId = .ok successor) :
    loadFindingObligations successor.audit = ∅ := by
  rw [openSuccessor] at h
  split_ifs at h
  cases hselection : repairSelection predecessor inherited frontier with
  | error message =>
    rw [hselection] at h
    cases h
  | ok selection =>
    rw [hselection] at h
    cases h
    rfl

/-- **Succession.** A successor inherits what the predecessor's nodes owe exactly when those that it
does not reuse owe nothing. -/
theorem successor_inherits_iff [PartialOrder C] [DecidableLE C] (g : Controller C)
    {predecessor : AttemptState C} {inherited : Dict String C} {frontier : List String}
    {attemptId : String} {successor : Successor C}
    (h : openSuccessor g.plan predecessor inherited frontier attemptId = .ok successor) :
    Survives g predecessor successor ↔
      ∀ node, node ∉ successor.reused.keys → predecessor.findingObligations.owed node = [] := by
  constructor
  · rintro ⟨hloaded, -⟩ node hnode
    rw [obligations_openSuccessor h] at hloaded
    refine List.eq_nil_iff_forall_not_mem.2 fun o ho => ?_
    obtain ⟨o', ho', -⟩ := hloaded node hnode o ho
    exact List.not_mem_nil ho'
  · intro hnone
    have hinherits : ∀ obligations, Inherits predecessor successor.reused obligations := by
      intro obligations node hnode o ho
      rw [hnone node hnode] at ho
      exact absurd ho List.not_mem_nil
    exact ⟨hinherits _, fun _ _ _ => hinherits _, fun _ _ _ => hinherits _⟩

/-! ## An open finding that is lost -/

/-- A node stops with an open finding. -/
def openFindingTurn : Turn (Finset ℕ) where
  launch := .ok
    { outcome :=
      { status := "failed"
        evidence := .obj [("review_fix", .obj [("open_findings",
          .arr [.obj [("key", .str "src/a:unchecked")]])])] } }

/-- The attempt that its first node ends. -/
def failedAttempt : Option (SequentialLoop (Finset ℕ)) :=
  Inputs.runInputs (sequentialStep pairController)
    (.start pairController
      { audit := initialState pairPlan "graph" ∅ none, completed := ∅, obligations := ∅ })
    [openFindingTurn]

theorem successor_inherits_iff_fresh :
    Survives pairController
        ((initialState pairPlan "graph" ∅ none).finalize .failed)
        ⟨carryBarriers ((initialState pairPlan "graph" ∅ none).finalize .failed)
          (initialState pairPlan "graph-attempt-1" ∅ (some "graph")), ∅⟩ ↔
      ∀ node, node ∉ (∅ : Dict String (Finset ℕ)).keys →
        ((initialState pairPlan "graph" ∅ none).finalize .failed).findingObligations.owed node = [] :=
  have hopened : openSuccessor pairPlan ((initialState pairPlan "graph" ∅ none).finalize .failed)
      (∅ : Dict String (Finset ℕ)) ["a"] "graph-attempt-1" =
        .ok ⟨carryBarriers ((initialState pairPlan "graph" ∅ none).finalize .failed)
          (initialState pairPlan "graph-attempt-1" ∅ (some "graph")), ∅⟩ := rfl
  successor_inherits_iff pairController hopened

/-- The successor of the failed attempt launches the node again, without its open finding. -/
theorem successor_drops_finding : ∃ l successor,
    SequentialRun pairController (initialState pairPlan "graph" ∅ none) l ∧
      l.ending.isSome = true ∧
      openSuccessor pairPlan l.state.audit ∅ ["a"] "graph-attempt-1" = .ok successor ∧
      ¬ Survives pairController l.state.audit successor := by
  have hsome : failedAttempt.isSome = true := by decide +kernel
  obtain ⟨l, hl⟩ := Option.isSome_iff_exists.1 hsome
  have hended : (failedAttempt.bind (·.ending)).isSome = true := by decide +kernel
  have howes : (failedAttempt.map fun l => (l.state.audit.findingObligations.owed "a").map (·.key)) =
      some ["src/a:unchecked"] := by decide +kernel
  have hopened : (failedAttempt.map fun l =>
      match openSuccessor pairPlan l.state.audit ∅ ["a"] "graph-attempt-1" with
      | .ok successor => decide ("a" ∉ successor.reused.keys)
      | .error _ => false) = some true := by decide +kernel
  rw [hl] at hended howes hopened
  cases hsuccessor : openSuccessor pairPlan l.state.audit ∅ ["a"] "graph-attempt-1" with
  | error message =>
    rw [Option.map_some, hsuccessor] at hopened
    cases hopened
  | ok successor =>
    rw [Option.map_some, hsuccessor, Option.some_inj, decide_eq_true_eq] at hopened
    refine ⟨l, successor, ⟨_, ⟨fun id => Iff.rfl, rfl, [], rfl⟩, Inputs.runs_of_runInputs hl⟩,
      hended, hsuccessor, ?_⟩
    rintro ⟨hloaded, -⟩
    rw [obligations_openSuccessor hsuccessor] at hloaded
    obtain ⟨o, ho⟩ : ∃ o, o ∈ l.state.audit.findingObligations.owed "a" := by
      refine List.exists_mem_of_ne_nil _ fun hnil => ?_
      rw [Option.map_some, hnil] at howes
      cases howes
    obtain ⟨o', ho', -⟩ := hloaded "a" hopened o ho
    exact List.not_mem_nil ho'

end HarnessLabs.PlanGraph
