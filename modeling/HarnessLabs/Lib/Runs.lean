import Mathlib.Logic.Relation

/-!
# Runs on inputs

A system whose steps depend on inputs from outside: a step takes a state and an input to the next
state, or is not possible. What holds on every run holds for every sequence of inputs.

* `Runs` — the states that some inputs lead to; `RunsUnder` — those that allowed inputs lead to.
* `Runs.invariant` — **what every step preserves holds of every state reached.**
* `allStates_iff_allInputs` — **a run stays among the states of `P` exactly when its inputs are
  allowed**, where an input that is not allowed leaves `P` at once.
-/

namespace HarnessLabs.Inputs

universe u v

variable {I : Type u} {S : Type v} {step : I → S → Option S}

/-- A step on some input. -/
def Step (step : I → S → Option S) (a b : S) : Prop := ∃ i, step i a = some b

/-- `b` is reached from `a`. -/
def Runs (step : I → S → Option S) : S → S → Prop := Relation.ReflTransGen (Step step)

theorem Runs.refl (a : S) : Runs step a a := Relation.ReflTransGen.refl

variable {a b : S} {P : S → Prop} {allowed : S → I → Prop} {inputs : List I}

theorem Runs.tail {c : S} (h : Runs step a b) {i : I} (hstep : step i b = some c) :
    Runs step a c := Relation.ReflTransGen.tail h ⟨i, hstep⟩

/-- **The invariant rule.** -/
theorem Runs.invariant (h : Runs step a b) (hstep : ∀ i x y, step i x = some y → P x → P y)
    (ha : P a) : P b := by
  induction h with
  | refl => exact ha
  | tail _ hlast ih =>
    obtain ⟨i, hi⟩ := hlast
    exact hstep i _ _ hi ih

/-- `b` is reached from `a` by steps whose inputs are allowed in the states before them. -/
def RunsUnder (allowed : S → I → Prop) (step : I → S → Option S) : S → S → Prop :=
  Relation.ReflTransGen fun a b => ∃ i, allowed a i ∧ step i a = some b

theorem RunsUnder.invariant (h : RunsUnder allowed step a b)
    (hstep : ∀ i x y, allowed x i → step i x = some y → P x → P y) (ha : P a) : P b := by
  induction h with
  | refl => exact ha
  | tail _ hlast ih =>
    obtain ⟨i, hallowed, hi⟩ := hlast
    exact hstep i _ _ hallowed hi ih

/-- Every run is one whose inputs are all allowed. -/
theorem Runs.under (h : Runs step a b) : RunsUnder (fun _ _ => True) step a b :=
  Relation.ReflTransGen.mono (fun _ _ ⟨i, hi⟩ => ⟨i, True.intro, hi⟩) _ _ h

/-- The state behind the inputs of a list. -/
def runInputs (step : I → S → Option S) (a : S) : List I → Option S
  | [] => some a
  | i :: rest => (step i a).bind fun b => runInputs step b rest

theorem runs_of_runInputs (h : runInputs step a inputs = some b) :
    Runs step a b := by
  induction inputs generalizing a with
  | nil =>
    obtain rfl := Option.some.inj h
    exact Runs.refl a
  | cons i rest ih =>
    rw [runInputs, Option.bind_eq_some_iff] at h
    obtain ⟨c, hc, hrest⟩ := h
    exact Relation.ReflTransGen.head ⟨i, hc⟩ (ih hrest)

theorem runInputs_concat {c : S} {i : I} (h : runInputs step a inputs = some b)
    (hstep : step i b = some c) :
    runInputs step a (inputs ++ [i]) = some c := by
  induction inputs generalizing a with
  | nil =>
    cases h
    rw [List.nil_append, runInputs, hstep]
    rfl
  | cons first rest ih =>
    rw [runInputs, Option.bind_eq_some_iff] at h
    obtain ⟨x, hx, hrest⟩ := h
    rw [List.cons_append, runInputs, hx]
    exact ih hrest

/-! ## States and inputs of a list -/

/-- `P` holds of the states that a list of inputs goes through, up to one that is not possible. -/
def AllStates (step : I → S → Option S) (P : S → Prop) : S → List I → Prop
  | a, [] => P a
  | a, i :: rest => P a ∧ ∀ b, step i a = some b → AllStates step P b rest

theorem AllStates.of_runInputs (h : AllStates step P a inputs)
    (hrun : runInputs step a inputs = some b) : P b := by
  induction inputs generalizing a with
  | nil =>
    cases hrun
    exact h
  | cons i rest ih =>
    rw [runInputs, Option.bind_eq_some_iff] at hrun
    obtain ⟨c, hc, hrest⟩ := hrun
    exact ih (h.2 c hc) hrest

/-- Every input that is taken is allowed in the state before it. -/
def AllInputs (step : I → S → Option S) (allowed : S → I → Prop) : S → List I → Prop
  | _, [] => True
  | a, i :: rest => ∀ b, step i a = some b → allowed a i ∧ AllInputs step allowed b rest

/-- Allowed inputs lead to a state by allowed steps. -/
theorem AllInputs.runsUnder (h : AllInputs step allowed a inputs)
    (hrun : runInputs step a inputs = some b) :
    RunsUnder allowed step a b := by
  induction inputs generalizing a with
  | nil =>
    cases hrun
    exact Relation.ReflTransGen.refl
  | cons i rest ih =>
    rw [runInputs, Option.bind_eq_some_iff] at hrun
    obtain ⟨c, hc, hrest⟩ := hrun
    obtain ⟨hi, hallowed⟩ := h c hc
    exact Relation.ReflTransGen.head ⟨i, hi, hc⟩ (ih hallowed hrest)

/-- `R` holds between the states before and behind every input that is taken. -/
def AllSteps (step : I → S → Option S) (R : S → I → S → Prop) : S → List I → Prop
  | _, [] => True
  | a, i :: rest => ∀ b, step i a = some b → R a i b ∧ AllSteps step R b rest

theorem AllSteps.of_forall {R : S → I → S → Prop} (h : ∀ a i b, step i a = some b → R a i b)
    (a : S) (inputs : List I) : AllSteps step R a inputs := by
  induction inputs generalizing a with
  | nil => exact True.intro
  | cons i rest ih => exact fun b hb => ⟨h a i b hb, ih b⟩

/-- `R` holds of the step behind any of the inputs. -/
theorem AllSteps.of_runInputs {R : S → I → S → Prop} {i : I} {c : S}
    (h : AllSteps step R a (inputs ++ [i])) (hrun : runInputs step a inputs = some b)
    (hstep : step i b = some c) : R b i c := by
  induction inputs generalizing a with
  | nil =>
    cases hrun
    exact (h c hstep).1
  | cons first rest ih =>
    rw [runInputs, Option.bind_eq_some_iff] at hrun
    obtain ⟨x, hx, hrest⟩ := hrun
    exact ih (h x hx).2 hrest

theorem AllSteps.congr {R R' : S → I → S → Prop}
    (h : ∀ a i b, step i a = some b → (R a i b ↔ R' a i b)) (a : S) (inputs : List I) :
    AllSteps step R a inputs ↔ AllSteps step R' a inputs := by
  induction inputs generalizing a with
  | nil => rfl
  | cons i rest ih =>
    exact forall_congr' fun b => imp_congr_right fun hb => and_congr (h a i b hb) (ih b)

theorem allStates_iff_allInputs (Good : S → Prop) (hgood : ∀ a, Good a → P a)
    (hstep : ∀ i a b, step i a = some b → Good a → (allowed a i → Good b) ∧ (P b → allowed a i))
    (ha : Good a) (inputs : List I) :
    AllStates step P a inputs ↔ AllInputs step allowed a inputs := by
  induction inputs generalizing a with
  | nil => exact iff_of_true (hgood a ha) True.intro
  | cons i rest ih =>
    constructor
    · intro h b hb
      obtain ⟨hkept, hallowed⟩ := hstep i a b hb ha
      have hrest := h.2 b hb
      have hpb : P b := by
        cases rest with
        | nil => exact hrest
        | cons j rest => exact hrest.1
      have hi := hallowed hpb
      exact ⟨hi, (ih (hkept hi)).1 hrest⟩
    · intro h
      refine ⟨hgood a ha, fun b hb => ?_⟩
      obtain ⟨hi, hrest⟩ := h b hb
      exact (ih ((hstep i a b hb ha).1 hi)).2 hrest

end HarnessLabs.Inputs
