import Mathlib.Data.List.Basic

/-!
# Indistinguishable states

A deterministic system takes inputs one after the other and shows a part of its state. Two states
are indistinguishable when they show the same now and behind every list of inputs.

* `Indistinguishable.of_bisimulation` — **a relation that every input keeps, and whose states show
  the same, holds between indistinguishable states only.**
* `indistinguishable_iff_of_refines` — a system and one that refines it distinguish the same.
-/

namespace HarnessLabs.Behaviour

universe u v w x

variable {I : Type u} {S : Type v} {T : Type w} {O : Type x}

def Indistinguishable (step : S → I → S) (shown : S → O) (a b : S) : Prop :=
  ∀ inputs : List I, shown (inputs.foldl step a) = shown (inputs.foldl step b)

theorem Indistinguishable.of_bisimulation {step : S → I → S} {shown : S → O} {R : S → S → Prop}
    (hstep : ∀ a b i, R a b → R (step a i) (step b i)) (hshown : ∀ a b, R a b → shown a = shown b)
    {a b : S} (h : R a b) : Indistinguishable step shown a b := by
  intro inputs
  induction inputs generalizing a b with
  | nil => exact hshown a b h
  | cons i rest ih => exact ih (hstep a b i h)

section Refinement

variable {step : S → I → S} {abstractStep : T → I → T} {R : S → T → Prop}

/-- The run of a system stays above that of the system that refines it. -/
theorem refines_foldl (hstep : ∀ a t i, R a t → R (step a i) (abstractStep t i)) (inputs : List I)
    {a : S} {t : T} (h : R a t) : R (inputs.foldl step a) (inputs.foldl abstractStep t) := by
  induction inputs generalizing a t with
  | nil => exact h
  | cons i rest ih => exact ih (hstep a t i h)

theorem indistinguishable_iff_of_refines {shown : S → O} {P : Type*} {abstractShown : T → P}
    (hstep : ∀ a t i, R a t → R (step a i) (abstractStep t i))
    (hshown : ∀ a t b u, R a t → R b u → (shown a = shown b ↔ abstractShown t = abstractShown u))
    {a b : S} {t u : T} (ha : R a t) (hb : R b u) :
    Indistinguishable step shown a b ↔ Indistinguishable abstractStep abstractShown t u :=
  forall_congr' fun inputs =>
    hshown _ _ _ _ (refines_foldl hstep inputs ha) (refines_foldl hstep inputs hb)

end Refinement

end HarnessLabs.Behaviour
