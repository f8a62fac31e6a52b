import Mathlib.Logic.Function.Iterate
import Mathlib.Data.Nat.Find
import Mathlib.Tactic

/-!
# Saturation

A pass that is repeated while it changes something. When every changing pass makes a bounded size
grow, the repetition ends, and in a state that the pass leaves alone.

* `EndsIn` — the loop `while changed`.
* `endsIn_iterate` — **as many passes as the size can grow are enough.**
* `Adds.foldl` — a pass that goes over a list and adds something at some of its members.
-/

namespace HarnessLabs.Saturate

universe u v

variable {σ : Type u} {α : Type v}

/-! ## The loop -/

/-- The loop `while changed` from `s` ends in `t`: every pass up to `t` changes something, and
another pass does not. -/
structure EndsIn (pass : σ → σ) (s t : σ) : Prop where
  passes : ∃ k, t = pass^[k] s ∧ ∀ j < k, pass (pass^[j] s) ≠ pass^[j] s
  settled : pass t = t

/-- What every pass keeps holds where the loop ends. -/
theorem EndsIn.invariant {pass : σ → σ} {s t : σ} (h : EndsIn pass s t) {P : σ → Prop}
    (step : ∀ s, P s → P (pass s)) (hs : P s) : P t := by
  obtain ⟨k, rfl, -⟩ := h.passes
  exact Function.Iterate.rec P hs step k

section Bounded

variable {pass : σ → σ} {size : σ → ℕ} {P : σ → Prop} {n : ℕ}

section

variable (keep : ∀ s, P s → P (pass s)) (grow : ∀ s, P s → pass s = s ∨ size s < size (pass s))
  (bound : ∀ s, P s → size s ≤ n) {s : σ} (hs : P s)

include keep grow bound hs

theorem exists_settled : ∃ k ≤ n, pass (pass^[k] s) = pass^[k] s := by
  by_contra hnone
  push Not at hnone
  have hkeep : ∀ k, P (pass^[k] s) := fun k => Function.Iterate.rec P hs keep k
  have hsize : ∀ k ≤ n + 1, k ≤ size (pass^[k] s) := by
    intro k
    induction k with
    | zero => exact fun _ => Nat.zero_le _
    | succ k ih =>
      intro hk
      have hlt := (grow _ (hkeep k)).resolve_left (hnone k (by omega))
      rw [Function.iterate_succ_apply']
      omega
  have hmore := hsize (n + 1) le_rfl
  have hless := bound _ (hkeep (n + 1))
  omega

/-- **The loop ends within the bound**, so that any greater number of passes gives its state. -/
theorem endsIn_iterate : EndsIn pass s (pass^[n] s) := by
  classical
  have hexists := exists_settled keep grow bound hs
  have hfind : ∃ k, pass (pass^[k] s) = pass^[k] s := ⟨_, hexists.choose_spec.2⟩
  have hle : Nat.find hfind ≤ n :=
    (Nat.find_min' hfind hexists.choose_spec.2).trans hexists.choose_spec.1
  have hsettled := Nat.find_spec hfind
  have heq : pass^[n] s = pass^[Nat.find hfind] s := by
    obtain ⟨m, hm⟩ := Nat.exists_eq_add_of_le hle
    rw [hm, Nat.add_comm, Function.iterate_add_apply]
    exact Function.iterate_fixed hsettled m
  refine ⟨⟨Nat.find hfind, heq, fun j hj => Nat.find_min hfind hj⟩, ?_⟩
  rw [heq]
  exact hsettled

end

end Bounded

/-! ## Passes over a list -/

/-- Visiting a member changes nothing or makes the state grow. -/
def Adds (size : σ → ℕ) (step : σ → α → σ) : Prop :=
  ∀ s x, step s x = s ∨ size s < size (step s x)

variable {size : σ → ℕ} {step : σ → α → σ}

theorem Adds.size_le (h : Adds size step) (l : List α) (s : σ) :
    size s ≤ size (l.foldl step s) := by
  induction l generalizing s with
  | nil => exact le_rfl
  | cons x l ih =>
    rcases h s x with heq | hlt
    · rw [List.foldl_cons, heq]
      exact ih s
    · exact hlt.le.trans (ih (step s x))

/-- **A pass grows, or none of its visits changes anything.** -/
theorem Adds.foldl (h : Adds size step) (l : List α) (s : σ) :
    (l.foldl step s = s ∧ ∀ x ∈ l, step s x = s) ∨ size s < size (l.foldl step s) := by
  induction l generalizing s with
  | nil => exact .inl ⟨rfl, List.forall_mem_nil _⟩
  | cons x l ih =>
    rw [List.foldl_cons]
    rcases h s x with heq | hlt
    · rw [heq]
      rcases ih s with ⟨hfold, hvisits⟩ | hlt
      · exact .inl ⟨hfold, List.forall_mem_cons.2 ⟨heq, hvisits⟩⟩
      · exact .inr hlt
    · exact .inr (hlt.trans_le (h.size_le l (step s x)))

/-- Where a pass changes nothing, none of its visits does. -/
theorem Adds.settled (h : Adds size step) {l : List α} {s : σ} (hfold : l.foldl step s = s) :
    ∀ x ∈ l, step s x = s := by
  rcases h.foldl l s with ⟨-, hvisits⟩ | hlt
  · exact hvisits
  · rw [hfold] at hlt
    exact absurd hlt (lt_irrefl _)

theorem Adds.grow (h : Adds size step) (l : List α) (s : σ) :
    l.foldl step s = s ∨ size s < size (l.foldl step s) :=
  (h.foldl l s).imp And.left id

end HarnessLabs.Saturate
