import Mathlib.Tactic

/-!
# Computations that may fail

What a fallible computation yields when it succeeds.

* `Yields` — every value that the computation returns has the property.
* `yields_bind` — **the rule for sequences**: what the first part yields, the rest turns into the
  property.
-/

namespace HarnessLabs

universe u v

variable {ε : Type u} {α β : Type v}

/-- Every returned value has the property. -/
def Yields (P : α → Prop) (x : Except ε α) : Prop := ∀ a, x = .ok a → P a

variable {P Q : α → Prop} {R : β → Prop}

@[simp] theorem yields_ok {a : α} : Yields P (.ok a : Except ε α) ↔ P a :=
  ⟨fun h => h a rfl, fun h _ heq => Except.ok.inj heq ▸ h⟩

@[simp] theorem yields_error {e : ε} : Yields P (.error e : Except ε α) := by
  intro a heq
  cases heq

@[simp] theorem yields_pure {a : α} : Yields P (pure a : Except ε α) ↔ P a := yields_ok

@[simp] theorem yields_throw {e : ε} : Yields P (throw e : Except ε α) := yields_error

/-- **The rule for sequences.** -/
@[simp] theorem yields_bind {x : Except ε α} {f : α → Except ε β} :
    Yields R (x >>= f) ↔ Yields (fun a => Yields R (f a)) x := by
  cases x with
  | error e => exact iff_of_true yields_error yields_error
  | ok a => exact (yields_ok (P := fun a => Yields R (f a))).symm

@[simp] theorem yields_map {x : Except ε α} {f : α → β} :
    Yields R (f <$> x) ↔ Yields (fun a => R (f a)) x := by
  cases x with
  | error e => exact iff_of_true yields_error yields_error
  | ok a => exact (yields_ok (P := R)).trans (yields_ok (P := fun a => R (f a))).symm

@[simp] theorem yields_true {x : Except ε α} : Yields (fun _ => True) x := fun _ _ => trivial

@[simp] theorem yields_ite {c : Prop} [Decidable c] {x y : Except ε α} :
    Yields P (if c then x else y) ↔ (c → Yields P x) ∧ (¬ c → Yields P y) := by
  split_ifs with h <;> simp [h]

theorem Yields.mono {x : Except ε α} (h : Yields P x) (hPQ : ∀ a, P a → Q a) : Yields Q x :=
  fun a ha => hPQ a (h a ha)

/-- A list of computations: every value belongs to an element, and every element has a value. -/
theorem yields_mapM {γ : Type v} {f : γ → Except ε α} {p : γ → α → Prop}
    (h : ∀ c, Yields (p c) (f c)) (l : List γ) :
    Yields (fun as => (∀ a ∈ as, ∃ c ∈ l, p c a) ∧ ∀ c ∈ l, ∃ a ∈ as, p c a) (l.mapM f) := by
  induction l with
  | nil => simp
  | cons c l ih =>
    rw [List.mapM_cons]
    simp only [yields_bind, yields_pure]
    intro a ha as has
    obtain ⟨hvalues, helements⟩ := ih as has
    refine ⟨List.forall_mem_cons.2 ⟨⟨c, List.mem_cons_self, h c a ha⟩, fun b hb => ?_⟩,
      List.forall_mem_cons.2 ⟨⟨a, List.mem_cons_self, h c a ha⟩, fun d hd => ?_⟩⟩
    · obtain ⟨d, hd, hp⟩ := hvalues b hb
      exact ⟨d, List.mem_cons_of_mem c hd, hp⟩
    · obtain ⟨b, hb, hp⟩ := helements d hd
      exact ⟨b, List.mem_cons_of_mem a hb, hp⟩

end HarnessLabs
