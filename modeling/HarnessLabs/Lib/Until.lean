import HarnessLabs.Lib.Dict

/-!
# Loops that may raise

A loop whose body changes a state and may raise. What raises leaves the state that the last finished
body has left.

* `foldUntil` — the loop over a list, `visit` — the loop over the values of a dictionary.
* `foldUntil_invariant` — **what every body preserves holds of the state that is left.**
* `get?_visit` — a value is visited once, or not at all.
-/

namespace HarnessLabs.Until

universe u v w

variable {σ : Type u} {α : Type v} {ε : Type w}

/-! ## Lists -/

/-- The state that the loop leaves, and what it raised. -/
def foldUntil (body : σ → α → Except ε σ) (s : σ) : List α → σ × Option ε
  | [] => (s, none)
  | a :: rest =>
    match body s a with
    | .error e => (s, some e)
    | .ok s' => foldUntil body s' rest

theorem foldUntil_invariant {body : σ → α → Except ε σ} {P : σ → Prop} {l : List α} {s : σ}
    (hs : P s) (hbody : ∀ s, ∀ a ∈ l, ∀ s', P s → body s a = .ok s' → P s') :
    P (foldUntil body s l).1 := by
  induction l generalizing s with
  | nil => exact hs
  | cons a rest ih =>
    rw [foldUntil]
    cases hstep : body s a with
    | error e => exact hs
    | ok s' =>
      exact ih (hbody s a List.mem_cons_self s' hs hstep) fun s b hb =>
        hbody s b (List.mem_cons_of_mem a hb)

/-- What every body preserves holds of the result of a loop that has not raised. -/
theorem foldlM_invariant {body : σ → α → Except ε σ} {P : σ → Prop} {l : List α} {s s' : σ}
    (h : l.foldlM body s = .ok s') (hs : P s)
    (hbody : ∀ s, ∀ a ∈ l, ∀ s', P s → body s a = .ok s' → P s') : P s' := by
  induction l generalizing s with
  | nil =>
    cases h
    exact hs
  | cons a rest ih =>
    rw [List.foldlM_cons] at h
    cases hstep : body s a with
    | error e =>
      rw [hstep] at h
      cases h
    | ok t =>
      rw [hstep] at h
      exact ih h (hbody s a List.mem_cons_self t hs hstep) fun s b hb =>
        hbody s b (List.mem_cons_of_mem a hb)

variable {β : Type v} {f : α → Except ε β} {as : List α} {bs : List β}

/-- Checking a list succeeds exactly when every element checks. -/
theorem mapM_ok_iff :
    as.mapM f = .ok bs ↔ List.Forall₂ (fun a b => f a = .ok b) as bs := by
  induction as generalizing bs with
  | nil =>
    rw [List.mapM_nil, List.forall₂_nil_left_iff]
    exact ⟨fun h => by cases h; rfl, fun h => by rw [h]; rfl⟩
  | cons a as ih =>
    rw [List.mapM_cons, List.forall₂_cons_left_iff]
    cases ha : f a with
    | error e => exact ⟨nofun, fun ⟨_, _, h, _⟩ => by cases h⟩
    | ok b =>
      cases has : as.mapM f with
      | error e =>
        refine ⟨nofun, fun ⟨_, bs', _, h, _⟩ => ?_⟩
        rw [ih.2 h] at has
        cases has
      | ok cs =>
        constructor
        · intro h
          cases h
          exact ⟨b, cs, rfl, ih.1 has, rfl⟩
        · rintro ⟨b', bs', hb, h, rfl⟩
          cases hb
          obtain rfl : cs = bs' := by
            have h' := ih.2 h
            rw [has] at h'
            cases h'
            rfl
          rfl

theorem forall₂_mem_left {R : α → β → Prop} (h : List.Forall₂ R as bs) {a : α} (ha : a ∈ as) :
    ∃ b ∈ bs, R a b := by
  induction h with
  | nil => exact absurd ha List.not_mem_nil
  | cons hab _ ih =>
    cases List.mem_cons.1 ha with
    | inl heq => exact ⟨_, List.mem_cons_self, heq ▸ hab⟩
    | inr hrest =>
      obtain ⟨b, hb, hrelated⟩ := ih hrest
      exact ⟨b, List.mem_cons_of_mem _ hb, hrelated⟩

theorem forall₂_mem_right {R : α → β → Prop} (h : List.Forall₂ R as bs) {b : β} (hb : b ∈ bs) :
    ∃ a ∈ as, R a b :=
  forall₂_mem_left h.flip hb

theorem mapM_ok_mem (h : as.mapM f = .ok bs) {a : α} (ha : a ∈ as) : ∃ b ∈ bs, f a = .ok b :=
  forall₂_mem_left (mapM_ok_iff.1 h) ha

/-- What a list is checked to is what its elements are. -/
theorem mapM_ok_mem_right (h : as.mapM f = .ok bs) {b : β} (hb : b ∈ bs) : ∃ a ∈ as, f a = .ok b :=
  forall₂_mem_right (mapM_ok_iff.1 h) hb

/-! ## Dictionaries -/

variable {K : Type u} {V : Type v} [DecidableEq K]

/-- The visit of one value. -/
def visitAt (body : V → Except ε V) (d : Dict K V) (k : K) : Except ε (Dict K V) :=
  match d.get? k with
  | none => .ok d
  | some v =>
    match body v with
    | .error e => .error e
    | .ok v' => .ok (d.set k v')

def visit (body : V → Except ε V) (d : Dict K V) : Dict K V × Option ε :=
  foldUntil (visitAt body) d d.keys

variable {body : V → Except ε V}

theorem get?_visitAt {d d' : Dict K V} {k : K} (h : visitAt body d k = .ok d') :
    (∀ j ≠ k, d'.get? j = d.get? j) ∧ (d'.get? k = d.get? k ∨
      ∃ v v', d.get? k = some v ∧ body v = .ok v' ∧ d'.get? k = some v') := by
  rw [visitAt] at h
  cases hv : d.get? k with
  | none =>
    rw [hv] at h
    cases h
    exact ⟨fun _ _ => rfl, .inl hv⟩
  | some v =>
    rw [hv] at h
    dsimp only at h
    cases hbody : body v with
    | error e =>
      rw [hbody] at h
      cases h
    | ok v' =>
      rw [hbody] at h
      cases h
      exact ⟨fun j hj => Dict.get?_set_ne d v' hj, .inr ⟨v, v', rfl, hbody, Dict.get?_set_self d k v'⟩⟩

theorem get?_foldUntil_visitAt {l : List K} (hnodup : l.Nodup) (d : Dict K V) (k : K) :
    (foldUntil (visitAt body) d l).1.get? k = d.get? k ∨
      ∃ v v', d.get? k = some v ∧ body v = .ok v' ∧
        (foldUntil (visitAt body) d l).1.get? k = some v' := by
  induction l generalizing d with
  | nil => exact .inl rfl
  | cons j rest ih =>
    obtain ⟨hj, hrest⟩ := List.nodup_cons.1 hnodup
    rw [foldUntil]
    cases hstep : visitAt body d j with
    | error e => exact .inl rfl
    | ok d' =>
      obtain ⟨hother, hself⟩ := get?_visitAt hstep
      by_cases hk : k = j
      · -- `k` is not visited again.
        have hkept : (foldUntil (visitAt body) d' rest).1.get? k = d'.get? k :=
          foldUntil_invariant (P := fun e => e.get? k = d'.get? k) rfl fun e i hi e' he hvisit =>
            ((get?_visitAt hvisit).1 k fun hki => hj (hk ▸ hki ▸ hi)).trans he
        rw [hkept, hk]
        exact hself
      · rw [← hother k hk]
        exact ih hrest d'

/-- **A value is visited once, or not at all.** -/
theorem get?_visit (body : V → Except ε V) (d : Dict K V) (k : K) :
    (visit body d).1.get? k = d.get? k ∨
      ∃ v v', d.get? k = some v ∧ body v = .ok v' ∧ (visit body d).1.get? k = some v' :=
  get?_foldUntil_visitAt d.nodup_keys d k

theorem get?_foldUntil_visitAt_of_none {l : List K} (hnodup : l.Nodup) {d : Dict K V}
    (h : (foldUntil (visitAt body) d l).2 = none) {k : K} (hk : k ∈ l) {v : V}
    (hv : d.get? k = some v) :
    ∃ v', body v = .ok v' ∧ (foldUntil (visitAt body) d l).1.get? k = some v' := by
  induction l generalizing d with
  | nil => cases hk
  | cons j rest ih =>
    obtain ⟨hj, hrest⟩ := List.nodup_cons.1 hnodup
    rw [foldUntil] at h ⊢
    cases hstep : visitAt body d j with
    | error e =>
      rw [hstep] at h
      cases h
    | ok d' =>
      rw [hstep] at h
      obtain ⟨hother, -⟩ := get?_visitAt hstep
      cases List.mem_cons.1 hk with
      | inl hkj =>
        subst hkj
        have hkept : (foldUntil (visitAt body) d' rest).1.get? k = d'.get? k :=
          foldUntil_invariant (P := fun e => e.get? k = d'.get? k) rfl fun e i hi e' he hvisit =>
            ((get?_visitAt hvisit).1 k fun hki => hj (hki ▸ hi)).trans he
        rw [visitAt, hv] at hstep
        dsimp only at hstep
        cases hbody : body v with
        | error e =>
          rw [hbody] at hstep
          cases hstep
        | ok v' =>
          rw [hbody] at hstep
          cases hstep
          exact ⟨v', rfl, by rw [hkept, Dict.get?_set_self]⟩
      | inr hmem => exact ih hrest h hmem (by rw [hother k fun hkj => hj (hkj ▸ hmem), hv])

/-- Where nothing is raised, every value is visited. -/
theorem get?_visit_of_none {d : Dict K V} (h : (visit body d).2 = none) {k : K} {v : V}
    (hv : d.get? k = some v) :
    ∃ v', body v = .ok v' ∧ (visit body d).1.get? k = some v' :=
  get?_foldUntil_visitAt_of_none d.nodup_keys h (Dict.mem_keys_iff.2 ⟨v, hv⟩) hv

/-- What the body preserves holds of every value that is left. -/
theorem all_visit {P : K → V → Prop} {d : Dict K V} (h : d.All P)
    (hbody : ∀ k v v', P k v → body v = .ok v' → P k v') : (visit body d).1.All P := by
  intro k v hv
  rcases get?_visit body d k with hkept | ⟨v₀, v₁, hget, hvisit, hleft⟩
  · exact h k v (hkept ▸ hv)
  · rw [hleft] at hv
    obtain rfl := Option.some.inj hv
    exact hbody k v₀ v₁ (h k v₀ hget) hvisit

end HarnessLabs.Until
