import Mathlib.Tactic

/-!
# Event logs

A component whose durable state is a log: the state is the replay of the log, an operation reads
the replayed state and appends events one at a time, and a crash leaves a prefix of what it would
have appended.

* `replay` — the state a log stands for; `none` is a log the replay rejects.
* `Along` — every event is one that is expected in the state before it; `Along.agrees` — **what is
  noted along such a log agrees with its replay.**
* `Reaches` — the logs that operations and crashes leave, where `cut` says which operations run
  and where they may stop.
* `Reaches.induction` — **the invariant rule**: what every stopped operation preserves holds of
  every reachable log.
-/

namespace HarnessLabs.EventLog

open List Option

universe u v w

variable {S : Type u} {E : Type v} {Op : Type w}

/-! ## Replay -/

/-- Apply events from a state. -/
def replay (apply : S → E → Option S) (s : S) : List E → Option S
  | [] => some s
  | e :: es => (apply s e).bind fun t => replay apply t es

variable {apply : S → E → Option S}

@[simp] theorem replay_nil (s : S) : replay apply s [] = some s := rfl

@[simp] theorem replay_cons (s : S) (e : E) (es : List E) :
    replay apply s (e :: es) = (apply s e).bind fun t => replay apply t es := rfl

theorem replay_append (s : S) (es fs : List E) :
    replay apply s (es ++ fs) = (replay apply s es).bind fun t => replay apply t fs := by
  induction es generalizing s with
  | nil => rfl
  | cons e es ih =>
    simp only [cons_append, replay_cons, bind_assoc]
    exact congrArg _ (funext ih)

variable {s t : S} {es fs : List E}

theorem replay_append_of (h : replay apply s es = some t) (fs : List E) :
    replay apply s (es ++ fs) = replay apply t fs := by
  rw [replay_append, h, bind_some]

theorem replay_cons_of {e : E} (h : apply s e = some t) (es : List E) :
    replay apply s (e :: es) = replay apply t es := by
  rw [replay_cons, h, bind_some]

/-- A replayed log splits at any event into a replayed prefix and a replayed rest. -/
theorem replay_split {u : S} (h : replay apply s (es ++ fs) = some u) :
    ∃ t, replay apply s es = some t ∧ replay apply t fs = some u := by
  rw [replay_append] at h
  exact bind_eq_some_iff.1 h

/-- Every prefix of a log that replays replays. -/
theorem replay_take {u : S} (h : replay apply s es = some u) (k : ℕ) :
    ∃ t, replay apply s (es.take k) = some t ∧ replay apply t (es.drop k) = some u := by
  rw [← take_append_drop k es] at h
  exact replay_split h

/-- What every event of a log preserves, its replay preserves. -/
theorem replay_induction {P : S → Prop} (step : ∀ s e t, e ∈ es → P s → apply s e = some t → P t)
    (hs : P s) (h : replay apply s es = some t) : P t := by
  induction es generalizing s with
  | nil => cases h; exact hs
  | cons e es ih =>
    obtain ⟨m, hm, ht⟩ := bind_eq_some_iff.1 h
    exact ih (fun s e' t he' => step s e' t (mem_cons_of_mem e he'))
      (step s e m mem_cons_self hs hm) ht

/-! ## Events that are expected -/

/-- Every event of a log that is applied is one that `ok` expects in the state before it. -/
def Along (apply : S → E → Option S) (ok : S → E → Prop) (s : S) : List E → Prop
  | [] => True
  | e :: es => ok s e ∧ ∀ t, apply s e = some t → Along apply ok t es

variable {ok : S → E → Prop}

theorem Along.append (h : Along apply ok s es)
    (hrest : ∀ t, replay apply s es = some t → Along apply ok t fs) :
    Along apply ok s (es ++ fs) := by
  induction es generalizing s with
  | nil => exact hrest s rfl
  | cons e es ih =>
    refine ⟨h.1, fun t ht => ih (h.2 t ht) fun u hu => hrest u ?_⟩
    rw [replay_cons_of ht, hu]

theorem Along.take (h : Along apply ok s es) (k : ℕ) :
    Along apply ok s (es.take k) := by
  induction es generalizing s k with
  | nil => rwa [take_nil]
  | cons e es ih =>
    cases k with
    | zero => exact True.intro
    | succ k => exact ⟨h.1, fun t ht => ih (h.2 t ht) k⟩

theorem along_of_forall (h : ∀ e ∈ es, ∀ s, ok s e) (s : S) :
    Along apply ok s es := by
  induction es generalizing s with
  | nil => exact True.intro
  | cons e es ih =>
    exact ⟨h e mem_cons_self s, fun t _ => ih (fun f hf => h f (mem_cons_of_mem e hf)) t⟩

theorem Along.split {e : E} (h : Along apply ok s (es ++ e :: fs)) (ht : replay apply s es = some t) :
    ok t e := by
  induction es generalizing s with
  | nil =>
    cases ht
    exact h.1
  | cons d es ih =>
    obtain ⟨m, hm, hrest⟩ := bind_eq_some_iff.1 ht
    exact ih (h.2 m hm) hrest

theorem Along.drop (h : Along apply ok s (es ++ fs)) (ht : replay apply s es = some t) :
    Along apply ok t fs := by
  induction es generalizing s with
  | nil =>
    cases ht
    exact h
  | cons d es ih =>
    obtain ⟨m, hm, hrest⟩ := bind_eq_some_iff.1 ht
    exact ih (h.2 m hm) hrest

/-- A ghost that is noted along a log agrees with the replayed state, where every expected event
keeps the agreement. -/
theorem Along.agrees (h : Along apply ok s es) {G : Type w} (note : G → E → G) (R : S → G → Prop)
    (step : ∀ s g e t, ok s e → R s g → apply s e = some t → R t (note g e)) {g : G} (hr : R s g)
    (ht : replay apply s es = some t) : R t (es.foldl note g) := by
  induction es generalizing s g with
  | nil =>
    cases ht
    exact hr
  | cons e es ih =>
    obtain ⟨m, hm, hrest⟩ := bind_eq_some_iff.1 ht
    exact ih (h.2 m hm) (step s g e m h.1 hr hm) hrest

/-- What every expected event preserves holds behind the log. -/
theorem Along.keeps (h : Along apply ok s es) (P : S → Prop)
    (step : ∀ s e t, ok s e → P s → apply s e = some t → P t) (hp : P s)
    (ht : replay apply s es = some t) : P t :=
  h.agrees (fun (g : Unit) _ => g) (fun s _ => P s)
    (fun s _ e t hok hs happly => step s e t hok hs happly) (g := ()) hp ht

/-! ## Reachable logs -/

/-- The logs left by operations, each stopped after `k` appended events where `cut` allows it. -/
inductive Reaches (apply : S → E → Option S) (init : S) (emits : S → Op → List E)
    (cut : S → Op → ℕ → Prop) : List E → Prop where
  | nil : Reaches apply init emits cut []
  | append {log : List E} {s : S} (op : Op) (k : ℕ) :
      Reaches apply init emits cut log → replay apply init log = some s → cut s op k →
      Reaches apply init emits cut (log ++ (emits s op).take k)

variable {init : S} {emits : S → Op → List E} {cut : S → Op → ℕ → Prop}

/-- **The invariant rule.** -/
theorem Reaches.induction {P : List E → S → Prop} (start : P [] init)
    (step : ∀ log s op k t, P log s → cut s op k →
      replay apply s ((emits s op).take k) = some t → P (log ++ (emits s op).take k) t)
    {log : List E} (h : Reaches apply init emits cut log) (hs : replay apply init log = some s) :
    P log s := by
  induction h generalizing s with
  | nil => cases hs; exact start
  | @append log m op k _ hm hc ih =>
    rw [replay_append_of hm] at hs
    exact step log m op k s (ih hm) hc hs

/-- When an invariant keeps every stopped operation replayable, every reachable log replays. -/
theorem Reaches.replays {P : S → Prop} (start : P init)
    (step : ∀ s op k, P s → cut s op k →
      ∃ t, replay apply s ((emits s op).take k) = some t ∧ P t)
    {log : List E} (h : Reaches apply init emits cut log) :
    ∃ s, replay apply init log = some s ∧ P s := by
  induction h with
  | nil => exact ⟨init, rfl, start⟩
  | @append log m op k _ hm hc ih =>
    obtain ⟨s, hs, hp⟩ := ih
    obtain rfl : m = s := Option.some.inj (hm.symm.trans hs)
    rw [replay_append_of hm]
    exact step m op k hp hc

/-! ## Writers -/

section Writers

variable {W : Type u} {Item : Type w} {step : W → Item → W} {log : W → List E}

theorem log_prefix_foldl (hstep : ∀ w x, ∃ es, log (step w x) = log w ++ es) (w : W)
    (items : List Item) : ∃ es, log (items.foldl step w) = log w ++ es := by
  induction items generalizing w with
  | nil => exact ⟨[], (append_nil _).symm⟩
  | cons x items ih =>
    obtain ⟨es, hes⟩ := ih (step w x)
    obtain ⟨fs, hfs⟩ := hstep w x
    exact ⟨fs ++ es, by rw [foldl_cons, hes, hfs, append_assoc]⟩

/-- A writer that appends at most one event for every item: a crash between two events is one
between two items. -/
theorem exists_items_of_take
    (hstep : ∀ w x, log (step w x) = log w ∨ ∃ e, log (step w x) = log w ++ [e]) (w : W)
    (items : List Item) {k : ℕ} (hk : (log w).length ≤ k)
    (hlen : k ≤ (log (items.foldl step w)).length) :
    ∃ front back, items = front ++ back ∧
      log (front.foldl step w) = (log (items.foldl step w)).take k := by
  have hgrow : ∀ w x, ∃ es, log (step w x) = log w ++ es := by
    intro w x
    obtain heq | ⟨e, he⟩ := hstep w x
    · exact ⟨[], by rw [heq, append_nil]⟩
    · exact ⟨[e], he⟩
  induction items generalizing w with
  | nil => exact ⟨[], [], rfl, (take_of_length_le hk).symm⟩
  | cons x items ih =>
    rw [foldl_cons] at hlen ⊢
    by_cases hnow : k = (log w).length
    · obtain ⟨es, hes⟩ := log_prefix_foldl hgrow (step w x) items
      obtain ⟨fs, hfs⟩ := hgrow w x
      refine ⟨[], x :: items, rfl, ?_⟩
      rw [foldl_nil, hes, hfs, append_assoc, hnow, take_left]
    · have hnext : (log (step w x)).length ≤ k := by
        obtain heq | ⟨e, he⟩ := hstep w x
        · rwa [heq]
        · rw [he, length_append, length_singleton]
          omega
      obtain ⟨front, back, hitems, hlog⟩ := ih (step w x) hnext hlen
      exact ⟨x :: front, back, by rw [hitems, cons_append], hlog⟩

end Writers

end HarnessLabs.EventLog
