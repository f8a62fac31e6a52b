import HarnessLabs.Controller.Recovery

/-!
# Reached kernels

The kernels of a run: the new one, and what an operation leaves of a reached one, whether it was
finished or a crash cut its writes and the kernel was restored from them.

* `Appends` — the events of an operation that is accepted.
* `moves_cases` — **a move applies the first of these events, or none.**
* `Reached.invariant` — **the invariant rule**: what any number of an operation's events preserves
  holds of every reached state.
-/

namespace HarnessLabs.Controller

open EventLog

/-! ## Moves -/

/-- The kernel behind an operation, of whose writes `j` reached the disk. -/
def Moves (setting : Setting) (k : Kernel) (op : Operation) (k' : Kernel) : Prop :=
  ∃ d j d', d.restore = some k ∧
    replay Durable.write d ((k.step setting op).writes.take j) = some d' ∧ d'.restore = some k'

/-- The events of an operation that is accepted. -/
inductive Appends (setting : Setting) (k : Kernel) : Operation → List KernelEvent → Prop
  | committed {catalog : EvidenceCatalog} {command : CommandEnvelope} {effects : Effects} :
      Accepts setting.contract k catalog command →
      k.state.evaluate setting.contract catalog command = .ok effects →
      Appends setting k (.handle catalog command)
        (commitEvents k setting.contract command effects)
  | recorded {op : Operation} {actor : CommandActor} {bodies : List (String × EventBody)} :
      Recorded setting k op bodies →
      Appends setting k op (recordEvents k setting.contract actor bodies)

section Moves

variable {initial : State} {setting : Setting} {k k' : Kernel} {op : Operation}

theorem Appends.lawful {es : List KernelEvent} (h : Appends setting k op es) :
    ∀ e ∈ es, Lawful setting.contract k.state e.body := by
  intro e he
  cases h with
  | committed _ heval =>
    obtain ⟨p, hp, -, hbody, -⟩ := mem_newEvents he
    obtain ⟨b, hb, rfl⟩ := List.mem_map.1 hp
    exact hbody ▸ ((yields_evaluate _ heval).2 b hb).2
  | recorded hrecorded =>
    obtain ⟨p, hp, -, hbody, -⟩ := mem_newEvents he
    exact hbody ▸ (hrecorded.lawful p hp).2

/-- What a restart finds behind a cut operation: the first of its events, or none. Behind all of
the writes it finds the kernel that lives on. -/
theorem restore_cut {d : Durable} (hk : d.restore = some k) (hs : k.Sound initial)
    (setting : Setting) (op : Operation) (j : ℕ) :
    ∃ d' k', replay Durable.write d ((k.step setting op).writes.take j) = some d' ∧
      d'.restore = some k' ∧ k'.Sound initial ∧
      ((k.step setting op).writes.length ≤ j → k' = (k.step setting op).kernel) ∧
      ∃ es, (es = [] ∨ ∃ all, Appends setting k op all ∧ ∃ i, es = all.take i) ∧
        k'.events = k.events ++ es := by
  obtain ⟨answer, hstep⟩ | ⟨catalog, command, code, message, rfl, hstep⟩ |
    ⟨catalog, command, effects, rfl, haccepts, heval, hstep⟩ |
    ⟨actor, bodies, hrecorded, hstep⟩ := step_cases k setting op
  · refine ⟨d, k, by rw [hstep, List.take_nil, replay_nil], hk, hs, fun _ => by rw [hstep], [],
      .inl rfl, (List.append_nil _).symm⟩
  · obtain ⟨d', k', hd', hk', hs', hlive, -, hsame⟩ :=
      restore_reject command code message hk hs j
    rw [hstep]
    exact ⟨d', k', hd', hk', hs', hlive, [], .inl rfl, by rw [hsame, List.append_nil]⟩
  · have hadmitted := (yields_evaluate effects heval).admitted
    obtain ⟨d', k', hd', hk', hs', hlive, hcut⟩ :=
      restore_commit setting.contract hk hs haccepts.1 hadmitted j
    rw [hstep]
    refine ⟨d', k', hd', hk', hs', hlive, ?_⟩
    obtain ⟨-, hsome, -⟩ | ⟨-, rfl⟩ := hcut
    · exact ⟨_, .inr ⟨_, .committed haccepts heval, j, rfl⟩, hsome⟩
    · obtain ⟨t, ht, -⟩ := commit_applies setting.contract command hs hadmitted
      refine ⟨_, .inr ⟨_, .committed haccepts heval, _, (List.take_length).symm⟩, ?_⟩
      rw [commit_eq ht]
  · obtain ⟨d', k', hd', hk', hs', hlive, -, i, hsome⟩ :=
      restore_record setting.contract actor hk hs hrecorded.trusted j
    rw [hstep]
    exact ⟨d', k', hd', hk', hs', hlive, _, .inr ⟨_, .recorded hrecorded, i, rfl⟩, hsome⟩

/-- **A move applies the first of the operation's events, or none**; the marks aside, its state is
what these events make of the old one. -/
theorem moves_cases (hs : k.Sound initial) (h : Moves setting k op k') :
    k'.Sound initial ∧ ∃ es, (es = [] ∨ ∃ all, Appends setting k op all ∧ ∃ i, es = all.take i) ∧
      k'.events = k.events ++ es ∧
      ∃ t, replay State.apply k.state es = some t ∧ k'.state = t.marked k'.state.marks := by
  obtain ⟨d, j, d', hk, hd', hk'⟩ := h
  obtain ⟨e', k₁, he', hk₁, hs', -, es, hes, hsome⟩ := restore_cut hk hs setting op j
  cases hd'.symm.trans he'
  cases hk'.symm.trans hk₁
  refine ⟨hs', es, hes, hsome, ?_⟩
  have hsourced := hs'.sourced
  rw [hsome, replay_append_of hs.sourced, replay_marked] at hsourced
  obtain ⟨t, ht, hmarked⟩ := Option.map_eq_some_iff.1 hsourced
  refine ⟨t, ht, ?_⟩
  have hcongr := congrArg (State.marked · k'.state.marks) hmarked
  simpa using hcongr.symm

/-- An operation that finishes moves to the kernel that lives on. -/
theorem moves_step (hs : k.Sound initial) (setting : Setting) (op : Operation) :
    Moves setting k op (k.step setting op).kernel := by
  have hk : (⟨k.state, k.events, k.state.receipts⟩ : Durable).restore = some k :=
    restore_checkpointed (d := ⟨k.state, k.events, k.state.receipts⟩) hs rfl fun p hp =>
      Dict.get?_eq_some_iff.2 hp
  obtain ⟨d', k', hd', hk', -, hlive, -⟩ :=
    restore_cut hk hs setting op (k.step setting op).writes.length
  exact ⟨_, _, d', hk, hd', hlive le_rfl ▸ hk'⟩

end Moves

/-! ## Reached kernels -/

/-- The kernels of a run with crashes. -/
inductive Reached (setting : Setting) (initial : State) : Kernel → Prop
  | start : Reached setting initial ⟨initial, []⟩
  | move {k k' : Kernel} (op : Operation) :
      Reached setting initial k → Moves setting k op k' → Reached setting initial k'

section Reached

variable {initial : State} {setting : Setting} {k : Kernel}

theorem Reached.sound (hzero : initial.kernelEventCount = 0) (h : Reached setting initial k) :
    k.Sound initial := by
  induction h with
  | start => exact ⟨rfl, hzero, rfl⟩
  | move op _ hmove ih => exact (moves_cases ih hmove).1

theorem Reached.step (hzero : initial.kernelEventCount = 0) (h : Reached setting initial k)
    (op : Operation) : Reached setting initial (k.step setting op).kernel :=
  .move op h (moves_step (h.sound hzero) setting op)

/-- **The invariant rule.** The property does not depend on the marks, and any number of an
operation's events preserves it. -/
theorem Reached.invariant {P : State → Prop} (hzero : initial.kernelEventCount = 0)
    (hmarks : ∀ s m, P s → P (s.marked m)) (hstart : P initial)
    (hstep : ∀ k op es i t, P k.state → Appends setting k op es →
      replay State.apply k.state (es.take i) = some t → P t)
    (h : Reached setting initial k) : P k.state := by
  induction h with
  | start => exact hstart
  | @move k k' op hreached hmove ih =>
    obtain ⟨-, es, hes, -, t, ht, hstate⟩ := moves_cases (hreached.sound hzero) hmove
    rw [hstate]
    refine hmarks t _ ?_
    obtain rfl | ⟨all, hall, i, rfl⟩ := hes
    · cases ht
      exact ih
    · exact hstep k op all i t ih hall ht

end Reached

end HarnessLabs.Controller
