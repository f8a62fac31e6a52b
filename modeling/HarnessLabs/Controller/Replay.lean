import HarnessLabs.Controller.Reached

/-!
# Replay and live execution

`from_snapshot` applies the events behind a snapshot. Every field of the live state is what its
events make of the snapshot, except the receipts, the references of rejected dispatches, and the
revision where a batch of no results raised it.

* `fromSnapshot` — the replayed kernel.
* `Shown` — every empty batch has an event behind it.
* `replay_equals_live` — **the replayed state is the live one exactly when every empty batch is
  shown.**
-/

namespace HarnessLabs.Controller

open EventLog List

/-- `from_snapshot`, without the receipts that a restart adds from the journal. -/
def fromSnapshot (snapshot : State) (events : List KernelEvent) : Option Kernel :=
  (⟨snapshot, events, ∅⟩ : Durable).restore

/-- The state without its receipts and its references of rejected dispatches. -/
def State.visible (s : State) : State :=
  { s with receipts := ∅, rejectedTaskDispatchRefs := [] }

/-- Operations that finish, one after the other. -/
def Kernel.run (setting : Setting) (k : Kernel) (ops : List Operation) : Kernel :=
  ops.foldl (fun k op => (k.step setting op).kernel) k

/-- Every batch of no results has an event behind it. -/
def Shown (setting : Setting) (k : Kernel) (ops : List Operation) : Prop :=
  ∀ before catalog behind, ops = before ++ .recordTaskResults catalog [] :: behind →
    (k.run setting before).events ≠ (k.run setting ops).events

/-! ## One operation -/

section Step

variable {setting : Setting} {k : Kernel} {op : Operation}

theorem step_emptyBatch (setting : Setting) (k : Kernel) (catalog : EvidenceCatalog) :
    (k.step setting (.recordTaskResults catalog [])).kernel =
      ⟨{ k.state with revision := k.state.revision + 1 }, k.events⟩ := by
  show (⟨_, k.events ++ []⟩ : Kernel) = _
  rw [append_nil]

/-- Only a batch of no results records no event. -/
theorem Recorded.ne_nil {bodies : List (String × EventBody)} (h : Recorded setting k op bodies)
    (hop : ∀ catalog, op ≠ .recordTaskResults catalog []) : bodies ≠ [] := by
  cases h with
  | @results catalog results bodies hbodies =>
    cases results with
    | nil => exact absurd rfl (hop catalog)
    | cons r rest =>
      obtain ⟨b, hb, -⟩ :=
        (yields_mapM (p := fun _ _ => True) (fun _ => yields_true) _ bodies hbodies).2 r
          mem_cons_self
      cases bodies with
      | nil => cases hb
      | cons b bodies => exact cons_ne_nil _ _
  | started hids _ => simpa using hids
  | @verified catalog ids ref hids _ _ =>
    cases ids with
    | nil => exact absurd rfl hids
    | cons id ids => simp [eraseDups_cons]
  | failed _ _ _ => exact cons_ne_nil _ _

/-- An operation appends events under the next revision, or it changes neither; only a batch of no
results raises the revision and appends nothing. -/
theorem step_revision {initial : State} (hs : k.Sound initial) (setting : Setting)
    (op : Operation) :
    ((∀ catalog, op ≠ .recordTaskResults catalog []) ∧
      (k.step setting op).kernel.events = k.events ∧
      (k.step setting op).kernel.state.revision = k.state.revision) ∨
    (∃ es, es ≠ [] ∧ (k.step setting op).kernel.events = k.events ++ es ∧
      (∀ e ∈ es, e.revision = k.state.revision + 1) ∧
      (k.step setting op).kernel.state.revision = k.state.revision + 1) ∨
    ((∃ catalog, op = .recordTaskResults catalog []) ∧
      (k.step setting op).kernel.events = k.events ∧
      (k.step setting op).kernel.state.revision = k.state.revision + 1) := by
  by_cases hempty : ∃ catalog, op = .recordTaskResults catalog []
  · obtain ⟨catalog, rfl⟩ := hempty
    refine .inr (.inr ⟨⟨catalog, rfl⟩, ?_⟩)
    rw [step_emptyBatch]
    exact ⟨rfl, rfl⟩
  · have hop := not_exists.1 hempty
    obtain ⟨answer, hstep⟩ | ⟨catalog, command, code, message, rfl, hstep⟩ |
      ⟨catalog, command, effects, rfl, haccepts, heval, hstep⟩ |
      ⟨actor, bodies, hrecorded, hstep⟩ := step_cases k setting op
    · exact .inl ⟨hop, by rw [hstep], by rw [hstep]⟩
    · refine .inl ⟨hop, ?_⟩
      rw [hstep, Kernel.reject]
      split <;> exact ⟨rfl, rfl⟩
    · have hadmitted := (yields_evaluate effects heval).admitted
      obtain ⟨t, ht, -⟩ := commit_applies setting.contract command hs hadmitted
      rw [hstep, commit_eq ht]
      exact .inr (.inl ⟨_, commitEvents_ne_nil hadmitted, rfl,
        fun _ he => revision_commitEvents he, rfl⟩)
    · obtain ⟨t, ht, -⟩ := record_applies setting.contract actor hs hrecorded.trusted
      have hnew : recordEvents k setting.contract actor bodies ≠ [] := by
        rw [Ne, ← length_eq_zero_iff, recordEvents, length_newEvents,
          length_eq_zero_iff]
        exact hrecorded.ne_nil hop
      rw [hstep, record_eq ht]
      refine .inr (.inl ⟨_, hnew, rfl, fun e he => ?_, rfl⟩)
      obtain ⟨-, -, -, -, hrevision⟩ := mem_newEvents he
      exact hrevision

end Step

/-! ## Runs -/

section Run

variable {initial : State} {setting : Setting} {k : Kernel}

theorem Kernel.run_append (setting : Setting) (k : Kernel) (ops rest : List Operation) :
    k.run setting (ops ++ rest) = (k.run setting ops).run setting rest :=
  foldl_append

theorem Kernel.Sound.run (hs : k.Sound initial) (setting : Setting) (ops : List Operation) :
    (k.run setting ops).Sound initial := by
  induction ops generalizing k with
  | nil => exact hs
  | cons op ops ih => exact ih (moves_cases hs (moves_step hs setting op)).1

/-- The state behind a run is what the events of the run make of the state before it. -/
theorem run_events (hs : k.Sound initial) (setting : Setting) (ops : List Operation) :
    ∃ es, (k.run setting ops).events = k.events ++ es ∧
      ∃ t, replay State.apply k.state es = some t ∧
        (k.run setting ops).state = t.marked (k.run setting ops).state.marks := by
  induction ops using List.reverseRecOn with
  | nil => exact ⟨[], (append_nil _).symm, k.state, rfl, rfl⟩
  | append_singleton ops op ih =>
    obtain ⟨es, hevents, t, ht, hstate⟩ := ih
    rw [Kernel.run_append]
    obtain ⟨-, fs, -, hnew, u, hu, hlast⟩ :=
      moves_cases (hs.run setting ops) (moves_step (hs.run setting ops) setting op)
    rw [hstate, replay_marked] at hu
    obtain ⟨v, hv, rfl⟩ := Option.map_eq_some_iff.1 hu
    refine ⟨es ++ fs, ?_, v, (replay_append_of ht fs).trans hv, ?_⟩
    · rw [← append_assoc, ← hevents]
      exact hnew
    · rw [State.marked_marked] at hlast
      exact hlast

/-- The highest revision that the snapshot or an event behind it carries. -/
def seenRevision (s : State) (es : List KernelEvent) : ℕ := (s.marks.behind es).revision

theorem seenRevision_append (s : State) (es fs : List KernelEvent) :
    seenRevision s (es ++ fs) = fs.foldl (fun r e => max r e.revision) (seenRevision s es) :=
  foldl_append

theorem seenRevision_new {s : State} {es fs : List KernelEvent} {r : ℕ} (hne : fs ≠ [])
    (hfs : ∀ e ∈ fs, e.revision = r) (hle : seenRevision s es ≤ r) :
    seenRevision s (es ++ fs) = r := by
  have hbehind := behind_revision (m := s.marks.behind es) hne hfs hle
  exact (seenRevision_append s es fs).trans (congrArg Marks.revision hbehind)

theorem shown_nil (setting : Setting) (k : Kernel) : Shown setting k [] := by
  intro before catalog behind h
  exact absurd h.symm (append_ne_nil_of_right_ne_nil before (cons_ne_nil _ _))

/-- A decomposition of a longer run is one of the run before it, or it is the last operation. -/
theorem split_snoc {ops before behind : List Operation} {op x : Operation}
    (h : ops ++ [op] = before ++ x :: behind) :
    (∃ rest, behind = rest ++ [op] ∧ ops = before ++ x :: rest) ∨
      behind = [] ∧ x = op ∧ before = ops := by
  rcases eq_nil_or_concat behind with rfl | ⟨rest, last, rfl⟩
  · obtain ⟨rfl, hx⟩ := append_inj' h rfl
    exact .inr ⟨rfl, (singleton_inj.1 hx).symm, rfl⟩
  · rw [concat_eq_append, ← cons_append, ← append_assoc] at h
    obtain ⟨rfl, hx⟩ := append_inj' h rfl
    exact .inl ⟨rest, by rw [concat_eq_append, singleton_inj.1 hx], rfl⟩

/-- **Revisions along a run**: the events and the snapshot never carry more than the live revision,
and they carry it exactly when every empty batch is shown. -/
theorem run_revision (hs : k.Sound initial) (setting : Setting) (ops : List Operation)
    {es : List KernelEvent} (hes : (k.run setting ops).events = k.events ++ es) :
    seenRevision k.state es ≤ (k.run setting ops).state.revision ∧
      (seenRevision k.state es = (k.run setting ops).state.revision ↔ Shown setting k ops) := by
  induction ops using List.reverseRecOn generalizing es with
  | nil =>
    obtain rfl : es = [] := append_right_eq_self.1 hes.symm
    exact ⟨le_rfl, iff_of_true rfl (shown_nil setting k)⟩
  | append_singleton ops op ih =>
    obtain ⟨fs, hfs, -⟩ := run_events hs setting ops
    obtain ⟨hle, hiff⟩ := ih hfs
    rw [Kernel.run_append] at hes ⊢
    have hlast : ((k.run setting ops).run setting [op]) =
        ((k.run setting ops).step setting op).kernel := rfl
    rw [hlast] at hes ⊢
    obtain ⟨hop, hsame, hrevision⟩ | ⟨gs, hne, hnew, hgs, hrevision⟩ |
      ⟨⟨catalog, rfl⟩, hsame, hrevision⟩ := step_revision (hs.run setting ops) setting op
    · obtain rfl : es = fs := append_cancel_left (hes.symm.trans (hsame.trans hfs))
      rw [hrevision]
      refine ⟨hle, hiff.trans ⟨fun h => ?_, fun h => ?_⟩⟩
      · intro before catalog behind hsplit
        rw [Kernel.run_append, hlast, hsame]
        obtain ⟨rest, -, hops⟩ | ⟨-, hx, -⟩ := split_snoc hsplit
        · exact h before catalog rest hops
        · exact absurd hx.symm (hop catalog)
      · intro before catalog behind hsplit
        have hlong := h before catalog (behind ++ [op])
          (by rw [hsplit, append_assoc, cons_append])
        rwa [Kernel.run_append, hlast, hsame] at hlong
    · obtain rfl : es = fs ++ gs := by
        rw [hfs, append_assoc] at hnew
        exact append_cancel_left (hes.symm.trans hnew)
      rw [hrevision, seenRevision_new hne hgs (Nat.le_succ_of_le hle)]
      refine ⟨le_rfl, iff_of_true rfl fun before catalog behind hsplit heq => ?_⟩
      rw [Kernel.run_append, hlast, hnew] at heq
      have hlong : (k.run setting before).events.length ≤ (k.run setting ops).events.length := by
        obtain ⟨rest, -, rfl⟩ | ⟨-, -, rfl⟩ := split_snoc hsplit
        · obtain ⟨hs', hhs', -⟩ := run_events (hs.run setting before) setting
            (.recordTaskResults catalog [] :: rest)
          rw [Kernel.run_append, hhs', length_append]
          exact Nat.le_add_right _ _
        · exact le_rfl
      rw [heq, length_append] at hlong
      exact hne (length_eq_zero_iff.1 (by omega))
    · obtain rfl : es = fs := append_cancel_left (hes.symm.trans (hsame.trans hfs))
      refine ⟨Nat.le_succ_of_le hle, iff_of_false (by omega) fun h => ?_⟩
      refine h ops catalog [] rfl ?_
      rw [Kernel.run_append, hlast, hsame]

/-- A snapshot with the events behind it: every field of the live state but the marks, under the
highest revision seen. -/
theorem fromSnapshot_run (hs : k.Sound initial) (setting : Setting) (ops : List Operation) :
    ∃ es, (k.run setting ops).events = k.events ++ es ∧
      fromSnapshot k.state (k.run setting ops).events =
        some ⟨(k.run setting ops).state.marked (k.state.marks.behind es),
          (k.run setting ops).events⟩ := by
  obtain ⟨es, hevents, t, ht, hstate⟩ := run_events hs setting ops
  refine ⟨es, hevents, restore_eq_some.2 ⟨?_, rfl, ?_⟩⟩
  · show k.state.kernelEventCount ≤ (k.run setting ops).events.length
    rw [hs.counted, hevents, length_append]
    exact Nat.le_add_right _ _
  · have hself : k.state.receipts.update ∅ = k.state.receipts := rfl
    show replay restoreEvent { k.state with receipts := k.state.receipts.update ∅ }
      ((k.run setting ops).events.drop k.state.kernelEventCount) = _
    rw [hself, hs.counted, hevents, drop_left, replay_restoreEvent, ht, hstate]
    rfl

end Run

/-- **Replay equals live execution.** From any reached kernel and after any operations, the
snapshot with all events is the live kernel in every field but the receipts, the references of
rejected dispatches and the revision; and in the revision exactly when every batch of no results
has an event behind it. -/
theorem replay_equals_live (setting : Setting) (criteria : Dict String Criterion)
    (artifacts : Dict String Artifact) {k : Kernel}
    (h : Reached setting (initialState setting.contract criteria artifacts) k)
    (ops : List Operation) :
    ∃ k', fromSnapshot k.state (k.run setting ops).events = some k' ∧
      k'.events = (k.run setting ops).events ∧
      { k'.state.visible with revision := (k.run setting ops).state.revision } =
        (k.run setting ops).state.visible ∧
      (k'.state.visible = (k.run setting ops).state.visible ↔ Shown setting k ops) := by
  have hs := h.sound rfl
  obtain ⟨es, hevents, hk'⟩ := fromSnapshot_run hs setting ops
  refine ⟨_, hk', rfl, rfl, Iff.trans ?_ (run_revision hs setting ops hevents).2⟩
  constructor
  · exact congrArg State.revision
  · intro hseen
    have hrevision : (k.state.marks.behind es).revision = (k.run setting ops).state.revision :=
      hseen
    show State.visible { (k.run setting ops).state with
      revision := (k.state.marks.behind es).revision, .. } = _
    rw [hrevision]

theorem replay_equals_live_twoTasks :
    ∃ k', fromSnapshot exampleState
        ((⟨exampleState, []⟩ : Kernel).run exampleSetting [twoTasks]).events = some k' ∧
      k'.events = ((⟨exampleState, []⟩ : Kernel).run exampleSetting [twoTasks]).events ∧
      { k'.state.visible with
        revision := ((⟨exampleState, []⟩ : Kernel).run exampleSetting [twoTasks]).state.revision } =
        ((⟨exampleState, []⟩ : Kernel).run exampleSetting [twoTasks]).state.visible ∧
      (k'.state.visible =
          ((⟨exampleState, []⟩ : Kernel).run exampleSetting [twoTasks]).state.visible ↔
        Shown exampleSetting ⟨exampleState, []⟩ [twoTasks]) :=
  replay_equals_live exampleSetting ∅ ∅ .start [twoTasks]

/-- A batch of no results raises the live revision; the replay of its events does not. -/
theorem replay_misses_empty_batch :
    Reached exampleSetting exampleState ⟨exampleState, []⟩ ∧
      ∃ k', fromSnapshot exampleState ((⟨exampleState, []⟩ : Kernel).run exampleSetting
          [.recordTaskResults ⟨∅, ∅⟩ []]).events = some k' ∧
        k'.state.revision = 0 ∧
        ((⟨exampleState, []⟩ : Kernel).run exampleSetting
          [.recordTaskResults ⟨∅, ∅⟩ []]).state.revision = 1 :=
  ⟨.start, _, rfl, rfl, rfl⟩

end HarnessLabs.Controller
