import HarnessLabs.Controller.Success

/-!
# The task forest

Tasks are registered by a dispatch, below a parent that may delegate, and are never taken away.
Everything else that happens to a task leaves its authority alone and ends with its settling, so
what a dispatch has checked against settled tasks stays true.

* `Placed` — what a dispatch checks of a task behind the tasks of the same command.
* `Kept` — what events without a registration keep: authorities, and settled tasks.
* `Forest` — the invariant, preserved by a registration and by whatever is kept.
* `task_forest` — **the forest of every reached kernel, and what stays of it for ever after.**
-/

namespace HarnessLabs.Controller

open EventLog List Option

/-! ## What a dispatch checks -/

/-- What a superseding task takes over from the one it supersedes. -/
structure Inherits (newer older : Task) : Prop where
  role : newer.role = older.role
  detailsSchema : newer.detailsSchema = older.detailsSchema
  acceptanceCriteria : newer.acceptanceCriteria = older.acceptanceCriteria
  dependencies : newer.dependencies = older.dependencies
  parentTaskId : newer.parentTaskId = older.parentTaskId
  optional : newer.optional = older.optional
  mayDelegate : newer.mayDelegate = older.mayDelegate
  requiredCapabilities : newer.requiredCapabilities ⊆ older.requiredCapabilities

/-- A task that is admitted behind the tasks `earlier` of the same command. -/
structure Placed (limits : RunLimits) (s : State) (earlier : List Task) (task : Task) : Prop where
  fresh : task.id ∉ s.tasks.keys
  unlisted : task.id ∉ earlier.map (·.id)
  root : task.parentTaskId = none → task.depth = 1
  parent : ∀ p, task.parentTaskId = some p →
    ∃ q, s.tasks.get? p = some q ∧ q.mayDelegate = true ∧ task.depth = q.depth + 1
  depth : task.depth ≤ limits.maxDepth
  siblings : (s.tasks.values ++ earlier).countP (fun t =>
    siblingKey t.parentTaskId == siblingKey task.parentTaskId) + 1 ≤ limits.maxSubagents
  dependencies : ∀ id ∈ task.dependencies,
    ∃ o, s.tasks.get? id = some o ∧ o.status = .settled .succeeded
  superseded : ∀ id, task.supersedesTaskId = some id →
    ∃ o, s.tasks.get? id = some o ∧ o.status = .settled .failed ∧ Inherits task o

/-- Every task of the batch is placed behind those before it. -/
def Batch (limits : RunLimits) (s : State) : List Task → List Task → Prop
  | _, [] => True
  | earlier, task :: rest => Placed limits s earlier task ∧ Batch limits s (earlier ++ [task]) rest

section Dispatch

variable {s : State} {contract : RunContract} {limits : RunLimits} {actor : CommandActor}

theorem inherits_of_frozenAuthority {task old : Task} (h : frozenAuthority task old = .ok ()) :
    Inherits task old := by
  unfold frozenAuthority at h
  split_ifs at h with h₁ h₂ h₃ h₄ h₅ h₆ h₇ h₈
  exact ⟨not_not.1 h₁, not_not.1 h₂, not_not.1 h₃, not_not.1 h₄, not_not.1 h₅, not_not.1 h₆,
    not_not.1 h₇, h₈⟩

theorem inherits_of_checkSupersedes {task : Task} (h : checkSupersedes s task = .ok ()) :
    ∀ id, task.supersedesTaskId = some id →
      ∃ o, s.tasks.get? id = some o ∧ o.status = .settled .failed ∧ Inherits task o := by
  intro id hid
  rw [checkSupersedes, hid] at h
  dsimp only at h
  split at h
  · cases h
  · rename_i old hold
    split_ifs at h with hfailed
    exact ⟨old, hold, not_not.1 hfailed, inherits_of_frozenAuthority h⟩

theorem yields_taskDepth {task : Task} :
    Yields (fun depth => (task.parentTaskId = none → depth = 1) ∧
      ∀ p, task.parentTaskId = some p →
        ∃ q, s.tasks.get? p = some q ∧ q.mayDelegate = true ∧ depth = q.depth + 1)
      (taskDepth s actor task) := by
  rw [taskDepth]
  cases hp : task.parentTaskId with
  | none => simp
  | some id =>
    dsimp only
    cases hq : s.tasks.get? id with
    | none => exact yields_error
    | some q =>
      simp only [yields_ite, yields_error, implies_true, true_and, yields_ok]
      intro hdelegate _ _
      refine ⟨fun h => absurd h (some_ne_none id), fun p hp => ?_⟩
      cases hp
      exact ⟨q, hq, not_not.1 hdelegate, rfl⟩

theorem checkDependencies_ok {ids : List String} (h : checkDependencies s ids = .ok ()) :
    ∀ id ∈ ids, ∃ o, s.tasks.get? id = some o ∧ o.status = .settled .succeeded := by
  induction ids with
  | nil => simp
  | cons id rest ih =>
    rw [checkDependencies] at h
    split at h
    · cases h
    · rename_i o ho
      split_ifs at h with hs
      exact forall_mem_cons.2 ⟨⟨o, ho, hs⟩, ih h⟩

theorem yields_placed {maxParallelism : ℤ} {earlier : List Task} {item : Json} :
    Yields (Placed limits s earlier) (admitTask s limits actor maxParallelism earlier item) := by
  simp only [admitTask, yields_bind, yields_ite, yields_throw, implies_true, true_and]
  intro described _ criteria _ hnew _ hsupersedes depth hdepth hmax hsiblings _ hdependencies
  obtain ⟨hlisted, hknown⟩ := not_or.1 hnew
  obtain ⟨hroot, hparent⟩ := yields_taskDepth depth hdepth
  split
  · simp
  · rw [yields_pure]
    exact ⟨fun hmem => hknown (Dict.contains_iff.2 hmem), hlisted, hroot, hparent,
      not_lt.1 hmax, not_lt.1 hsiblings, checkDependencies_ok hdependencies,
      inherits_of_checkSupersedes hsupersedes⟩

theorem yields_batch {maxParallelism : ℤ} (items : List Json) (earlier : List Task) :
    Yields (fun tasks => ∃ new, tasks = earlier ++ new ∧ new.length = items.length ∧
        Batch limits s earlier new)
      (admitTasks s limits actor maxParallelism earlier items) := by
  induction items generalizing earlier with
  | nil => exact yields_ok.2 ⟨[], (append_nil _).symm, rfl, trivial⟩
  | cons item rest ih =>
    rw [admitTasks]
    split
    · simp
    · rename_i task htask
      refine (ih (earlier ++ [task])).mono fun tasks hall => ?_
      obtain ⟨new, hnew, hlen, hbatch⟩ := hall
      refine ⟨task :: new, by rw [hnew, append_assoc]; rfl, congrArg (· + 1) hlen, ?_, hbatch⟩
      exact yields_placed task htask

/-- **What a dispatch registers.** -/
theorem yields_taskDispatch_batch {payload : Json} :
    Yields (fun effects => ∃ tasks, effects = (tasks.map .taskRegistered,
          tasks.map fun task => "task:" ++ task.id) ∧
        Batch contract.limits s [] tasks ∧ ∀ n, contract.limits.maxTasks = some n →
          s.tasks.items.length + tasks.length ≤ n)
      (taskDispatch s contract actor payload) := by
  simp only [taskDispatch, yields_bind, yields_ite, yields_throw, implies_true, true_and]
  intro _
  split
  · simp
  · simp only [yields_bind, yields_ite, yields_throw, yields_pure, implies_true, true_and]
    intro _ _ _ hsize
    refine (yields_batch _ []).mono fun tasks hall => ?_
    obtain ⟨new, hnew, hlen, hbatch⟩ := hall
    refine ⟨tasks, rfl, hnew ▸ hbatch, fun n hn => ?_⟩
    rw [hn] at hsize
    rw [hnew, nil_append, hlen]
    simpa using hsize

end Dispatch

/-! ## The invariant -/

/-- **The forest of tasks.** Tasks at the root count as siblings of one another. -/
structure Forest (limits : RunLimits) (s : State) : Prop where
  keyed : ∀ id t, s.tasks.get? id = some t → t.id = id
  root : ∀ id t, s.tasks.get? id = some t → t.parentTaskId = none → t.depth = 1
  parent : ∀ id t, s.tasks.get? id = some t → ∀ p, t.parentTaskId = some p →
    ∃ q, s.tasks.get? p = some q ∧ q.mayDelegate = true ∧ t.depth = q.depth + 1
  depth : ∀ id t, s.tasks.get? id = some t → t.depth ≤ limits.maxDepth
  siblings : ∀ key, s.tasks.values.countP (fun t => siblingKey t.parentTaskId == key) ≤
    limits.maxSubagents
  size : ∀ n, limits.maxTasks = some n → s.tasks.items.length ≤ n
  dependencies : ∀ id t, s.tasks.get? id = some t → ∀ d ∈ t.dependencies,
    ∃ o, s.tasks.get? d = some o ∧ o.status = .settled .succeeded
  superseded : ∀ id t, s.tasks.get? id = some t → ∀ old, t.supersedesTaskId = some old →
    ∃ o, s.tasks.get? old = some o ∧ o.status = .settled .failed ∧ Inherits t o

/-- The same tasks under the same authority; those that had settled are as they were. -/
structure Kept (s m : State) : Prop where
  authority : ∀ id, (m.tasks.get? id).map Task.authority = (s.tasks.get? id).map Task.authority
  frozen : ∀ id o status, s.tasks.get? id = some o → o.status = .settled status →
    m.tasks.get? id = some o

section Preserve

variable {limits : RunLimits} {contract : RunContract} {s m t : State} {e : KernelEvent}

theorem Kept.refl (s : State) : Kept s s := ⟨fun _ => rfl, fun _ _ _ h _ => h⟩

theorem Kept.of_get? (h : Kept s m) {id : String} {t' : Task} (ht : m.tasks.get? id = some t') :
    ∃ t, s.tasks.get? id = some t ∧ t'.authority = t.authority := by
  have hauthority := h.authority id
  rw [ht] at hauthority
  obtain ⟨t, hs, heq⟩ := map_eq_some_iff.1 hauthority.symm
  exact ⟨t, hs, heq.symm⟩

theorem Kept.get? (h : Kept s m) {id : String} {t : Task} (ht : s.tasks.get? id = some t) :
    ∃ t', m.tasks.get? id = some t' ∧ t'.authority = t.authority := by
  have hauthority := h.authority id
  rw [ht] at hauthority
  exact map_eq_some_iff.1 hauthority

theorem Inherits.congr {a a' b : Task} (h : Inherits a b) (ha : a'.authority = a.authority) :
    Inherits a' b where
  role := (Task.of_authority ha Task.role fun _ => rfl).trans h.role
  detailsSchema := (Task.of_authority ha Task.detailsSchema fun _ => rfl).trans h.detailsSchema
  acceptanceCriteria :=
    (Task.of_authority ha Task.acceptanceCriteria fun _ => rfl).trans h.acceptanceCriteria
  dependencies := (Task.of_authority ha Task.dependencies fun _ => rfl).trans h.dependencies
  parentTaskId := (Task.of_authority ha Task.parentTaskId fun _ => rfl).trans h.parentTaskId
  optional := (Task.of_authority ha Task.optional fun _ => rfl).trans h.optional
  mayDelegate := (Task.of_authority ha Task.mayDelegate fun _ => rfl).trans h.mayDelegate
  requiredCapabilities := by
    rw [Task.of_authority ha Task.requiredCapabilities fun _ => rfl]
    exact h.requiredCapabilities

/-- Whatever is kept is a forest still. -/
theorem Forest.kept (h : Forest limits s) (hk : Kept s m) : Forest limits m where
  keyed id t' ht' := by
    obtain ⟨t, ht, ha⟩ := hk.of_get? ht'
    exact (Task.of_authority ha Task.id fun _ => rfl).trans (h.keyed id t ht)
  root id t' ht' hp := by
    obtain ⟨t, ht, ha⟩ := hk.of_get? ht'
    rw [Task.of_authority ha Task.parentTaskId fun _ => rfl] at hp
    exact (Task.of_authority ha Task.depth fun _ => rfl).trans (h.root id t ht hp)
  parent id t' ht' p hp := by
    obtain ⟨t, ht, ha⟩ := hk.of_get? ht'
    rw [Task.of_authority ha Task.parentTaskId fun _ => rfl] at hp
    obtain ⟨q, hq, hdelegate, hdepth⟩ := h.parent id t ht p hp
    obtain ⟨q', hq', hqa⟩ := hk.get? hq
    refine ⟨q', hq', (Task.of_authority hqa Task.mayDelegate fun _ => rfl).trans hdelegate, ?_⟩
    rw [Task.of_authority ha Task.depth fun _ => rfl, hdepth,
      Task.of_authority hqa Task.depth fun _ => rfl]
  depth id t' ht' := by
    obtain ⟨t, ht, ha⟩ := hk.of_get? ht'
    rw [Task.of_authority ha Task.depth fun _ => rfl]
    exact h.depth id t ht
  siblings key := by
    refine le_of_eq_of_le (Dict.countP_values_congr fun id => ?_) (h.siblings key)
    have hany (d : Option Task) : d.any (fun t => siblingKey t.parentTaskId == key) =
        (d.map Task.authority).any fun t => siblingKey t.parentTaskId == key := by
      cases d <;> rfl
    rw [hany, hk.authority id, ← hany]
  size n hn := by
    have hkeys : m.tasks.keySet = s.tasks.keySet := by
      ext id
      rw [Dict.mem_keySet, Dict.mem_keySet, Dict.mem_keys_iff, Dict.mem_keys_iff]
      exact ⟨fun ⟨t', ht'⟩ => (hk.of_get? ht').imp fun _ h => h.1,
        fun ⟨t, ht⟩ => (hk.get? ht).imp fun _ h => h.1⟩
    rw [← Dict.card_keySet, hkeys, Dict.card_keySet]
    exact h.size n hn
  dependencies id t' ht' d hd := by
    obtain ⟨t, ht, ha⟩ := hk.of_get? ht'
    rw [Task.of_authority ha Task.dependencies fun _ => rfl] at hd
    obtain ⟨o, ho, hs⟩ := h.dependencies id t ht d hd
    exact ⟨o, hk.frozen d o _ ho hs, hs⟩
  superseded id t' ht' old hold := by
    obtain ⟨t, ht, ha⟩ := hk.of_get? ht'
    rw [Task.of_authority ha Task.supersedesTaskId fun _ => rfl] at hold
    obtain ⟨o, ho, hs, hin⟩ := h.superseded id t ht old hold
    exact ⟨o, hk.frozen old o _ ho hs, hs, hin.congr ha⟩

/-- An event that registers no task keeps. -/
theorem kept_apply (hl : Lawful contract s e.body) (hr : ∀ task, e.body ≠ .taskRegistered task)
    (h : Kept s m) (happly : m.apply e = some t) : Kept s t := by
  obtain ⟨n, hn, rfl⟩ := map_eq_some_iff.1 happly
  obtain ⟨-, -, htasks⟩ | ⟨task, hbody, -⟩ |
    ⟨id, task, new, hprogress, htask, hget, hauthority, -⟩ := task_applyBody hn
  · exact ⟨fun id => htasks ▸ h.authority id, fun id o st ho hs => htasks ▸ h.frozen id o st ho hs⟩
  · exact absurd hbody (hr task)
  · obtain ⟨active, hactive, hstatus⟩ := active_of_progress hl hprogress
    refine ⟨fun j => ?_, fun j o st ho hs => (hget j).trans ?_⟩
    · rw [show ({ n with kernelEventCount := n.kernelEventCount + 1 } : State).tasks.get? j = _ from
        hget j, ← h.authority j]
      split_ifs with hj
      · rw [hj, htask, map_some, map_some, hauthority]
      · rfl
    · have hne : j ≠ id := by
        rintro rfl
        rw [ho] at hactive
        cases hactive
        rw [hs] at hstatus
        rcases hstatus with hstatus | hstatus <;> cases hstatus
      rw [if_neg hne]
      exact h.frozen j o st ho hs

theorem kept_replay {es : List KernelEvent} (hl : ∀ e ∈ es, Lawful contract s e.body)
    (hr : ∀ e ∈ es, ∀ task, e.body ≠ .taskRegistered task)
    (hreplay : replay State.apply s es = some t) : Kept s t :=
  replay_induction (fun _ e _ he hk happly => kept_apply (hl e he) (hr e he) hk happly)
    (.refl s) hreplay

end Preserve

/-! ## Registrations -/

/-- `m` is `s` with the tasks `earlier` registered. -/
structure Grown (s m : State) (earlier : List Task) : Prop where
  values : m.tasks.values = s.tasks.values ++ earlier
  kept : ∀ id t, s.tasks.get? id = some t → m.tasks.get? id = some t
  keys : ∀ id ∈ m.tasks.keys, id ∈ s.tasks.keys ∨ id ∈ earlier.map (·.id)

section Register

variable {limits : RunLimits} {s m t : State} {earlier : List Task} {task : Task}

theorem Grown.refl (s : State) : Grown s s [] :=
  ⟨(append_nil _).symm, fun _ _ h => h, fun _ h => .inl h⟩

theorem Grown.keys_append (h : Grown s m earlier) (rest : List Task) :
    ∀ id ∈ m.tasks.keys, id ∈ s.tasks.keys ∨ id ∈ (earlier ++ rest).map (·.id) := by
  intro id hid
  rw [map_append, mem_append]
  exact (h.keys id hid).imp_right .inl

theorem Grown.fresh (h : Grown s m earlier) (hp : Placed limits s earlier task) :
    task.id ∉ m.tasks.keys :=
  fun hmem => (h.keys _ hmem).elim hp.fresh hp.unlisted

theorem Grown.register (h : Grown s m earlier) (hp : Placed limits s earlier task)
    (ht : t.tasks = m.tasks.set task.id task) : Grown s t (earlier ++ [task]) where
  values := by
    rw [ht, Dict.values_set_of_notMem (h.fresh hp), h.values, append_assoc]
  kept id old hold := by
    have hm := h.kept id old hold
    have hne : id ≠ task.id := fun heq => h.fresh hp (heq ▸ Dict.mem_keys_iff.2 ⟨old, hm⟩)
    rw [ht, Dict.get?_set_ne _ _ hne]
    exact hm
  keys id hid := by
    rw [ht, Dict.mem_keys_set] at hid
    rw [map_append, mem_append]
    rcases hid with rfl | hid
    · exact .inr (.inr mem_cons_self)
    · exact (h.keys id hid).imp_right .inl

/-- **A registration that was checked keeps the forest.** -/
theorem Forest.register (h : Forest limits m) (hg : Grown s m earlier)
    (hp : Placed limits s earlier task) (ht : t.tasks = m.tasks.set task.id task)
    (hsize : ∀ n, limits.maxTasks = some n → s.tasks.items.length + earlier.length + 1 ≤ n) :
    Forest limits t := by
  have hget (id : String) (u : Task) (hu : t.tasks.get? id = some u) :
      id = task.id ∧ u = task ∨ m.tasks.get? id = some u := by
    rw [ht, Dict.get?_set] at hu
    split_ifs at hu with hid
    · exact .inl ⟨hid, (Option.some.inj hu).symm⟩
    · exact .inr hu
  have hold (id : String) (u : Task) (hu : m.tasks.get? id = some u) :
      t.tasks.get? id = some u := by
    have hne : id ≠ task.id := fun heq => hg.fresh hp (heq ▸ Dict.mem_keys_iff.2 ⟨u, hu⟩)
    rw [ht, Dict.get?_set_ne _ _ hne]
    exact hu
  refine ⟨fun id u hu => ?_, fun id u hu hroot => ?_, fun id u hu p hparent => ?_,
    fun id u hu => ?_, fun key => ?_, fun n hn => ?_, fun id u hu d hd => ?_,
    fun id u hu old hsup => ?_⟩
  · rcases hget id u hu with ⟨rfl, rfl⟩ | hu
    · rfl
    · exact h.keyed id u hu
  · rcases hget id u hu with ⟨-, rfl⟩ | hu
    · exact hp.root hroot
    · exact h.root id u hu hroot
  · rcases hget id u hu with ⟨-, rfl⟩ | hu
    · obtain ⟨q, hq, hdelegate⟩ := hp.parent p hparent
      exact ⟨q, hold p q (hg.kept p q hq), hdelegate⟩
    · obtain ⟨q, hq, hdelegate⟩ := h.parent id u hu p hparent
      exact ⟨q, hold p q hq, hdelegate⟩
  · rcases hget id u hu with ⟨-, rfl⟩ | hu
    · exact hp.depth
    · exact h.depth id u hu
  · rw [ht, Dict.values_set_of_notMem (hg.fresh hp), countP_append, countP_singleton]
    split_ifs with hkey
    · rw [← eq_of_beq hkey, hg.values]
      exact hp.siblings
    · exact h.siblings key
  · have hlen : t.tasks.values.length = s.tasks.values.length + earlier.length + 1 := by
      rw [(hg.register hp ht).values]
      simp only [length_append, length_cons, length_nil]
      omega
    simp only [Dict.values, length_map] at hlen
    rw [hlen]
    exact hsize n hn
  · rcases hget id u hu with ⟨-, rfl⟩ | hu
    · obtain ⟨o, ho, hs⟩ := hp.dependencies d hd
      exact ⟨o, hold d o (hg.kept d o ho), hs⟩
    · obtain ⟨o, ho, hs⟩ := h.dependencies id u hu d hd
      exact ⟨o, hold d o ho, hs⟩
  · rcases hget id u hu with ⟨-, rfl⟩ | hu
    · obtain ⟨o, ho, hs⟩ := hp.superseded old hsup
      exact ⟨o, hold old o (hg.kept old o ho), hs⟩
    · obtain ⟨o, ho, hs⟩ := h.superseded id u hu old hsup
      exact ⟨o, hold old o ho, hs⟩

/-- The tasks of a batch are registered one after the other, and a crash may cut the rest off. -/
theorem forest_batch {es : List KernelEvent} {tasks : List Task}
    (hbodies : es.map (·.body) = tasks.map .taskRegistered) (h : Forest limits m)
    (hg : Grown s m earlier) (hb : Batch limits s earlier tasks)
    (hsize : ∀ n, limits.maxTasks = some n →
      s.tasks.items.length + earlier.length + tasks.length ≤ n)
    (i : ℕ) (hreplay : replay State.apply m (es.take i) = some t) :
    Forest limits t ∧ (∀ id u, s.tasks.get? id = some u → t.tasks.get? id = some u) ∧
      ∀ id ∈ t.tasks.keys, id ∈ s.tasks.keys ∨ id ∈ (earlier ++ tasks).map (·.id) := by
  induction tasks generalizing es m earlier i with
  | nil =>
    obtain rfl := map_eq_nil_iff.1 hbodies
    rw [take_nil] at hreplay
    cases hreplay
    exact ⟨h, hg.kept, hg.keys_append []⟩
  | cons task rest ih =>
    cases es with
    | nil => cases hbodies
    | cons e es =>
      cases i with
      | zero =>
        cases hreplay
        exact ⟨h, hg.kept, hg.keys_append _⟩
      | succ i =>
        obtain ⟨hbody, hbodies⟩ := List.cons.inj hbodies
        have hbody : e.body = .taskRegistered task := hbody
        obtain ⟨hplaced, hb⟩ := hb
        have happly : m.apply e = some { m with
            tasks := m.tasks.set task.id task
            kernelEventCount := m.kernelEventCount + 1 } := by
          rw [State.apply, hbody]
          rfl
        rw [take_succ_cons, replay_cons_of happly] at hreplay
        rw [append_cons]
        refine ih hbodies (h.register hg hplaced rfl fun n hn => ?_) (hg.register hplaced rfl) hb
          (fun n hn => ?_) i hreplay
        · have hle := hsize n hn
          rw [length_cons] at hle
          omega
        · have hle := hsize n hn
          rw [length_append, length_cons, length_nil]
          rw [length_cons] at hle
          omega

end Register

/-! ## Runs -/

/-- The task, filed in the state, supersedes the other one. -/
def Supersedes (s : State) (newer older : Task) : Prop :=
  newer ∈ s.tasks.values ∧ ∃ old, newer.supersedesTaskId = some old ∧
    s.tasks.get? old = some older

/-- Every task stays, under its authority, and once it has settled so does its status. -/
def Lasts (s t : State) : Prop :=
  ∀ id o, s.tasks.get? id = some o → ∃ o', t.tasks.get? id = some o' ∧
    o'.authority = o.authority ∧ ∀ status, o.status = .settled status → o'.status = .settled status

section Runs

variable {setting : Setting} {limits : RunLimits} {k k' : Kernel} {op : Operation} {s t u : State}
  {es : List KernelEvent}

theorem Inherits.trans {a b c : Task} (h : Inherits a b) (h' : Inherits b c) : Inherits a c where
  role := h.role.trans h'.role
  detailsSchema := h.detailsSchema.trans h'.detailsSchema
  acceptanceCriteria := h.acceptanceCriteria.trans h'.acceptanceCriteria
  dependencies := h.dependencies.trans h'.dependencies
  parentTaskId := h.parentTaskId.trans h'.parentTaskId
  optional := h.optional.trans h'.optional
  mayDelegate := h.mayDelegate.trans h'.mayDelegate
  requiredCapabilities := List.Subset.trans h.requiredCapabilities h'.requiredCapabilities

theorem Lasts.refl (s : State) : Lasts s s := fun _ o ho => ⟨o, ho, rfl, fun _ h => h⟩

theorem Lasts.trans (h : Lasts s t) (h' : Lasts t u) : Lasts s u := by
  intro id o ho
  obtain ⟨o', ho', ha, hs⟩ := h id o ho
  obtain ⟨o'', ho'', ha', hs'⟩ := h' id o' ho'
  exact ⟨o'', ho'', ha'.trans ha, fun status hst => hs' status (hs status hst)⟩

theorem Kept.lasts (h : Kept s t) : Lasts s t := by
  intro id o ho
  obtain ⟨o', ho', ha⟩ := h.get? ho
  refine ⟨o', ho', ha, fun status hs => ?_⟩
  obtain rfl := Option.some.inj (ho'.symm.trans (h.frozen id o status ho hs))
  exact hs

theorem bodies_newEvents (runId : String) (revision : ℕ) (actor : CommandActor) (count : ℕ)
    (bodies : List (String × EventBody)) :
    (newEvents runId revision actor count bodies).map (·.body) = bodies.map Prod.snd := by
  induction bodies generalizing count with
  | nil => rfl
  | cons p rest ih => simp [newEvents, ih]

/-- The events of an operation register no task, or they are a checked batch of registrations. -/
theorem Appends.registers (h : Appends setting k op es) :
    (∀ e ∈ es, ∀ task, e.body ≠ .taskRegistered task) ∨
    (∃ catalog command, op = .handle catalog command ∧ command.type = .taskDispatch) ∧
    ∃ tasks, es.map (·.body) = tasks.map .taskRegistered ∧
      Batch setting.contract.limits k.state [] tasks ∧
      ∀ n, setting.contract.limits.maxTasks = some n →
        k.state.tasks.items.length + tasks.length ≤ n := by
  cases h with
  | @committed catalog command effects haccepts heval =>
    by_cases htype : command.type = .taskDispatch
    · right
      have hdispatch : taskDispatch k.state setting.contract command.actor command.payload =
          .ok effects := by
        rwa [State.evaluate, htype] at heval
      obtain ⟨tasks, rfl, hbatch, hsize⟩ := yields_taskDispatch_batch effects hdispatch
      refine ⟨⟨catalog, command, rfl, htype⟩, tasks, ?_, hbatch, hsize⟩
      rw [commitEvents, bodies_newEvents, List.map_map]
      simp
    · left
      intro e he task hbody
      obtain ⟨p, hp, -, hp', -⟩ := mem_newEvents he
      obtain ⟨b, hb, rfl⟩ := mem_map.1 hp
      have htype' := ((yields_evaluate effects heval).2 b hb).1
      have hb : b = .taskRegistered task := hp'.symm.trans hbody
      rw [hb] at htype'
      exact htype (Option.some.inj htype').symm
  | recorded hrecorded =>
    left
    intro e he task hbody
    obtain ⟨p, hp, -, hp', -⟩ := mem_newEvents he
    have hnone := (hrecorded.lawful p hp).1
    rw [← hp', hbody] at hnone
    cases hnone

/-- **What any number of an operation's events leaves of the forest.** -/
theorem forest_appends (hf : Forest setting.contract.limits k.state) (h : Appends setting k op es)
    (i : ℕ) (hreplay : replay State.apply k.state (es.take i) = some t) :
    Forest setting.contract.limits t ∧ Lasts k.state t := by
  obtain hnone | ⟨-, tasks, hbodies, hbatch, hsize⟩ := h.registers
  · have hkept := kept_replay (fun e he => h.lawful e (mem_of_mem_take he))
      (fun e he => hnone e (mem_of_mem_take he)) hreplay
    exact ⟨hf.kept hkept, hkept.lasts⟩
  · obtain ⟨hforest, hkept, -⟩ := forest_batch hbodies hf (.refl _) hbatch hsize i hreplay
    exact ⟨hforest, fun id o ho => ⟨o, hkept id o ho, rfl, fun _ h => h⟩⟩

theorem forest_moves {initial : State} (hs : k.Sound initial)
    (hf : Forest setting.contract.limits k.state) (h : Moves setting k op k') :
    Forest setting.contract.limits k'.state ∧ Lasts k.state k'.state := by
  obtain ⟨-, es, hes, -, t, ht, hstate⟩ := moves_cases hs h
  have hboth : Forest setting.contract.limits t ∧ Lasts k.state t := by
    obtain rfl | ⟨all, happends, i, rfl⟩ := hes
    · cases ht
      exact ⟨hf, .refl _⟩
    · exact forest_appends hf happends i ht
  obtain ⟨⟨hkeyed, hroot, hparent, hdepth, hsiblings, hsize, hdeps, hsup⟩, hlasts⟩ := hboth
  rw [hstate]
  exact ⟨⟨hkeyed, hroot, hparent, hdepth, hsiblings, hsize, hdeps, hsup⟩, hlasts⟩

theorem forest_initial (contract : RunContract) (criteria : Dict String Criterion)
    (artifacts : Dict String Artifact) :
    Forest contract.limits (initialState contract criteria artifacts) := by
  refine ⟨?_, ?_, ?_, ?_, fun _ => Nat.zero_le _, fun _ _ => Nat.zero_le _, ?_, ?_⟩
  all_goals
    intro id t ht
    cases ht

/-- Along a chain every superseded task has failed, and the capabilities only shrink. -/
theorem Forest.chain (h : Forest limits s) {newer older : Task}
    (hchain : Relation.TransGen (Supersedes s) newer older) :
    older.status = .settled .failed ∧ Inherits newer older := by
  have step {a b : Task} (hab : Supersedes s a b) : b.status = .settled .failed ∧ Inherits a b := by
    obtain ⟨ha, old, hold, hb⟩ := hab
    obtain ⟨id, hid⟩ := Dict.mem_values_iff.1 ha
    obtain ⟨o, ho, hs, hin⟩ := h.superseded id a hid old hold
    cases hb.symm.trans ho
    exact ⟨hs, hin⟩
  induction hchain with
  | single hab => exact step hab
  | tail _ hbc ih => exact ⟨(step hbc).1, ih.2.trans (step hbc).2⟩

theorem Forest.children (h : Forest limits s) (parent : String) :
    s.tasks.values.countP (fun t => t.parentTaskId = some parent) ≤ limits.maxSubagents := by
  refine le_trans (countP_mono_left fun t _ ht => ?_) (h.siblings parent)
  rw [siblingKey, of_decide_eq_true ht]
  exact beq_self_eq_true parent

theorem Forest.ids (h : Forest limits s) : (s.tasks.values.map (·.id)).Nodup := by
  have hkeys : s.tasks.values.map (·.id) = s.tasks.keys := by
    rw [Dict.values, Dict.keys, List.map_map]
    exact List.map_congr_left fun p hp => h.keyed p.1 p.2 (Dict.get?_eq_some_iff.2 hp)
  rw [hkeys]
  exact s.tasks.nodup_keys

theorem forest_of_reached {criteria : Dict String Criterion} {artifacts : Dict String Artifact}
    (h : Reached setting (initialState setting.contract criteria artifacts) k) :
    Forest setting.contract.limits k.state := by
  induction h with
  | start => exact forest_initial _ _ _
  | move op hreached hmove ih => exact (forest_moves (hreached.sound rfl) ih hmove).1

/-- **The kernel's tasks form a bounded forest**, and whatever a run does afterwards, it stays one,
every task stays under its authority, and a settled task keeps its status. -/
theorem task_forest {criteria : Dict String Criterion} {artifacts : Dict String Artifact}
    (h : Reached setting (initialState setting.contract criteria artifacts) k) :
    Forest setting.contract.limits k.state ∧ (k.state.tasks.values.map (·.id)).Nodup ∧
    (∀ parent, k.state.tasks.values.countP (fun t => t.parentTaskId = some parent) ≤
      setting.contract.limits.maxSubagents) ∧
    (∀ newer older, Relation.TransGen (Supersedes k.state) newer older →
      older.status = .settled .failed ∧ Inherits newer older) ∧
    ∀ k', Relation.ReflTransGen (fun a b => ∃ op, Moves setting a op b) k k' →
      Forest setting.contract.limits k'.state ∧ Lasts k.state k'.state := by
  have hforest := forest_of_reached h
  refine ⟨hforest, hforest.ids, hforest.children, fun _ _ => hforest.chain, fun k' hrun => ?_⟩
  have hall : Reached setting (initialState setting.contract criteria artifacts) k' ∧
      Forest setting.contract.limits k'.state ∧ Lasts k.state k'.state := by
    induction hrun with
    | refl => exact ⟨h, hforest, .refl _⟩
    | tail _ hmove ih =>
      obtain ⟨op, hmove⟩ := hmove
      obtain ⟨hreached, hf, hlasts⟩ := ih
      obtain ⟨hf', hlasts'⟩ := forest_moves (hreached.sound rfl) hf hmove
      exact ⟨.move op hreached hmove, hf', hlasts.trans hlasts'⟩
  exact hall.2

/-- Behind a dispatch of two tasks. -/
theorem task_forest_twoTasks :
    ((⟨exampleState, []⟩ : Kernel).step exampleSetting twoTasks).kernel.state.tasks.keys =
        ["build", "test"] ∧
      Forest exampleSetting.contract.limits
        ((⟨exampleState, []⟩ : Kernel).step exampleSetting twoTasks).kernel.state :=
  ⟨by decide +kernel, (task_forest (Reached.start.step rfl twoTasks)).1⟩

end Runs

end HarnessLabs.Controller
