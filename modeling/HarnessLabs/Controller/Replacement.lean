import HarnessLabs.Controller.Supersession

/-!
# Ways out of a settled task

A required task that did not succeed stands in the way of the run's completion until a task that
replaces it has succeeded. A replacement takes over the authority of the task, so whatever a dispatch
has checked of the task it will find true of the replacement.

* `Legible` — what a dispatch can read of every task, preserved by whatever a run does.
* `Leads` — the kernels that accepted commands of a coordinator and successful results lead to.
* `Dischargeable` — one of them has the task out of the way.
* `dischargeable_iff` — **a task that has settled without success can be discharged exactly when it
  failed** and a sibling may be added or a replacement is on its way.
-/

namespace HarnessLabs.Controller

open EventLog List Option

/-! ## What a dispatch has read -/

/-- The texts of the task's description, its criteria and its parallelism. -/
structure Legible (contract : RunContract) (s : State) (t : Task) : Prop where
  id : isBlank t.id = false
  role : isBlank t.role = false
  objective : isBlank t.objective = false
  detailsSchema : isBlank t.detailsSchema = false
  parent : ∀ p, t.parentTaskId = some p → isBlank p = false
  capabilities : ∀ c ∈ t.requiredCapabilities, isBlank c = false
  dependencies : ∀ d ∈ t.dependencies, isBlank d = false
  criteria : ∀ c ∈ t.acceptanceCriteria, isBlank c = false ∧ c ∈ s.criteria.keys
  parallelism : 1 ≤ t.maxParallelism ∧
    contract.limits.maxParallelism.any (· < t.maxParallelism) = false

section Read

variable {contract : RunContract} {s t : State} {item : Json}

theorem yields_payloadText (name owner : String) :
    Yields (fun text => isBlank text = false) (payloadText item name owner) := by
  rw [payloadText]
  split
  · simp
  · exact yields_error

theorem filled_of_mapM {values : List Json} {texts : List String}
    (h : values.mapM nonBlankText = some texts) : ∀ text ∈ texts, isBlank text = false := by
  induction values generalizing texts with
  | nil =>
    cases h
    exact forall_mem_nil _
  | cons value rest ih =>
    rw [mapM_cons] at h
    obtain ⟨text, htext, hrest⟩ := bind_eq_some_iff.1 h
    obtain ⟨texts', htexts, heq⟩ := bind_eq_some_iff.1 hrest
    cases heq
    refine forall_mem_cons.2 ⟨?_, ih htexts⟩
    cases value with
    | str value =>
      rw [nonBlankText] at htext
      split_ifs at htext with hblank
      cases htext
      simpa using hblank
    | _ => cases htext

theorem yields_stringList (name : String) :
    Yields (fun texts => ∀ text ∈ texts, isBlank text = false) (stringList item name) := by
  rw [stringList]
  split
  · simp
  · split
    · rename_i texts htexts
      exact yields_ok.2 (filled_of_mapM htexts)
    · exact yields_error
  · exact yields_error

theorem yields_optionalTaskId (name : String) :
    Yields (fun id => ∀ p, id = some p → isBlank p = false) (optionalTaskId item name) := by
  rw [optionalTaskId]
  split <;> simp

theorem filled_of_dropBlanks {cs : List Char} (h : dropBlanks cs ≠ []) :
    isBlank (String.ofList (dropBlanks cs)) = false := by
  rw [isBlank, String.toList_ofList, List.all_eq_false]
  rw [dropBlanks] at h ⊢
  have hne : (cs.dropWhile (·.isWhitespace)).reverse.dropWhile (·.isWhitespace) ≠ [] := by
    simpa using h
  obtain ⟨c, rest, hc⟩ := exists_cons_of_ne_nil hne
  refine ⟨c, by simp [hc], ?_⟩
  have hhead := List.head?_dropWhile_not (·.isWhitespace)
    (cs.dropWhile (·.isWhitespace)).reverse
  rw [hc] at hhead
  simpa using hhead

theorem yields_parseCriterionRef (value : String) :
    Yields (fun id => isBlank id = false) (parseCriterionRef value) := by
  unfold parseCriterionRef
  rw [yields_ite]
  refine ⟨fun _ => yields_error, fun hne => yields_ok.2 (filled_of_dropBlanks fun hnil => hne ?_)⟩
  rw [hnil]

theorem yields_resolveTaskCriteria {entries : List String}
    (h : ∀ value ∈ entries, isBlank value = false) :
    Yields (fun ids => ∀ id ∈ ids, isBlank id = false) (resolveTaskCriteria s entries) := by
  rw [resolveTaskCriteria]
  induction entries with
  | nil => simp
  | cons value rest ih =>
    obtain ⟨hvalue, hrest⟩ := forall_mem_cons.1 h
    rw [mapM_cons]
    simp only [yields_bind, yields_pure]
    intro id hid ids hids
    refine forall_mem_cons.2 ⟨?_, ih hrest ids hids⟩
    split_ifs at hid with hknown
    · cases hid
      exact hvalue
    · exact yields_parseCriterionRef value id hid

/-- The texts of a description; the criteria are resolved later. -/
theorem yields_readTask :
    Yields (fun task => isBlank task.id = false ∧ isBlank task.role = false ∧
        isBlank task.objective = false ∧ isBlank task.detailsSchema = false ∧
        (∀ p, task.parentTaskId = some p → isBlank p = false) ∧
        (∀ c ∈ task.requiredCapabilities, isBlank c = false) ∧
        (∀ d ∈ task.dependencies, isBlank d = false) ∧
        ∀ c ∈ task.acceptanceCriteria, isBlank c = false) (readTask item) := by
  simp only [readTask, yields_bind, yields_ite, yields_throw, implies_true, true_and, yields_pure]
  intro _ parent hparent _ _ capabilities hcapabilities criteria hcriteria dependencies
    hdependencies _ _ _ _ id hid role hrole objective hobjective schema hschema
  exact ⟨yields_payloadText _ _ id hid, yields_payloadText _ _ role hrole,
    yields_payloadText _ _ objective hobjective, yields_payloadText _ _ schema hschema,
    yields_optionalTaskId _ parent hparent, yields_stringList _ capabilities hcapabilities,
    yields_stringList _ dependencies hdependencies, yields_stringList _ criteria hcriteria⟩

variable {actor : CommandActor}

theorem yields_admitTask_legible {maxParallelism : ℤ} {earlier : List Task}
    (hparallelism : 1 ≤ maxParallelism ∧
      contract.limits.maxParallelism.any (· < maxParallelism) = false) :
    Yields (Legible contract s)
      (admitTask s contract.limits actor maxParallelism earlier item) := by
  simp only [admitTask, yields_bind, yields_ite, yields_throw, implies_true, true_and]
  intro described hdescribed criteria hcriteria _ _ _ _ _ _ _ _ _
  obtain ⟨hid, hrole, hobjective, hschema, hparent, hcapabilities, hdependencies, hentries⟩ :=
    yields_readTask described hdescribed
  have hfilled := yields_resolveTaskCriteria hentries criteria hcriteria
  split
  · exact yields_error
  · rename_i hknown
    refine yields_pure.2 ⟨hid, hrole, hobjective, hschema, hparent, hcapabilities, hdependencies,
      fun c hc => ⟨hfilled c hc, ?_⟩, hparallelism⟩
    have hcontains := List.find?_eq_none.1 hknown c hc
    exact Dict.contains_iff.1 (by simpa using hcontains)

theorem yields_admitTasks_legible {maxParallelism : ℤ} (hparallelism : 1 ≤ maxParallelism ∧
      contract.limits.maxParallelism.any (· < maxParallelism) = false) (items : List Json)
    {earlier : List Task} (hearlier : ∀ t ∈ earlier, Legible contract s t) :
    Yields (fun tasks => ∀ t ∈ tasks, Legible contract s t)
      (admitTasks s contract.limits actor maxParallelism earlier items) := by
  induction items generalizing earlier with
  | nil => exact yields_ok.2 hearlier
  | cons item rest ih =>
    rw [admitTasks]
    split
    · exact yields_error
    · rename_i task htask
      refine ih fun t ht => ?_
      rcases mem_append.1 ht with ht | ht
      · exact hearlier t ht
      · obtain rfl := mem_singleton.1 ht
        exact yields_admitTask_legible hparallelism _ htask

/-- **Every task that a dispatch registers is legible.** -/
theorem yields_taskDispatch_legible {payload : Json} :
    Yields (fun effects => ∀ t, .taskRegistered t ∈ effects.1 → Legible contract s t)
      (taskDispatch s contract actor payload) := by
  simp only [taskDispatch, yields_bind, yields_ite, yields_throw, implies_true, true_and]
  intro _
  split
  · exact yields_error
  · simp only [yields_bind, yields_ite, yields_throw, yields_pure, implies_true, true_and]
    intro hpositive hlimit _ _
    refine (yields_admitTasks_legible ⟨not_lt.1 hpositive, by simpa using hlimit⟩ _
      (forall_mem_nil _)).mono fun tasks htasks t ht => ?_
    obtain ⟨task, htask, heq⟩ := mem_map.1 ht
    obtain rfl := EventBody.taskRegistered.inj heq
    exact htasks task htask

end Read

/-! ## The invariant -/

section Invariant

variable {contract : RunContract} {setting : Setting} {k : Kernel} {s m t : State}
  {criteria : Dict String Criterion} {artifacts : Dict String Artifact}

theorem Legible.mono {task : Task} (h : Legible contract s task)
    (hkeys : ∀ id ∈ s.criteria.keys, id ∈ t.criteria.keys) : Legible contract t task :=
  ⟨h.id, h.role, h.objective, h.detailsSchema, h.parent, h.capabilities, h.dependencies,
    fun c hc => ⟨(h.criteria c hc).1, hkeys c (h.criteria c hc).2⟩, h.parallelism⟩

theorem Legible.congr {a b : Task} (h : Legible contract s a) (hab : b.authority = a.authority) :
    Legible contract s b where
  id := by
    rw [Task.of_authority hab Task.id fun _ => rfl]
    exact h.id
  role := by
    rw [Task.of_authority hab Task.role fun _ => rfl]
    exact h.role
  objective := by
    rw [Task.of_authority hab Task.objective fun _ => rfl]
    exact h.objective
  detailsSchema := by
    rw [Task.of_authority hab Task.detailsSchema fun _ => rfl]
    exact h.detailsSchema
  parent := by
    rw [Task.of_authority hab Task.parentTaskId fun _ => rfl]
    exact h.parent
  capabilities := by
    rw [Task.of_authority hab Task.requiredCapabilities fun _ => rfl]
    exact h.capabilities
  dependencies := by
    rw [Task.of_authority hab Task.dependencies fun _ => rfl]
    exact h.dependencies
  criteria := by
    rw [Task.of_authority hab Task.acceptanceCriteria fun _ => rfl]
    exact h.criteria
  parallelism := by
    rw [Task.of_authority hab Task.maxParallelism fun _ => rfl]
    exact h.parallelism

theorem criteria_keys_updateCriterion {id : String} {f : Criterion → Criterion}
    (h : s.updateCriterion id f = some t) : ∀ j ∈ s.criteria.keys, j ∈ t.criteria.keys := by
  obtain ⟨-, -, rfl⟩ := updateCriterion_eq_some h
  exact fun _ => mem_keys_set_of_mem

theorem criteria_keys_coverCriteria {taskId : String} {coverage : List Coverage}
    (h : s.coverCriteria taskId coverage = some t) :
    ∀ j ∈ s.criteria.keys, j ∈ t.criteria.keys := by
  induction coverage generalizing s with
  | nil =>
    cases h
    exact fun _ hj => hj
  | cons c rest ih =>
    obtain ⟨m, hm, ht⟩ := bind_eq_some_iff.1 h
    exact fun j hj => ih ht j (criteria_keys_updateCriterion hm j hj)

/-- No criterion is ever taken away. -/
theorem criteria_keys_applyBody {b : EventBody} (h : s.applyBody b = some t) :
    ∀ j ∈ s.criteria.keys, j ∈ t.criteria.keys := by
  cases b with
  | criterionRegistered c =>
    cases h
    exact fun _ => mem_keys_set_of_mem
  | criterionGateVerified id ref => exact criteria_keys_updateCriterion h
  | taskStarted id =>
    obtain ⟨-, -, rfl⟩ := updateTask_eq_some h
    exact fun _ hj => hj
  | taskOrphaned id attempt session outcome evidence =>
    obtain ⟨-, -, rfl⟩ := updateTask_eq_some h
    exact fun _ hj => hj
  | findingDispositionRecorded d =>
    obtain ⟨-, -, rfl⟩ := updateFinding_eq_some h
    exact fun _ hj => hj
  | taskResultRecorded id result promotions =>
    obtain ⟨-, -, -, -, ⟨-, hsame⟩ | ⟨p, m, -, hcover, hsame⟩⟩ := recordResult_eq_some h
    · exact fun j hj => hsame ▸ hj
    · exact fun j hj => criteria_keys_coverCriteria hcover j (hsame ▸ hj)
  | runGateVerificationFailed ids ref =>
    cases h
    intro j hj
    split_ifs
    · exact hj
    · exact hj
  | _ =>
    cases h
    exact fun _ hj => hj

/-- Every task of the state is legible. -/
def AllLegible (contract : RunContract) (s : State) : Prop :=
  ∀ id t, s.tasks.get? id = some t → Legible contract s t

/-- An event keeps what is legible, if the task that it registers is. -/
theorem allLegible_apply {e : KernelEvent} (h : AllLegible contract m)
    (hnew : ∀ task, e.body = .taskRegistered task → Legible contract m task)
    (happly : m.apply e = some t) : AllLegible contract t := by
  obtain ⟨n, hn, rfl⟩ := map_eq_some_iff.1 happly
  have hkeys := criteria_keys_applyBody hn
  intro id task htask
  suffices Legible contract m task from this.mono hkeys
  obtain ⟨-, -, htasks⟩ | ⟨new, hbody, htasks⟩ |
    ⟨j, old, new, -, hold, hget, hauthority, -⟩ := task_applyBody hn
  · exact h id task (htasks ▸ htask)
  · have htask : (m.tasks.set new.id new).get? id = some task := htasks ▸ htask
    rw [Dict.get?_set] at htask
    split_ifs at htask
    · cases htask
      exact hnew _ hbody
    · exact h id task htask
  · have htask := (hget id).symm.trans htask
    split_ifs at htask
    · cases htask
      exact (h j old hold).congr hauthority
    · exact h id task htask

theorem Appends.legible {op : Operation} {es : List KernelEvent} (h : Appends setting k op es)
    {e : KernelEvent} (he : e ∈ es) {task : Task} (hbody : e.body = .taskRegistered task) :
    Legible setting.contract k.state task := by
  cases h with
  | @committed catalog command effects haccepts heval =>
    obtain ⟨p, hp, -, hp', -⟩ := mem_newEvents he
    obtain ⟨b, hb, rfl⟩ := mem_map.1 hp
    have hb' : b = .taskRegistered task := hp'.symm.trans hbody
    have htype := ((yields_evaluate effects heval).2 b hb).1
    rw [hb'] at htype
    have htype : CommandType.taskDispatch = command.type := Option.some.inj htype
    have hdispatch : taskDispatch k.state setting.contract command.actor command.payload =
        .ok effects := by
      rwa [State.evaluate, ← htype] at heval
    exact yields_taskDispatch_legible effects hdispatch task (hb' ▸ hb)
  | recorded hrecorded =>
    obtain ⟨p, hp, -, hp', -⟩ := mem_newEvents he
    have hnone := (hrecorded.lawful p hp).1
    rw [← hp', hbody] at hnone
    cases hnone

/-- **Every task of a reached kernel is legible.** -/
theorem allLegible_of_reached
    (h : Reached setting (initialState setting.contract criteria artifacts) k) :
    AllLegible setting.contract k.state := by
  refine h.invariant (P := AllLegible setting.contract) rfl (fun s m hs => ?_) ?_ ?_
  · exact fun id t ht => (hs id t ht).mono fun _ hj => hj
  · intro id t ht
    cases ht
  · intro k op es i t hk happends hreplay
    have hboth := replay_induction (P := fun m => AllLegible setting.contract m ∧
        ∀ id ∈ k.state.criteria.keys, id ∈ m.criteria.keys)
      (fun m e t he hm happly => ?_) ⟨hk, fun _ hj => hj⟩ hreplay
    · exact hboth.1
    · refine ⟨allLegible_apply hm.1 (fun task hbody => ?_) happly, fun id hid => ?_⟩
      · exact (happends.legible (mem_of_mem_take he) hbody).mono hm.2
      · obtain ⟨n, hn, rfl⟩ := map_eq_some_iff.1 happly
        exact criteria_keys_applyBody hn id (hm.2 id hid)

end Invariant

/-! ## The ways of a run -/

/-- What accepted commands of a coordinator and successful results lead to; a task is started before
its result is recorded. -/
inductive Leads (setting : Setting) (k : Kernel) : Kernel → Prop
  | refl : Leads setting k k
  | commanded {m : Kernel} {catalog : EvidenceCatalog} {command : CommandEnvelope}
      {receipt : CommandReceipt} : Leads setting k m → command.actor.role = .runCoordinator →
      (m.step setting (.handle catalog command)).answer = .ok (some receipt) →
      receipt.status = .accepted → Leads setting k (m.step setting (.handle catalog command)).kernel
  | started {m : Kernel} {ids : List String} : Leads setting k m →
      (m.step setting (.markTasksRunning ids)).answer = .ok none →
      Leads setting k (m.step setting (.markTasksRunning ids)).kernel
  | recorded {m : Kernel} {catalog : EvidenceCatalog} {results : List (String × TaskResult)} :
      Leads setting k m → (∀ r ∈ results, r.2.status = .succeeded) →
      (m.step setting (.recordTaskResults catalog results)).answer = .ok none →
      Leads setting k (m.step setting (.recordTaskResults catalog results)).kernel

/-- Completion still speaks of the task. -/
def Obstructs (contract : RunContract) (s : State) (id : String) : Prop :=
  ∃ start ∈ taskStarts, start ++ id ∈ s.completionFailures contract

/-- A way of the run gets the task out of the way of its completion. -/
def Dischargeable (setting : Setting) (k : Kernel) (id : String) : Prop :=
  ∃ k', Leads setting k k' ∧ ¬ Obstructs setting.contract k'.state id

section Ways

variable {setting : Setting} {k k' : Kernel} {criteria : Dict String Criterion}
  {artifacts : Dict String Artifact} {id : String} {task : Task}

theorem obstructs_iff {contract : RunContract} {s : State}
    (hkeyed : ∀ id t, s.tasks.get? id = some t → t.id = id)
    (htask : s.tasks.get? id = some task) {status : AttemptStatus}
    (hsettled : task.status = .settled status) :
    Obstructs contract s id ↔ Reported contract s id := by
  constructor
  · intro ⟨start, hstart, hmem⟩
    rw [taskStarts, mem_cons, mem_singleton] at hstart
    obtain rfl | rfl := hstart
    · exact absurd hmem (not_active_of_settled hkeyed htask hsettled)
    · exact hmem
  · exact fun h => ⟨_, mem_cons_of_mem _ mem_cons_self, h⟩

theorem lasts_step (h : Reached setting (initialState setting.contract criteria artifacts) k)
    (op : Operation) : Lasts k.state (k.step setting op).kernel.state :=
  (forest_moves (h.sound rfl) (forest_of_reached h) (moves_step (h.sound rfl) setting op)).2

/-- Ways stay among the reached kernels, and keep what has settled. -/
theorem Leads.reached (hway : Leads setting k k')
    (h : Reached setting (initialState setting.contract criteria artifacts) k) :
    Reached setting (initialState setting.contract criteria artifacts) k' ∧
      Lasts k.state k'.state := by
  induction hway with
  | refl => exact ⟨h, .refl _⟩
  | commanded _ _ _ _ ih => exact ⟨ih.1.step rfl _, ih.2.trans (lasts_step ih.1 _)⟩
  | started _ _ ih => exact ⟨ih.1.step rfl _, ih.2.trans (lasts_step ih.1 _)⟩
  | recorded _ _ _ ih => exact ⟨ih.1.step rfl _, ih.2.trans (lasts_step ih.1 _)⟩

theorem Leads.trans {k'' : Kernel} (h : Leads setting k k') (h' : Leads setting k' k'') :
    Leads setting k k'' := by
  induction h' with
  | refl => exact h
  | commanded _ hrole hanswer haccepted ih => exact .commanded ih hrole hanswer haccepted
  | started _ hanswer ih => exact .started ih hanswer
  | recorded _ hresults hanswer ih => exact .recorded ih hresults hanswer

end Ways

/-! ## What a way needs -/

section Needs

variable {setting : Setting} {k k' : Kernel} {criteria : Dict String Criterion}
  {artifacts : Dict String Artifact} {id : String} {task : Task}

/-- The fan-out limit leaves room for a sibling of the task. -/
def SiblingsLeft (limits : RunLimits) (s : State) (task : Task) : Prop :=
  s.tasks.values.countP (fun t => siblingKey t.parentTaskId == siblingKey task.parentTaskId) <
    limits.maxSubagents

/-- A replacement of the task has not settled without success. -/
def UnderWay (s : State) (id : String) : Prop :=
  ∃ new u, s.tasks.get? new = some u ∧ u.supersedesTaskId = some id ∧
    (u.status = .ready ∨ u.status = .running ∨ u.status = .settled .succeeded)

theorem underWay_of_status {new : String} {u : Task} {s : State}
    (hnew : s.tasks.get? new = some u) (hsupersedes : u.supersedesTaskId = some id)
    (h : ∀ status, u.status = .settled status → status = .succeeded) : UnderWay s id := by
  refine ⟨new, u, hnew, hsupersedes, ?_⟩
  cases hstatus : u.status with
  | ready => exact .inl rfl
  | running => exact .inr (.inl rfl)
  | settled status =>
    obtain rfl := h status hstatus
    exact .inr (.inr rfl)

/-- Behind a new sibling there was room for it. -/
theorem siblingsLeft_of_new {limits : RunLimits} {s t : State} (hlasts : Lasts s t)
    (hforest : Forest limits t) {new : String} {u : Task} (hnew : t.tasks.get? new = some u)
    (hparent : u.parentTaskId = task.parentTaskId) (habsent : s.tasks.get? new = none) :
    SiblingsLeft limits s task := by
  refine lt_of_lt_of_le ?_ (hforest.siblings (siblingKey task.parentTaskId))
  rw [Dict.countP_values, Dict.countP_values]
  refine Finset.card_lt_card (Finset.ssubset_iff_of_subset ?_ |>.2 ⟨new, ?_, ?_⟩)
  · intro j hj
    rw [Finset.mem_filter, Dict.mem_keySet, Dict.mem_keys_iff] at hj ⊢
    obtain ⟨⟨o, ho⟩, hkey⟩ := hj
    obtain ⟨o', ho', hauthority, -⟩ := hlasts j o ho
    refine ⟨⟨o', ho'⟩, ?_⟩
    rw [ho, any_some] at hkey
    rw [ho', any_some, Task.of_authority hauthority Task.parentTaskId fun _ => rfl]
    exact hkey
  · rw [Finset.mem_filter, Dict.mem_keySet, Dict.mem_keys_iff, hnew, any_some, hparent]
    exact ⟨⟨u, rfl⟩, beq_self_eq_true _⟩
  · rw [Finset.mem_filter, Dict.mem_keySet, Dict.mem_keys_iff, habsent]
    exact fun hmem => some_ne_none _ hmem.1.choose_spec.symm

/-- **A way out needs a failed task**, and room for a sibling or a replacement on its way. -/
theorem Dischargeable.needs (h : Dischargeable setting k id)
    (hreached : Reached setting (initialState setting.contract criteria artifacts) k)
    (htask : k.state.tasks.get? id = some task) (hrequired : task.optional = false)
    {status : AttemptStatus} (hsettled : task.status = .settled status)
    (hstatus : status ≠ .succeeded) :
    status = .failed ∧
      (SiblingsLeft setting.contract.limits k.state task ∨ UnderWay k.state id) := by
  obtain ⟨k', hway, hnot⟩ := h
  obtain ⟨hreached', hlasts⟩ := hway.reached hreached
  have hforest := forest_of_reached hreached'
  obtain ⟨task', htask', hauthority, hkept⟩ := hlasts id task htask
  have hsettled' := hkept status hsettled
  rw [obstructs_iff hforest.keyed htask' hsettled', reported_iff hforest.keyed htask' hsettled'
    hstatus ((Task.of_authority hauthority Task.optional fun _ => rfl).trans hrequired),
    not_not] at hnot
  obtain ⟨new, ⟨u, hu, hsupersedes⟩, u', hu', hsucceeded⟩ := hnot
  cases hu.symm.trans hu'
  obtain ⟨o, ho, hfailed, hinherits⟩ := hforest.superseded new u hu id hsupersedes
  cases htask'.symm.trans ho
  refine ⟨TaskStatus.settled.inj (hsettled'.symm.trans hfailed), ?_⟩
  obtain habsent | ⟨v, hv⟩ := eq_none_or_eq_some (k.state.tasks.get? new)
  · refine .inl (siblingsLeft_of_new hlasts hforest hu ?_ habsent)
    rw [hinherits.parentTaskId, Task.of_authority hauthority Task.parentTaskId fun _ => rfl]
  · obtain ⟨v', hv', hvauthority, hvkept⟩ := hlasts new v hv
    cases hu.symm.trans hv'
    refine .inr (underWay_of_status hv ?_ fun other hother => ?_)
    · rw [← Task.of_authority hvauthority Task.supersedesTaskId fun _ => rfl]
      exact hsupersedes
    · exact TaskStatus.settled.inj ((hvkept other hother).symm.trans hsucceeded)

end Needs

/-! ## From a replacement to its success -/

/-- The kernel with the semantic contract of the source. -/
def semanticSetting (contract : RunContract) : Setting := ⟨contract, validateSemanticResult⟩

section Success

variable {contract : RunContract} {k : Kernel} {criteria : Dict String Criterion}
  {artifacts : Dict String Artifact} {new : String} {u : Task}

theorem tasks_of_replay_single {s t : State} {e : KernelEvent}
    (h : replay State.apply s [e] = some t) :
    ∃ n, s.applyBody e.body = some n ∧ t.tasks = n.tasks := by
  obtain ⟨m, hm, ht⟩ := bind_eq_some_iff.1 h
  obtain ⟨n, hn, rfl⟩ := map_eq_some_iff.1 hm
  cases ht
  exact ⟨n, hn, rfl⟩

/-- A trusted operation with one event. -/
theorem record_single (contract : RunContract) {initial : State} (hs : k.Sound initial)
    (actor : CommandActor)
    (commandId : String) {body : EventBody} (hcommand : body.fromCommand = false)
    (hnames : Names k.state body) :
    (k.record contract actor [(commandId, body)]).answer = .ok none ∧
      ∃ n, k.state.applyBody body = some n ∧
        (k.record contract actor [(commandId, body)]).kernel.state.tasks = n.tasks := by
  have htrusted : Trusted k.state [(commandId, body)] := by
    intro p hp
    obtain rfl := mem_singleton.1 hp
    exact ⟨hcommand, hnames⟩
  obtain ⟨t, ht, -⟩ := record_applies contract actor hs htrusted
  obtain ⟨n, hn, htasks⟩ := tasks_of_replay_single ht
  rw [record_eq ht]
  exact ⟨rfl, n, hn, htasks⟩

/-- A command with one event. -/
theorem commit_single (contract : RunContract) {initial : State} (hs : k.Sound initial) (command : CommandEnvelope)
    {body : EventBody} (hcommand : body.fromCommand = true) (hnames : Names k.state body)
    (refs : List String) :
    (∃ receipt, (k.commit contract command ([body], refs)).answer = .ok (some receipt) ∧
        receipt.status = .accepted) ∧
      ∃ n, k.state.applyBody body = some n ∧
        (k.commit contract command ([body], refs)).kernel.state.tasks = n.tasks := by
  have hadmitted : Admitted k.state ([body], refs) := by
    refine ⟨cons_ne_nil _ _, fun b hb => ?_⟩
    obtain rfl := mem_singleton.1 hb
    exact ⟨hcommand, hnames⟩
  obtain ⟨t, ht, -⟩ := commit_applies contract command hs hadmitted
  obtain ⟨n, hn, htasks⟩ := tasks_of_replay_single ht
  rw [commit_eq ht]
  exact ⟨⟨_, rfl, rfl⟩, n, hn, htasks⟩

/-- A result that meets the semantic contract and refers to nothing. -/
def plainResult (task : Task) : TaskResult :=
  ⟨task.attemptId, .succeeded, semanticPayload "Built." task.detailsSchema, []⟩

theorem prepareResult_plainResult {s : State} (hu : s.tasks.get? new = some u)
    (hrunning : u.status = .running) (hlegible : Legible contract s u) :
    s.prepareResult validateSemanticResult ⟨∅, ∅⟩ new (plainResult u) =
      .ok (.taskResultRecorded new (plainResult u)
        (some (semanticPromotions new ⟨"Built.", [], [], [], []⟩))) := by
  have hvalid : validateSemanticResult (plainResult u) u.detailsSchema =
      .ok ⟨"Built.", [], [], [], []⟩ :=
    validateSemanticResult_semanticPayload rfl (by decide +kernel) (by decide +kernel)
      hlegible.detailsSchema
  have hreferences : s.validateResultReferences ⟨∅, ∅⟩ u ⟨"Built.", [], [], [], []⟩ = .ok () := rfl
  unfold State.prepareResult
  simp only [hu, hrunning, plainResult, ne_eq, not_true_eq_false, if_false] at hvalid ⊢
  rw [hvalid]
  simp only [hreferences]

/-- **A running task can succeed.** -/
theorem leads_success
    (h : Reached (semanticSetting contract) (initialState contract criteria artifacts) k)
    (hu : k.state.tasks.get? new = some u) (hrunning : u.status = .running) :
    ∃ k', Leads (semanticSetting contract) k k' ∧ ∃ v, k'.state.tasks.get? new = some v ∧
      v.authority = u.authority ∧ v.status = .settled .succeeded := by
  have hlegible := allLegible_of_reached h new u hu
  have hprepare := prepareResult_plainResult hu hrunning hlegible
  have hnames : Names k.state (.taskResultRecorded new (plainResult u)
      (some (semanticPromotions new ⟨"Built.", [], [], [], []⟩))) := by
    refine ⟨Dict.mem_keys_iff.2 ⟨u, hu⟩, fun p hp c hc => ?_⟩
    cases hp
    exact absurd hc not_mem_nil
  obtain ⟨hanswer, n, hn, htasks⟩ := record_single contract (h.sound rfl) kernelActor
    (systemId "system-result" new (k.state.revision + 1)) rfl hnames
  have hn : k.state.recordResult new (plainResult u)
      (some (semanticPromotions new ⟨"Built.", [], [], [], []⟩)) = some n := hn
  have hstep : k.step (semanticSetting contract)
      (.recordTaskResults ⟨∅, ∅⟩ [(new, plainResult u)]) =
      k.record contract kernelActor [(systemId "system-result" new (k.state.revision + 1),
        .taskResultRecorded new (plainResult u)
          (some (semanticPromotions new ⟨"Built.", [], [], [], []⟩)))] := by
    show k.recordTaskResults contract validateSemanticResult ⟨∅, ∅⟩ [(new, plainResult u)] = _
    rw [Kernel.recordTaskResults, mapM_cons, mapM_nil, hprepare]
    rfl
  have hanswer' : (k.step (semanticSetting contract)
      (.recordTaskResults ⟨∅, ∅⟩ [(new, plainResult u)])).answer = .ok none := by
    rw [hstep]
    exact hanswer
  refine ⟨_, .recorded .refl ?_ hanswer', ?_⟩
  · intro r hr
    obtain rfl := mem_singleton.1 hr
    rfl
  · obtain ⟨old, hold, -, ⟨v, hauthority, hstatus, hget⟩, -⟩ := recordResult_eq_some hn
    cases hu.symm.trans hold
    refine ⟨v, ?_, hauthority, hstatus⟩
    rw [hstep, htasks, hget new, if_pos rfl]

/-- **A ready task can be started.** -/
theorem leads_running
    (h : Reached (semanticSetting contract) (initialState contract criteria artifacts) k)
    (hu : k.state.tasks.get? new = some u) (hready : u.status = .ready) :
    ∃ k', Leads (semanticSetting contract) k k' ∧ ∃ v, k'.state.tasks.get? new = some v ∧
      v.authority = u.authority ∧ v.status = .running := by
  have hnames : Names k.state (.taskStarted new) := Dict.mem_keys_iff.2 ⟨u, hu⟩
  obtain ⟨hanswer, n, hn, htasks⟩ := record_single contract (h.sound rfl) kernelActor
    (systemId "system-start" new (k.state.revision + 1)) rfl hnames
  have hstep : k.step (semanticSetting contract) (.markTasksRunning [new]) =
      k.record contract kernelActor
        [(systemId "system-start" new (k.state.revision + 1), .taskStarted new)] := by
    show k.markTasksRunning contract [new] = _
    rw [Kernel.markTasksRunning, if_neg (cons_ne_nil _ _)]
    simp [hu, hready]
  have hanswer' : (k.step (semanticSetting contract) (.markTasksRunning [new])).answer =
      .ok none := by
    rw [hstep]
    exact hanswer
  refine ⟨_, .started .refl hanswer', ?_⟩
  obtain ⟨old, hold, rfl⟩ := updateTask_eq_some hn
  cases hu.symm.trans hold
  refine ⟨{ u with status := .running }, ?_, rfl, rfl⟩
  rw [hstep, htasks, Dict.get?_set_self]

end Success

/-! ## A new replacement -/

/-- The description of a task that takes over the authority of another. -/
def replacementJson (new old : String) (task : Task) : Json :=
  Json.ofMembers [("id", .str new), ("role", .str task.role), ("objective", .str task.objective),
    ("context", .str task.context), ("details_schema", .str task.detailsSchema),
    ("required_capabilities", .arr (task.requiredCapabilities.map .str)),
    ("acceptance_criteria", .arr (task.acceptanceCriteria.map .str)),
    ("dependencies", .arr (task.dependencies.map .str)),
    ("parent_task_id", task.parentTaskId.elim .null .str), ("supersedes_task_id", .str old),
    ("optional", .bool task.optional), ("may_delegate", .bool task.mayDelegate)]

/-- The replacement as a dispatch reads it. -/
def described (new old : String) (task : Task) : Task where
  id := new
  role := task.role
  objective := task.objective
  context := task.context
  detailsSchema := task.detailsSchema
  requiredCapabilities := task.requiredCapabilities
  acceptanceCriteria := task.acceptanceCriteria
  dependencies := task.dependencies
  parentTaskId := task.parentTaskId
  supersedesTaskId := some old
  optional := task.optional
  mayDelegate := task.mayDelegate
  depth := 0
  status := .ready
  attemptId := ""
  maxParallelism := 0

section Replacement

variable {contract : RunContract} {s : State} {new old : String} {task : Task} {item : Json}
  {actor : CommandActor}

variable {name : String}

theorem payloadText_str {owner value : String} (h : item.get? name = some (.str value))
    (hblank : isBlank value = false) : payloadText item name owner = .ok value := by
  rw [payloadText, h]
  simp [hblank]

theorem stringList_strs {values : List String} (h : item.get? name = some (.arr (values.map .str)))
    (hblank : ∀ v ∈ values, isBlank v = false) :
    stringList item name = .ok values := by
  rw [stringList, h]
  simp only [mapM_nonBlankText hblank]

theorem optionalTaskId_elim {id : Option String} (h : item.get? name = some (id.elim .null .str))
    (hblank : ∀ p, id = some p → isBlank p = false) :
    optionalTaskId item name = .ok id := by
  rw [optionalTaskId, h]
  cases id with
  | none => rfl
  | some p => simp [hblank p rfl]

theorem flagOr_bool {b : Bool} (h : item.get? name = some (.bool b)) :
    flagOr item name = .ok b := by
  rw [flagOr, h]

/-- **What the description of a replacement is read as.** -/
theorem readTask_replacementJson (hlegible : Legible contract s task) (hnew : isBlank new = false)
    (hold : isBlank old = false) :
    readTask (replacementJson new old task) = .ok (described new old task) := by
  have hget {key : String} {value : Json} (hmem : (key, value) ∈ _) :
      (replacementJson new old task).get? key = some value :=
    Json.get?_ofMembers (by simp) hmem
  have hid : payloadText (replacementJson new old task) "id" "task" = .ok new :=
    payloadText_str (hget (by simp)) hnew
  have hrole : payloadText (replacementJson new old task) "role" "task" = .ok task.role :=
    payloadText_str (hget (by simp)) hlegible.role
  have hobjective : payloadText (replacementJson new old task) "objective" "task" =
      .ok task.objective := payloadText_str (hget (by simp)) hlegible.objective
  have hschema : payloadText (replacementJson new old task) "details_schema" "task" =
      .ok task.detailsSchema := payloadText_str (hget (by simp)) hlegible.detailsSchema
  have hcapabilities : stringList (replacementJson new old task) "required_capabilities" =
      .ok task.requiredCapabilities := stringList_strs (hget (by simp)) hlegible.capabilities
  have hcriteria : stringList (replacementJson new old task) "acceptance_criteria" =
      .ok task.acceptanceCriteria :=
    stringList_strs (hget (by simp)) fun c hc => (hlegible.criteria c hc).1
  have hdependencies : stringList (replacementJson new old task) "dependencies" =
      .ok task.dependencies := stringList_strs (hget (by simp)) hlegible.dependencies
  have hparent : optionalTaskId (replacementJson new old task) "parent_task_id" =
      .ok task.parentTaskId := optionalTaskId_elim (hget (by simp)) hlegible.parent
  have hsupersedes : optionalTaskId (replacementJson new old task) "supersedes_task_id" =
      .ok (some old) := by
    have hgiven : (replacementJson new old task).get? "supersedes_task_id" =
        some ((some old).elim .null .str) := hget (by simp)
    refine optionalTaskId_elim hgiven fun p hp => ?_
    cases hp
    exact hold
  have hoptional : flagOr (replacementJson new old task) "optional" = .ok task.optional :=
    flagOr_bool (hget (by simp))
  have hdelegate : flagOr (replacementJson new old task) "may_delegate" = .ok task.mayDelegate :=
    flagOr_bool (hget (by simp))
  have hcontext : textOr (replacementJson new old task) "context" "" = task.context := by
    have hgiven : (replacementJson new old task).get? "context" = some (.str task.context) :=
      hget (by simp)
    rw [textOr, hgiven]
    rfl
  have hmembers : (replacementJson new old task).asMembers?.isNone = false := rfl
  unfold readTask
  rw [if_neg (Bool.eq_false_iff.1 hmembers), hid, hrole, hobjective, hschema, hcapabilities, hcriteria, hdependencies, hparent,
    hsupersedes, hoptional, hdelegate, hcontext]
  rfl

theorem resolveTaskCriteria_known {ids : List String} (h : ∀ id ∈ ids, id ∈ s.criteria.keys) :
    resolveTaskCriteria s ids = .ok ids := by
  rw [resolveTaskCriteria]
  induction ids with
  | nil => rfl
  | cons id rest ih =>
    obtain ⟨hid, hrest⟩ := forall_mem_cons.1 h
    rw [mapM_cons, if_pos (Dict.contains_iff.2 hid), ih hrest]
    rfl

theorem checkDependencies_of_settled {ids : List String}
    (h : ∀ d ∈ ids, ∃ o, s.tasks.get? d = some o ∧ o.status = .settled .succeeded) :
    checkDependencies s ids = .ok () := by
  induction ids with
  | nil => rfl
  | cons d rest ih =>
    obtain ⟨⟨o, ho, hstatus⟩, hrest⟩ := forall_mem_cons.1 h
    rw [checkDependencies, ho]
    simp only [hstatus, if_true]
    exact ih hrest

theorem frozenAuthority_described : frozenAuthority (described new old task) task = .ok () := by
  unfold frozenAuthority
  simp [described]

theorem taskDepth_described (hforest : Forest contract.limits s) (hrole : actor.role ≠ .worker)
    (htask : s.tasks.get? old = some task) :
    taskDepth s actor (described new old task) = .ok task.depth := by
  rw [taskDepth]
  cases hparent : task.parentTaskId with
  | none =>
    have hgiven : (described new old task).parentTaskId = none := hparent
    simp only [hgiven, if_neg hrole, hforest.root old task htask hparent]
  | some p =>
    have hgiven : (described new old task).parentTaskId = some p := hparent
    obtain ⟨q, hq, hdelegate, hdepth⟩ := hforest.parent old task htask p hparent
    simp only [hgiven, hq, hdelegate, hrole, hdepth]
    simp

/-- The replacement as a dispatch registers it. -/
def replacement (new old : String) (task : Task) : Task :=
  { described new old task with
    depth := task.depth, attemptId := new ++ "/attempt-1", maxParallelism := task.maxParallelism }

/-- **A dispatch admits a replacement of a failed task.** -/
theorem admitTask_replacement (hforest : Forest contract.limits s)
    (hlegible : Legible contract s task) (hrole : actor.role ≠ .worker)
    (htask : s.tasks.get? old = some task) (hfailed : task.status = .settled .failed)
    (hroom : SiblingsLeft contract.limits s task) (hnew : isBlank new = false)
    (hold : isBlank old = false) (hfresh : new ∉ s.tasks.keys) :
    admitTask s contract.limits actor task.maxParallelism [] (replacementJson new old task) =
      .ok (replacement new old task) := by
  have hcriteria : resolveTaskCriteria s (described new old task).acceptanceCriteria =
      .ok (described new old task).acceptanceCriteria :=
    resolveTaskCriteria_known fun c hc => (hlegible.criteria c hc).2
  have hunlisted : ¬ ((described new old task).id ∈ [].map (fun t : Task => t.id) ∨
      s.tasks.contains (described new old task).id) := by
    rintro (h | h)
    · cases h
    · exact hfresh (Dict.contains_iff.1 h)
  have hsupersedes : checkSupersedes s { described new old task with
      acceptanceCriteria := (described new old task).acceptanceCriteria } = .ok () := by
    have hgiven : (described new old task).supersedesTaskId = some old := rfl
    simp only [checkSupersedes, hgiven, htask, hfailed, ne_eq, not_true_eq_false, if_false]
    exact frozenAuthority_described
  have hdepth : taskDepth s actor { described new old task with
      acceptanceCriteria := (described new old task).acceptanceCriteria } = .ok task.depth :=
    taskDepth_described hforest hrole htask
  have hsiblings : ¬ contract.limits.maxSubagents < (s.tasks.values ++ []).countP (fun t : Task =>
      siblingKey t.parentTaskId == siblingKey (described new old task).parentTaskId) + 1 := by
    rw [append_nil, not_lt]
    exact hroom
  have hdependencies : checkDependencies s (described new old task).dependencies = .ok () :=
    checkDependencies_of_settled (hforest.dependencies old task htask)
  have hknown : (described new old task).acceptanceCriteria.find?
      (fun id => !s.criteria.contains id) = none := by
    rw [List.find?_eq_none]
    intro c hc
    simp [Dict.contains_iff.2 (hlegible.criteria c hc).2]
  unfold admitTask
  rw [readTask_replacementJson hlegible hnew hold]
  dsimp only [bind, Except.bind]
  rw [hcriteria]
  dsimp only
  rw [if_neg hunlisted]
  rw [hsupersedes, hdepth]
  dsimp only
  rw [if_neg (not_lt.2 (hforest.depth old task htask)), if_neg hsiblings, hdependencies]
  rw [hknown]
  rfl

end Replacement

/-! ## The way out of a failed task -/

/-- The task limit leaves room for one more task. -/
def TasksLeft (limits : RunLimits) (s : State) : Prop :=
  ∀ n, limits.maxTasks = some n → s.tasks.items.length < n

/-- The dispatch of a replacement by a coordinator. -/
def replacementCommand (contract : RunContract) (s : State) (key new old : String) (task : Task) :
    CommandEnvelope where
  commandId := key
  runId := contract.runId
  type := .taskDispatch
  actor := ⟨"coordinator", .runCoordinator, none⟩
  expectedRevision := s.revision
  idempotencyKey := key
  payload := Json.ofMembers [("tasks", .arr [replacementJson new old task]),
    ("max_parallelism", .int task.maxParallelism)]

section Discharge

variable {contract : RunContract} {k : Kernel} {criteria : Dict String Criterion}
  {artifacts : Dict String Artifact} {s : State} {key new old id : String} {task u : Task}

theorem taskDispatch_replacement {actor : CommandActor} (hforest : Forest contract.limits s)
    (hlegible : Legible contract s task) (hrole : actor.role ≠ .worker)
    (htask : s.tasks.get? old = some task) (hfailed : task.status = .settled .failed)
    (hroom : SiblingsLeft contract.limits s task) (htasks : TasksLeft contract.limits s)
    (hnew : isBlank new = false) (hold : isBlank old = false) (hfresh : new ∉ s.tasks.keys) :
    taskDispatch s contract actor (replacementCommand contract s key new old task).payload =
      .ok ([.taskRegistered (replacement new old task)], ["task:" ++ new]) := by
  have hitems : (replacementCommand contract s key new old task).payload.get? "tasks" =
      some (.arr [replacementJson new old task]) := Json.get?_ofMembers (by simp) (by simp)
  have hgiven : (replacementCommand contract s key new old task).payload.get? "max_parallelism" =
      some (.int task.maxParallelism) := Json.get?_ofMembers (by simp) (by simp)
  have hsubagents : ¬ contract.limits.maxSubagents < [replacementJson new old task].length :=
    not_lt.2 (Nat.one_le_of_lt hroom)
  have hsize : contract.limits.maxTasks.any
      (· < s.tasks.items.length + [replacementJson new old task].length) = false := by
    cases hmax : contract.limits.maxTasks with
    | none => rfl
    | some n => simpa using htasks n hmax
  have hadmit := admitTask_replacement hforest hlegible hrole htask hfailed hroom hnew hold hfresh
  unfold taskDispatch
  simp only [hitems, hgiven, bind_some, map_some, getD_some, Json.asArr?,
    pyInt?, cons_ne_nil, if_false, not_lt.2 hlegible.parallelism.1, hlegible.parallelism.2,
    hsubagents, hsize, admitTasks, hadmit]
  rfl

theorem replacement_fromCommand (new old : String) (task : Task) :
    (EventBody.taskRegistered (replacement new old task)).fromCommand = true := rfl

/-- **A coordinator can register a replacement of a failed task.** -/
theorem leads_replacement
    (h : Reached (semanticSetting contract) (initialState contract criteria artifacts) k)
    (hrun : k.state.status = .running) (htask : k.state.tasks.get? id = some task)
    (hfailed : task.status = .settled .failed)
    (hroom : SiblingsLeft contract.limits k.state task)
    (htasks : TasksLeft contract.limits k.state) :
    ∃ k', Leads (semanticSetting contract) k k' ∧ ∃ new v, k'.state.tasks.get? new = some v ∧
      v.supersedesTaskId = some id ∧ v.status = .ready := by
  obtain ⟨n, hnew⟩ := Text.exists_fresh "retry-" k.state.tasks.keys
  obtain ⟨m, hkey⟩ := Text.exists_fresh "dispatch-" k.state.receipts.keys
  have hforest := forest_of_reached h
  have hlegible := allLegible_of_reached h id task htask
  have hblank : isBlank ("retry-" ++ toString n) = false := by
    simp [isBlank]
  have hid : isBlank id = false := by
    rw [← hforest.keyed id task htask]
    exact hlegible.id
  let command := replacementCommand contract k.state ("dispatch-" ++ toString m)
    ("retry-" ++ toString n) id task
  have hrole : Role.runCoordinator ≠ Role.worker := by decide
  have heval : k.state.evaluate contract ⟨∅, ∅⟩ command =
      .ok ([.taskRegistered (replacement ("retry-" ++ toString n) id task)],
        ["task:" ++ ("retry-" ++ toString n)]) :=
    taskDispatch_replacement hforest hlegible hrole htask hfailed hroom htasks hblank hid hnew
  have henvelope : k.state.validateEnvelope contract ⟨∅, ∅⟩ k.events command = none := by
    have hterminal : k.state.status ∉ [.succeeded, .failed, .cancelled] := by
      rw [hrun]
      decide
    have hsame : ¬ command.runId ≠ contract.runId := not_not.2 rfl
    have hcurrent : ¬ command.expectedRevision ≠ k.state.revision := not_not.2 rfl
    rw [State.validateEnvelope, if_neg hsame, if_neg hcurrent,
      if_neg fun hboth => hterminal hboth.1]
    rfl
  have hreceipt : k.state.receipts.get? command.idempotencyKey = none :=
    Dict.get?_eq_none_iff.2 hkey
  have hstep : k.step (semanticSetting contract) (.handle ⟨∅, ∅⟩ command) =
      k.commit contract command ([.taskRegistered (replacement ("retry-" ++ toString n) id task)],
        ["task:" ++ ("retry-" ++ toString n)]) := by
    show k.handle contract ⟨∅, ∅⟩ command = _
    rw [Kernel.handle, hreceipt]
    rw [henvelope]
    rw [heval]
  obtain ⟨⟨receipt, hanswer, haccepted⟩, n', hn', htasks'⟩ :=
    commit_single contract (h.sound rfl) command
      (replacement_fromCommand ("retry-" ++ toString n) id task) trivial
      ["task:" ++ ("retry-" ++ toString n)]
  have hanswer' : (k.step (semanticSetting contract) (.handle ⟨∅, ∅⟩ command)).answer =
      .ok (some receipt) := by
    rw [hstep]
    exact hanswer
  refine ⟨_, .commanded .refl rfl hanswer' haccepted, "retry-" ++ toString n,
    replacement ("retry-" ++ toString n) id task, ?_, rfl, rfl⟩
  cases hn'
  rw [hstep, htasks']
  exact Dict.get?_set_self ..

/-- What leads from a replacement on its way to its success. -/
theorem UnderWay.leads
    (h : Reached (semanticSetting contract) (initialState contract criteria artifacts) k)
    (hway : UnderWay k.state id) :
    ∃ k', Leads (semanticSetting contract) k k' ∧ ReplacedBySuccess k'.state id := by
  obtain ⟨new, u, hu, hsupersedes, hstatus⟩ := hway
  obtain hready | hrunning | hsucceeded := hstatus
  · obtain ⟨m, hm, v, hv, hauthority, hrunning⟩ := leads_running h hu hready
    have hreached := (hm.reached h).1
    obtain ⟨k', hk', w, hw, hauthority', hsucceeded⟩ := leads_success hreached hv hrunning
    refine ⟨k', hm.trans hk', new, ⟨w, hw, ?_⟩, w, hw, hsucceeded⟩
    rw [Task.of_authority (hauthority'.trans hauthority) Task.supersedesTaskId fun _ => rfl]
    exact hsupersedes
  · obtain ⟨k', hk', w, hw, hauthority, hsucceeded⟩ := leads_success h hu hrunning
    refine ⟨k', hk', new, ⟨w, hw, ?_⟩, w, hw, hsucceeded⟩
    rw [Task.of_authority hauthority Task.supersedesTaskId fun _ => rfl]
    exact hsupersedes
  · exact ⟨k, .refl, new, ⟨u, hu, hsupersedes⟩, u, hu, hsucceeded⟩

/-- **A required task that has settled without success can be discharged exactly when it failed**, and
its parent has room for a sibling or a replacement is on its way. -/
theorem dischargeable_iff
    (h : Reached (semanticSetting contract) (initialState contract criteria artifacts) k)
    (hrun : k.state.status = .running) (htask : k.state.tasks.get? id = some task)
    (hrequired : task.optional = false) {status : AttemptStatus}
    (hsettled : task.status = .settled status) (hstatus : status ≠ .succeeded)
    (htasks : TasksLeft contract.limits k.state) :
    Dischargeable (semanticSetting contract) k id ↔ status = .failed ∧
      (SiblingsLeft contract.limits k.state task ∨ UnderWay k.state id) := by
  refine ⟨fun hdischarge => hdischarge.needs h htask hrequired hsettled hstatus, ?_⟩
  rintro ⟨rfl, hways⟩
  have hunderWay : ∃ m, Leads (semanticSetting contract) k m ∧ UnderWay m.state id := by
    obtain hroom | hway := hways
    · obtain ⟨m, hm, new, v, hv, hsupersedes, hready⟩ :=
        leads_replacement h hrun htask hsettled hroom htasks
      exact ⟨m, hm, new, v, hv, hsupersedes, .inl hready⟩
    · exact ⟨k, .refl, hway⟩
  obtain ⟨m, hm, hway⟩ := hunderWay
  obtain ⟨k', hk', hsuccess⟩ := hway.leads (hm.reached h).1
  have hall := hm.trans hk'
  obtain ⟨hreached', hlasts⟩ := hall.reached h
  obtain ⟨task', htask', hauthority, hkept⟩ := hlasts id task htask
  have hforest := forest_of_reached hreached'
  refine ⟨k', hall, ?_⟩
  rw [obstructs_iff hforest.keyed htask' (hkept _ hsettled), reported_iff hforest.keyed htask'
    (hkept _ hsettled) hstatus
    ((Task.of_authority hauthority Task.optional fun _ => rfl).trans hrequired), not_not]
  exact hsuccess

end Discharge

/-! ## A blocked task -/

section Blocked

/-- The required task is dispatched and started, and its executor reports the status. -/
def attemptedKernel (status : AttemptStatus) : Kernel :=
  (attemptOperations "build" none 0 status).foldl
    (fun k op => (k.step retrySetting op).kernel) ⟨exampleState, []⟩

theorem reached_attemptedKernel (status : AttemptStatus) :
    Reached (semanticSetting exampleSetting.contract)
      (initialState exampleSetting.contract ∅ ∅) (attemptedKernel status) :=
  reached_foldl rfl _ .start

theorem task_of_map {s : State} {id : String} {status : AttemptStatus}
    (h : (s.tasks.get? id).map (fun t => (t.optional, t.status)) = some (false, .settled status)) :
    ∃ task, s.tasks.get? id = some task ∧ task.optional = false ∧
      task.status = .settled status := by
  obtain ⟨task, htask, hpair⟩ := map_eq_some_iff.1 h
  exact ⟨task, htask, congrArg Prod.fst hpair, congrArg Prod.snd hpair⟩

theorem tasksLeft_example (s : State) : TasksLeft exampleSetting.contract.limits s := by
  intro n hn
  cases hn

/-- The failed task has a way out: there is room for a sibling. -/
theorem dischargeable_iff_failed : ∃ task,
    (attemptedKernel .failed).state.tasks.get? "build" = some task ∧
    (Dischargeable (semanticSetting exampleSetting.contract) (attemptedKernel .failed) "build" ↔
      AttemptStatus.failed = .failed ∧
        (SiblingsLeft exampleSetting.contract.limits (attemptedKernel .failed).state task ∨
          UnderWay (attemptedKernel .failed).state "build")) := by
  have hmap : ((attemptedKernel .failed).state.tasks.get? "build").map
      (fun t => (t.optional, t.status)) = some (false, .settled .failed) := by decide +kernel
  obtain ⟨task, htask, hrequired, hsettled⟩ := task_of_map hmap
  exact ⟨task, htask, dischargeable_iff (reached_attemptedKernel .failed) (by decide +kernel) htask
    hrequired hsettled (by decide) (tasksLeft_example _)⟩

/-- **A required task that its executor blocked stands in the way for ever**, although the run is
running and its limits leave room for further tasks. -/
theorem blocked_not_dischargeable :
    Reached (semanticSetting exampleSetting.contract)
      (initialState exampleSetting.contract ∅ ∅) (attemptedKernel .blocked) ∧
    (attemptedKernel .blocked).state.status = .running ∧
    (∃ task, (attemptedKernel .blocked).state.tasks.get? "build" = some task ∧
      task.optional = false ∧ task.status = .settled .blocked ∧
      SiblingsLeft exampleSetting.contract.limits (attemptedKernel .blocked).state task ∧
      task.depth < exampleSetting.contract.limits.maxDepth) ∧
    TasksLeft exampleSetting.contract.limits (attemptedKernel .blocked).state ∧
    ¬ Dischargeable (semanticSetting exampleSetting.contract) (attemptedKernel .blocked)
      "build" := by
  have hmap : ((attemptedKernel .blocked).state.tasks.get? "build").map (fun t =>
      ((t.optional, t.status), t.parentTaskId, t.depth)) =
      some ((false, .settled .blocked), none, 1) := by decide +kernel
  obtain ⟨task, htask, hfields⟩ := map_eq_some_iff.1 hmap
  obtain ⟨⟨hrequired, hsettled⟩, hparent, hdepth⟩ :
      (task.optional = false ∧ task.status = .settled .blocked) ∧ task.parentTaskId = none ∧
        task.depth = 1 := by
    simpa only [Prod.mk.injEq] using hfields
  refine ⟨reached_attemptedKernel .blocked, by decide +kernel,
    ⟨task, htask, hrequired, hsettled, ?_, ?_⟩, tasksLeft_example _, fun h => ?_⟩
  · rw [SiblingsLeft, hparent]
    decide +kernel
  · rw [hdepth]
    decide
  · have hneeds := h.needs (reached_attemptedKernel .blocked) htask hrequired hsettled (by decide)
    cases hneeds.1

end Blocked

end HarnessLabs.Controller
