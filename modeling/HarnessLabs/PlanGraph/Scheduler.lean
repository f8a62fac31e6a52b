import HarnessLabs.PlanGraph.Plan

/-!
# The ready-set scheduler

`ReadySetScheduler.select` checks a state of the graph and admits runnable units under a shared
bound. Its states: the sealed nodes, the active units, the verified barriers and the withheld nodes.

* `Accepted` — the states that `select` accepts.
* `select_sound` — **what `select` admits in a reached state.**
* `Accepted.select_progress` — **an idle state without withheld nodes admits a unit while a node is
  open.**
-/

namespace HarnessLabs.PlanGraph

open List

inductive DispatchKind where
  | featureRun
  | barrierVerification
  deriving DecidableEq, Repr

structure ReadySetDispatch where
  nodeId : String
  kind : DispatchKind
  deriving DecidableEq, Repr

/-- `ReadySetScheduler`, with what its constructor checks. -/
structure ReadySetScheduler where
  runs : List PlanRun
  maxParallelism : ℕ
  barrierNodeIds : List String
  positive : 1 ≤ maxParallelism
  uniqueIds : (runIds runs).Nodup
  nonemptyIds : ∀ run ∈ runs, run.id ≠ ""
  knownDependencies : ∀ run ∈ runs, ∀ d ∈ run.dependsOn, d ∈ runIds runs
  knownBarriers : ∀ b ∈ barrierNodeIds, b ∈ runIds runs

/-! ## Checks -/

/-- `", ".join(sorted(set(ids)))`. -/
def sortedNames (ids : List String) : String :=
  String.intercalate ", " (ids.dedup.mergeSort fun a b => a ≤ b)

/-- The first check that fails raises its message. -/
def runChecks : List (Bool × String) → Except String Unit
  | [] => .ok ()
  | (passes, message) :: rest => if passes then runChecks rest else .error message

theorem runChecks_eq_ok {checks : List (Bool × String)} :
    runChecks checks = .ok () ↔ ∀ c ∈ checks, c.1 = true := by
  induction checks with
  | nil => exact iff_of_true rfl (forall_mem_nil _)
  | cons c rest ih =>
    obtain ⟨passes, message⟩ := c
    rw [runChecks, forall_mem_cons]
    by_cases h : passes = true
    · rw [if_pos h, ih]
      exact (and_iff_right h).symm
    · rw [if_neg h]
      exact iff_of_false (fun heq => by cases heq) fun hall => h hall.1

/-- A check that no id is bad. The message names the bad ones. -/
def noneOf (ids : List String) (bad : String → Bool) (message : String) : Bool × String :=
  (ids.all fun id => !bad id, message ++ sortedNames (ids.filter bad))

namespace ReadySetScheduler

variable (s : ReadySetScheduler)

def ids : List String := runIds s.runs

def dependencies (id : String) : List String := dependenciesOf s.runs id

/-- The state that `select` is asked about. -/
structure State where
  sealed : List String
  active : List ReadySetDispatch := []
  verified : List String := []
  withheld : List String := []

variable (st : State)

/-- The node's dependencies are sealed. -/
def dependenciesSealed (id : String) : Bool := (s.dependencies id).all (st.sealed.contains ·)

/-- The barriers among the node's dependencies that are not verified. -/
def pendingBarriers (id : String) : List String :=
  (s.dependencies id).filter fun d => s.barrierNodeIds.contains d && !st.verified.contains d

/-- An unsealed run waits for the barrier and for nothing else. -/
def dependencyReady (barrier : String) : Bool :=
  s.runs.any fun run => !st.sealed.contains run.id && run.dependsOn.contains barrier &&
    s.dependenciesSealed st run.id

/-- The checks on the sealed, withheld and verified nodes. -/
def stateChecks : List (Bool × String) :=
  [noneOf st.withheld (!s.ids.contains ·) "withheld nodes contain unknown ids: ",
    noneOf st.withheld (st.sealed.contains ·) "withheld nodes cannot be sealed: ",
    noneOf st.sealed (!s.ids.contains ·) "sealed nodes contain unknown ids: ",
    noneOf st.sealed (!s.dependenciesSealed st ·) "sealed nodes have unsealed dependencies: ",
    noneOf st.verified (!s.ids.contains ·) "verified barriers contain unknown nodes: ",
    noneOf st.verified (fun id => !st.sealed.contains id || !s.barrierNodeIds.contains id)
      "verified barriers are not sealed barrier nodes: "]

/-- The checks on an active unit behind the given active nodes. -/
def unitChecks (seen : List String) (unit : ReadySetDispatch) : List (Bool × String) :=
  let id := unit.nodeId
  [(s.ids.contains id, s!"active ready-set unit has unknown node '{id}'"),
    (!seen.contains id, s!"active ready-set units repeat node '{id}'")] ++
  match unit.kind with
  | .featureRun =>
    [(!st.sealed.contains id, s!"active feature run is already sealed: '{id}'"),
      (s.dependenciesSealed st id, s!"active feature run has unsealed dependencies: '{id}'"),
      ((s.pendingBarriers st id).isEmpty, s!"active feature run has unverified barriers: '{id}'")]
  | .barrierVerification =>
    [(s.barrierNodeIds.contains id, s!"active barrier verification is not configured: '{id}'"),
      (st.sealed.contains id, s!"active barrier verification is not sealed: '{id}'"),
      (!st.verified.contains id, s!"active barrier verification is already verified: '{id}'"),
      (s.dependencyReady st id, s!"active barrier verification is not dependency-ready: '{id}'")]

def activeChecks : List String → List ReadySetDispatch → List (Bool × String)
  | _, [] => []
  | seen, unit :: rest => s.unitChecks st seen unit ++ activeChecks (seen ++ [unit.nodeId]) rest

def checks : List (Bool × String) :=
  s.stateChecks st ++ s.activeChecks st [] st.active ++
    [(decide (st.active.length ≤ s.maxParallelism),
      "active ready-set units exceed max_parallelism")]

/-! ## Selection -/

/-- The units selected so far, and the slots left. -/
structure Selection where
  selected : List ReadySetDispatch
  available : ℕ

def Selection.take (a : Selection) (unit : ReadySetDispatch) : Selection :=
  ⟨a.selected ++ [unit], a.available - 1⟩

def activeNodes : List String := st.active.map (·.nodeId)

/-- A pending barrier takes a slot, unless it is being verified or is selected already. -/
def selectBarrier (a : Selection) (barrier : String) : Selection :=
  if a.available = 0 then a
  else if barrier ∈ activeNodes st ∨ barrier ∈ a.selected.map (·.nodeId) then a
  else a.take ⟨barrier, .barrierVerification⟩

/-- The turn of one run. -/
def selectRun (a : Selection) (run : PlanRun) : Selection :=
  if a.available = 0 then a
  else if run.id ∈ st.sealed ∨ run.id ∈ activeNodes st then a
  else if run.id ∈ st.withheld then a
  else if ¬ s.dependenciesSealed st run.id then a
  else if s.pendingBarriers st run.id ≠ [] then
    (s.pendingBarriers st run.id).foldl (selectBarrier st) a
  else a.take ⟨run.id, .featureRun⟩

/-- `select`. -/
def select : Except String (List ReadySetDispatch) :=
  (runChecks (s.checks st)).map fun _ =>
    (s.runs.foldl (s.selectRun st) ⟨[], s.maxParallelism - st.active.length⟩).selected

/-! ## Accepted states -/

/-- The dependencies are sealed, and the barriers among them are verified. -/
def Ready (id : String) : Prop :=
  ∀ d ∈ s.dependencies id, d ∈ st.sealed ∧ (d ∈ s.barrierNodeIds → d ∈ st.verified)

/-- An unsealed run whose dependencies are sealed depends on the barrier. -/
def Awaited (barrier : String) : Prop :=
  ∃ run ∈ s.runs, run.id ∉ st.sealed ∧ barrier ∈ s.dependencies run.id ∧
    ∀ d ∈ s.dependencies run.id, d ∈ st.sealed

/-- What is checked of an active unit alone. -/
def ValidUnit (unit : ReadySetDispatch) : Prop :=
  unit.nodeId ∈ s.ids ∧
    match unit.kind with
    | .featureRun => unit.nodeId ∉ st.sealed ∧ s.Ready st unit.nodeId
    | .barrierVerification =>
      unit.nodeId ∈ s.barrierNodeIds ∧ unit.nodeId ∈ st.sealed ∧ unit.nodeId ∉ st.verified ∧
        s.Awaited st unit.nodeId

/-- The states that `select` accepts. -/
structure Accepted : Prop where
  withheldKnown : ∀ w ∈ st.withheld, w ∈ s.ids
  withheldOpen : ∀ w ∈ st.withheld, w ∉ st.sealed
  sealedKnown : ∀ x ∈ st.sealed, x ∈ s.ids
  sealedClosed : ∀ x ∈ st.sealed, ∀ d ∈ s.dependencies x, d ∈ st.sealed
  verifiedSealed : ∀ b ∈ st.verified, b ∈ st.sealed ∧ b ∈ s.barrierNodeIds
  activeNodup : (activeNodes st).Nodup
  activeValid : ∀ unit ∈ st.active, s.ValidUnit st unit
  bound : st.active.length ≤ s.maxParallelism

variable {s st}

theorem noneOf_passes {ids : List String} {bad : String → Bool} {message : String} :
    (noneOf ids bad message).1 = true ↔ ∀ id ∈ ids, bad id = false := by
  simp [noneOf]

variable {id : String} {run : PlanRun} {unit : ReadySetDispatch} {units : List ReadySetDispatch}
  {a : Selection}

@[simp] theorem dependenciesSealed_iff :
    s.dependenciesSealed st id = true ↔ ∀ d ∈ s.dependencies id, d ∈ st.sealed := by
  simp [dependenciesSealed]

theorem mem_pendingBarriers {d : String} : d ∈ s.pendingBarriers st id ↔
    d ∈ s.dependencies id ∧ d ∈ s.barrierNodeIds ∧ d ∉ st.verified := by
  simp [pendingBarriers]

theorem pendingBarriers_eq_nil : s.pendingBarriers st id = [] ↔
    ∀ d ∈ s.dependencies id, d ∈ s.barrierNodeIds → d ∈ st.verified := by
  simp [pendingBarriers]

theorem dependencies_self (hrun : run ∈ s.runs) :
    s.dependencies run.id = run.dependsOn := dependenciesOf_self s.uniqueIds hrun

theorem dependencyReady_iff {barrier : String} :
    s.dependencyReady st barrier = true ↔ s.Awaited st barrier := by
  simp only [dependencyReady, any_eq_true, Bool.and_eq_true, dependenciesSealed_iff,
    Awaited]
  constructor
  · rintro ⟨run, hrun, ⟨hopen, hneeds⟩, hsealed⟩
    refine ⟨run, hrun, by simpa using hopen, ?_, hsealed⟩
    rw [dependencies_self hrun]
    simpa using hneeds
  · rintro ⟨run, hrun, hopen, hneeds, hsealed⟩
    rw [dependencies_self hrun] at hneeds
    exact ⟨run, hrun, ⟨by simpa using hopen, by simpa using hneeds⟩, hsealed⟩

theorem unitChecks_pass {seen : List String} :
    (∀ c ∈ s.unitChecks st seen unit, c.1 = true) ↔
      unit.nodeId ∉ seen ∧ s.ValidUnit st unit := by
  obtain ⟨id, kind⟩ := unit
  cases kind with
  | featureRun =>
    simp [unitChecks, ValidUnit, Ready, pendingBarriers_eq_nil, forall_and]
    tauto
  | barrierVerification =>
    simp [unitChecks, ValidUnit, dependencyReady_iff]
    tauto

theorem activeChecks_pass {seen : List String} :
    (∀ c ∈ s.activeChecks st seen units, c.1 = true) ↔
      (units.map (·.nodeId)).Nodup ∧ (∀ unit ∈ units, unit.nodeId ∉ seen) ∧
        ∀ unit ∈ units, s.ValidUnit st unit := by
  induction units generalizing seen with
  | nil => simp [activeChecks]
  | cons unit rest ih =>
    rw [activeChecks, forall_mem_append, unitChecks_pass, ih, map_cons, nodup_cons,
      forall_mem_cons, forall_mem_cons]
    simp only [mem_append, mem_singleton, mem_map]
    constructor
    · rintro ⟨⟨hseen, hvalid⟩, hnodup, hrest, hrestvalid⟩
      refine ⟨⟨?_, hnodup⟩, ⟨hseen, fun u hu hmem => hrest u hu (.inl hmem)⟩, hvalid, hrestvalid⟩
      rintro ⟨u, hu, heq⟩
      exact hrest u hu (.inr heq)
    · rintro ⟨⟨hnot, hnodup⟩, ⟨hseen, hrest⟩, hvalid, hrestvalid⟩
      refine ⟨⟨hseen, hvalid⟩, hnodup, fun u hu hmem => ?_, hrestvalid⟩
      exact hmem.elim (hrest u hu) fun heq => hnot ⟨u, hu, heq⟩

/-- **The states that `select` accepts.** -/
theorem checks_pass : (∀ c ∈ s.checks st, c.1 = true) ↔ s.Accepted st := by
  rw [checks, forall_mem_append, forall_mem_append, activeChecks_pass]
  simp only [stateChecks, forall_mem_cons, noneOf_passes, Bool.or_eq_false_iff,
    Bool.not_eq_false', contains_iff_mem, dependenciesSealed_iff, decide_eq_true_eq]
  constructor
  · rintro ⟨⟨⟨hwithheld, hopen, hknown, hclosed, _, hverified, _⟩, hnodup, _, hvalid⟩, hbound, _⟩
    exact ⟨hwithheld, fun w hw => by simpa using hopen w hw, hknown, hclosed, hverified, hnodup,
      hvalid, hbound⟩
  · intro h
    exact ⟨⟨⟨h.withheldKnown, fun w hw => by simpa using h.withheldOpen w hw, h.sealedKnown,
      h.sealedClosed, fun b hb => h.sealedKnown b (h.verifiedSealed b hb).1, h.verifiedSealed,
      forall_mem_nil _⟩, h.activeNodup, fun _ _ => not_mem_nil, h.activeValid⟩, h.bound,
      forall_mem_nil _⟩

theorem select_isOk_iff : (∃ units, s.select st = .ok units) ↔ s.Accepted st := by
  rw [← checks_pass, ← runChecks_eq_ok, select]
  constructor
  · rintro ⟨units, hunits⟩
    cases hchecks : runChecks (s.checks st) with
    | error e =>
      rw [hchecks] at hunits
      cases hunits
    | ok u => rfl
  · intro h
    rw [h]
    exact ⟨_, rfl⟩

/-! ## Selected units -/

/-- A run whose turn selects a unit. -/
def Runnable (s : ReadySetScheduler) (st : State) (run : PlanRun) : Prop :=
  run ∈ s.runs ∧ run.id ∉ st.sealed ∧ run.id ∉ activeNodes st ∧ run.id ∉ st.withheld ∧
    ∀ d ∈ s.dependencies run.id, d ∈ st.sealed

/-- Why a unit is selected: it is a runnable run, or a barrier that one waits for. -/
def Eligible (s : ReadySetScheduler) (st : State) (unit : ReadySetDispatch) : Prop :=
  unit.nodeId ∉ activeNodes st ∧ ∃ run, Runnable s st run ∧
    match unit.kind with
    | .featureRun => run.id = unit.nodeId ∧ s.pendingBarriers st run.id = []
    | .barrierVerification => unit.nodeId ∈ s.pendingBarriers st run.id

def Selection.nodes (a : Selection) : List String := a.selected.map (·.nodeId)

/-- The invariant of the loop over the runs. -/
structure Selects (s : ReadySetScheduler) (st : State) (a : Selection) : Prop where
  slots : a.selected.length + a.available = s.maxParallelism - st.active.length
  nodup : a.nodes.Nodup
  eligible : ∀ unit ∈ a.selected, Eligible s st unit

/-- Nothing is selected beyond the nodes given and sealed ones. -/
def Adds (st : State) (ids : List String) (a b : Selection) : Prop :=
  ∀ id ∈ b.nodes, id ∈ a.nodes ∨ id ∈ ids ∨ id ∈ st.sealed

theorem nodes_take (a : Selection) (unit : ReadySetDispatch) :
    (a.take unit).nodes = a.nodes ++ [unit.nodeId] := by
  rw [Selection.nodes, Selection.take, map_append]
  rfl

theorem Selects.take (h : Selects s st a) (hslots : a.available ≠ 0) (hnew : unit.nodeId ∉ a.nodes)
    (hunit : Eligible s st unit) :
    Selects s st (a.take unit) where
  slots := by
    have hsum := h.slots
    show (a.selected ++ [unit]).length + (a.available - 1) = _
    rw [length_append, length_singleton]
    omega
  nodup := by
    rw [nodes_take]
    refine nodup_append.2 ⟨h.nodup, nodup_singleton _, fun x hx y hy hxy => ?_⟩
    rw [mem_singleton.1 hy] at hxy
    exact hnew (hxy ▸ hx)
  eligible := by
    intro u hu
    rcases mem_append.1 hu with hu | hu
    · exact h.eligible u hu
    · rw [mem_singleton.1 hu]
      exact hunit

theorem Selects.selectBarrier (h : Selects s st a) (hrun : Runnable s st run) {barrier : String}
    (hbarrier : barrier ∈ s.pendingBarriers st run.id) :
    Selects s st (selectBarrier st a barrier) ∧ Adds st [] a (selectBarrier st a barrier) := by
  rw [ReadySetScheduler.selectBarrier]
  by_cases hslots : a.available = 0
  · rw [if_pos hslots]
    exact ⟨h, fun _ hid => .inl hid⟩
  rw [if_neg hslots]
  by_cases htaken : barrier ∈ activeNodes st ∨ barrier ∈ a.selected.map (·.nodeId)
  · rw [if_pos htaken]
    exact ⟨h, fun _ hid => .inl hid⟩
  rw [if_neg htaken]
  push Not at htaken
  refine ⟨h.take hslots htaken.2 ⟨htaken.1, run, hrun, hbarrier⟩, fun id hid => ?_⟩
  rw [nodes_take, mem_append, mem_singleton] at hid
  refine hid.imp_right fun heq => .inr ?_
  rw [heq]
  exact hrun.2.2.2.2 barrier (mem_pendingBarriers.1 hbarrier).1

theorem Adds.trans {ids : List String} {b c : Selection} (h : Adds st ids a b)
    (h' : Adds st ids b c) : Adds st ids a c := by
  intro id hid
  rcases h' id hid with hid | hid
  · exact h id hid
  · exact .inr hid

theorem Selects.selectBarriers (hrun : Runnable s st run) {barriers : List String}
    (hbarriers : ∀ b ∈ barriers, b ∈ s.pendingBarriers st run.id) (h : Selects s st a) :
    Selects s st (barriers.foldl (ReadySetScheduler.selectBarrier st) a) ∧
      Adds st [] a (barriers.foldl (ReadySetScheduler.selectBarrier st) a) := by
  induction barriers generalizing a with
  | nil => exact ⟨h, fun _ hid => .inl hid⟩
  | cons b rest ih =>
    obtain ⟨hb, hrest⟩ := forall_mem_cons.1 hbarriers
    obtain ⟨hnext, hadds⟩ := h.selectBarrier hrun hb
    obtain ⟨hall, hadds'⟩ := ih hrest hnext
    exact ⟨hall, hadds.trans hadds'⟩

theorem Selects.selectRun (h : Selects s st a) (hrun : run ∈ s.runs)
    (hnew : run.id ∉ a.nodes ∨ run.id ∈ st.sealed) :
    Selects s st (s.selectRun st a run) ∧ Adds st [run.id] a (s.selectRun st a run) := by
  have hsame : Adds st [run.id] a a := fun _ hid => .inl hid
  rw [ReadySetScheduler.selectRun]
  by_cases hslots : a.available = 0
  · rw [if_pos hslots]
    exact ⟨h, hsame⟩
  rw [if_neg hslots]
  by_cases hdone : run.id ∈ st.sealed ∨ run.id ∈ activeNodes st
  · rw [if_pos hdone]
    exact ⟨h, hsame⟩
  rw [if_neg hdone]
  push Not at hdone
  by_cases hwithheld : run.id ∈ st.withheld
  · rw [if_pos hwithheld]
    exact ⟨h, hsame⟩
  rw [if_neg hwithheld]
  by_cases hsealed : s.dependenciesSealed st run.id = true
  · rw [if_neg (not_not.2 hsealed)]
    have hrunnable : Runnable s st run :=
      ⟨hrun, hdone.1, hdone.2, hwithheld, dependenciesSealed_iff.1 hsealed⟩
    by_cases hpending : s.pendingBarriers st run.id = []
    · rw [if_neg (not_not.2 hpending)]
      refine ⟨h.take hslots (hnew.resolve_right hdone.1) ⟨hdone.2, run, hrunnable, rfl, hpending⟩,
        fun id hid => ?_⟩
      rw [nodes_take, mem_append] at hid
      exact hid.imp_right .inl
    · rw [if_pos hpending]
      obtain ⟨hall, hadds⟩ := h.selectBarriers hrunnable fun _ hb => hb
      exact ⟨hall, fun id hid => (hadds id hid).imp_right fun h =>
        .inr (h.resolve_left not_mem_nil)⟩
  · rw [if_pos hsealed]
    exact ⟨h, hsame⟩

theorem Selects.selectRuns {rest : List PlanRun} (hrest : ∀ run ∈ rest, run ∈ s.runs)
    (hnodup : (runIds rest).Nodup) (h : Selects s st a)
    (hnew : ∀ run ∈ rest, run.id ∉ a.nodes ∨ run.id ∈ st.sealed) :
    Selects s st (rest.foldl (s.selectRun st) a) := by
  induction rest generalizing a with
  | nil => exact h
  | cons run rest ih =>
    obtain ⟨hnot, hnodup⟩ := nodup_cons.1 hnodup
    obtain ⟨hrun, hrest⟩ := forall_mem_cons.1 hrest
    obtain ⟨hfirst, hothers⟩ := forall_mem_cons.1 hnew
    obtain ⟨hnext, hadds⟩ := h.selectRun hrun hfirst
    refine ih hrest hnodup hnext fun other hother => ?_
    by_cases hmem : other.id ∈ (s.selectRun st a run).nodes
    · rcases hadds _ hmem with hmem | hmem | hmem
      · exact .inr ((hothers other hother).resolve_left (not_not.2 hmem))
      · have heq : other.id = run.id := mem_singleton.1 hmem
        exact absurd (mem_map.2 ⟨other, hother, heq⟩) hnot
      · exact .inr hmem
    · exact .inl hmem

/-- **What `select` returns.** -/
theorem selects_of_select (h : s.select st = .ok units) :
    ∃ a, Selects s st a ∧ a.selected = units := by
  rw [select] at h
  cases hchecks : runChecks (s.checks st) with
  | error e =>
    rw [hchecks] at h
    cases h
  | ok u =>
    rw [hchecks] at h
    refine ⟨_, Selects.selectRuns (fun _ hrun => hrun) s.uniqueIds ?_
      (fun _ _ => .inl not_mem_nil), Except.ok.inj h⟩
    exact ⟨Nat.zero_add _, nodup_nil, forall_mem_nil _⟩

/-! ## Runs -/

/-- A node is no longer active. -/
def State.release (st : State) (id : String) : List ReadySetDispatch :=
  st.active.filter (·.nodeId ≠ id)

/-- What happens around the scheduler. Some of the selected units are started. An active unit ends:
its node is sealed, fails and is withheld, or its barrier is verified or not. A node that could not
be started is withheld. -/
inductive Step (s : ReadySetScheduler) : State → State → Prop
  | start (st : State) (units started : List ReadySetDispatch) (hselect : s.select st = .ok units)
      (hstarted : started.Sublist units) : Step s st { st with active := st.active ++ started }
  | complete (st : State) (id : String) (hactive : ⟨id, .featureRun⟩ ∈ st.active) :
    Step s st { st with sealed := st.sealed ++ [id], active := st.release id }
  | fail (st : State) (id : String) (hactive : ⟨id, .featureRun⟩ ∈ st.active) :
    Step s st { st with withheld := st.withheld ++ [id], active := st.release id }
  | withhold (st : State) (id : String) (hknown : id ∈ s.ids) (hopen : id ∉ st.sealed)
      (hidle : id ∉ activeNodes st) : Step s st { st with withheld := st.withheld ++ [id] }
  | verify (st : State) (id : String) (hactive : ⟨id, .barrierVerification⟩ ∈ st.active) :
    Step s st { st with verified := st.verified ++ [id], active := st.release id }
  | reject (st : State) (id : String) (hactive : ⟨id, .barrierVerification⟩ ∈ st.active) :
    Step s st { st with active := st.release id }

/-- The states that a graph starts in: the reused nodes are sealed, with their dependencies. -/
def Initial (s : ReadySetScheduler) (st : State) : Prop :=
  st.active = [] ∧ st.withheld = [] ∧ (∀ x ∈ st.sealed, x ∈ s.ids) ∧
    (∀ x ∈ st.sealed, ∀ d ∈ s.dependencies x, d ∈ st.sealed) ∧
    ∀ b ∈ st.verified, b ∈ st.sealed ∧ b ∈ s.barrierNodeIds

def Reached (s : ReadySetScheduler) (st : State) : Prop :=
  ∃ initial, Initial s initial ∧ Relation.ReflTransGen (Step s) initial st

/-- The invariant of a run. -/
structure Sound (s : ReadySetScheduler) (st : State) : Prop extends Accepted s st where
  activeAllowed : ∀ unit ∈ st.active, unit.kind = .featureRun → unit.nodeId ∉ st.withheld

theorem Initial.sound (h : Initial s st) : Sound s st := by
  obtain ⟨hactive, hwithheld, hknown, hclosed, hverified⟩ := h
  have hnone : ∀ unit, unit ∉ st.active := by
    rw [hactive]
    exact fun _ => not_mem_nil
  exact
    { withheldKnown := by simp [hwithheld]
      withheldOpen := by simp [hwithheld]
      sealedKnown := hknown
      sealedClosed := hclosed
      verifiedSealed := hverified
      activeNodup := by simp [activeNodes, hactive]
      activeValid := fun unit hunit => absurd hunit (hnone unit)
      bound := by simp [hactive]
      activeAllowed := fun unit hunit => absurd hunit (hnone unit) }

theorem mem_release :
    unit ∈ st.release id ↔ unit ∈ st.active ∧ unit.nodeId ≠ id := by
  simp [State.release]

theorem Accepted.release_nodup (h : Accepted s st) (id : String) :
    ((st.release id).map (·.nodeId)).Nodup :=
  h.activeNodup.sublist (filter_sublist.map _)

theorem Accepted.release_bound (h : Accepted s st) (id : String) :
    (st.release id).length ≤ s.maxParallelism :=
  (length_filter_le _ _).trans h.bound

theorem Eligible.valid (h : Eligible s st unit) :
    s.ValidUnit st unit := by
  obtain ⟨-, run, ⟨hrun, hopen, -, -, hsealed⟩, hkind⟩ := h
  obtain ⟨id, kind⟩ := unit
  cases kind with
  | featureRun =>
    obtain ⟨rfl, hpending⟩ := hkind
    exact ⟨mem_runIds hrun, hopen, fun d hd => ⟨hsealed d hd, pendingBarriers_eq_nil.1 hpending d hd⟩⟩
  | barrierVerification =>
    obtain ⟨hneeds, hbarrier, hverified⟩ := mem_pendingBarriers.1 hkind
    exact ⟨s.knownBarriers id hbarrier, hbarrier, hsealed id hneeds, hverified, run, hrun, hopen,
      hneeds, hsealed⟩

theorem Sound.start (h : Sound s st) {started : List ReadySetDispatch}
    (hselect : s.select st = .ok units) (hstarted : started.Sublist units) :
    Sound s { st with active := st.active ++ started } := by
  obtain ⟨a, ha, rfl⟩ := selects_of_select hselect
  have hlength := hstarted.length_le
  have hslots := ha.slots
  have hbound := h.bound
  exact
    { withheldKnown := h.withheldKnown
      withheldOpen := h.withheldOpen
      sealedKnown := h.sealedKnown
      sealedClosed := h.sealedClosed
      verifiedSealed := h.verifiedSealed
      activeNodup := by
        rw [activeNodes, map_append]
        refine nodup_append.2 ⟨h.activeNodup, ha.nodup.sublist (hstarted.map _),
          fun x hx y hy hxy => ?_⟩
        obtain ⟨unit, hunit, rfl⟩ := mem_map.1 hy
        exact (ha.eligible unit (hstarted.subset hunit)).1 (hxy ▸ hx)
      activeValid := by
        intro unit hunit
        rcases mem_append.1 hunit with hunit | hunit
        · exact h.activeValid unit hunit
        · exact (ha.eligible unit (hstarted.subset hunit)).valid
      bound := by
        rw [length_append]
        omega
      activeAllowed := by
        intro unit hunit hkind
        rcases mem_append.1 hunit with hunit | hunit
        · exact h.activeAllowed unit hunit hkind
        · obtain ⟨-, run, hrun, hwhy⟩ := ha.eligible unit (hstarted.subset hunit)
          rw [hkind] at hwhy
          exact hwhy.1 ▸ hrun.2.2.2.1 }

/-- A unit that stays active is still valid when another node is sealed. -/
theorem Sound.valid_complete (h : Sound s st) (hactive : ⟨id, .featureRun⟩ ∈ st.active)
    (hunit : unit ∈ st.active) (hne : unit.nodeId ≠ id) :
    s.ValidUnit { st with sealed := st.sealed ++ [id], active := st.release id } unit := by
  have hgrow : ∀ x, x ∈ st.sealed → x ∈ st.sealed ++ [id] := fun x hx => mem_append_left _ hx
  obtain ⟨-, hidopen, hidready⟩ := h.activeValid _ hactive
  obtain ⟨node, kind⟩ := unit
  cases kind with
  | featureRun =>
    obtain ⟨hknown, hopen, hready⟩ := h.activeValid _ hunit
    refine ⟨hknown, ?_, fun d hd => ⟨hgrow d (hready d hd).1, (hready d hd).2⟩⟩
    rw [mem_append, mem_singleton]
    exact not_or.2 ⟨hopen, hne⟩
  | barrierVerification =>
    obtain ⟨hknown, hbarrier, hsealed, hverified, run, hrun, hopen, hneeds, hdeps⟩ :=
      h.activeValid _ hunit
    refine ⟨hknown, hbarrier, hgrow node hsealed, hverified, run, hrun, ?_, hneeds,
      fun d hd => hgrow d (hdeps d hd)⟩
    rw [mem_append, mem_singleton]
    -- the sealed node ran, so its barriers are verified, and this one is not
    refine not_or.2 ⟨hopen, fun heq => hverified ?_⟩
    exact (hidready node (heq ▸ hneeds)).2 hbarrier

theorem Sound.complete (h : Sound s st) (hactive : ⟨id, .featureRun⟩ ∈ st.active) :
    Sound s { st with sealed := st.sealed ++ [id], active := st.release id } := by
  obtain ⟨hknown, _, hready⟩ := h.activeValid _ hactive
  exact
    { withheldKnown := h.withheldKnown
      withheldOpen := by
        intro w hw
        rw [mem_append, mem_singleton]
        refine not_or.2 ⟨h.withheldOpen w hw, fun heq => ?_⟩
        exact h.activeAllowed _ hactive rfl (heq ▸ hw)
      sealedKnown := by
        intro x hx
        rcases mem_append.1 hx with hx | hx
        · exact h.sealedKnown x hx
        · exact mem_singleton.1 hx ▸ hknown
      sealedClosed := by
        intro x hx d hd
        refine mem_append_left _ ?_
        rcases mem_append.1 hx with hx | hx
        · exact h.sealedClosed x hx d hd
        · rw [mem_singleton.1 hx] at hd
          exact (hready d hd).1
      verifiedSealed := fun b hb =>
        ⟨mem_append_left _ (h.verifiedSealed b hb).1, (h.verifiedSealed b hb).2⟩
      activeNodup := h.release_nodup id
      activeValid := by
        intro unit hunit
        obtain ⟨hunit, hne⟩ := mem_release.1 hunit
        exact h.valid_complete hactive hunit hne
      bound := h.release_bound id
      activeAllowed := fun unit hunit => h.activeAllowed unit (mem_release.1 hunit).1 }

theorem Sound.withhold (h : Sound s st) (hknown : id ∈ s.ids) (hopen : id ∉ st.sealed)
    {active : List ReadySetDispatch} (hsub : active.Sublist st.active)
    (hidle : ∀ unit ∈ active, unit.nodeId ≠ id) :
    Sound s { st with withheld := st.withheld ++ [id], active := active } where
  withheldKnown := by
    intro w hw
    rcases mem_append.1 hw with hw | hw
    · exact h.withheldKnown w hw
    · exact mem_singleton.1 hw ▸ hknown
  withheldOpen := by
    intro w hw
    rcases mem_append.1 hw with hw | hw
    · exact h.withheldOpen w hw
    · exact mem_singleton.1 hw ▸ hopen
  sealedKnown := h.sealedKnown
  sealedClosed := h.sealedClosed
  verifiedSealed := h.verifiedSealed
  activeNodup := h.activeNodup.sublist (hsub.map _)
  activeValid := fun unit hunit => h.activeValid unit (hsub.subset hunit)
  bound := hsub.length_le.trans h.bound
  activeAllowed := by
    intro unit hunit hkind
    rw [mem_append, mem_singleton]
    exact not_or.2 ⟨h.activeAllowed unit (hsub.subset hunit) hkind, hidle unit hunit⟩

theorem Sound.verify (h : Sound s st) (hactive : ⟨id, .barrierVerification⟩ ∈ st.active) :
    Sound s { st with verified := st.verified ++ [id], active := st.release id } := by
  obtain ⟨-, hbarrier, hsealed, -⟩ := h.activeValid _ hactive
  exact
    { withheldKnown := h.withheldKnown
      withheldOpen := h.withheldOpen
      sealedKnown := h.sealedKnown
      sealedClosed := h.sealedClosed
      verifiedSealed := by
        intro b hb
        rcases mem_append.1 hb with hb | hb
        · exact h.verifiedSealed b hb
        · rw [mem_singleton.1 hb]
          exact ⟨hsealed, hbarrier⟩
      activeNodup := h.release_nodup id
      activeValid := by
        intro unit hunit
        obtain ⟨hunit, hne⟩ := mem_release.1 hunit
        obtain ⟨node, kind⟩ := unit
        cases kind with
        | featureRun =>
          obtain ⟨hknown, hopen, hready⟩ := h.activeValid _ hunit
          exact ⟨hknown, hopen, fun d hd => ⟨(hready d hd).1, fun hb =>
            mem_append_left _ ((hready d hd).2 hb)⟩⟩
        | barrierVerification =>
          obtain ⟨hknown, hconfigured, hsealed', hverified, hawaited⟩ := h.activeValid _ hunit
          refine ⟨hknown, hconfigured, hsealed', ?_, hawaited⟩
          rw [mem_append, mem_singleton]
          exact not_or.2 ⟨hverified, hne⟩
      bound := h.release_bound id
      activeAllowed := fun unit hunit => h.activeAllowed unit (mem_release.1 hunit).1 }

theorem Step.sound {st' : State} (hstep : Step s st st') (h : Sound s st) : Sound s st' := by
  cases hstep with
  | start units started hselect hstarted => exact h.start hselect hstarted
  | complete id hactive => exact h.complete hactive
  | fail id hactive =>
    obtain ⟨hknown, hopen, _⟩ := h.activeValid _ hactive
    exact h.withhold hknown hopen filter_sublist fun unit hunit => (mem_release.1 hunit).2
  | withhold id hknown hopen hidle =>
    exact h.withhold hknown hopen (List.Sublist.refl _) fun unit hunit heq =>
      hidle (heq ▸ mem_map_of_mem hunit)
  | verify id hactive => exact h.verify hactive
  | reject id hactive =>
    exact
      { withheldKnown := h.withheldKnown
        withheldOpen := h.withheldOpen
        sealedKnown := h.sealedKnown
        sealedClosed := h.sealedClosed
        verifiedSealed := h.verifiedSealed
        activeNodup := h.release_nodup id
        activeValid := fun unit hunit => h.activeValid unit (mem_release.1 hunit).1
        bound := h.release_bound id
        activeAllowed := fun unit hunit => h.activeAllowed unit (mem_release.1 hunit).1 }

theorem Reached.sound (h : Reached s st) : Sound s st := by
  obtain ⟨initial, hinitial, hsteps⟩ := h
  induction hsteps with
  | refl => exact hinitial.sound
  | tail _ hstep ih => exact hstep.sound ih

/-! ## Safety and progress -/

/-- What `select` may admit: the claims on one unit. -/
def Admissible (s : ReadySetScheduler) (st : State) (unit : ReadySetDispatch) : Prop :=
  unit.nodeId ∉ activeNodes st ∧
  (∀ w ∈ st.withheld, ¬ Relation.ReflTransGen (fun y x => x ∈ s.dependencies y) unit.nodeId w) ∧
  match unit.kind with
  | .featureRun =>
    (∃ run ∈ s.runs, run.id = unit.nodeId) ∧ unit.nodeId ∉ st.sealed ∧
      unit.nodeId ∉ st.withheld ∧ s.Ready st unit.nodeId
  | .barrierVerification =>
    unit.nodeId ∈ s.barrierNodeIds ∧ unit.nodeId ∈ st.sealed ∧ unit.nodeId ∉ st.verified

theorem Accepted.sealed_of_needs (h : Accepted s st) {x y : String} (hx : x ∈ st.sealed)
    (hneeds : Relation.ReflTransGen (fun y x => x ∈ s.dependencies y) x y) : y ∈ st.sealed := by
  induction hneeds with
  | refl => exact hx
  | tail _ hdep ih => exact h.sealedClosed _ ih _ hdep

theorem Accepted.admissible (h : Accepted s st) (hunit : Eligible s st unit) :
    Admissible s st unit := by
  obtain ⟨hidle, run, ⟨hrun, hopen, -, hallowed, hsealed⟩, hkind⟩ := hunit
  obtain ⟨id, kind⟩ := unit
  cases kind with
  | featureRun =>
    obtain ⟨rfl, hpending⟩ := hkind
    refine ⟨hidle, fun w hw hneeds => ?_, ⟨run, hrun, rfl⟩, hopen, hallowed,
      fun d hd => ⟨hsealed d hd, pendingBarriers_eq_nil.1 hpending d hd⟩⟩
    rcases Relation.ReflTransGen.cases_head hneeds with heq | ⟨d, hd, hrest⟩
    · exact hallowed (by rw [show run.id = w from heq]; exact hw)
    · exact h.withheldOpen w hw (h.sealed_of_needs (hsealed d hd) hrest)
  | barrierVerification =>
    obtain ⟨hneeds, hbarrier, hverified⟩ := mem_pendingBarriers.1 hkind
    exact ⟨hidle, fun w hw hrest => h.withheldOpen w hw (h.sealed_of_needs (hsealed id hneeds) hrest),
      hbarrier, hsealed id hneeds, hverified⟩

/-- **Safety and closure.** In a reached state `select` accepts, keeps to the bound, selects no unit
twice, and selects admissible units only. -/
theorem select_sound (h : Reached s st) : ∃ units, s.select st = .ok units ∧
    st.active.length + units.length ≤ s.maxParallelism ∧ (units.map (·.nodeId)).Nodup ∧
    ∀ unit ∈ units, Admissible s st unit := by
  have hsound := h.sound
  obtain ⟨units, hunits⟩ := select_isOk_iff.2 hsound.toAccepted
  obtain ⟨a, ha, rfl⟩ := selects_of_select hunits
  refine ⟨a.selected, hunits, ?_, ha.nodup, fun unit hunit =>
    hsound.toAccepted.admissible (ha.eligible unit hunit)⟩
  have hslots := ha.slots
  have hbound := hsound.bound
  omega

/-- Two runs in a chain. -/
def chain : ReadySetScheduler where
  runs := [⟨"a", [], []⟩, ⟨"b", ["a"], []⟩]
  maxParallelism := 2
  barrierNodeIds := ["a"]
  positive := by decide
  uniqueIds := by decide
  nonemptyIds := by decide
  knownDependencies := by decide
  knownBarriers := by decide

theorem select_sound_chain : Reached chain ⟨["a"], [], [], []⟩ ∧
    ∃ units, chain.select ⟨["a"], [], [], []⟩ = .ok units ∧ 0 + units.length ≤ 2 ∧
      (units.map (·.nodeId)).Nodup ∧ ∀ unit ∈ units, Admissible chain ⟨["a"], [], [], []⟩ unit :=
  have hreached : Reached chain ⟨["a"], [], [], []⟩ :=
    ⟨⟨["a"], [], [], []⟩, ⟨rfl, rfl, by decide, by decide, by decide⟩, .refl⟩
  ⟨hreached, select_sound hreached⟩

example : chain.select ⟨["a"], [], [], []⟩ = .ok [⟨"a", .barrierVerification⟩] := by decide +kernel

theorem selectBarrier_subset (a : Selection) (barrier : String) :
    a.selected ⊆ (selectBarrier st a barrier).selected := by
  rw [ReadySetScheduler.selectBarrier]
  split_ifs
  · exact List.Subset.refl _
  · exact List.Subset.refl _
  · exact subset_append_left _ _

theorem selectBarriers_subset (barriers : List String) (a : Selection) :
    a.selected ⊆ (barriers.foldl (selectBarrier st) a).selected := by
  induction barriers generalizing a with
  | nil => exact List.Subset.refl _
  | cons b rest ih => exact List.Subset.trans (selectBarrier_subset a b) (ih _)

theorem selectRun_subset (a : Selection) (run : PlanRun) :
    a.selected ⊆ (s.selectRun st a run).selected := by
  rw [ReadySetScheduler.selectRun]
  split_ifs
  · exact List.Subset.refl _
  · exact List.Subset.refl _
  · exact List.Subset.refl _
  · exact selectBarriers_subset _ a
  · exact subset_append_left _ _
  · exact List.Subset.refl _

theorem selectRuns_subset (rest : List PlanRun) (a : Selection) :
    a.selected ⊆ (rest.foldl (s.selectRun st) a).selected := by
  induction rest generalizing a with
  | nil => exact List.Subset.refl _
  | cons run rest ih => exact List.Subset.trans (selectRun_subset a run) (ih _)

/-- The turn of a runnable run selects a unit, unless the slots are taken. -/
theorem selectRun_ne_nil (hactive : st.active = []) (hrun : Runnable s st run)
    (hslots : a.selected = [] → a.available ≠ 0) :
    (s.selectRun st a run).selected ≠ [] := by
  intro hempty
  have hnone : a.selected = [] := subset_nil.1 (hempty ▸ selectRun_subset a run)
  obtain ⟨-, hopen, hidle, hallowed, hsealed⟩ := hrun
  rw [ReadySetScheduler.selectRun, if_neg (hslots hnone), if_neg (not_or.2 ⟨hopen, hidle⟩),
    if_neg hallowed, if_neg (not_not.2 (dependenciesSealed_iff.2 hsealed))] at hempty
  cases hpending : s.pendingBarriers st run.id with
  | nil =>
    rw [hpending, if_neg (not_not.2 rfl)] at hempty
    exact append_ne_nil_of_right_ne_nil _ (cons_ne_nil _ _) hempty
  | cons b rest =>
    rw [hpending, if_pos (cons_ne_nil _ _), foldl_cons] at hempty
    have hfirst : (selectBarrier st a b).selected = [] :=
      subset_nil.1 (hempty ▸ selectBarriers_subset rest _)
    have hfree : ¬ (b ∈ activeNodes st ∨ b ∈ a.selected.map (·.nodeId)) := by
      simp [activeNodes, hactive, hnone]
    rw [ReadySetScheduler.selectBarrier, if_neg (hslots hnone), if_neg hfree] at hfirst
    exact append_ne_nil_of_right_ne_nil _ (cons_ne_nil _ _) hfirst

/-- A barrier that a run still waits for. -/
def RequiredBarrier (s : ReadySetScheduler) (st : State) (barrier : String) : Prop :=
  barrier ∈ s.barrierNodeIds ∧ ∃ run ∈ s.runs, run.id ∉ st.sealed ∧ barrier ∈ s.dependencies run.id

/-- **Progress.** While a node is open, or a required barrier not verified, an idle state without
withheld nodes selects a unit. -/
theorem Accepted.select_progress (h : Accepted s st) (hacyclic : Dag.Acyclic s.dependencies)
    (hactive : st.active = []) (hwithheld : st.withheld = [])
    (hopen : (∃ run ∈ s.runs, run.id ∉ st.sealed) ∨
      ∃ b, RequiredBarrier s st b ∧ b ∉ st.verified) :
    ∃ units, s.select st = .ok units ∧ units ≠ [] := by
  obtain ⟨first, hfirst, hfirstopen⟩ : ∃ run ∈ s.runs, run.id ∉ st.sealed := by
    rcases hopen with hopen | ⟨b, ⟨_, run, hrun, hrunopen, _⟩, _⟩
    · exact hopen
    · exact ⟨run, hrun, hrunopen⟩
  obtain ⟨id, ⟨hid, hidopen⟩, hdeps⟩ := hacyclic.exists_ready
    (p := fun id => id ∈ s.ids ∧ id ∉ st.sealed) ⟨mem_runIds hfirst, hfirstopen⟩
  obtain ⟨run, hrun, rfl⟩ := mem_map.1 hid
  have hsealed : ∀ d ∈ s.dependencies run.id, d ∈ st.sealed := by
    intro d hd
    by_contra hd'
    refine hdeps d hd ⟨?_, hd'⟩
    rw [dependencies_self hrun] at hd
    exact s.knownDependencies run hrun d hd
  have hrunnable : Runnable s st run := by
    refine ⟨hrun, hidopen, ?_, ?_, hsealed⟩
    · simp [activeNodes, hactive]
    · simp [hwithheld]
  obtain ⟨units, hunits⟩ := select_isOk_iff.2 h
  refine ⟨units, hunits, ?_⟩
  rw [select, runChecks_eq_ok.2 (checks_pass.2 h)] at hunits
  cases hunits
  obtain ⟨before, behind, hsplit⟩ := append_of_mem hrun
  have hbefore : Selects s st
      (before.foldl (s.selectRun st) ⟨[], s.maxParallelism - st.active.length⟩) := by
    have hunique := s.uniqueIds
    rw [hsplit, runIds, map_append] at hunique
    refine Selects.selectRuns (fun other hother => ?_) (List.Nodup.of_append_left hunique) ?_
      fun _ _ => .inl not_mem_nil
    · rw [hsplit]
      exact mem_append_left _ hother
    · exact ⟨Nat.zero_add _, nodup_nil, forall_mem_nil _⟩
  rw [hsplit, foldl_append, foldl_cons]
  generalize before.foldl (s.selectRun st) ⟨[], s.maxParallelism - st.active.length⟩ = a at hbefore ⊢
  have hslots := hbefore.slots
  have hpositive := s.positive
  rw [hactive, length_nil] at hslots
  have hfree : a.selected = [] → a.available ≠ 0 := by
    intro hnone hzero
    rw [hnone, hzero, length_nil] at hslots
    omega
  intro hempty
  refine selectRun_ne_nil hactive hrunnable hfree (subset_nil.1 ?_)
  rw [← hempty]
  exact selectRuns_subset behind _

end ReadySetScheduler

end HarnessLabs.PlanGraph
