import HarnessLabs.Core.SharedJournal
import HarnessLabs.Lib.Runs

/-!
# The integration lease

A controller integrates the sealed dependencies of a join while it holds the lease of the graph. It
persists every stage in the checkpoint of the audit: it reads the state, composes the next one, reads
the revision and the head, and swaps. The steps of different controllers come in any order, and a
controller may stop anywhere.

The swap is guarded by the revision that was read second. What another controller persists between
the two reads is not in the state that is written, and the swap is accepted all the same.

* `IntegrationState.persist` — what a stage makes of the state that it read.
* `Integrating.step` — one step of a controller.
* `Undisturbed` — no swap was accepted between the two reads of one that is.
* `lease_and_records` — **behind undisturbed swaps the lease is exclusive and no record is lost, and
  an accepted swap that is not undisturbed loses one.**
-/

namespace HarnessLabs.PlanGraph

open Audit Inputs List Option Function

/-! ## Records -/

/-- `integration_lease`. -/
structure Lease (C : Type) where
  nodeId : String
  leaseId : String
  expectedStagingHead : C
  deriving DecidableEq

/-- An integration receipt. -/
structure IntegrationReceipt (C : Type) where
  graphId : String
  nodeId : String
  logicalAttempt : ℕ
  protectedRef : String
  expectedHead : C
  integratedHead : C
  verificationEvidenceRef : String

/-- One merge of a join. -/
structure MergeRecord (C : Type) where
  dependencyNodeId : String
  parentHead : C
  dependencyCandidate : C
  mergeCommit : C

/-- What a controller persists, with its payload. A recovery has no merge chain. -/
inductive PersistAction (C : Type) where
  | leaseAcquired (expectedHead : C)
  | dependencyIntegrated (merge : MergeRecord C)
  | joinVerified (candidateHead : C) (verificationEvidenceRef : String)
  | stagingPublishIntent (receipt : IntegrationReceipt C) (mergeChain : List (MergeRecord C))
  | stagingAdvanced (receipt : IntegrationReceipt C) (mergeChain : Option (List (MergeRecord C)))
  | integrationConflict (reason : String)
  | leaseReleased

variable {C : Type}

def PersistAction.text : PersistAction C → String
  | .leaseAcquired _ => "lease_acquired"
  | .dependencyIntegrated _ => "dependency_integrated"
  | .joinVerified _ _ => "join_verified"
  | .stagingPublishIntent _ _ => "staging_publish_intent"
  | .stagingAdvanced _ _ => "staging_advanced"
  | .integrationConflict _ => "integration_conflict"
  | .leaseReleased => "lease_released"

/-- What `_persist` reads of a prepared join. -/
structure JoinPreparation (C : Type) where
  graphId : String
  nodeId : String
  logicalAttempt : ℕ
  allocationId : String
  checkpointRevision : ℕ
  leaseId : String
  parentCandidateCommit : C

/-- A record in the `integration_barriers` of the checkpoint. -/
structure IntegrationRecord (C : Type) where
  nodeId : String
  attemptId : String
  allocationId : String
  logicalAttempt : ℕ
  checkpointRevision : ℕ
  leaseId : String
  action : PersistAction C

/-- The part of the checkpoint that an integration reads and writes. -/
structure IntegrationState (C : Type) where
  integrationBarriers : List (IntegrationRecord C) := []
  integrationLease : Option (Lease C) := none
  integrationReceipts : List (IntegrationReceipt C) := []
  integrationConflicts : List (IntegrationRecord C) := []
  currentCandidateCommit : C

/-- The arguments of `_persist`. -/
structure Persist (C : Type) where
  prepared : JoinPreparation C
  action : PersistAction C

/-- An event of the journal. -/
structure IntegrationEvent (C : Type) where
  eventType : String
  status : String
  record : IntegrationRecord C

namespace Persist

variable (p : Persist C)

def record : IntegrationRecord C where
  nodeId := p.prepared.nodeId
  attemptId := p.prepared.graphId ++ ":attempt:" ++ p.prepared.allocationId
  allocationId := p.prepared.allocationId
  logicalAttempt := p.prepared.logicalAttempt
  checkpointRevision := p.prepared.checkpointRevision
  leaseId := p.prepared.leaseId
  action := p.action

def event : IntegrationEvent C where
  eventType := "plan_graph_" ++ p.action.text
  status := match p.action with
    | .integrationConflict _ => "blocked"
    | _ => "running"
  record := p.record

/-- The lease of the join. -/
def lease : Lease C :=
  ⟨p.prepared.nodeId, p.prepared.leaseId, p.prepared.parentCandidateCommit⟩

def acquires : Bool :=
  match p.action with
  | .leaseAcquired _ => true
  | _ => false

def releases : Bool :=
  match p.action with
  | .leaseReleased => true
  | _ => false

/-- What `recover_interrupted_publish` persists. -/
def recovers : Bool :=
  match p.action with
  | .stagingAdvanced _ _ | .integrationConflict _ | .leaseReleased => true
  | _ => false

end Persist

/-- The receipt of a record that has advanced the staging ref. -/
def IntegrationRecord.advanced (record : IntegrationRecord C) : Option (IntegrationReceipt C) :=
  match record.action with
  | .stagingAdvanced receipt _ => some receipt
  | _ => none

def IntegrationRecord.conflicts (record : IntegrationRecord C) : Bool :=
  match record.action with
  | .integrationConflict _ => true
  | _ => false

/-- The state that `_persist` composes from the one that it read. -/
def IntegrationState.persist (state : IntegrationState C) (p : Persist C) :
    Except String (IntegrationState C) :=
  if p.acquires ∧ state.integrationLease.isSome then
    .error "a graph integration lease is already held"
  else
    let next := { state with integrationBarriers := state.integrationBarriers ++ [p.record] }
    .ok (match p.action with
      | .leaseAcquired _ => { next with integrationLease := some p.lease }
      | .leaseReleased => { next with integrationLease := none }
      | .stagingAdvanced receipt _ =>
        { next with
          integrationReceipts := next.integrationReceipts ++ [receipt]
          currentCandidateCommit := receipt.integratedHead }
      | .integrationConflict _ =>
        { next with integrationConflicts := next.integrationConflicts ++ [p.record] }
      | _ => next)

/-- What a stage does to the state. -/
theorem persist_eq_ok {state next : IntegrationState C} {p : Persist C}
    (h : state.persist p = .ok next) :
    (p.acquires = true → state.integrationLease = none) ∧
    next.integrationBarriers = state.integrationBarriers ++ [p.record] ∧
    next.integrationReceipts = state.integrationReceipts ++ p.record.advanced.toList ∧
    next.integrationConflicts = state.integrationConflicts ++ [p.record].filter (·.conflicts) ∧
    next.integrationLease = (if p.acquires then some p.lease else
      if p.releases then none else state.integrationLease) := by
  rw [IntegrationState.persist] at h
  split_ifs at h with hheld
  cases h
  refine ⟨fun hacquires => ?_, ?_⟩
  · by_contra hsome
    exact hheld ⟨hacquires, isSome_iff_ne_none.2 hsome⟩
  · obtain ⟨prepared, action⟩ := p
    cases action <;>
      simp [Persist.record, IntegrationRecord.advanced, IntegrationRecord.conflicts,
        Persist.acquires, Persist.releases]

/-! ## Controllers -/

/-- Where a controller stands: outside of a join, behind its `lease_acquired`, or inside a persist.
There it has the lease that it holds, the revision of the state that it read, and the composed
state; then also the revision and the head that it read for the swap. -/
inductive PersistPhase (C H : Type) where
  | idle
  | holding (lease : Lease C)
  | composed (p : Persist C) (held : Option (Lease C)) (read : ℕ) (next : IntegrationState C)
  | headed (p : Persist C) (held : Option (Lease C)) (read : ℕ) (next : IntegrationState C)
      (revision : ℕ) (head : Option H)

/-- The lease that a controller holds. -/
def PersistPhase.held {H : Type} : PersistPhase C H → Option (Lease C)
  | .idle => none
  | .holding lease => some lease
  | .composed _ held _ _ => held
  | .headed _ held _ _ _ _ => held

/-- Where a controller stands behind a persist. A release ends the join, whatever becomes of it. -/
def Persist.standing {H : Type} (p : Persist C) (held : Option (Lease C)) (accepted : Bool) :
    PersistPhase C H :=
  if p.releases then .idle
  else if p.acquires && accepted then .holding p.lease
  else match held with
    | none => .idle
    | some lease => .holding lease

/-- Any number of controllers on one graph. -/
structure Integrating (K C H : Type) where
  disk : SharedDisk (IntegrationState C) H (IntegrationEvent C)
  phases : K → PersistPhase C H

/-- The next step of a controller. The hash is that of the event which the step writes. -/
inductive PersistStep (K C H : Type) where
  | read (k : K) (p : Persist C)
  | head (k : K)
  | swap (k : K) (hash : H)
  | stop (k : K)

namespace Integrating

variable {K H : Type} [DecidableEq K]

def moveTo (s : Integrating K C H) (k : K) (phase : PersistPhase C H) : Integrating K C H :=
  { s with phases := Function.update s.phases k phase }

/-- The first read. A refused acquisition raises outside of the join. -/
def readState (s : Integrating K C H) (k : K) (p : Persist C) (held : Option (Lease C)) :
    Integrating K C H :=
  match s.disk.state.persist p with
  | .error _ => s.moveTo k .idle
  | .ok next => s.moveTo k (.composed p held s.disk.revision next)

/-- One step. Which stage a join persists next depends on the merges, on the verification, on the
update of the staging ref, and on whether a persist was refused. -/
def step [DecidableEq H] (action : PersistStep K C H) (s : Integrating K C H) : Option (Integrating K C H) :=
  match action with
  | .read k p =>
    match s.phases k with
    | .idle => if p.acquires || p.recovers then some (s.readState k p none) else none
    | .holding lease => if p.acquires then none else some (s.readState k p (some lease))
    | _ => none
  | .head k =>
    match s.phases k with
    | .composed p held read next =>
      some (s.moveTo k (.headed p held read next s.disk.revision s.disk.headHash))
    | _ => none
  | .swap k hash =>
    match s.phases k with
    | .headed p held _ next revision head =>
      match s.disk.swap revision head next hash p.event with
      | .error _ => some (s.moveTo k (p.standing held false))
      | .ok (disk, _) => some ⟨disk, Function.update s.phases k (p.standing held true)⟩
    | _ => none
  | .stop k => some (s.moveTo k .idle)

end Integrating

/-! ## What a step does -/

section Steps

variable {K H : Type} [DecidableEq K] {s s' : Integrating K C H}

/-- How a controller gets where it stands without an accepted swap. -/
def Integrating.Arises (s : Integrating K C H) (k : K) : PersistPhase C H → Prop
  | .idle => True
  | .holding lease => (s.phases k).held = some lease
  | .composed p held read next => read = s.disk.revision ∧ s.disk.state.persist p = .ok next ∧
      held = (s.phases k).held ∧ (held ≠ none → p.acquires = false)
  | .headed p held read next revision _ => s.phases k = .composed p held read next ∧
      revision = s.disk.revision

/-- What a step does: a controller turns to another phase, or its swap is accepted. -/
inductive Integrating.Moves (s : Integrating K C H) : PersistStep K C H → Integrating K C H → Prop
  | turns (action : PersistStep K C H) (k : K) (phase : PersistPhase C H)
      (h : s.Arises k phase) : Moves s action (s.moveTo k phase)
  | swaps (k : K) (hash : H) (p : Persist C) (held : Option (Lease C)) (read : ℕ)
      (next : IntegrationState C) (head : Option H)
      (h : s.phases k = .headed p held read next s.disk.revision head) :
      Moves s (.swap k hash)
        ⟨(s.disk.append s.disk.believed hash p.event).checkpoint (s.disk.believed.afterEvent hash)
          next, Function.update s.phases k (p.standing held true)⟩

omit [DecidableEq K] in
theorem Integrating.arises_standing {k : K} {p : Persist C} {held : Option (Lease C)}
    (h : (s.phases k).held = held) : s.Arises k (p.standing held false) := by
  unfold Persist.standing
  rw [Bool.and_false, if_neg Bool.false_ne_true]
  split
  · exact True.intro
  · cases held with
    | none => exact True.intro
    | some lease => exact h

theorem Integrating.moves_readState {action : PersistStep K C H} {k : K} {p : Persist C}
    {held : Option (Lease C)} (h : (s.phases k).held = held)
    (hacquires : held ≠ none → p.acquires = false) : s.Moves action (s.readState k p held) := by
  rw [Integrating.readState]
  cases hpersist : s.disk.state.persist p with
  | error message => exact .turns action k .idle True.intro
  | ok next => exact .turns action k _ ⟨rfl, hpersist, h.symm, hacquires⟩

theorem Integrating.step_moves [DecidableEq H] {action : PersistStep K C H}
    (h : Integrating.step action s = some s') : s.Moves action s' := by
  cases action with
  | read k p =>
    rw [Integrating.step] at h
    split at h
    · rename_i hphase
      split_ifs at h
      cases h
      exact Integrating.moves_readState (by rw [hphase]; rfl) fun hne => absurd rfl hne
    · rename_i lease hphase
      split_ifs at h with hacquires
      cases h
      exact Integrating.moves_readState (by rw [hphase]; rfl) fun _ => Bool.eq_false_of_not_eq_true
        hacquires
    · cases h
  | head k =>
    rw [Integrating.step] at h
    split at h
    · rename_i p held read next hphase
      cases h
      exact .turns _ k _ ⟨hphase, rfl⟩
    · cases h
  | swap k hash =>
    rw [Integrating.step] at h
    split at h
    · rename_i p held read next revision head hphase
      cases hswap : s.disk.swap revision head next hash p.event with
      | error message =>
        rw [hswap] at h
        cases h
        exact .turns _ k _ (Integrating.arises_standing (by rw [hphase]; rfl))
      | ok result =>
        rw [hswap] at h
        cases h
        obtain ⟨⟨-, -, rfl, -⟩, rfl⟩ := swap_eq_ok.1 hswap
        exact .swaps k hash p held read next head hphase
    · cases h
  | stop k =>
    cases h
    exact .turns _ k .idle True.intro

/-! ## What the checkpoint keeps -/

/-- The controllers have not begun. -/
def Integrating.Opened (s : Integrating K C H) : Prop := ∀ k, s.phases k = .idle

/-- The records whose swaps were accepted behind `s₀`. -/
def Integrating.accepted (s₀ s : Integrating K C H) : List (IntegrationRecord C) :=
  (s.disk.events.drop s₀.disk.events.length).map (·.payload.record)

/-- The checkpoint has every accepted record, with its receipt or its conflict. -/
structure Integrating.Keeps (s₀ s : Integrating K C H) : Prop where
  barriers : s.disk.state.integrationBarriers =
    s₀.disk.state.integrationBarriers ++ s₀.accepted s
  receipts : s.disk.state.integrationReceipts =
    s₀.disk.state.integrationReceipts ++ (s₀.accepted s).filterMap (·.advanced)
  conflicts : s.disk.state.integrationConflicts =
    s₀.disk.state.integrationConflicts ++ (s₀.accepted s).filter (·.conflicts)

/-- At most one controller holds the lease. -/
def Integrating.Exclusive (s : Integrating K C H) : Prop :=
  ∀ j k, (s.phases j).held ≠ none → (s.phases k).held ≠ none → j = k

/-- No swap was accepted between the two reads of one that is; and a recovery is of a join that was
interrupted, so that nobody holds the lease which it releases. -/
def Integrating.Undisturbed (s : Integrating K C H) : PersistStep K C H → Prop
  | .swap k _ => ∀ p held read next revision head,
      s.phases k = .headed p held read next revision head → s.disk.revision = revision →
      read = revision ∧ (p.releases = true → held = none → ∀ j, (s.phases j).held = none)
  | _ => True

/-- What a controller knows. -/
def Integrating.Knows (s₀ s : Integrating K C H) : PersistPhase C H → Prop
  | .idle => True
  | .holding lease => s.disk.state.integrationLease = some lease
  | .composed p held read next | .headed p held read next _ _ =>
    (∀ lease, held = some lease → s.disk.state.integrationLease = some lease) ∧
    (held ≠ none → p.acquires = false) ∧ read ≤ s.disk.revision ∧
    (read = s.disk.revision → s.disk.state.persist p = .ok next) ∧
    next.integrationBarriers.length + s₀.disk.revision =
      s₀.disk.state.integrationBarriers.length + read + 1

/-- The invariant of undisturbed runs. -/
structure Integrating.Intact (s₀ s : Integrating K C H) : Prop where
  grows : s₀.disk.events.length ≤ s.disk.events.length
  revision : s.disk.revision = s₀.disk.revision + (s₀.accepted s).length
  keeps : s₀.Keeps s
  exclusive : s.Exclusive
  knows : ∀ k, s₀.Knows s (s.phases k)

namespace Integrating

variable {s₀ : Integrating K C H}

variable {phase : PersistPhase C H} {k : K}

omit [DecidableEq K] in
theorem Knows.held (h : s₀.Knows s phase) {lease : Lease C} (hheld : phase.held = some lease) :
    s.disk.state.integrationLease = some lease := by
  cases phase with
  | idle => cases hheld
  | holding other =>
    cases hheld
    exact h
  | composed p held read next => exact h.1 lease hheld
  | headed p held read next revision head => exact h.1 lease hheld

omit [DecidableEq K] in
theorem Intact.length (h : s₀.Intact s) : s.disk.state.integrationBarriers.length +
    s₀.disk.revision = s₀.disk.state.integrationBarriers.length + s.disk.revision := by
  rw [h.keeps.barriers, length_append, h.revision]
  omega

omit [DecidableEq K] in
theorem accepted_self : s₀.accepted s₀ = [] := by
  rw [accepted, drop_length]
  rfl

omit [DecidableEq K] in
/-- A controller that turns holds no more than before. -/
theorem Arises.held (h : s.Arises k phase) {lease : Lease C} (hheld : phase.held = some lease) :
    (s.phases k).held = some lease := by
  cases phase with
  | idle => cases hheld
  | holding other =>
    cases hheld
    exact h
  | composed p held read next => rw [← h.2.2.1, ← hheld]; rfl
  | headed p held read next revision head => rw [h.1, ← hheld]; rfl

theorem Intact.turns (h : s₀.Intact s) (harises : s.Arises k phase) :
    s₀.Intact (s.moveTo k phase) := by
  have hheld : ∀ j, (Function.update s.phases k phase j).held ≠ none →
      (s.phases j).held ≠ none := by
    intro j hj
    by_cases hsame : j = k
    · rw [hsame, update_self] at hj
      obtain ⟨lease, hlease⟩ := ne_none_iff_exists'.1 hj
      rw [hsame, harises.held hlease]
      exact some_ne_none _
    · rwa [update_of_ne hsame] at hj
  refine ⟨h.grows, h.revision, ⟨h.keeps.barriers, h.keeps.receipts, h.keeps.conflicts⟩,
    fun i j hi hj => h.exclusive i j (hheld i hi) (hheld j hj), fun j => ?_⟩
  show s₀.Knows s (Function.update s.phases k phase j)
  by_cases hsame : j = k
  · rw [hsame, update_self]
    have hknows := h.knows k
    cases phase with
    | idle => exact True.intro
    | holding lease => exact hknows.held harises
    | composed p held read next =>
      obtain ⟨rfl, hpersist, rfl, hacquires⟩ := harises
      refine ⟨fun lease hlease => hknows.held hlease, hacquires, le_refl _, fun _ => hpersist, ?_⟩
      have hlength := h.length
      rw [(persist_eq_ok hpersist).2.1, length_append, length_singleton]
      omega
    | headed p held read next revision head =>
      rw [harises.1] at hknows
      exact hknows
  · rw [update_of_ne hsame]
    exact h.knows j

/-- What the directory is behind an accepted swap. -/
abbrev afterSwap (s : Integrating K C H) (k : K) (hash : H) (p : Persist C)
    (held : Option (Lease C)) (next : IntegrationState C) : Integrating K C H :=
  ⟨(s.disk.append s.disk.believed hash p.event).checkpoint (s.disk.believed.afterEvent hash) next,
    Function.update s.phases k (p.standing held true)⟩

theorem accepted_afterSwap (hgrows : s₀.disk.events.length ≤ s.disk.events.length) (k : K)
    (hash : H) (p : Persist C) (held : Option (Lease C)) (next : IntegrationState C) :
    s₀.accepted (s.afterSwap k hash p held next) = s₀.accepted s ++ [p.record] := by
  show ((s.disk.events ++ [s.disk.believed.event hash p.event]).drop _).map _ = _
  rw [drop_append_of_le_length hgrows, map_append]
  rfl

/-- **An accepted swap loses no record exactly when none was accepted between its reads.** -/
theorem Intact.keeps_iff (h : s₀.Intact s) {hash : H} {p : Persist C} {held : Option (Lease C)}
    {read revision : ℕ} {next : IntegrationState C} {head : Option H}
    (hphase : s.phases k = .headed p held read next revision head) :
    s₀.Keeps (s.afterSwap k hash p held next) ↔ read = s.disk.revision := by
  have hknows := h.knows k
  rw [hphase] at hknows
  obtain ⟨-, -, -, hpersist, hlength⟩ := hknows
  constructor
  · intro hkeeps
    have hbarriers := congrArg List.length hkeeps.barriers
    rw [accepted_afterSwap h.grows, length_append, length_append,
      length_singleton] at hbarriers
    change next.integrationBarriers.length = _ at hbarriers
    have hrevision := h.revision
    omega
  · intro hread
    obtain ⟨-, hbarriers, hreceipts, hconflicts, -⟩ := persist_eq_ok (hpersist hread)
    refine ⟨?_, ?_, ?_⟩
    · rw [accepted_afterSwap h.grows, ← append_assoc, ← h.keeps.barriers]
      exact hbarriers
    · rw [accepted_afterSwap h.grows, filterMap_append, ← append_assoc,
        ← h.keeps.receipts]
      refine hreceipts.trans ?_
      rw [filterMap_cons]
      cases p.record.advanced <;> rfl
    · rw [accepted_afterSwap h.grows, filter_append, ← append_assoc,
        ← h.keeps.conflicts]
      exact hconflicts

omit [DecidableEq K] in
/-- The lease that a controller holds behind an accepted swap. -/
theorem held_standing (p : Persist C) (held : Option (Lease C)) :
    (p.standing held true : PersistPhase C H).held =
      if p.releases then none else if p.acquires then some p.lease else held := by
  unfold Persist.standing
  rw [Bool.and_true]
  split
  · rfl
  · split
    · rfl
    · cases held <;> rfl

omit [DecidableEq K] in
theorem knows_standing {p : Persist C} {held : Option (Lease C)} {accepted : Bool}
    (h : ∀ lease, (p.standing held accepted : PersistPhase C H).held = some lease →
      s.disk.state.integrationLease = some lease) :
    s₀.Knows s (p.standing held accepted) := by
  unfold Persist.standing at h ⊢
  split
  · exact True.intro
  · rename_i hrel
    rw [if_neg hrel] at h
    split
    · rename_i hacq
      rw [if_pos hacq] at h
      exact h p.lease rfl
    · rename_i hacq
      rw [if_neg hacq] at h
      cases held with
      | none => exact True.intro
      | some lease => exact h lease rfl

omit [DecidableEq K] in
/-- A controller that does nothing while another one's swap is accepted. -/
theorem Knows.later (h : s₀.Knows s phase)
    (hlease : ∀ lease, phase.held = some lease → s'.disk.state.integrationLease = some lease)
    (hrevision : s.disk.revision < s'.disk.revision) : s₀.Knows s' phase := by
  cases phase with
  | idle => exact True.intro
  | holding lease => exact hlease lease rfl
  | composed p held read next =>
    obtain ⟨-, hacquires, hread, -, hlength⟩ := h
    exact ⟨hlease, hacquires, hread.trans hrevision.le,
      fun hsame => absurd hsame (lt_of_le_of_lt hread hrevision).ne, hlength⟩
  | headed p held read next revision head =>
    obtain ⟨-, hacquires, hread, -, hlength⟩ := h
    exact ⟨hlease, hacquires, hread.trans hrevision.le,
      fun hsame => absurd hsame (lt_of_le_of_lt hread hrevision).ne, hlength⟩

theorem Intact.swaps (h : s₀.Intact s) {hash : H} {p : Persist C} {held : Option (Lease C)}
    {read : ℕ} {next : IntegrationState C} {head : Option H}
    (hphase : s.phases k = .headed p held read next s.disk.revision head)
    (hundisturbed : s.Undisturbed (.swap k hash)) :
    s₀.Intact (s.afterSwap k hash p held next) := by
  obtain ⟨hread, hrecovery⟩ := hundisturbed p held read next _ head hphase rfl
  have hknows := h.knows k
  rw [hphase] at hknows
  obtain ⟨hheld, hacquires, -, hpersist, -⟩ := hknows
  obtain ⟨hfree, -, -, -, hlease⟩ := persist_eq_ok (hpersist hread)
  have hself : (s.phases k).held = held := by rw [hphase]; rfl
  -- Whoever else holds the lease keeps it: it is neither taken nor given back by `k`.
  have hother : ∀ j lease, j ≠ k → (s.phases j).held = some lease →
      held = none ∧ p.acquires = false ∧ p.releases = false := by
    intro j lease hj hlease'
    have hnone : held = none := by
      by_contra hne
      refine hj (h.exclusive j k ?_ (hself ▸ hne))
      rw [hlease']
      exact some_ne_none _
    refine ⟨hnone, ?_, ?_⟩
    · refine Bool.eq_false_of_not_eq_true fun hacq => ?_
      have hsome := (h.knows j).held hlease'
      rw [hfree hacq] at hsome
      cases hsome
    · refine Bool.eq_false_of_not_eq_true fun hrel => ?_
      rw [hrecovery hrel hnone j] at hlease'
      cases hlease'
  have hstays : ∀ j lease, j ≠ k → (s.phases j).held = some lease →
      next.integrationLease = some lease := by
    intro j lease hj hlease'
    obtain ⟨-, hacq, hrel⟩ := hother j lease hj hlease'
    rw [hlease, hacq, hrel]
    exact (h.knows j).held hlease'
  have hnew : ∀ j, ((s.afterSwap k hash p held next).phases j).held =
      if j = k then (if p.releases then none else if p.acquires then some p.lease else held)
      else (s.phases j).held := by
    intro j
    show (Function.update s.phases k (p.standing held true) j).held = _
    by_cases hj : j = k
    · rw [hj, update_self, if_pos rfl, held_standing]
    · rw [update_of_ne hj, if_neg hj]
  refine ⟨?_, ?_, (h.keeps_iff hphase).2 hread, fun i j hi hj => ?_, fun j => ?_⟩
  · refine h.grows.trans ?_
    show _ ≤ (s.disk.events ++ [s.disk.believed.event hash p.event]).length
    rw [length_append]
    exact Nat.le_add_right _ _
  · rw [accepted_afterSwap h.grows, length_append, length_singleton, ← Nat.add_assoc,
      ← h.revision]
    rfl
  · rw [hnew] at hi hj
    have hnone : ∀ j, j ≠ k → (s.phases j).held ≠ none →
        (if p.releases then none else if p.acquires then some p.lease else held) = none := by
      intro j hj hne
      obtain ⟨lease, hlease'⟩ := ne_none_iff_exists'.1 hne
      obtain ⟨hnone, hacq, hrel⟩ := hother j lease hj hlease'
      rw [hnone, hacq, hrel]
      rfl
    by_cases hik : i = k
    · by_cases hjk : j = k
      · rw [hik, hjk]
      · rw [if_neg hjk] at hj
        rw [if_pos hik, hnone j hjk hj] at hi
        exact absurd rfl hi
    · rw [if_neg hik] at hi
      by_cases hjk : j = k
      · rw [if_pos hjk, hnone i hik hi] at hj
        exact absurd rfl hj
      · rw [if_neg hjk] at hj
        exact h.exclusive i j hi hj
  · show s₀.Knows _ (Function.update s.phases k (p.standing held true) j)
    by_cases hj : j = k
    · rw [hj, update_self]
      refine knows_standing fun lease hlease' => ?_
      rw [held_standing] at hlease'
      refine hlease.trans ?_
      cases hrel : p.releases with
      | true =>
        rw [hrel] at hlease'
        cases hlease'
      | false =>
        rw [hrel] at hlease'
        cases hacq : p.acquires with
        | true =>
          rw [hacq] at hlease'
          exact hlease'
        | false =>
          rw [hacq] at hlease'
          exact hheld lease hlease'
    · rw [update_of_ne hj]
      exact (h.knows j).later (fun lease => hstays j lease hj) (Nat.lt_succ_self _)

theorem Intact.step [DecidableEq H] (h : s₀.Intact s) {action : PersistStep K C H}
    (hundisturbed : s.Undisturbed action) (hstep : Integrating.step action s = some s') :
    s₀.Intact s' := by
  cases step_moves hstep with
  | turns action k phase harises => exact h.turns harises
  | swaps k hash p held read next head hphase => exact h.swaps hphase hundisturbed

omit [DecidableEq K] in
theorem Opened.intact (h : s₀.Opened) : s₀.Intact s₀ := by
  refine ⟨le_refl _, ?_, ⟨?_, ?_, ?_⟩, fun i j hi _ => ?_, fun k => ?_⟩
  · rw [accepted_self]
    rfl
  · rw [accepted_self, append_nil]
  · rw [accepted_self]
    exact (append_nil _).symm
  · rw [accepted_self]
    exact (append_nil _).symm
  · rw [h i] at hi
    exact absurd rfl hi
  · rw [h k]
    exact True.intro

/-- The journal only grows. -/
theorem events_step [DecidableEq H] {action : PersistStep K C H}
    (hstep : Integrating.step action s = some s') : s.disk.events <+: s'.disk.events := by
  cases step_moves hstep with
  | turns action k phase harises => exact prefix_refl _
  | swaps k hash p held read next head hphase => exact prefix_append _ _

/-- **The lease and the records.** Behind any interleaving of persists whose accepted swaps are
undisturbed, at most one controller holds the lease, and the checkpoint has every record that was
accepted, with the receipts and the conflicts; no later state takes one back. In every such state an
accepted swap keeps the records exactly when no other one came between its two reads. -/
theorem lease_and_records [DecidableEq H] (hopened : s₀.Opened) :
    (∀ s, RunsUnder Undisturbed Integrating.step s₀ s → s.Exclusive ∧ s₀.Keeps s) ∧
    (∀ s s', RunsUnder Undisturbed Integrating.step s₀ s →
      RunsUnder Undisturbed Integrating.step s s' → s₀.accepted s <+: s₀.accepted s') ∧
    ∀ s s' k hash p held read next revision head,
      RunsUnder Undisturbed Integrating.step s₀ s →
      s.phases k = .headed p held read next revision head →
      Integrating.step (.swap k hash) s = some s' → s'.disk.revision ≠ s.disk.revision →
      (s₀.Keeps s' ↔ read = revision) := by
  have hintact : ∀ s, RunsUnder Undisturbed Integrating.step s₀ s → s₀.Intact s := by
    intro s hrun
    exact hrun.invariant (fun _ _ _ hundisturbed hstep h => h.step hundisturbed hstep)
      hopened.intact
  refine ⟨fun s hrun => ⟨(hintact s hrun).exclusive, (hintact s hrun).keeps⟩, ?_, ?_⟩
  · intro s s' _ hrun
    have hgrows : s.disk.events <+: s'.disk.events :=
      hrun.invariant (P := fun t => s.disk.events <+: t.disk.events)
        (fun _ _ _ _ hstep h => h.trans (events_step hstep)) (prefix_refl _)
    exact (hgrows.drop _).map _
  · intro s s' k hash p held read next revision head hrun hphase hstep haccepted
    cases step_moves hstep with
    | turns action k phase harises => exact absurd rfl haccepted
    | swaps k hash p' held' read' next' head' hphase' =>
      rw [hphase] at hphase'
      cases hphase'
      exact (hintact s hrun).keeps_iff hphase

end Integrating

end Steps

/-! ## Two controllers acquire the lease -/

section Pair

/-- A join under the lease of this id. -/
def joinUnder (leaseId : String) : JoinPreparation ℕ where
  graphId := "graph"
  nodeId := "join"
  logicalAttempt := 1
  allocationId := "a1"
  checkpointRevision := 1
  leaseId := leaseId
  parentCandidateCommit := 0

/-- Two controllers on a new graph. -/
def twoControllers : Integrating Bool ℕ ℕ where
  disk := ⟨[], 0, 0, none, { currentCandidateCommit := 0 }⟩
  phases := fun _ => .idle

/-- The first state that the acquisition of a lease composes. -/
def firstLease : IntegrationState ℕ where
  integrationBarriers := [Persist.record ⟨joinUnder "lease-1", .leaseAcquired 0⟩]
  integrationLease := some (Persist.lease ⟨joinUnder "lease-1", .leaseAcquired 0⟩)
  currentCandidateCommit := 0

/-- One of them acquires the lease. -/
theorem lease_and_records_single : ∃ s,
    RunsUnder Integrating.Undisturbed Integrating.step twoControllers s ∧
      (s.phases true).held ≠ none ∧ s.Exclusive ∧ twoControllers.Keeps s := by
  let p : Persist ℕ := ⟨joinUnder "lease-1", .leaseAcquired 0⟩
  let read := twoControllers.moveTo true (.composed p none 0 firstLease)
  let headed := read.moveTo true (.headed p none 0 firstLease 0 none)
  have hread : Integrating.step (.read true p) twoControllers = some read := rfl
  have hhead : Integrating.step (.head true) read = some headed := rfl
  have hswap : Integrating.step (.swap true 1) headed =
      some (headed.afterSwap true 1 p none firstLease) := rfl
  have hundisturbed : headed.Undisturbed (.swap true 1) := by
    intro p' held r next revision head hphase _
    cases hphase
    exact ⟨rfl, nofun⟩
  have hrun : RunsUnder Integrating.Undisturbed Integrating.step twoControllers
      (headed.afterSwap true 1 p none firstLease) :=
    ((Relation.ReflTransGen.single ⟨.read true p, True.intro, hread⟩).tail
      ⟨.head true, True.intro, hhead⟩).tail ⟨.swap true 1, hundisturbed, hswap⟩
  obtain ⟨hexclusive, hkeeps⟩ := (Integrating.lease_and_records fun _ => rfl).1 _ hrun
  exact ⟨_, hrun, nofun, hexclusive, hkeeps⟩

/-- Both read the state before either swaps, and the second one reads the revision behind the first
swap. -/
def bothAcquire : Option (Integrating Bool ℕ ℕ) :=
  runInputs Integrating.step twoControllers
    [.read true ⟨joinUnder "lease-1", .leaseAcquired 0⟩,
      .read false ⟨joinUnder "lease-2", .leaseAcquired 0⟩,
      .head true, .swap true 1, .head false, .swap false 2]

/-- Both hold the lease, and the record of the first one is lost. -/
theorem two_leases : ∃ s, Runs Integrating.step twoControllers s ∧ twoControllers.Opened ∧
    ¬ s.Exclusive ∧ (twoControllers.accepted s).map (·.leaseId) = ["lease-1", "lease-2"] ∧
    s.disk.state.integrationBarriers.map (·.leaseId) = ["lease-2"] := by
  have hsome : bothAcquire.isSome = true := by decide +kernel
  obtain ⟨s, hs⟩ := isSome_iff_exists.1 hsome
  have hheld : (bothAcquire.map fun s =>
      (s.phases true).held.isSome && (s.phases false).held.isSome) = some true := by
    decide +kernel
  have haccepted : (bothAcquire.map fun s => (twoControllers.accepted s).map (·.leaseId)) =
      some ["lease-1", "lease-2"] := by decide +kernel
  have hrecords : (bothAcquire.map fun s =>
      s.disk.state.integrationBarriers.map (·.leaseId)) = some ["lease-2"] := by decide +kernel
  rw [hs, map_some, some_inj] at hheld haccepted hrecords
  refine ⟨s, runs_of_runInputs hs, fun _ => rfl, fun hexclusive => ?_, haccepted, hrecords⟩
  obtain ⟨htrue, hfalse⟩ := Bool.and_eq_true_iff.1 hheld
  have hsame := hexclusive true false (isSome_iff_ne_none.1 htrue)
    (isSome_iff_ne_none.1 hfalse)
  cases hsame

end Pair

end HarnessLabs.PlanGraph
