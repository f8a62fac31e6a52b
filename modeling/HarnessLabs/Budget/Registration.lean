import HarnessLabs.Budget.Accounting

/-!
# Registrations

A registration checks the plan change, records the gate changes that the operator authorized, and
for a new plan version appends the structural decision, the registration itself and one carry-over
per node.

* `Control.Ready` — the invariant between operations: no plan transition is half recorded, and
  the allowances are not overdrawn.
* `recordGateChanges_of_ok` — the gate changes that a registration records.
* `register_cases` — a registration is refused without an event or it passed every check.
* `Registers.replays` — **the fold accepts everything that a registration appends.**
-/

namespace HarnessLabs.Budget

open EventLog

/-- The event decides about plans or draws on an allowance. -/
def Event.isControl : Event → Bool
  | .registered .. | .recoveryDecision .. | .structuralDecision .. | .reset .. => true
  | _ => false

namespace State

/-! ## Gate changes -/

variable {s t : State} {id gate plan : String} {items : List (String × String)}
  {authority : AutomaticRecoveryAuthority} {e : Event} {gates : Dict String String}
  {transition : Option Json} {checked : Option PlanVersionTransition}

theorem assertGateChangeAuthorized_new {b : Bool} :
    s.assertGateChangeAuthorized id gate true = .ok b ↔
      b = decide (s.gates.get? id ≠ some gate) ∧
        (s.gates.get? id = some gate ∨ (s.node id).acceptGateChange = true) := by
  unfold assertGateChangeAuthorized
  cases hg : s.gates.get? id with
  | none =>
    cases ha : (s.node id).acceptGateChange <;> cases b <;> simp
  | some known =>
    by_cases hk : known = gate
    · cases b <;> simp [hk]
    · cases ha : (s.node id).acceptGateChange <;> cases b <;> simp [hk]

theorem assertGateChangeAuthorized_known {b : Bool} :
    s.assertGateChangeAuthorized id gate false = .ok b ↔ id ∈ s.gates.keys ∧
      b = decide (s.gates.get? id ≠ some gate) ∧
        (s.gates.get? id = some gate ∨ (s.node id).acceptGateChange = true) := by
  unfold assertGateChangeAuthorized
  rw [Dict.mem_keys_iff]
  cases hg : s.gates.get? id with
  | none => simp
  | some known =>
    by_cases hk : known = gate
    · cases b <;> simp [hk]
    · cases ha : (s.node id).acceptGateChange <;> cases b <;> simp [hk]

theorem assertGateChanges_ok :
    s.assertGateChanges items = .ok () ↔
      ∀ p ∈ items, s.gates.get? p.1 = some p.2 ∨ (s.node p.1).acceptGateChange = true := by
  induction items with
  | nil => simp [assertGateChanges]
  | cons p items ih =>
    obtain ⟨id, gate⟩ := p
    simp only [assertGateChanges, List.forall_mem_cons]
    cases h : s.assertGateChangeAuthorized id gate true with
    | error e =>
      have hno : ¬ (s.gates.get? id = some gate ∨ (s.node id).acceptGateChange = true) := by
        intro hp
        rw [assertGateChangeAuthorized_new.2 ⟨rfl, hp⟩] at h
        cases h
      simp [hno]
    | ok b =>
      have hyes := (assertGateChangeAuthorized_new.1 h).2
      simp only [ih, hyes, true_and]

@[simp] theorem get?_gates_gateChanged (s : State) (id gate j : String) :
    (s.gateChanged id gate).gates.get? j = if j = id then some gate else s.gates.get? j :=
  Dict.get?_set s.gates id j gate

theorem node_gateChanged (s : State) (id gate j : String) :
    (s.gateChanged id gate).node j =
      if j = id then { s.node id with acceptGateChange := false } else s.node j :=
  node_setNode _ _ _ _

/-- The gates of a registration that differ from the bound ones. -/
def neededChanges (s : State) (items : List (String × String)) : List (String × String) :=
  items.filter fun p => s.gates.get? p.1 ≠ some p.2

def changeEvents (items : List (String × String)) : List Event :=
  items.map fun p => .gateChanged p.1 p.2

def changeGates (s : State) (items : List (String × String)) : State :=
  items.foldl (fun t p => t.gateChanged p.1 p.2) s

theorem replay_changeEvents (s : State) (items : List (String × String)) :
    s.applyAll (changeEvents items) = some (s.changeGates items) := by
  induction items generalizing s with
  | nil => rfl
  | cons p items ih => exact ih (s.gateChanged p.1 p.2)

theorem get?_gates_changeGates_of_notMem {j : String} (h : j ∉ items.map Prod.fst) :
    (s.changeGates items).gates.get? j = s.gates.get? j := by
  induction items generalizing s with
  | nil => rfl
  | cons p items ih =>
    simp only [List.map_cons, List.mem_cons, not_or] at h
    refine (ih h.2).trans ?_
    rw [get?_gates_gateChanged, if_neg h.1]

theorem get?_gates_changeGates (hn : (items.map Prod.fst).Nodup) {p : String × String}
    (hp : p ∈ items) :
    (s.changeGates items).gates.get? p.1 = some p.2 := by
  induction items generalizing s with
  | nil => cases hp
  | cons q items ih =>
    obtain ⟨hq, hn⟩ := List.nodup_cons.1 hn
    rcases List.mem_cons.1 hp with rfl | hp
    · refine (get?_gates_changeGates_of_notMem hq).trans ?_
      rw [get?_gates_gateChanged, if_pos rfl]
    · exact ih hn hp

theorem assertGateChanges_gateChanged (hid : id ∉ items.map Prod.fst)
    (h : s.assertGateChanges items = .ok ()) :
    (s.gateChanged id gate).assertGateChanges items = .ok () := by
  rw [assertGateChanges_ok] at h ⊢
  intro p hp
  have hne : p.1 ≠ id := fun he => hid (List.mem_map.2 ⟨p, hp, he⟩)
  rw [get?_gates_gateChanged, node_gateChanged, if_neg hne, if_neg hne]
  exact h p hp

theorem neededChanges_gateChanged (hid : id ∉ items.map Prod.fst) :
    (s.gateChanged id gate).neededChanges items = s.neededChanges items := by
  refine List.filter_congr fun p hp => ?_
  have hne : p.1 ≠ id := fun he => hid (List.mem_map.2 ⟨p, hp, he⟩)
  rw [get?_gates_gateChanged, if_neg hne]

/-- **The second loop records exactly the needed changes.** -/
theorem recordGateChanges_of_ok (hn : (items.map Prod.fst).Nodup)
    (h : s.assertGateChanges items = .ok ()) :
    s.recordGateChanges items = .accepted (changeEvents (s.neededChanges items)) := by
  induction items generalizing s with
  | nil => rfl
  | cons p items ih =>
    obtain ⟨id, gate⟩ := p
    obtain ⟨hid, hn⟩ := List.nodup_cons.1 hn
    have hall := assertGateChanges_ok.1 h
    have hrest : s.assertGateChanges items = .ok () :=
      assertGateChanges_ok.2 fun p hp => hall p (List.mem_cons_of_mem _ hp)
    have hauth := assertGateChangeAuthorized_new.2 ⟨rfl, hall _ List.mem_cons_self⟩
    simp only [recordGateChanges, neededChanges]
    rw [hauth]
    by_cases hg : s.gates.get? id = some gate
    · simp only [hg, ne_eq, not_true_eq_false, decide_false]
      rw [List.filter_cons_of_neg (by simp [hg])]
      exact ih hn hrest
    · simp only [ne_eq, hg, not_false_eq_true, decide_true]
      rw [List.filter_cons_of_pos (by simpa using hg),
        ih hn (assertGateChanges_gateChanged hid hrest), neededChanges_gateChanged hid]
      rfl

/-! ## The invariant between operations -/

/-- The fields that plan changes and recovery decisions are checked against. -/
@[ext] structure Control where
  planSha256 : Finset String
  activePlanSha256 : Option String
  acceptedPlanSha256 : Option String
  authority : Option AutomaticRecoveryAuthority
  extraLaunches : ℕ
  structuralDecisions : ℕ
  pending : Option Json
  consumedTransitions : Dict String Json

def control (s : State) : Control where
  planSha256 := s.planSha256
  activePlanSha256 := s.activePlanSha256
  acceptedPlanSha256 := s.acceptedPlanSha256
  authority := s.authority
  extraLaunches := s.automaticRecoveryExtraLaunches
  structuralDecisions := s.automaticRecoveryStructuralDecisions
  pending := s.pendingPlanTransitionDecision
  consumedTransitions := s.consumedTransitions

/-- A registered lineage has an authority, and no allowance of it is overdrawn. -/
structure Control.Allowed (c : Control) : Prop where
  authorized : c.planSha256.Nonempty → c.authority ≠ none
  extraLaunches : c.extraLaunches ≤ (c.authority.getD .none).maxExtraNodeLaunches
  structuralDecisions : c.structuralDecisions ≤ (c.authority.getD .none).maxStructuralDecisions

/-- Moreover no plan transition is half recorded. -/
structure Control.Ready (c : Control) : Prop extends Control.Allowed c where
  noPending : c.pending = none

abbrev Allowed (s : State) : Prop := s.control.Allowed

abbrev Ready (s : State) : Prop := s.control.Ready

theorem ready_init : Ready {} where
  noPending := rfl
  authorized h := absurd h Finset.not_nonempty_empty
  extraLaunches := Nat.zero_le _
  structuralDecisions := Nat.zero_le _

theorem Ready.of_control (hr : s.Ready) (h : t.control = s.control) : t.Ready := by
  rw [Ready, h]
  exact hr

/-- A registration binds the authority that there is, or the first one. -/
theorem Control.Allowed.bind {c d : Control} (h : c.Allowed)
    (ha : c.authority = none ∨ c.authority = some authority) (hda : d.authority = some authority)
    (hx : d.extraLaunches = c.extraLaunches) (hs : d.structuralDecisions = c.structuralDecisions) :
    d.Allowed := by
  obtain ⟨-, hle, hle'⟩ := h
  refine ⟨fun _ => by rw [hda]; exact Option.some_ne_none _, ?_, ?_⟩
  · rw [hda, hx]
    rcases ha with ha | ha <;> rw [ha] at hle
    · exact hle.trans (Nat.zero_le _)
    · exact hle
  · rw [hda, hs]
    rcases ha with ha | ha <;> rw [ha] at hle'
    · exact hle'.trans (Nat.zero_le _)
    · exact hle'

theorem control_of_apply (h : s.apply e = some t) (he : e.isControl = false) :
    t.control = s.control := by
  cases e with
  | registered plan gates authority transition consumes => cases he
  | recoveryDecision value prior => cases he
  | structuralDecision value prior => cases he
  | reset id reason acceptGate acceptPlan c => cases he
  | gateChanged id gate => cases h; rfl
  | reserved rid id gate keys c attempt counters =>
    simp only [apply, reserved] at h
    split at h
    · cases h
    · cases h; rfl
  | started rid =>
    obtain ⟨_, -, -, rfl⟩ := moveReservation_cases h
    rfl
  | completed rid status tokens =>
    obtain ⟨_, -, -, rfl⟩ := moveReservation_cases h
    rfl
  | abandoned rid id disposition reason attempt =>
    obtain ⟨_, -, rfl⟩ := abandoned_cases h
    rfl
  | evidenceImported id invocation kind c keys =>
    simp only [apply, evidenceImported] at h
    split at h
    · cases h
    · cases h; rfl
  | blocked id => cases h; rfl
  | extended id launches reason => cases h; rfl
  | resumed id =>
    simp only [apply] at h
    split at h
    · cases h; rfl
    · cases h
  | obligationTransferred source receiving =>
    simp only [apply] at h
    split at h
    · cases h; rfl
    · cases h
  | gateLineage id predecessor successor c =>
    simp only [apply, gateLineage] at h
    split at h
    · cases h
    · cases c <;> cases h <;> rfl
  | transitionCarryover id c plan =>
    simp only [apply, transitionCarryover] at h
    split at h
    · cases h
    · cases c <;> cases h <;> rfl

/-- **No event overdraws an allowance, and none gives it back.** -/
theorem Allowed.apply (h : s.Allowed) (ht : s.apply e = some t) :
    t.Allowed ∧ s.automaticRecoveryExtraLaunches ≤ t.automaticRecoveryExtraLaunches ∧
      s.automaticRecoveryStructuralDecisions ≤ t.automaticRecoveryStructuralDecisions := by
  by_cases he : e.isControl = false
  · have hc := control_of_apply ht he
    refine ⟨by rw [Allowed, hc]; exact h, ?_, ?_⟩
    · exact (congrArg Control.extraLaunches hc).ge
    · exact (congrArg Control.structuralDecisions hc).ge
  cases e with
  | registered plan gates authority transition consumes =>
    obtain ⟨ha, ⟨-, -, rfl⟩ | ⟨_, _, -, -, -, -, -, rfl⟩ | ⟨-, -, -, rfl⟩⟩ := registered_cases ht
    all_goals exact ⟨Control.Allowed.bind h ha rfl rfl rfl, le_rfl, le_rfl⟩
  | recoveryDecision value prior =>
    obtain ⟨authority, d, ha, -, hx, hs, rfl⟩ := recoveryDecision_cases ht
    refine ⟨⟨h.authorized, ?_, ?_⟩, Nat.le_add_right _ _, Nat.le_add_right _ _⟩
    · rw [show Control.authority _ = some authority from ha]; exact hx
    · rw [show Control.authority _ = some authority from ha]; exact hs
  | structuralDecision value prior =>
    obtain ⟨authority, d, ha, -, -, hs, rfl⟩ := structuralDecision_cases ht
    refine ⟨⟨h.authorized, h.extraLaunches, ?_⟩, le_rfl, Nat.le_add_right _ _⟩
    rw [show Control.authority _ = some authority from ha]
    exact hs
  | reset id reason acceptGate acceptPlan c =>
    simp only [State.apply, State.reset] at ht
    split at ht
    · cases c <;> cases ht <;>
        exact ⟨⟨h.authorized, h.extraLaunches, h.structuralDecisions⟩, le_rfl, le_rfl⟩
    · cases ht
  | _ => exact absurd rfl he

/-- Only a structural decision opens a plan transition. -/
theorem pending_of_apply (ht : s.apply e = some t)
    (he : ∀ value prior, e ≠ .structuralDecision value prior)
    (h : s.pendingPlanTransitionDecision = none) : t.pendingPlanTransitionDecision = none := by
  by_cases hc : e.isControl = false
  · exact (congrArg Control.pending (control_of_apply ht hc)).trans h
  cases e with
  | registered plan gates authority transition consumes =>
    obtain ⟨ha, ⟨-, -, rfl⟩ | ⟨_, _, -, -, -, -, -, rfl⟩ | ⟨-, -, -, rfl⟩⟩ := registered_cases ht
    · exact h
    · rfl
    · exact h
  | recoveryDecision value prior =>
    obtain ⟨_, _, -, -, -, -, rfl⟩ := recoveryDecision_cases ht
    exact h
  | structuralDecision value prior => exact absurd rfl (he value prior)
  | reset id reason acceptGate acceptPlan c =>
    simp only [State.apply, State.reset] at ht
    split at ht
    · cases c <;> cases ht <;> exact h
    · cases ht
  | _ => exact absurd rfl hc

theorem control_changeGates (s : State) (items : List (String × String)) :
    (s.changeGates items).control = s.control := by
  induction items generalizing s with
  | nil => rfl
  | cons p items ih => exact (ih (s.gateChanged p.1 p.2)).trans rfl

theorem changedPlan_congr (h : t.control = s.control) (plan : String) :
    t.changedPlan plan = s.changedPlan plan := by
  have hp : t.planSha256 = s.planSha256 := congrArg Control.planSha256 h
  rw [changedPlan, changedPlan, hp]

theorem mem_keys_changeGates (h : id ∈ s.gates.keys) : id ∈ (s.changeGates items).gates.keys := by
  induction items generalizing s with
  | nil => exact h
  | cons p items ih => exact ih (Dict.mem_keys_set.2 (.inr h))

/-! ## Registration -/

/-- Apply one carry-over of a transition. -/
def carryNode (s : State) (id : String) : Carryover → State
  | .reset => s.resetNodeAccounting id
  | .full => s

/-- Apply the carry-overs of a transition, in order. -/
def carryOver (s : State) (items : List (String × Carryover)) : State :=
  items.foldl (fun t p => t.carryNode p.1 p.2) s

def carryoverEvents (plan : String) (items : List (String × Carryover)) : List Event :=
  items.map fun p => .transitionCarryover p.1 p.2 plan

theorem control_carryNode (s : State) (id : String) (c : Carryover) :
    (s.carryNode id c).control = s.control := by
  cases c <;> rfl

theorem gates_carryNode (s : State) (id : String) (c : Carryover) :
    (s.carryNode id c).gates = s.gates := by
  cases c <;> rfl

theorem apply_transitionCarryover {c : Carryover} (ha : s.activePlanSha256 = some plan)
    (hg : id ∈ s.gates.keys) :
    s.apply (.transitionCarryover id c plan) = some (s.carryNode id c) := by
  simp only [apply, transitionCarryover]
  rw [if_neg (by simpa [ha] using hg)]
  cases c <;> rfl

theorem replay_carryoverEvents {items : List (String × Carryover)}
    (ha : s.activePlanSha256 = some plan) (hg : ∀ p ∈ items, p.1 ∈ s.gates.keys) :
    s.applyAll (carryoverEvents plan items) = some (s.carryOver items) := by
  induction items generalizing s with
  | nil => rfl
  | cons p items ih =>
    have hp := hg p List.mem_cons_self
    refine (replay_cons_of (apply_transitionCarryover ha hp) _).trans (ih ?_ ?_)
    · exact (congrArg Control.activePlanSha256 (control_carryNode s p.1 p.2)).trans ha
    · intro q hq
      rw [gates_carryNode]
      exact hg q (List.mem_cons_of_mem _ hq)

theorem control_carryOver (s : State) (items : List (String × Carryover)) :
    (s.carryOver items).control = s.control := by
  induction items generalizing s with
  | nil => rfl
  | cons p items ih => exact (ih (s.carryNode p.1 p.2)).trans (control_carryNode s p.1 p.2)

/-- What `register` checked about the plan and its transition. -/
inductive Checked (s : State) (authority : AutomaticRecoveryAuthority) (plan : String)
    (gates : Dict String String) : Option Json → Option PlanVersionTransition → Prop where
  | transition {t : PlanVersionTransition} (changed : s.changedPlan plan = true)
      (valid : validatePlanVersionTransition t.value authority = .ok t)
      (binds : s.bindsTransition t plan gates = true)
      (allowance : s.automaticRecoveryStructuralDecisions < authority.maxStructuralDecisions) :
      Checked s authority plan gates (some t.value) (some t)
  | accepted (changed : s.changedPlan plan = true) (accepted : s.acceptedPlanSha256 = some plan) :
      Checked s authority plan gates none none
  | same (same : s.changedPlan plan = false) : Checked s authority plan gates none none
  | replay {value : Json} (same : s.changedPlan plan = false)
      (consumed : s.consumedTransitions.get? plan = some value) :
      Checked s authority plan gates (some value) none

theorem checkTransition_ok :
    s.checkTransition authority plan gates transition = .ok checked ↔
      Checked s authority plan gates transition checked := by
  constructor
  · intro h
    unfold checkTransition at h
    cases hc : s.changedPlan plan with
    | true =>
      rw [hc, if_pos rfl] at h
      cases transition with
      | none =>
        dsimp only at h
        split_ifs at h with ha
        cases h
        exact .accepted hc (not_not.1 ha)
      | some value =>
        dsimp only at h
        split at h
        · cases h
        · rename_i t ht
          split_ifs at h with hb hl
          cases h
          obtain rfl := (value_of_validatePlanVersionTransition ht).1
          exact .transition hc ht hb (not_le.1 hl)
    | false =>
      rw [hc, if_neg Bool.false_ne_true] at h
      cases transition with
      | none => cases h; exact .same hc
      | some value =>
        dsimp only at h
        split_ifs at h with hv
        cases h
        exact .replay hc hv
  · rintro (⟨hc, ht, hb, hl⟩ | ⟨hc, ha⟩ | hc | ⟨hc, hv⟩)
    · simp [checkTransition, hc, ht, hb, hl]
    · simp [checkTransition, hc, ha]
    · simp [checkTransition, hc]
    · simp [checkTransition, hc, hv]

/-- What an accepted registration appends. -/
def registerEvents (s : State) (authority : AutomaticRecoveryAuthority) (plan : String)
    (gates : Dict String String) (checked : Option PlanVersionTransition) : List Event :=
  if s.planSha256 = ∅ then [.registered plan gates authority none false]
  else changeEvents (s.neededChanges gates.items) ++
    s.registrationEvents authority plan gates checked

/-- What `register` checks before it appends. -/
structure Registers (s : State) (plan : String) (gates : Dict String String)
    (recovery transition : Option Json) (authority : AutomaticRecoveryAuthority)
    (checked : Option PlanVersionTransition) : Prop where
  nonempty : plan ≠ ""
  declared : AutomaticRecoveryAuthority.fromMapping recovery = .ok authority
  immutable : s.authority = none ∨ s.authority = some authority
  checked : Checked s authority plan gates transition checked
  gates : s.planSha256 = ∅ ∨ s.assertGateChanges gates.items = .ok ()

theorem Registers.register_eq {recovery : Option Json}
    (h : Registers s plan gates recovery transition authority checked) :
    s.register plan gates recovery transition =
      .accepted (s.registerEvents authority plan gates checked) := by
  have himm : ¬ (s.authority.isSome = true ∧ s.authority ≠ some authority) := by
    rcases h.immutable with ha | ha <;> simp [ha]
  simp only [register, if_neg h.nonempty, h.declared, if_neg himm, registerEvents,
    checkTransition_ok.2 h.checked]
  rcases h.gates with hv | hg
  · rw [if_pos hv, if_pos hv]
  · by_cases hv : s.planSha256 = ∅
    · rw [if_pos hv, if_pos hv]
    · rw [if_neg hv, if_neg hv, hg]
      rw [recordGateChanges_of_ok gates.nodup hg]
      rfl

/-- **A registration is refused without an event, or it passed every check.** -/
theorem register_cases (s : State) (plan : String) (gates : Dict String String)
    (recovery transition : Option Json) :
    (∃ e, s.register plan gates recovery transition = .refused e) ∨
      ∃ authority checked, Registers s plan gates recovery transition authority checked := by
  by_cases hp : plan = ""
  · exact .inl ⟨_, if_pos hp⟩
  cases hd : AutomaticRecoveryAuthority.fromMapping recovery with
  | error e => exact .inl ⟨e, by simp only [register, if_neg hp, hd]⟩
  | ok authority =>
    by_cases ha : s.authority.isSome = true ∧ s.authority ≠ some authority
    · exact .inl ⟨_, by simp only [register, if_neg hp, hd]; rw [if_pos ha]⟩
    cases hc : s.checkTransition authority plan gates transition with
    | error e => exact .inl ⟨e, by simp only [register, if_neg hp, hd, if_neg ha, hc]⟩
    | ok checked =>
      have himm : s.authority = none ∨ s.authority = some authority := by
        cases hs : s.authority with
        | none => exact .inl rfl
        | some a => exact .inr (not_not.1 fun hne => ha (by rw [hs]; exact ⟨rfl, hne⟩))
      by_cases hv : s.planSha256 = ∅
      · exact .inr ⟨authority, checked, hp, hd, himm, checkTransition_ok.1 hc, .inl hv⟩
      cases hg : s.assertGateChanges gates.items with
      | error e =>
        exact .inl ⟨e, by simp only [register, if_neg hp, hd, if_neg ha, hc, if_neg hv, hg]⟩
      | ok _ => exact .inr ⟨authority, checked, hp, hd, himm, checkTransition_ok.1 hc, .inr hg⟩

/-! ### The states of a registration -/

/-- After the structural decision that authorizes a transition. -/
def decided (s : State) (t : PlanVersionTransition) : State :=
  { s with
    automaticRecoveryStructuralDecisions := s.automaticRecoveryStructuralDecisions + 1
    pendingPlanTransitionDecision := some t.authorizingDecision.value }

/-- After the registration that consumes it. -/
def transitioned (s : State) (authority : AutomaticRecoveryAuthority) (plan : String)
    (gates : Dict String String) (t : PlanVersionTransition) : State :=
  State.bindPlan { s.decided t with
    pendingPlanTransitionDecision := none
    consumedTransitions := s.consumedTransitions.set plan t.value
    acceptedPlanSha256 := none } plan gates authority true

/-- After everything that follows the gate changes. -/
def registrationState (s : State) (authority : AutomaticRecoveryAuthority) (plan : String)
    (gates : Dict String String) : Option PlanVersionTransition → State
  | some t => (s.transitioned authority plan gates t).carryOver t.budgetCarryover.items
  | none =>
    if s.changedPlan plan then State.bindPlan { s with acceptedPlanSha256 := none } plan gates
      authority true
    else s

theorem nonempty_of_changedPlan (h : s.changedPlan plan = true) :
    s.planSha256.Nonempty := by
  simp only [changedPlan, Bool.and_eq_true, decide_eq_true_eq] at h
  exact h.1

theorem bindsTransition_iff {t : PlanVersionTransition} : s.bindsTransition t plan gates = true ↔
      some t.predecessorPlanSha256 = s.activePlanSha256 ∧ t.successorPlanSha256 = plan ∧
        t.nodeCorrespondence.toFinset = gates.keySet ∧
        t.nodeCorrespondence.toFinset ⊆ s.gates.keySet := by
  simp [bindsTransition]

theorem Checked.changeGates (h : Checked s authority plan gates transition checked)
    (items : List (String × String)) :
    Checked (s.changeGates items) authority plan gates transition checked := by
  have hcontrol := control_changeGates s items
  have hchanged := changedPlan_congr hcontrol plan
  cases h with
  | transition changed valid binds allowance =>
    refine .transition (hchanged.trans changed) valid ?_ ?_
    · obtain ⟨ha, hp, hn, hg⟩ := bindsTransition_iff.1 binds
      refine bindsTransition_iff.2 ⟨?_, hp, hn, fun id hid => ?_⟩
      · exact ha.trans (congrArg Control.activePlanSha256 hcontrol).symm
      · rw [Dict.mem_keySet]
        exact mem_keys_changeGates (Dict.mem_keySet.1 (hg hid))
    · rw [show (s.changeGates items).automaticRecoveryStructuralDecisions =
        s.automaticRecoveryStructuralDecisions from congrArg Control.structuralDecisions hcontrol]
      exact allowance
  | accepted changed accepted =>
    refine .accepted (hchanged.trans changed) ?_
    exact (congrArg Control.acceptedPlanSha256 hcontrol).trans accepted
  | same same => exact .same (hchanged.trans same)
  | replay same consumed =>
    refine .replay (hchanged.trans same) ?_
    rw [show (s.changeGates items).consumedTransitions = s.consumedTransitions from
      congrArg Control.consumedTransitions hcontrol]
    exact consumed

theorem apply_structuralDecision {t : PlanVersionTransition} (hr : s.Ready)
    (ha : s.authority = some authority)
    (valid : validatePlanVersionTransition t.value authority = .ok t)
    (allowance : s.automaticRecoveryStructuralDecisions < authority.maxStructuralDecisions) :
    s.apply (.structuralDecision t.authorizingDecision.value t.predecessorPlanSha256) =
      some (s.decided t) := by
  have hd := (value_of_validatePlanVersionTransition valid).2
  have hp : s.pendingPlanTransitionDecision = none := hr.noPending
  simp only [apply, structuralDecision, ha, hd]
  rw [if_neg]
  · rw [decided, ha]
  · rintro (h | h | h | h)
    · rw [t.revision] at h; cases h
    · exact h t.prior
    · omega
    · rw [hp] at h; cases h

theorem apply_registered_transition {t : PlanVersionTransition} (ha : s.authority = some authority)
    (changed : s.changedPlan plan = true)
    (valid : validatePlanVersionTransition t.value authority = .ok t)
    (binds : s.bindsTransition t plan gates = true) :
    (s.decided t).apply (.registered plan gates authority (some t.value) false) =
      some (s.transitioned authority plan gates t) := by
  have ha' : (s.decided t).authority = some authority := ha
  have hc' : (s.decided t).changedPlan plan = true := changed
  have hb' : (s.decided t).bindsTransition t plan gates = true := binds
  simp only [apply, registered, ha', hc', valid, hb']
  simp [decided, transitioned, bindPlan]

theorem apply_registered_accepted (ha : s.authority = some authority)
    (changed : s.changedPlan plan = true) (accepted : s.acceptedPlanSha256 = some plan) :
    s.apply (.registered plan gates authority none true) =
      some (State.bindPlan { s with acceptedPlanSha256 := none } plan gates authority true) := by
  simp only [apply, registered, ha, changed, accepted]
  simp

theorem Ready.transitioned {t : PlanVersionTransition} (hr : s.Ready)
    (ha : s.authority = some authority)
    (allowance : s.automaticRecoveryStructuralDecisions < authority.maxStructuralDecisions) :
    (s.transitioned authority plan gates t).Ready where
  noPending := rfl
  authorized _ := Option.some_ne_none authority
  extraLaunches := by
    have h : s.automaticRecoveryExtraLaunches ≤ _ := hr.extraLaunches
    rw [show s.control.authority = some authority from ha] at h
    exact h
  structuralDecisions := allowance

/-- **The fold accepts what a registration appends after its gate changes.** -/
theorem replay_registrationEvents (hr : s.Ready)
    (immutable : s.authority = none ∨ s.authority = some authority)
    (h : Checked s authority plan gates transition checked) :
    s.applyAll (s.registrationEvents authority plan gates checked) =
        some (s.registrationState authority plan gates checked) ∧
      (s.registrationState authority plan gates checked).Ready := by
  have hsome : s.changedPlan plan = true → s.authority = some authority := fun hc =>
    immutable.resolve_left (hr.authorized (nonempty_of_changedPlan hc))
  cases h with
  | @transition t changed valid binds allowance =>
    have ha := hsome changed
    obtain ⟨-, -, hn, -⟩ := bindsTransition_iff.1 binds
    refine ⟨?_, ?_⟩
    · refine (replay_cons_of (apply_structuralDecision hr ha valid allowance) _).trans ?_
      refine (replay_cons_of (apply_registered_transition ha changed valid binds) _).trans ?_
      refine replay_carryoverEvents rfl fun p hp => ?_
      have hkey : p.1 ∈ t.budgetCarryover.keys := List.mem_map.2 ⟨p, hp, rfl⟩
      exact Dict.mem_keySet.1 (hn ▸ List.mem_toFinset.2 ((t.sameNodes p.1).2 hkey))
    · show (State.carryOver _ _).control.Ready
      rw [control_carryOver]
      exact hr.transitioned ha allowance
  | accepted changed accepted =>
    have ha := hsome changed
    simp only [registrationEvents, registrationState, changed, if_true]
    refine ⟨replay_cons_of (apply_registered_accepted ha changed accepted) [], ?_⟩
    exact {
      noPending := hr.noPending
      authorized := fun _ => Option.some_ne_none authority
      extraLaunches := by have h := hr.extraLaunches; rwa [show s.control.authority = _ from ha] at h
      structuralDecisions := by
        have h := hr.structuralDecisions; rwa [show s.control.authority = _ from ha] at h }
  | same same =>
    simp only [registrationEvents, registrationState, same]
    exact ⟨rfl, hr⟩
  | replay same consumed =>
    simp only [registrationEvents, registrationState, same]
    exact ⟨rfl, hr⟩

/-- The state of a registration. -/
def registerState (s : State) (authority : AutomaticRecoveryAuthority) (plan : String)
    (gates : Dict String String) (checked : Option PlanVersionTransition) : State :=
  if s.planSha256 = ∅ then s.bindPlan plan gates authority false
  else (s.changeGates (s.neededChanges gates.items)).registrationState authority plan gates checked

theorem changedPlan_of_unregistered (h : s.planSha256 = ∅) (plan : String) :
    s.changedPlan plan = false := by
  simp [changedPlan, h]

theorem apply_registered_first (hv : s.planSha256 = ∅)
    (immutable : s.authority = none ∨ s.authority = some authority) :
    s.apply (.registered plan gates authority none false) =
      some (s.bindPlan plan gates authority false) := by
  simp only [apply, registered, changedPlan_of_unregistered hv]
  rcases immutable with ha | ha <;> simp [ha]

theorem registrationEvents_congr (h : t.control = s.control)
    (authority : AutomaticRecoveryAuthority) (plan : String) (gates : Dict String String)
    (checked : Option PlanVersionTransition) :
    t.registrationEvents authority plan gates checked =
      s.registrationEvents authority plan gates checked := by
  cases checked with
  | some t => rfl
  | none => simp only [registrationEvents, changedPlan_congr h]

theorem Registers.replays {recovery : Option Json} (hr : s.Ready)
    (h : Registers s plan gates recovery transition authority checked) :
    s.applyAll (s.registerEvents authority plan gates checked) =
        some (s.registerState authority plan gates checked) ∧
      (s.registerState authority plan gates checked).Ready := by
  simp only [registerEvents, registerState]
  split_ifs with hv
  · refine ⟨replay_cons_of (apply_registered_first hv h.immutable) [], ?_⟩
    exact {
      noPending := hr.noPending
      authorized := fun _ => Option.some_ne_none authority
      extraLaunches := by
        have hle := hr.extraLaunches
        rcases h.immutable with ha | ha <;> rw [show s.control.authority = _ from ha] at hle
        · exact hle.trans (Nat.zero_le _)
        · exact hle
      structuralDecisions := by
        have hle := hr.structuralDecisions
        rcases h.immutable with ha | ha <;> rw [show s.control.authority = _ from ha] at hle
        · exact hle.trans (Nat.zero_le _)
        · exact hle }
  · have hcontrol := control_changeGates s (s.neededChanges gates.items)
    have hm : (s.changeGates (s.neededChanges gates.items)).Ready := by
      show Control.Ready _
      rw [hcontrol]
      exact hr
    have himm : (s.changeGates (s.neededChanges gates.items)).authority = none ∨
        (s.changeGates (s.neededChanges gates.items)).authority = some authority := by
      rw [show (s.changeGates (s.neededChanges gates.items)).authority = s.authority from
        congrArg Control.authority hcontrol]
      exact h.immutable
    rw [applyAll, replay_append_of (replay_changeEvents s _), ← registrationEvents_congr hcontrol]
    exact replay_registrationEvents hm himm (h.checked.changeGates _)

end State

end HarnessLabs.Budget
