import HarnessLabs.Budget.Bounds

/-!
# Crashes between two appends

An operation that appends several events can stop between two of them. The caller then issues it
again, on the state that the fold gives to what was written. Some cuts are harmless: the second
call appends what the first did not, or nothing is missing. After a recovery decision or a
structural decision, and after a transition's registration with resets still to come, the second
call cannot make up for the first.

* `Accounting` — what the fold accounts for, reservation ids aside.
* `CutSafe` — the harmless cuts.
* `reissue_iff_cutSafe` — **issuing an interrupted operation again restores the accounting exactly
  after a harmless cut.**
* `crash_agreement` — the same over whole runs.
-/

namespace HarnessLabs.Budget

open EventLog List

/-- What a ledger accounts for. Reservations are listed without the ids drawn for them, and a node
without an account has an empty one. -/
@[ext] structure Accounting where
  planSha256 : Finset String
  activePlanSha256 : Option String
  gates : Dict String String
  nodes : String → NodeAccount
  reservations : List Reservation
  findingKeys : String → ℕ
  acceptedPlanSha256 : Option String
  importedInvocations : Finset String
  authority : Option AutomaticRecoveryAuthority
  automaticRecoveryExtraLaunches : ℕ
  automaticRecoveryStructuralDecisions : ℕ
  pendingPlanTransitionDecision : Option Json
  consumedTransitions : Dict String Json
  obligationTransfers : List (String × String)

def State.accounting (s : State) : Accounting where
  planSha256 := s.planSha256
  activePlanSha256 := s.activePlanSha256
  gates := s.gates
  nodes := s.node
  reservations := s.reservations.values
  findingKeys := s.findingKeys
  acceptedPlanSha256 := s.acceptedPlanSha256
  importedInvocations := s.importedInvocations
  authority := s.authority
  automaticRecoveryExtraLaunches := s.automaticRecoveryExtraLaunches
  automaticRecoveryStructuralDecisions := s.automaticRecoveryStructuralDecisions
  pendingPlanTransitionDecision := s.pendingPlanTransitionDecision
  consumedTransitions := s.consumedTransitions
  obligationTransfers := s.obligationTransfers

/-- The node's accounting is as a reset leaves it. -/
structure NodeAccount.Fresh (n : NodeAccount) : Prop where
  charges : n.charges = .renewed 0
  evidenceCounters : n.evidenceCounters = fun _ => 0
  attemptCounters : n.attemptCounters = {}

/-! ## Reissuing -/

/-- The id that a reservation draws. -/
def Operation.reservationId? : Operation → Option String
  | .reserve _ _ _ _ _ _ rid => some rid
  | _ => none

/-- The same call again: a reservation draws another id. -/
def Operation.reissued (rid : String) : Operation → Operation
  | .reserve id gate keys c reason attempt _ => .reserve id gate keys c reason attempt rid
  | op => op

namespace State

/-- The ids that the operation draws are new. -/
def Fresh (s : State) (op : Operation) : Prop :=
  ∀ rid, op.reservationId? = some rid → rid ∉ s.reservations.keys

/-- **After a cut behind `k` events, issuing the operation again succeeds and gives the accounting
of the uninterrupted call.** The second call draws the reservation id `rid`. -/
def ReissueAgrees (config : BudgetConfig) (s : State) (op : Operation) (k : ℕ) (rid : String) :
    Prop :=
  ∃ t u v, s.applyAll ((s.appends config op).take k) = some t ∧
    (t.run config (op.reissued rid)).result = .ok () ∧
    t.applyAll (t.appends config (op.reissued rid)) = some u ∧
    s.applyAll (s.appends config op) = some v ∧ u.accounting = v.accounting

/-- The carry-overs of the transition that a registration would apply. -/
def transitionItems (s : State) (plan : String) (transition : Option Json) :
    Option (List (String × Carryover)) :=
  if s.changedPlan plan then
    (transition.bind fun value =>
      (validatePlanVersionTransition value (s.authority.getD .none)).toOption).map
      fun t => t.budgetCarryover.items
  else none

/-- **The harmless cuts.** A cut of a registration with a transition lies before its structural
decision, or behind its registration with no reset of a node in use still to come; a cut of a
recovery decision lies before it, or the decision is `resume`; every other cut is harmless. -/
def CutSafe (s : State) (op : Operation) (k : ℕ) : Prop :=
  match op with
  | .register plan gates _ transition =>
    ∀ items, s.transitionItems plan transition = some items →
      k ≤ (s.neededChanges gates.items).length ∨
      (s.neededChanges gates.items).length + 2 ≤ k ∧
        ∀ p ∈ items.drop (k - ((s.neededChanges gates.items).length + 2)),
          p.2 = .reset → (s.node p.1).Fresh
  | .applyRecoveryDecision decision _ => k = 0 ∨ decision.get? "action" = some (.str "resume")
  | _ => True

variable {config : BudgetConfig} {s t : State} {op : Operation} {k : ℕ} {rid id gate plan : String}
  {keys : List String} {c : Classification} {authority : AutomaticRecoveryAuthority}
  {d : RecoveryDecision} {items : List (String × String)} {gates : Dict String String}
  {recovery transition : Option Json}

/-- A second call that appends the rest restores the very state. -/
theorem agrees_of_drop (hr : s.Ready) (hop : op.reissued rid = op)
    (ht : s.applyAll ((s.appends config op).take k) = some t)
    (hok : (t.run config op).result = .ok ())
    (hdrop : t.appends config op = (s.appends config op).drop k) :
    ReissueAgrees config s op k rid := by
  obtain ⟨v, hv, -⟩ := replays_of_run hr config op
  refine ⟨t, v, v, ht, by rw [hop]; exact hok, ?_, hv, rfl⟩
  rw [hop, hdrop]
  obtain ⟨t', ht', hrest⟩ := replay_take hv k
  obtain rfl : t' = t := Option.some.inj (ht'.symm.trans ht)
  exact hrest

/-- A cut before the first event leaves nothing behind. -/
theorem agrees_of_zero (hr : s.Ready) (hop : op.reissued rid = op)
    (hok : (s.run config op).result = .ok ()) :
    ReissueAgrees config s op 0 rid :=
  agrees_of_drop hr hop rfl hok rfl

/-! ## Reservations -/

theorem accounting_launchEvent {u : State} {rid' : String} {attempt : Option String}
    (hrid : rid ∉ s.reservations.keys) (hrid' : rid' ∉ s.reservations.keys)
    (ht : s.apply (launchEvent rid id gate keys c attempt) = some t)
    (hu : s.apply (launchEvent rid' id gate keys c attempt) = some u) :
    t.accounting = u.accounting := by
  simp only [launchEvent, apply, reserved, Option.getD_some, ne_eq, not_true_eq_false,
    if_false, Option.some.injEq] at ht hu
  subst ht hu
  simp only [accounting, Accounting.mk.injEq, and_true, true_and]
  refine ⟨rfl, ?_⟩
  exact (Dict.values_set_of_notMem hrid _).trans (Dict.values_set_of_notMem hrid' _).symm

theorem Reserves.gateChanged (h : Reserves s config id gate keys c) :
    Reserves (s.gateChanged id gate) config id gate keys c := by
  refine ⟨Dict.mem_keys_set.2 (.inl rfl), .inl ?_, ?_, ?_⟩
  · rw [get?_gates_gateChanged, if_pos rfl]
  · rw [node_gateChanged, if_pos rfl]
    exact h.unblocked
  · have hcap := h.capacity
    simp only [assertCapacity, node_gateChanged, if_true] at hcap ⊢
    exact hcap

/-- **An interrupted reservation**: the gate change is recorded once. -/
theorem agrees_reserve {reason attempt : Option String} {rid' : String}
    (hrid : rid ∉ s.reservations.keys) (hrid' : rid' ∉ s.reservations.keys)
    (hok : (s.run config (.reserve id gate keys c reason attempt rid)).result = .ok ())
    (hk : k < (s.appends config (.reserve id gate keys c reason attempt rid)).length) :
    ReissueAgrees config s (.reserve id gate keys c reason attempt rid) k rid' := by
  rcases reserve_cases s config id gate keys c reason attempt rid with
    ⟨e, he⟩ | ⟨e, -, -, he⟩ | ⟨keys', hkeys, ha, h⟩
  · rw [run, he] at hok; cases hok
  · rw [run, he] at hok; cases hok
  have hevents : ∀ rid, s.appends config (.reserve id gate keys c reason attempt rid) =
      s.launchGate id gate ++ [launchEvent rid id gate keys' c attempt] := fun rid => by
    rw [appends, run, h.reserve_eq hkeys ha]
    rfl
  have hagain : (s.run config (.reserve id gate keys c reason attempt rid')).result = .ok () := by
    rw [run, h.reserve_eq hkeys ha]
    rfl
  by_cases hg : s.gates.get? id = some gate
  · rw [hevents, launchGate, if_pos hg] at hk
    obtain rfl : k = 0 := by simpa using hk
    obtain ⟨v, hv, -⟩ := apply_launchEvent s rid id gate keys' c attempt
    obtain ⟨u, hu, -⟩ := apply_launchEvent s rid' id gate keys' c attempt
    refine ⟨s, u, v, rfl, hagain, ?_, ?_, accounting_launchEvent hrid' hrid hu hv⟩
    · rw [Operation.reissued, hevents, launchGate, if_pos hg]
      exact replay_cons_of hu []
    · rw [hevents, launchGate, if_pos hg]
      exact replay_cons_of hv []
  · -- The launch follows the gate change, which is recorded by the first call or by the second.
    obtain ⟨v, hv, -⟩ := apply_launchEvent (s.gateChanged id gate) rid id gate keys' c attempt
    obtain ⟨u, hu, -⟩ := apply_launchEvent (s.gateChanged id gate) rid' id gate keys' c attempt
    have hgate : s.apply (.gateChanged id gate) = some (s.gateChanged id gate) := rfl
    have hfull : s.applyAll (s.appends config (.reserve id gate keys c reason attempt rid)) =
        some v := by
      rw [hevents, launchGate, if_neg hg]
      exact (replay_cons_of hgate _).trans (replay_cons_of hv [])
    have heq := accounting_launchEvent (s := s.gateChanged id gate) hrid' hrid hu hv
    rw [hevents, launchGate, if_neg hg] at hk
    obtain rfl | rfl | htwo : k = 0 ∨ k = 1 ∨ 2 ≤ k := by omega
    · refine ⟨s, u, v, rfl, hagain, ?_, hfull, heq⟩
      rw [Operation.reissued, hevents, launchGate, if_neg hg]
      exact (replay_cons_of hgate _).trans (replay_cons_of hu [])
    · have hset : (s.gateChanged id gate).gates.get? id = some gate := by
        rw [get?_gates_gateChanged, if_pos rfl]
      refine ⟨s.gateChanged id gate, u, v, ?_, ?_, ?_, hfull, heq⟩
      · rw [hevents, launchGate, if_neg hg]
        rfl
      · rw [Operation.reissued, run, h.gateChanged.reserve_eq hkeys ha]
        rfl
      · rw [Operation.reissued, appends, run, h.gateChanged.reserve_eq hkeys ha, launchGate,
          if_pos hset]
        exact replay_cons_of hu []
    · simp only [cons_append, nil_append, length_cons, length_nil] at hk
      omega

/-! ## Lists of events -/

theorem agrees_abandonEvents {p : Reservation → Bool} {disposition : Disposition} {reason : String}
    (hr : s.Ready) (hreason : reason ≠ "") (hop : ∀ rid, op.reissued rid = op)
    (hrun : ∀ t : State, t.run config op =
      .accepted (abandonEvents (t.liveReservations p) disposition reason)) (k : ℕ) (rid : String) :
    ReissueAgrees config s op k rid := by
  obtain ⟨rs, ht, hdrop⟩ := replay_abandonEvents (s := s) (p := p) hreason disposition k
  refine agrees_of_drop hr (hop rid) (t := s.withReservations rs) ?_ ?_ ?_
  · rw [appends, hrun]
    exact ht
  · rw [hrun]
    rfl
  · rw [appends, appends, hrun, hrun]
    simp only [Outcome.accepted_appended, abandonEvents, hdrop, map_drop]

theorem agrees_import {evidence : Option VerificationEvidence} (hr : s.Ready)
    (hok : (s.run config (.importChildEvidence id evidence)).result = .ok ()) (k : ℕ) (rid : String) :
    ReissueAgrees config s (.importChildEvidence id evidence) k rid := by
  cases evidence with
  | none =>
    have hrun : s.appends config (.importChildEvidence id none) = [] := rfl
    refine agrees_of_drop hr rfl (t := s) ?_ hok ?_
    · rw [hrun, take_nil]
      rfl
    · rw [hrun, drop_nil]
  | some e =>
    cases hfacts : childFacts e with
    | error m =>
      simp only [run, importChildEvidence, hfacts] at hok
      cases hok
    | ok facts =>
      have hrun : ∀ t : State, t.run config (.importChildEvidence id (some e)) =
          .accepted (importEvents id t.importedInvocations facts) := fun t => by
        simp only [run, importChildEvidence, hfacts]
      obtain ⟨t, ht, -, -, hdrop⟩ := replay_importEvents (childFacts_recordable hfacts) id k
      refine agrees_of_drop hr rfl (t := t) ?_ ?_ ?_
      · rw [appends, hrun]
        exact ht
      · rw [hrun]
        rfl
      · rw [appends, appends, hrun, hrun]
        exact hdrop

/-! ## Recovery decisions -/

theorem isRevision_of_valid {value : Json}
    (h : validateRecoveryDecision value authority false = .ok d) :
    d.action.IsRevision = false := by
  unfold validateRecoveryDecision at h
  split at h
  · cases h
  · split at h
    · split at h
      · cases h
      · split at h
        · rename_i p hp
          cases h
          exact (action_of_validatePayload hp).2 rfl
        · cases h
    · cases h

theorem resume_iff {value : Json} {allow : Bool}
    (h : validateRecoveryDecision value authority allow = .ok d) :
    value.get? "action" = some (.str "resume") ↔ d.payload = .resume := by
  have haction : ∃ text, value.get? "action" = some (.str text) ∧
      Action.ofString? text = some d.action := by
    unfold validateRecoveryDecision at h
    split at h
    · cases h
    · split at h
      · rename_i action target prior payload hact _ _ _
        split at h
        · cases h
        · split at h
          · rename_i p hp
            cases h
            obtain ⟨text, htext, hof⟩ := Option.bind_eq_some_iff.1 hact
            obtain ⟨j, hj, hstr⟩ := Option.bind_eq_some_iff.1 htext
            cases j <;> cases hstr
            refine ⟨text, hj, hof.trans ?_⟩
            rw [RecoveryDecision.action, (action_of_validatePayload hp).1]
          · cases h
      · cases h
  obtain ⟨text, hget, hof⟩ := haction
  rw [hget]
  constructor
  · intro heq
    cases heq
    have hresume : d.payload.action = .resume := (Option.some.inj hof).symm
    cases hp : d.payload with
    | resume => rfl
    | revision a =>
      rw [hp] at hresume
      have ha := a.2
      rw [show a.1 = .resume from hresume] at ha
      cases ha
    | extendBudget launches => rw [hp] at hresume; cases hresume
    | transferOwnership receiving => rw [hp] at hresume; cases hresume
    | ratifyGateChange gate c => rw [hp] at hresume; cases hresume
  · intro hp
    rw [RecoveryDecision.action, hp] at hof
    unfold Action.ofString? at hof
    split at hof <;> first | rfl | cases hof

/-- What a decision draws; only `resume` draws nothing. -/
theorem draws_nothing_iff (d : RecoveryDecision) (hrev : d.action.IsRevision = false) :
    (d.extraLaunches = 0 ∧ d.structuralDecisions = 0) ↔ d.payload = .resume := by
  cases hp : d.payload with
  | resume => simp [RecoveryDecision.extraLaunches, RecoveryDecision.structuralDecisions,
      RecoveryDecision.action, hp, DecisionPayload.action, Action.IsStructural, Action.IsRevision]
  | extendBudget launches => simp [RecoveryDecision.extraLaunches, hp]
  | transferOwnership receiving => simp [RecoveryDecision.structuralDecisions,
      RecoveryDecision.action, hp, DecisionPayload.action, Action.IsStructural]
  | ratifyGateChange gate c => simp [RecoveryDecision.structuralDecisions,
      RecoveryDecision.action, hp, DecisionPayload.action, Action.IsStructural]
  | revision a =>
    rw [RecoveryDecision.action, hp] at hrev
    exact absurd hrev (by rw [show DecisionPayload.action _ = a.1 from rfl, a.2]; exact (by simp))

theorem charged_of_draws_nothing (h : d.extraLaunches = 0 ∧ d.structuralDecisions = 0) :
    s.charged d = s := by
  rw [charged, h.1, h.2]
  rfl

/-- **An interrupted recovery decision** can be issued again exactly when it draws nothing. -/
theorem agrees_decision_iff {decision : Json} {prior : String} (hr : s.Ready)
    (hok : (s.run config (.applyRecoveryDecision decision prior)).result = .ok ())
    (hk : k < (s.appends config (.applyRecoveryDecision decision prior)).length) (rid : String) :
    ReissueAgrees config s (.applyRecoveryDecision decision prior) k rid ↔
      CutSafe s (.applyRecoveryDecision decision prior) k := by
  rcases applyRecoveryDecision_cases s decision prior with ⟨e, he⟩ | ⟨a, d, e, h, he⟩
  · rw [run, he] at hok; cases hok
  have hevents : s.appends config (.applyRecoveryDecision decision prior) =
      [.recoveryDecision decision prior, e] := by rw [appends, run, he]; rfl
  rw [hevents] at hk
  obtain rfl | htwo | rfl : k = 0 ∨ 2 ≤ k ∨ k = 1 := by omega
  · exact ⟨fun _ => .inl rfl, fun _ => agrees_of_zero hr rfl hok⟩
  · simp only [length_cons, length_nil] at hk
    omega
  · have hcut : CutSafe s (.applyRecoveryDecision decision prior) 1 ↔ d.payload = .resume := by
      simp only [CutSafe, Nat.one_ne_zero, false_or, resume_iff h.valid]
    rw [hcut, ← draws_nothing_iff d (isRevision_of_valid h.valid)]
    have hfirst : s.applyAll ((s.appends config (.applyRecoveryDecision decision prior)).take 1) =
        some (s.charged d) := by
      rw [hevents]
      exact replay_cons_of (h.apply_recoveryDecision hr).1 []
    constructor
    · rintro ⟨t, u, v, ht, hagain, hu, hv, heq⟩
      obtain rfl : s.charged d = t := Option.some.inj (hfirst.symm.trans ht)
      change ((s.charged d).run config (.applyRecoveryDecision decision prior)).result = _ at hagain
      change (s.charged d).applyAll
        ((s.charged d).appends config (.applyRecoveryDecision decision prior)) = _ at hu
      rcases applyRecoveryDecision_cases (s.charged d) decision prior with
        ⟨m, hm⟩ | ⟨a', d', e', h', hm⟩
      · rw [run, hm] at hagain; cases hagain
      obtain rfl : a' = a := Option.some.inj (h'.registered.symm.trans h.registered)
      obtain rfl : d' = d := by
        have hvalid := h'.valid
        rw [h.valid] at hvalid
        cases hvalid
        rfl
      -- Both calls charge the decision, so the accounts differ by what it draws.
      obtain ⟨u', hu', huc, -⟩ := h'.replays (h.apply_recoveryDecision hr).2
      obtain ⟨v', hv', hvc, -⟩ := h.replays hr
      rw [appends, run, hm] at hu
      rw [hevents] at hv
      obtain rfl : u' = u := Option.some.inj (hu'.symm.trans hu)
      obtain rfl : v' = v := Option.some.inj (hv'.symm.trans hv)
      have hx : u'.automaticRecoveryExtraLaunches = v'.automaticRecoveryExtraLaunches :=
        congrArg Accounting.automaticRecoveryExtraLaunches heq
      have hs : u'.automaticRecoveryStructuralDecisions = v'.automaticRecoveryStructuralDecisions :=
        congrArg Accounting.automaticRecoveryStructuralDecisions heq
      have hux : u'.automaticRecoveryExtraLaunches = _ := congrArg Control.extraLaunches huc
      have hvx : v'.automaticRecoveryExtraLaunches = _ := congrArg Control.extraLaunches hvc
      have hus : u'.automaticRecoveryStructuralDecisions = _ :=
        congrArg Control.structuralDecisions huc
      have hvs : v'.automaticRecoveryStructuralDecisions = _ :=
        congrArg Control.structuralDecisions hvc
      simp only [control, charged] at hux hvx hus hvs
      omega
    · intro hzero
      have hsame := charged_of_draws_nothing (s := s) hzero
      rw [hsame] at hfirst
      obtain ⟨v, hv, -⟩ := replays_of_run hr config (.applyRecoveryDecision decision prior)
      exact ⟨s, v, v, hfirst, hok, hv, hv, rfl⟩

/-! ## Registrations -/

/-- Recording the first needed change leaves the others to record. -/
theorem neededChanges_head {rest : List (String × String)} (hn : (items.map Prod.fst).Nodup)
    (h : s.neededChanges items = (id, gate) :: rest) :
    (s.gateChanged id gate).neededChanges items = rest ∧ (id, gate) ∈ items := by
  have hneeded : (id, gate) ∈ s.neededChanges items := by
    rw [h]
    exact mem_cons_self
  have hmem : (id, gate) ∈ items := (mem_filter.1 hneeded).1
  have hnodup : (((id, gate) :: rest).map Prod.fst).Nodup := by
    rw [← h]
    exact (List.Sublist.map Prod.fst filter_sublist).nodup hn
  have hfilter : (s.gateChanged id gate).neededChanges items =
      (s.neededChanges items).filter fun p => p.1 ≠ id := by
    rw [neededChanges, neededChanges, filter_filter]
    refine filter_congr fun p hp => ?_
    by_cases hid : p.1 = id
    · have hp' : p = (id, gate) := inj_on_of_nodup_map hn hp hmem hid
      simp [hp']
    · simp [hid]
  refine ⟨?_, hmem⟩
  rw [hfilter, h, filter_cons_of_neg (by simp)]
  refine filter_eq_self.2 fun q hq => decide_eq_true fun he => ?_
  exact (nodup_cons.1 hnodup).1 (mem_map.2 ⟨q, hq, he⟩)

theorem assertGateChanges_recorded (hn : (items.map Prod.fst).Nodup) (hmem : (id, gate) ∈ items)
    (h : s.assertGateChanges items = .ok ()) :
    (s.gateChanged id gate).assertGateChanges items = .ok () := by
  rw [assertGateChanges_ok] at h ⊢
  intro p hp
  rw [get?_gates_gateChanged, node_gateChanged]
  by_cases hid : p.1 = id
  · have hp' : p = (id, gate) := inj_on_of_nodup_map hn hp hmem hid
    exact .inl (by rw [hp', if_pos rfl])
  · rw [if_neg hid, if_neg hid]
    exact h p hp

/-- **After a prefix of the gate changes, the rest of them is needed.** -/
theorem neededChanges_prefix (hn : (items.map Prod.fst).Nodup)
    (h : s.assertGateChanges items = .ok ()) (k : ℕ) :
    (s.changeGates ((s.neededChanges items).take k)).neededChanges items =
        (s.neededChanges items).drop k ∧
      (s.changeGates ((s.neededChanges items).take k)).assertGateChanges items = .ok () := by
  induction k generalizing s with
  | zero => exact ⟨rfl, h⟩
  | succ k ih =>
    cases hl : s.neededChanges items with
    | nil => exact ⟨hl, h⟩
    | cons p rest =>
      obtain ⟨hrest, hmem⟩ := neededChanges_head hn hl
      have hnext := ih (assertGateChanges_recorded hn hmem h)
      rw [hrest] at hnext
      exact hnext

theorem Registers.changeGates {checked : Option PlanVersionTransition}
    (h : Registers s plan gates recovery transition authority checked)
    (hg : (s.changeGates items).assertGateChanges gates.items = .ok ()) :
    Registers (s.changeGates items) plan gates recovery transition authority checked where
  nonempty := h.nonempty
  declared := h.declared
  immutable := by
    rw [show (s.changeGates items).authority = s.authority from
      congrArg Control.authority (control_changeGates s items)]
    exact h.immutable
  checked := h.checked.changeGates items
  gates := .inr hg

/-- A registration that is cut among its gate changes records the others. -/
theorem agrees_gateChanges {checked : Option PlanVersionTransition} (hr : s.Ready)
    (h : Registers s plan gates recovery transition authority checked) (hv : s.planSha256 ≠ ∅)
    (hk : k ≤ (s.neededChanges gates.items).length) (rid : String) :
    ReissueAgrees config s (.register plan gates recovery transition) k rid := by
  obtain ⟨hneeded, hassert⟩ := neededChanges_prefix gates.nodup (h.gates.resolve_left hv) k
  have hcontrol := control_changeGates s ((s.neededChanges gates.items).take k)
  have h' := h.changeGates hassert
  have hv' : (s.changeGates ((s.neededChanges gates.items).take k)).planSha256 ≠ ∅ := by
    rw [show (s.changeGates _).planSha256 = s.planSha256 from
      congrArg Control.planSha256 hcontrol]
    exact hv
  have hle : k ≤ (changeEvents (s.neededChanges gates.items)).length := by
    rw [changeEvents, length_map]
    exact hk
  refine agrees_of_drop hr rfl
    (t := s.changeGates ((s.neededChanges gates.items).take k)) ?_ ?_ ?_
  · rw [appends, run, h.register_eq, Outcome.accepted_appended, registerEvents, if_neg hv,
      take_append_of_le_length hle, changeEvents, ← map_take]
    exact replay_changeEvents s _
  · rw [run, h'.register_eq]
    rfl
  · rw [appends, appends, run, run, h.register_eq, h'.register_eq, Outcome.accepted_appended,
      Outcome.accepted_appended, registerEvents, registerEvents, if_neg hv, if_neg hv', hneeded,
      drop_append_of_le_length hle, registrationEvents_congr hcontrol, changeEvents,
      changeEvents, map_drop]

/-! ### Carry-overs -/

theorem node_resetNodeAccounting_of_ne {j : String} (h : j ≠ id) :
    (s.resetNodeAccounting id).node j = s.node j := by
  rw [resetNodeAccounting, node_setNode, if_neg h]
  exact (node_setNode s id j _).trans (if_neg h)

theorem fresh_resetNodeAccounting (s : State) (id : String) :
    ((s.resetNodeAccounting id).node id).Fresh where
  charges := by
    have h := congrFun (charges_resetNodeAccounting s id) id
    rw [Function.update_self] at h
    exact h
  evidenceCounters := by
    rw [resetNodeAccounting, node_setNode, if_pos rfl]
    exact congrArg NodeAccount.evidenceCounters ((node_setNode s id id _).trans (if_pos rfl))
  attemptCounters := by
    rw [resetNodeAccounting, node_setNode, if_pos rfl]
    exact congrArg NodeAccount.attemptCounters ((node_setNode s id id _).trans (if_pos rfl))

/-- Resetting a node that has nothing to reset changes no account. -/
theorem accounting_resetNodeAccounting (h : (s.node id).Fresh) :
    (s.resetNodeAccounting id).accounting = s.accounting := by
  have hzero := congrArg Charges.findingKeys h.charges
  have hnodes : (s.resetNodeAccounting id).node = s.node := by
    funext j
    by_cases hj : j = id
    · subst hj
      have hl := congrArg Charges.launches h.charges
      have hx := congrArg Charges.extra h.charges
      have hc := congrArg Charges.counters h.charges
      rw [resetNodeAccounting, node_setNode, if_pos rfl,
        show (s.resetCharges j).node j = _ from (node_setNode s j j _).trans (if_pos rfl)]
      ext1
      · exact hl.symm
      · exact hx.symm
      · exact hc.symm
      · exact h.evidenceCounters.symm
      · exact h.attemptCounters.symm
      · exact hzero.symm
      · rfl
      · rfl
      · rfl
    · exact node_resetNodeAccounting_of_ne hj
  have hfindings : (s.resetNodeAccounting id).findingKeys = s.findingKeys := by
    funext k
    have hk : (s.node id).findingKeys k = 0 := congrFun hzero k
    show s.findingKeys k - (s.node id).findingKeys k = s.findingKeys k
    rw [hk, Nat.sub_zero]
  simp only [accounting, Accounting.mk.injEq]
  exact ⟨rfl, rfl, rfl, hnodes, rfl, hfindings, rfl, rfl, rfl, rfl, rfl, rfl, rfl, rfl⟩

theorem carryOver_append (s : State) (as bs : List (String × Carryover)) :
    s.carryOver (as ++ bs) = (s.carryOver as).carryOver bs :=
  foldl_append

theorem node_carryOver_of_notMem {items : List (String × Carryover)} {j : String}
    (h : j ∉ items.map Prod.fst) : (s.carryOver items).node j = s.node j := by
  induction items generalizing s with
  | nil => rfl
  | cons p items ih =>
    obtain ⟨id, c⟩ := p
    simp only [map_cons, mem_cons, not_or] at h
    refine (ih h.2).trans ?_
    cases c with
    | full => rfl
    | reset => exact node_resetNodeAccounting_of_ne h.1

theorem fresh_carryOver {items : List (String × Carryover)} (hn : (items.map Prod.fst).Nodup)
    (h : (id, Carryover.reset) ∈ items) :
    ((s.carryOver items).node id).Fresh := by
  induction items generalizing s with
  | nil => cases h
  | cons p items ih =>
    obtain ⟨hp, hn⟩ := nodup_cons.1 hn
    rcases mem_cons.1 h with rfl | h
    · have hrest := node_carryOver_of_notMem (s := s.resetNodeAccounting id) hp
      show ((State.carryOver (s.resetNodeAccounting id) items).node id).Fresh
      rw [hrest]
      exact fresh_resetNodeAccounting s id
    · exact ih hn h

/-- **Carry-overs change no account exactly when the nodes they reset have nothing to reset.** -/
theorem accounting_carryOver_iff {items : List (String × Carryover)}
    (hn : (items.map Prod.fst).Nodup) : (s.carryOver items).accounting = s.accounting ↔
      ∀ p ∈ items, p.2 = .reset → (s.node p.1).Fresh := by
  constructor
  · rintro h ⟨id, c⟩ hp rfl
    have hnode : (s.carryOver items).node id = s.node id :=
      congrFun (congrArg Accounting.nodes h) id
    rw [← hnode]
    exact fresh_carryOver hn hp
  · intro h
    induction items generalizing s with
    | nil => rfl
    | cons p items ih =>
      obtain ⟨id, c⟩ := p
      obtain ⟨-, hn⟩ := nodup_cons.1 hn
      obtain ⟨hhead, hrest⟩ := forall_mem_cons.1 h
      have hstep : (s.carryNode id c).accounting = s.accounting := by
        cases c with
        | full => rfl
        | reset => exact accounting_resetNodeAccounting (hhead rfl)
      refine (ih hn fun p hp hreset => ?_).trans hstep
      rw [show (s.carryNode id c).node p.1 = s.node p.1 from
        congrFun (congrArg Accounting.nodes hstep) p.1]
      exact hrest p hp hreset

/-! ### Transitions -/

section Transition

variable {config : BudgetConfig} {s : State} {plan : String} {gates : Dict String String}
  {recovery : Option Json} {authority : AutomaticRecoveryAuthority} {t : PlanVersionTransition}

theorem Checked.of_transition {checked : Option PlanVersionTransition} {value : Json}
    (h : Checked s authority plan gates (some value) checked) (hc : s.changedPlan plan = true) :
    ∃ t, checked = some t ∧ t.value = value := by
  cases h with
  | transition => exact ⟨_, rfl, rfl⟩
  | replay same => rw [hc] at same; cases same

theorem Checked.transition_checks {transition : Option Json}
    (h : Checked s authority plan gates transition (some t)) :
    transition = some t.value ∧ s.changedPlan plan = true ∧
      validatePlanVersionTransition t.value authority = .ok t ∧
      s.bindsTransition t plan gates = true ∧
      s.automaticRecoveryStructuralDecisions < authority.maxStructuralDecisions := by
  cases h with
  | transition changed valid binds allowance => exact ⟨rfl, changed, valid, binds, allowance⟩

/-- Everything that a registration with a transition appends. -/
theorem appends_transition (h : Registers s plan gates recovery (some t.value) authority (some t))
    (hv : s.planSha256 ≠ ∅) :
    s.appends config (.register plan gates recovery (some t.value)) =
      changeEvents (s.neededChanges gates.items) ++
        .structuralDecision t.authorizingDecision.value t.predecessorPlanSha256 ::
        .registered plan gates authority (some t.value) false ::
        carryoverEvents plan t.budgetCarryover.items := by
  rw [appends, run, h.register_eq, Outcome.accepted_appended, registerEvents, if_neg hv]
  rfl

/-- **A cut between the structural decision and the registration cannot be made up for**: the
second call is refused or writes a second decision, which the fold rejects. -/
theorem not_agrees_decided (h : Registers s plan gates recovery (some t.value) authority (some t))
    (hv : s.planSha256 ≠ ∅) (hc : s.changedPlan plan = true) (rid : String) :
    ¬ ReissueAgrees config s (.register plan gates recovery (some t.value))
      ((s.neededChanges gates.items).length + 1) rid := by
  rintro ⟨m, u, v, hm, hagain, hu, -, -⟩
  have hlen : (changeEvents (s.neededChanges gates.items)).length =
      (s.neededChanges gates.items).length := by rw [changeEvents, length_map]
  rw [appends_transition h hv, ← hlen, take_length_add_append] at hm
  obtain ⟨m', hm', hdecision⟩ := replay_split hm
  obtain rfl : s.changeGates (s.neededChanges gates.items) = m' :=
    Option.some.inj ((replay_changeEvents s _).symm.trans hm')
  obtain ⟨w, hw, hnil⟩ := Option.bind_eq_some_iff.1 hdecision
  cases hnil
  obtain ⟨a, d, -, -, -, -, hmeq⟩ := structuralDecision_cases hw
  have hpending : m.pendingPlanTransitionDecision = some t.authorizingDecision.value := by rw [hmeq]
  have hchanged : m.changedPlan plan = true := by
    rw [hmeq]
    exact (changedPlan_congr (control_changeGates s _) plan).trans hc
  change (m.run config (.register plan gates recovery (some t.value))).result = _ at hagain
  change m.applyAll (m.appends config (.register plan gates recovery (some t.value))) = _ at hu
  rcases register_cases m plan gates recovery (some t.value) with ⟨e, he⟩ | ⟨a', checked, h'⟩
  · rw [run, he] at hagain; cases hagain
  obtain ⟨t', rfl, -⟩ := h'.checked.of_transition hchanged
  have hvm : m.planSha256 ≠ ∅ := (nonempty_of_changedPlan hchanged).ne_empty
  rw [appends, run, h'.register_eq, Outcome.accepted_appended, registerEvents, if_neg hvm] at hu
  obtain ⟨n, hn, hrest⟩ := replay_split hu
  obtain rfl : m.changeGates (m.neededChanges gates.items) = n :=
    Option.some.inj ((replay_changeEvents m _).symm.trans hn)
  obtain ⟨w', hw', -⟩ := Option.bind_eq_some_iff.1 hrest
  obtain ⟨_, _, -, -, hnone, -, -⟩ := structuralDecision_cases hw'
  have hpending' : (m.changeGates (m.neededChanges gates.items)).pendingPlanTransitionDecision =
      m.pendingPlanTransitionDecision := congrArg Control.pending (control_changeGates m _)
  rw [hpending', hpending] at hnone
  cases hnone

theorem fresh_changeGates (items : List (String × String)) (id : String) :
    ((s.changeGates items).node id).Fresh ↔ (s.node id).Fresh := by
  induction items generalizing s with
  | nil => exact Iff.rfl
  | cons p items ih =>
    refine ih.trans ?_
    rw [node_gateChanged]
    split_ifs with hid
    · rw [hid]
      exact ⟨fun h => ⟨h.charges, h.evidenceCounters, h.attemptCounters⟩,
        fun h => ⟨h.charges, h.evidenceCounters, h.attemptCounters⟩⟩
    · exact Iff.rfl

/-- The state behind the registration and the first `j` carry-overs. -/
def partlyCarried (s : State) (authority : AutomaticRecoveryAuthority) (plan : String)
    (gates : Dict String String) (t : PlanVersionTransition) (j : ℕ) : State :=
  ((s.changeGates (s.neededChanges gates.items)).transitioned authority plan gates t).carryOver
    (t.budgetCarryover.items.take j)

theorem gates_carryOver (items : List (String × Carryover)) : (s.carryOver items).gates = s.gates := by
  induction items generalizing s with
  | nil => rfl
  | cons p items ih => exact ih.trans (gates_carryNode s p.1 p.2)

theorem control_partlyCarried (j : ℕ) : (s.partlyCarried authority plan gates t j).control =
    ((s.changeGates (s.neededChanges gates.items)).transitioned authority plan gates t).control :=
  control_carryOver _ _

/-- Issued again behind its registration, the call finds its transition consumed and appends
nothing. -/
theorem register_partlyCarried
    (h : Registers s plan gates recovery (some t.value) authority (some t)) (j : ℕ) :
    (s.partlyCarried authority plan gates t j).register plan gates recovery (some t.value) =
      .accepted [] := by
  have hgates : (s.partlyCarried authority plan gates t j).gates = gates := gates_carryOver _
  have hauthority : (s.partlyCarried authority plan gates t j).authority = some authority :=
    congrArg Control.authority (control_partlyCarried j)
  have hplans : (s.partlyCarried authority plan gates t j).planSha256 = insert plan _ :=
    congrArg Control.planSha256 (control_partlyCarried j)
  have hsame : (s.partlyCarried authority plan gates t j).changedPlan plan = false := by
    rw [changedPlan, hplans]
    simp
  have hconsumed : (s.partlyCarried authority plan gates t j).consumedTransitions.get? plan =
      some t.value := by
    rw [show (s.partlyCarried authority plan gates t j).consumedTransitions = _ from
      congrArg Control.consumedTransitions (control_partlyCarried j)]
    exact Dict.get?_set_self _ _ _
  have hbound : ∀ p ∈ gates.items, (s.partlyCarried authority plan gates t j).gates.get? p.1 =
      some p.2 := fun p hp => by
    rw [hgates]
    exact Dict.get?_eq_some_iff.2 hp
  have hregisters : Registers (s.partlyCarried authority plan gates t j) plan gates recovery
      (some t.value) authority none :=
    ⟨h.nonempty, h.declared, .inr hauthority, .replay hsame hconsumed,
      .inr (assertGateChanges_ok.2 fun p hp => .inl (hbound p hp))⟩
  have hneeded : (s.partlyCarried authority plan gates t j).neededChanges gates.items = [] :=
    filter_eq_nil_iff.2 fun p hp => by simp [hbound p hp]
  have hv : (s.partlyCarried authority plan gates t j).planSha256 ≠ ∅ := by
    rw [hplans]
    exact Finset.insert_ne_empty _ _
  rw [hregisters.register_eq, registerEvents, if_neg hv, hneeded, registrationEvents, hsame]
  rfl

theorem replay_partlyCarried (hr : s.Ready)
    (h : Registers s plan gates recovery (some t.value) authority (some t))
    (hc : s.changedPlan plan = true) (j : ℕ) :
    s.applyAll (changeEvents (s.neededChanges gates.items) ++
        .structuralDecision t.authorizingDecision.value t.predecessorPlanSha256 ::
        .registered plan gates authority (some t.value) false ::
        carryoverEvents plan (t.budgetCarryover.items.take j)) =
      some (s.partlyCarried authority plan gates t j) := by
  have hcontrol := control_changeGates s (s.neededChanges gates.items)
  have hsome : s.authority = some authority :=
    h.immutable.resolve_left (hr.authorized (nonempty_of_changedPlan hc))
  have ha : (s.changeGates (s.neededChanges gates.items)).authority = some authority :=
    (congrArg Control.authority hcontrol).trans hsome
  obtain ⟨-, changed, valid, binds, allowance⟩ :=
    (h.checked.changeGates (s.neededChanges gates.items)).transition_checks
  obtain ⟨-, -, hn, -⟩ := bindsTransition_iff.1 binds
  refine (replay_append_of (replay_changeEvents s _) _).trans ?_
  refine (replay_cons_of (apply_structuralDecision (hr.of_control hcontrol) ha valid allowance)
    _).trans ?_
  refine (replay_cons_of (apply_registered_transition ha changed valid binds) _).trans ?_
  refine replay_carryoverEvents rfl fun p hp => ?_
  have hkey : p.1 ∈ t.budgetCarryover.keys :=
    mem_map.2 ⟨p, mem_of_mem_take hp, rfl⟩
  exact Dict.mem_keySet.1 (hn ▸ mem_toFinset.2 ((t.sameNodes p.1).2 hkey))

theorem take_appends_transition (config : BudgetConfig)
    (h : Registers s plan gates recovery (some t.value) authority (some t))
    (hv : s.planSha256 ≠ ∅) (j : ℕ) :
    (s.appends config (.register plan gates recovery (some t.value))).take
        ((s.neededChanges gates.items).length + 2 + j) =
      changeEvents (s.neededChanges gates.items) ++
        .structuralDecision t.authorizingDecision.value t.predecessorPlanSha256 ::
        .registered plan gates authority (some t.value) false ::
        carryoverEvents plan (t.budgetCarryover.items.take j) := by
  have hlen : (changeEvents (s.neededChanges gates.items)).length =
      (s.neededChanges gates.items).length := by rw [changeEvents, length_map]
  rw [appends_transition h hv, ← hlen, Nat.add_assoc, take_length_add_append,
    Nat.add_comm 2 j, take_succ_cons, take_succ_cons, carryoverEvents, carryoverEvents,
    map_take]

theorem transitionItems_eq (hr : s.Ready)
    (h : Registers s plan gates recovery (some t.value) authority (some t)) :
    s.transitionItems plan (some t.value) = some t.budgetCarryover.items := by
  obtain ⟨-, hc, hvalid, -, -⟩ := h.checked.transition_checks
  have ha : s.authority = some authority :=
    h.immutable.resolve_left (hr.authorized (nonempty_of_changedPlan hc))
  simp [transitionItems, hc, ha, hvalid, Except.toOption]

/-- **A cut behind the registration** is harmless exactly when no carry-over that is still to come
resets a node in use. -/
theorem agrees_carried_iff (hr : s.Ready)
    (h : Registers s plan gates recovery (some t.value) authority (some t))
    (hv : s.planSha256 ≠ ∅) (hc : s.changedPlan plan = true) (j : ℕ) (rid : String) :
    ReissueAgrees config s (.register plan gates recovery (some t.value))
        ((s.neededChanges gates.items).length + 2 + j) rid ↔
      ∀ p ∈ t.budgetCarryover.items.drop j, p.2 = .reset → (s.node p.1).Fresh := by
  have htake := take_appends_transition config h hv j
  have hcut := replay_partlyCarried hr h hc j
  rw [← htake] at hcut
  have hfull : s.applyAll (s.appends config (.register plan gates recovery (some t.value))) =
      some ((s.partlyCarried authority plan gates t j).carryOver (t.budgetCarryover.items.drop j)) := by
    have hall := replay_partlyCarried hr h hc t.budgetCarryover.items.length
    rw [take_length, ← appends_transition h hv] at hall
    rw [hall, partlyCarried, partlyCarried, take_length, ← carryOver_append,
      take_append_drop]
  have hnothing : (s.partlyCarried authority plan gates t j).run config
      (.register plan gates recovery (some t.value)) = .accepted [] := register_partlyCarried h j
  have hn : ((t.budgetCarryover.items.drop j).map Prod.fst).Nodup :=
    (List.Sublist.map Prod.fst (drop_sublist j _)).nodup t.budgetCarryover.nodup
  -- A node still to be reset is as the gate changes left it.
  have hfresh : ∀ p ∈ t.budgetCarryover.items.drop j,
      ((s.partlyCarried authority plan gates t j).node p.1).Fresh ↔ (s.node p.1).Fresh := by
    intro p hp
    have hnot : p.1 ∉ (t.budgetCarryover.items.take j).map Prod.fst := fun hmem => by
      have hdisj := t.budgetCarryover.nodup
      rw [← take_append_drop j t.budgetCarryover.items, map_append] at hdisj
      exact disjoint_of_nodup_append hdisj hmem (mem_map.2 ⟨p, hp, rfl⟩)
    rw [partlyCarried, node_carryOver_of_notMem hnot]
    exact fresh_changeGates _ _
  have hiff : (∀ p ∈ t.budgetCarryover.items.drop j, p.2 = .reset → (s.node p.1).Fresh) ↔
      ((s.partlyCarried authority plan gates t j).carryOver
        (t.budgetCarryover.items.drop j)).accounting =
        (s.partlyCarried authority plan gates t j).accounting := by
    rw [accounting_carryOver_iff hn]
    exact forall₂_congr fun p hp => imp_congr_right fun _ => (hfresh p hp).symm
  rw [hiff]
  constructor
  · rintro ⟨m, u, v, hm, -, hu, hv', heq⟩
    cases hcut.symm.trans hm
    cases hfull.symm.trans hv'
    change State.applyAll _ (appends config _ (.register plan gates recovery (some t.value))) = _ at hu
    rw [appends, hnothing] at hu
    cases hu
    exact heq.symm
  · intro heq
    refine ⟨_, s.partlyCarried authority plan gates t j, _, hcut, ?_, ?_, hfull, heq.symm⟩
    · change (run _ config (.register plan gates recovery (some t.value))).result = _
      rw [hnothing]
      rfl
    · change State.applyAll _ (appends config _ (.register plan gates recovery (some t.value))) = _
      rw [appends, hnothing]
      rfl

end Transition

/-- **An interrupted registration.** -/
theorem agrees_register_iff (hr : s.Ready)
    (hok : (s.run config (.register plan gates recovery transition)).result = .ok ())
    (hk : k < (s.appends config (.register plan gates recovery transition)).length) (rid : String) :
    ReissueAgrees config s (.register plan gates recovery transition) k rid ↔
      CutSafe s (.register plan gates recovery transition) k := by
  rcases register_cases s plan gates recovery transition with ⟨e, he⟩ | ⟨authority, checked, h⟩
  · rw [run, he] at hok; cases hok
  by_cases hv : s.planSha256 = ∅
  · -- The first registration is one event.
    have hk0 : k = 0 := by
      rw [appends, run, h.register_eq, Outcome.accepted_appended, registerEvents, if_pos hv] at hk
      simpa using hk
    have hitems : s.transitionItems plan transition = none := by
      rw [transitionItems, changedPlan_of_unregistered hv]
      rfl
    rw [hk0]
    refine ⟨fun _ items h => ?_, fun _ => agrees_of_zero hr rfl hok⟩
    rw [hitems] at h
    cases h
  rw [appends, run, h.register_eq, Outcome.accepted_appended, registerEvents, if_neg hv,
    length_append, changeEvents, length_map] at hk
  cases checked with
  | none =>
    have hle : k ≤ (s.neededChanges gates.items).length := by
      simp only [registrationEvents] at hk
      split_ifs at hk <;> simp only [length_cons, length_nil] at hk <;> omega
    have hitems : s.transitionItems plan transition = none := by
      cases h.checked with
      | accepted changed => simp [transitionItems]
      | same same => simp [transitionItems, same]
      | replay same => simp [transitionItems, same]
    refine ⟨fun _ items h => ?_, fun _ => agrees_gateChanges hr h hv hle rid⟩
    rw [hitems] at h
    cases h
  | some t =>
    obtain ⟨rfl, hc, -⟩ := h.checked.transition_checks
    have hitems := transitionItems_eq hr h
    have hsafe : CutSafe s (.register plan gates recovery (some t.value)) k ↔
        k ≤ (s.neededChanges gates.items).length ∨
        (s.neededChanges gates.items).length + 2 ≤ k ∧
          ∀ p ∈ t.budgetCarryover.items.drop (k - ((s.neededChanges gates.items).length + 2)),
            p.2 = .reset → (s.node p.1).Fresh := by
      refine ⟨fun hsafe => hsafe _ hitems, fun hsafe items hitems' => ?_⟩
      cases hitems.symm.trans hitems'
      exact hsafe
    rw [hsafe]
    rcases Nat.lt_trichotomy k ((s.neededChanges gates.items).length + 1) with hlt | heq | hgt
    · have hle : k ≤ (s.neededChanges gates.items).length := by omega
      exact ⟨fun _ => .inl hle, fun _ => agrees_gateChanges hr h hv hle rid⟩
    · rw [heq]
      refine ⟨fun hagrees => absurd hagrees (not_agrees_decided h hv hc rid), fun hsafe => ?_⟩
      omega
    · obtain ⟨j, rfl⟩ := Nat.exists_eq_add_of_le hgt
      rw [show (s.neededChanges gates.items).length + 1 + 1 + j =
        (s.neededChanges gates.items).length + 2 + j from rfl, agrees_carried_iff hr h hv hc,
        Nat.add_sub_cancel_left]
      constructor
      · exact fun hfresh => .inr ⟨by omega, hfresh⟩
      · rintro (hle | ⟨-, hfresh⟩)
        · omega
        · exact hfresh

/-! ## Every operation -/

theorem length_transition_le (s : State) (rid : String) (sources : List ReservationState)
    (message : String) (e : Event) : (s.transition rid sources message e).appended.length ≤ 1 := by
  rcases transition_cases s rid sources message e with ⟨m, he⟩ | ⟨r, -, -, he⟩
  · rw [he]; exact Nat.zero_le _
  · rw [he]; exact le_rfl

/-- An operation of one event is cut only before it. -/
theorem agrees_of_short (hr : s.Ready) (hop : op.reissued rid = op)
    (hok : (s.run config op).result = .ok ()) (hk : k < (s.appends config op).length)
    (hlen : (s.appends config op).length ≤ 1) :
    ReissueAgrees config s op k rid := by
  obtain rfl : k = 0 := by omega
  exact agrees_of_zero hr hop hok

/-- **Issuing an interrupted operation again restores the accounting exactly after a harmless
cut.** -/
theorem reissue_iff_cutSafe (hr : s.Ready) (hfresh : s.Fresh op) (hrid : rid ∉ s.reservations.keys)
    (hok : (s.run config op).result = .ok ()) (hk : k < (s.appends config op).length) :
    ReissueAgrees config s op k rid ↔ CutSafe s op k := by
  cases op with
  | register plan gates recovery transition => exact agrees_register_iff hr hok hk rid
  | applyRecoveryDecision decision prior => exact agrees_decision_iff hr hok hk rid
  | reserve id gate keys c reason attempt rid' =>
    exact iff_of_true (agrees_reserve (hfresh rid' rfl) hrid hok hk) trivial
  | importChildEvidence id evidence => exact iff_of_true (agrees_import hr hok k rid) trivial
  | abandon id disposition reason attempt =>
    refine iff_of_true ?_ trivial
    by_cases hreason : reason = ""
    · simp only [run, abandon, if_pos hreason] at hok
      cases hok
    · have hrun : ∀ t : State, t.run config (.abandon id disposition reason attempt) =
          .accepted (abandonEvents (t.liveReservations fun r =>
            r.nodeId = id ∧ (attempt = none ∨ r.graphAttemptId = attempt)) disposition reason) :=
        fun t => if_neg hreason
      exact agrees_abandonEvents hr hreason (fun _ => rfl) hrun k rid
  | reconcileAttempt attempt disposition reason live =>
    refine iff_of_true ?_ trivial
    by_cases hgood : attempt ≠ "" ∧ reason ≠ "" ∧ ¬ live.any (· == "") = true
    · have hrun : ∀ t : State, t.run config (.reconcileAttempt attempt disposition reason live) =
          .accepted (abandonEvents (t.liveReservations fun r =>
            r.graphAttemptId = some attempt ∧ r.nodeId ∉ live) disposition reason) := fun t => by
        simp only [run, reconcileAttempt, if_neg hgood.1, if_neg hgood.2.1, if_neg hgood.2.2]
      exact agrees_abandonEvents hr hgood.2.1 (fun _ => rfl) hrun k rid
    · simp only [run, reconcileAttempt] at hok
      split_ifs at hok with ha hreason hlive
      · cases hok
      · cases hok
      · cases hok
      · exact absurd ⟨ha, hreason, hlive⟩ hgood
  | started rid' =>
    refine iff_of_true (agrees_of_short hr rfl hok hk ?_) trivial
    exact length_transition_le s rid' _ _ _
  | completed rid' status tokens =>
    refine iff_of_true (agrees_of_short hr rfl hok hk ?_) trivial
    exact length_transition_le s rid' _ _ _
  | extend id launches reason =>
    refine iff_of_true (agrees_of_short hr rfl hok hk ?_) trivial
    simp only [appends, run, State.extend]
    split_ifs
    · exact Nat.zero_le _
    · exact le_rfl
  | reset id reason acceptGate acceptPlan c =>
    refine iff_of_true (agrees_of_short hr rfl hok hk ?_) trivial
    simp only [appends, run, resetOp]
    split_ifs
    · exact Nat.zero_le _
    · exact le_rfl

/-! ## Runs -/

/-- The operation draws new ids, and when it is accepted it finishes or is cut harmlessly. -/
def SafeCut (config : BudgetConfig) (s : State) (op : Operation) (k : ℕ) : Prop :=
  s.Fresh op ∧ ((s.run config op).result = .ok () → k < (s.appends config op).length →
    CutSafe s op k)

theorem pending_of_replay {events : List Event}
    (he : ∀ e ∈ events, ∀ value prior, e ≠ .structuralDecision value prior)
    (h : s.pendingPlanTransitionDecision = none) (ht : s.applyAll events = some t) :
    t.pendingPlanTransitionDecision = none :=
  replay_induction (P := fun t => t.pendingPlanTransitionDecision = none)
    (fun _ e _ hmem hs happ => pending_of_apply happ (he e hmem) hs) h ht

theorem allowed_of_replay {events : List Event} (h : s.Allowed) (ht : s.applyAll events = some t) :
    t.Allowed :=
  replay_induction (P := Allowed) (fun _ _ _ _ hs happ => (hs.apply happ).1) h ht

/-- A registration that is cut harmlessly has no transition half recorded. -/
theorem pending_register (hr : s.Ready)
    (hcut : SafeCut config s (.register plan gates recovery transition) k)
    (ht : s.applyAll ((s.appends config (.register plan gates recovery transition)).take k) =
      some t) : t.pendingPlanTransitionDecision = none := by
  have hp : s.pendingPlanTransitionDecision = none := hr.noPending
  rcases Nat.lt_or_ge k (s.appends config (.register plan gates recovery transition)).length with
    hk | hk
  swap
  · obtain ⟨t', ht', hready⟩ := replays_of_run hr config (.register plan gates recovery transition)
    rw [take_of_length_le hk] at ht
    obtain rfl : t' = t := Option.some.inj (ht'.symm.trans ht)
    exact hready.noPending
  rcases register_cases s plan gates recovery transition with ⟨e, he⟩ | ⟨authority, checked, h⟩
  · rw [appends, run, he, Outcome.refused_appended, take_nil] at ht
    cases ht
    exact hp
  cases checked with
  | none =>
    refine pending_of_replay (fun e he => ?_) hp ht
    have he := mem_of_mem_take he
    rw [appends, run, h.register_eq, Outcome.accepted_appended, registerEvents] at he
    split_ifs at he with hv
    · rw [mem_singleton.1 he]
      simp
    · rcases mem_append.1 he with he | he
      · obtain ⟨p, -, rfl⟩ := mem_map.1 he
        simp
      · simp only [registrationEvents] at he
        split_ifs at he
        · rw [mem_singleton.1 he]
          simp
        · cases he
  | some v =>
    obtain ⟨rfl, hc, -⟩ := h.checked.transition_checks
    have hv : s.planSha256 ≠ ∅ := (nonempty_of_changedPlan hc).ne_empty
    have hok : (s.run config (.register plan gates recovery (some v.value))).result = .ok () := by
      rw [run, h.register_eq]
      rfl
    rcases hcut.2 hok hk _ (transitionItems_eq hr h) with hle | ⟨hge, -⟩
    · rw [appends_transition h hv, take_append_of_le_length
        (by rw [changeEvents, length_map]; exact hle)] at ht
      refine pending_of_replay (fun e he => ?_) hp ht
      obtain ⟨p, -, rfl⟩ := mem_map.1 (mem_of_mem_take he)
      simp
    · obtain ⟨j, rfl⟩ := Nat.exists_eq_add_of_le hge
      rw [take_appends_transition config h hv, replay_partlyCarried hr h hc] at ht
      cases ht
      exact congrArg Control.pending (control_partlyCarried j)

/-- A call other than a registration leaves a ledger to go on from, wherever it is cut off. -/
theorem ready_of_take (hr : s.Ready)
    (hop : ∀ plan gates recovery transition, op ≠ .register plan gates recovery transition) (k : ℕ) :
    ∃ t, s.applyAll ((s.appends config op).take k) = some t ∧ t.Ready := by
  obtain ⟨v, hv, -⟩ := replays_of_run hr config op
  obtain ⟨t, ht, -⟩ := replay_take hv k
  refine ⟨t, ht, allowed_of_replay hr.toAllowed ht, ?_⟩
  refine pending_of_replay (fun e he value prior heq => ?_) hr.noPending ht
  have hwrite := writes_of_mem_appends config s op e (mem_of_mem_take he)
  rw [heq] at hwrite
  cases op with
  | register plan gates recovery transition =>
    exact hop plan gates recovery transition rfl
  | _ => cases hwrite

/-- **A harmless cut leaves a ledger to go on from.** -/
theorem ready_of_safeCut (hr : s.Ready) (hcut : SafeCut config s op k) :
    ∃ t, s.applyAll ((s.appends config op).take k) = some t ∧ t.Ready := by
  cases op with
  | register plan gates recovery transition =>
    obtain ⟨v, hv, -⟩ := replays_of_run hr config (.register plan gates recovery transition)
    obtain ⟨t, ht, -⟩ := replay_take hv k
    exact ⟨t, ht, allowed_of_replay hr.toAllowed ht, pending_register hr hcut ht⟩
  | _ => exact ready_of_take hr (by exact nofun) k

/-- **Crash agreement.** In every run of operations that finish or are cut harmlessly, the fold
accepts the ledger and every prefix that the next accepted operation leaves; and after a cut of it,
issuing it again succeeds with the accounting of the uninterrupted call exactly when the cut is
harmless, whatever reservation id the second call draws. -/
theorem crash_agreement {config : BudgetConfig} {ledger : Ledger}
    (h : Reaches State.apply {} (State.appends config) (SafeCut config) ledger) :
    ∃ s, fold ledger = some s ∧ ∀ op, s.Fresh op → (s.run config op).result = .ok () →
      (∀ k, ∃ t, fold (ledger ++ (s.appends config op).take k) = some t) ∧
      ∀ k < (s.appends config op).length, ∀ rid, rid ∉ s.reservations.keys →
        (ReissueAgrees config s op k rid ↔ CutSafe s op k) := by
  obtain ⟨s, hs, hr⟩ := h.replays (P := Ready) ready_init
    fun s op k hr hcut => ready_of_safeCut hr hcut
  refine ⟨s, hs, fun op hfresh hok => ⟨fun k => ?_, fun k hk rid hrid => ?_⟩⟩
  · obtain ⟨v, hv, -⟩ := replays_of_run hr config op
    obtain ⟨t, ht, -⟩ := replay_take hv k
    exact ⟨t, (replay_append_of hs _).trans ht⟩
  · exact reissue_iff_cutSafe hr hfresh hrid hok hk

/-! ## A cut that ruins a lineage -/

def firstPlan : String := "aaaaaaaaaaaaaaaaaaaaaaaaaaaaaaaaaaaaaaaaaaaaaaaaaaaaaaaaaaaaaaaa"

def revisedPlan : String := "bbbbbbbbbbbbbbbbbbbbbbbbbbbbbbbbbbbbbbbbbbbbbbbbbbbbbbbbbbbbbbbb"

def revisionAuthority : Json := .obj [("protocol", .str authorityProtocol),
  ("allowed_actions", .arr [.str "revise_acceptance"]), ("max_extra_node_launches", .int 0),
  ("max_structural_decisions", .int 2)]

def revisionDecision : Json := .obj [("protocol", .str decisionProtocol),
  ("action", .str "revise_acceptance"), ("target", .str "plan_version"),
  ("expected_prior_digest", .str firstPlan), ("payload", .obj [])]

def revisionTransition : Json := .obj [("protocol", .str transitionProtocol),
  ("action", .str "revise_acceptance"), ("predecessor_plan_sha256", .str firstPlan),
  ("successor_plan_sha256", .str revisedPlan),
  ("node_correspondence", .obj [("node", .str "node")]),
  ("budget_carryover", .obj [("node", .str "full")]),
  ("authorizing_decision", revisionDecision)]

/-- The registration of a plan, and of its revision under an allowance of two decisions. -/
def firstRegistration : Operation :=
  .register firstPlan (Dict.ofList [("node", "gate")]) (some revisionAuthority) none

def revisedRegistration : Operation :=
  .register revisedPlan (Dict.ofList [("node", "gate")]) (some revisionAuthority)
    (some revisionTransition)

def registeredLedger : Ledger := State.appends .standard {} firstRegistration

theorem reaches_registeredLedger :
    Reaches State.apply {} (State.appends {}) (SafeCut {}) registeredLedger :=
  .append firstRegistration 1 .nil rfl ⟨nofun, fun _ hk => absurd hk (lt_irrefl 1)⟩

theorem crash_agreement_registeredLedger : ∃ s, fold registeredLedger = some s ∧
    ∀ op, s.Fresh op → (s.run {} op).result = .ok () →
      (∀ k, ∃ t, fold (registeredLedger ++ (s.appends {} op).take k) = some t) ∧
      ∀ k < (s.appends {} op).length, ∀ rid, rid ∉ s.reservations.keys →
        (ReissueAgrees {} s op k rid ↔ CutSafe s op k) :=
  crash_agreement reaches_registeredLedger

/-- Cut behind its structural decision and issued again, the revision is accepted once more and
leaves a ledger that the fold rejects. -/
theorem revision_cut_ruins_ledger : ∃ s, fold registeredLedger = some s ∧
    s.Fresh revisedRegistration ∧ (s.run {} revisedRegistration).result = .ok () ∧
    1 < (s.appends {} revisedRegistration).length ∧
    (∃ t, s.applyAll ((s.appends {} revisedRegistration).take 1) = some t ∧
      (t.run {} revisedRegistration).result = .ok () ∧
      t.applyAll (t.appends {} revisedRegistration) = none) ∧
    ∀ rid, ¬ ReissueAgrees {} s revisedRegistration 1 rid := by
  obtain ⟨s, hs, hok, hlen, t, ht, hagain, hnone⟩ : ∃ s, fold registeredLedger = some s ∧
      (s.run {} revisedRegistration).result = .ok () ∧
      1 < (s.appends {} revisedRegistration).length ∧
      ∃ t, s.applyAll ((s.appends {} revisedRegistration).take 1) = some t ∧
        (t.run {} revisedRegistration).result = .ok () ∧
        t.applyAll (t.appends {} revisedRegistration) = none :=
    ⟨_, rfl, rfl, by decide, _, rfl, rfl, rfl⟩
  refine ⟨s, hs, nofun, hok, hlen, ⟨t, ht, hagain, hnone⟩, fun rid => ?_⟩
  rintro ⟨t', u, v, ht', -, hu, -, -⟩
  obtain rfl : t = t' := Option.some.inj (ht.symm.trans ht')
  exact nomatch hnone.symm.trans hu

end State

end HarnessLabs.Budget
