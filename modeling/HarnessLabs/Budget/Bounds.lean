import HarnessLabs.Budget.Limits

/-!
# The bound on automatic work

Without operator relief the number of launches of a lineage is bounded in advance: a counter is
renewed only by a structural decision, and a limit is raised only by an extension, and both are
drawn from allowances that the registration fixes.

* `Allowed`, `Unrelieved` — no event overdraws an allowance, and only the operator opens an
  authorization.
* `Meter` — what covers the launches so far; one lemma for each kind of operation.
* `reservations_bounded` — **the bound.**
-/

namespace HarnessLabs.Budget

open EventLog List Option Function

/-! ## Automatic operations -/

/-- The event leaves the charges of every node alone. -/
def Event.isQuiet : Event → Bool
  | .reserved .. | .extended .. | .reset .. => false
  | e => !e.isRenewal

/-- The event uses no operator authorization and opens none. -/
def Event.isAutomatic : Event → Bool
  | .gateChanged .. | .reset .. => false
  | _ => true

/-- The nodes whose gates the event registers. -/
def Event.registers : Event → Finset String
  | .registered _ gates _ _ _ => gates.keySet
  | _ => ∅

/-- The nodes whose gates a ledger registers. -/
def registeredNodes : Ledger → Finset String
  | [] => ∅
  | e :: ledger => e.registers ∪ registeredNodes ledger

theorem registeredNodes_append (ledger events : Ledger) :
    registeredNodes (ledger ++ events) = registeredNodes ledger ∪ registeredNodes events := by
  induction ledger with
  | nil => rw [nil_append, registeredNodes, Finset.empty_union]
  | cons e ledger ih => rw [cons_append, registeredNodes, ih, registeredNodes,
      Finset.union_assoc]

namespace State

variable {s t : State} {e : Event} {id : String} {config : BudgetConfig} {events : List Event}
  {ledger : Ledger}

theorem charges_of_quiet (h : s.apply e = some t) (he : e.isQuiet = true) :
    t.charges = s.charges := by
  cases effect_of_apply h with
  | kept nodes => exact nodes
  | launched => cases he
  | extended => cases he
  | renewed id renewal =>
    unfold Event.isQuiet at he
    split at he
    · cases he
    · cases he
    · cases he
    · rw [renewal] at he; cases he
  | relieved => cases he

/-! ### Without operator relief -/

/-- No operator authorization is open. -/
structure Unrelieved (s : State) : Prop where
  gates : ∀ id, (s.node id).acceptGateChange = false
  plan : s.acceptedPlanSha256 = none

theorem Unrelieved.of_nodes (h : s.Unrelieved) (hn : t.nodes = s.nodes)
    (hp : t.acceptedPlanSha256 = s.acceptedPlanSha256 ∨ t.acceptedPlanSha256 = none) :
    t.Unrelieved where
  gates id := by rw [node, hn]; exact h.gates id
  plan := hp.elim (fun hp => hp.trans h.plan) id

theorem Unrelieved.of_setNode {n : NodeAccount} (h : s.Unrelieved) (hn : t.nodes = s.nodes.set id n)
    (ha : n.acceptGateChange = false) (hp : t.acceptedPlanSha256 = s.acceptedPlanSha256) :
    t.Unrelieved where
  gates j := by
    have hj : t.node j = if j = id then n else s.node j := by
      rw [← node_setNode]
      simp only [node, hn, setNode]
    rw [hj]
    split_ifs
    · exact ha
    · exact h.gates j
  plan := hp.trans h.plan

theorem Unrelieved.resetNodeAccounting (h : s.Unrelieved) (id : String) :
    (s.resetNodeAccounting id).Unrelieved := by
  have hcharges : (s.resetCharges id).Unrelieved := h.of_setNode rfl (h.gates id) rfl
  exact hcharges.of_setNode rfl (hcharges.gates id) rfl

/-- Only the operator opens an authorization. -/
theorem Unrelieved.apply (h : s.Unrelieved) (ht : s.apply e = some t) (he : e.isAutomatic = true) :
    t.Unrelieved := by
  cases e with
  | registered plan gates authority transition consumes =>
    obtain ⟨-, ⟨-, -, rfl⟩ | ⟨_, _, -, -, -, -, -, rfl⟩ | ⟨-, -, -, rfl⟩⟩ := registered_cases ht
    · exact h.of_nodes rfl (.inl rfl)
    · exact h.of_nodes rfl (.inr rfl)
    · exact h.of_nodes rfl (.inr rfl)
  | gateChanged id gate =>
    cases ht
    exact h.of_setNode rfl rfl rfl
  | reserved rid id gate keys c attempt counters =>
    simp only [State.apply, reserved] at ht
    split at ht
    · cases ht
    · cases ht
      exact h.of_setNode rfl (h.gates id) rfl
  | started rid =>
    obtain ⟨_, -, -, rfl⟩ := moveReservation_cases ht
    exact h.of_nodes rfl (.inl rfl)
  | completed rid status tokens =>
    obtain ⟨_, -, -, rfl⟩ := moveReservation_cases ht
    exact h.of_nodes rfl (.inl rfl)
  | abandoned rid id disposition reason attempt =>
    obtain ⟨_, -, rfl⟩ := abandoned_cases ht
    exact h.of_nodes rfl (.inl rfl)
  | evidenceImported id invocation kind c keys =>
    simp only [State.apply, evidenceImported] at ht
    split at ht
    · cases ht
    · cases ht
      exact h.of_setNode rfl (h.gates id) rfl
  | blocked id =>
    cases ht
    exact h.of_setNode rfl (h.gates id) rfl
  | extended id launches reason =>
    cases ht
    exact h.of_setNode rfl (h.gates id) rfl
  | recoveryDecision value prior =>
    obtain ⟨_, _, -, -, -, -, rfl⟩ := recoveryDecision_cases ht
    exact h.of_nodes rfl (.inl rfl)
  | structuralDecision value prior =>
    obtain ⟨_, _, -, -, -, -, rfl⟩ := structuralDecision_cases ht
    exact h.of_nodes rfl (.inl rfl)
  | resumed id =>
    simp only [State.apply] at ht
    split at ht
    · cases ht; exact h.of_setNode rfl (h.gates id) rfl
    · cases ht
  | obligationTransferred source receiving =>
    simp only [State.apply] at ht
    split at ht
    · cases ht; exact h.of_setNode rfl (h.gates receiving) rfl
    · cases ht
  | gateLineage id predecessor successor c =>
    simp only [State.apply, gateLineage] at ht
    split at ht
    · cases ht
    · have hbound : ({ s with gates := s.gates.set id successor }.setNode id { s.node id with
          acceptGateChange := false
          reverificationRequired := true }).Unrelieved := h.of_setNode rfl rfl rfl
      cases c with
      | full => cases ht; exact hbound
      | reset => cases ht; exact hbound.resetNodeAccounting id
  | transitionCarryover id c plan =>
    simp only [State.apply, transitionCarryover] at ht
    split at ht
    · cases ht
    · cases c with
      | full => cases ht; exact h
      | reset => cases ht; exact h.resetNodeAccounting id
  | reset id reason b p c => cases he

/-- Without authorized gate changes, only registrations bind new nodes. -/
theorem gates_of_apply (ht : s.apply e = some t) (he : e.isAutomatic = true) :
    t.gates.keySet ⊆ s.gates.keySet ∪ e.registers := by
  have same : t.gates = s.gates → t.gates.keySet ⊆ s.gates.keySet ∪ e.registers := fun h => by
    rw [h]
    exact Finset.subset_union_left
  cases e with
  | registered plan gates authority transition consumes =>
    obtain ⟨-, ⟨-, -, rfl⟩ | ⟨_, _, -, -, -, -, -, rfl⟩ | ⟨-, -, -, rfl⟩⟩ := registered_cases ht
    · exact (Dict.keySet_update s.gates gates).subset
    · exact Finset.subset_union_right
    · exact Finset.subset_union_right
  | gateChanged id gate => cases he
  | reserved rid id gate keys c attempt counters =>
    simp only [State.apply, reserved] at ht
    split at ht
    · cases ht
    · cases ht; exact same rfl
  | started rid =>
    obtain ⟨_, -, -, rfl⟩ := moveReservation_cases ht
    exact same rfl
  | completed rid status tokens =>
    obtain ⟨_, -, -, rfl⟩ := moveReservation_cases ht
    exact same rfl
  | abandoned rid id disposition reason attempt =>
    obtain ⟨_, -, rfl⟩ := abandoned_cases ht
    exact same rfl
  | evidenceImported id invocation kind c keys =>
    simp only [State.apply, evidenceImported] at ht
    split at ht
    · cases ht
    · cases ht; exact same rfl
  | blocked id => cases ht; exact same rfl
  | extended id launches reason => cases ht; exact same rfl
  | recoveryDecision value prior =>
    obtain ⟨_, _, -, -, -, -, rfl⟩ := recoveryDecision_cases ht
    exact same rfl
  | structuralDecision value prior =>
    obtain ⟨_, _, -, -, -, -, rfl⟩ := structuralDecision_cases ht
    exact same rfl
  | resumed id =>
    simp only [State.apply] at ht
    split at ht
    · cases ht; exact same rfl
    · cases ht
  | obligationTransferred source receiving =>
    simp only [State.apply] at ht
    split at ht
    · cases ht; exact same rfl
    · cases ht
  | gateLineage id predecessor successor c =>
    simp only [State.apply, gateLineage] at ht
    split at ht
    · cases ht
    · rename_i hbad
      simp only [not_or, not_not] at hbad
      have hid : id ∈ s.gates.keySet := Dict.mem_keySet.2 (Dict.mem_keys_iff.2 ⟨_, hbad.1⟩)
      have hset : (s.gates.set id successor).keySet ⊆ s.gates.keySet ∪ ∅ := by
        rw [Dict.keySet_set, Finset.insert_eq_of_mem hid, Finset.union_empty]
      cases c <;> cases ht <;> exact hset
  | transitionCarryover id c plan =>
    simp only [State.apply, transitionCarryover] at ht
    split at ht
    · cases ht
    · cases c <;> cases ht <;> exact same rfl
  | reset id reason b p c => cases he

/-! ### The meter -/

/-- `n` launches are covered: by the launches still on the counters, less the extra launches not
used, by one full budget for each structural decision, and by the extra launches granted. -/
def Meter (config : BudgetConfig) (nodes : Finset String) (n : ℕ) (s : State) : Prop :=
  n + ∑ id ∈ nodes, (s.charges id).extra ≤
    ∑ id ∈ nodes, (s.charges id).launches +
      nodes.card * config.nodeGateLimit * s.automaticRecoveryStructuralDecisions +
      s.automaticRecoveryExtraLaunches

section Meter

variable {config : BudgetConfig} {nodes : Finset String} {n : ℕ} {s t : State}

theorem Meter.mono {nodes' : Finset String} (h : Meter config nodes n s) (hsub : nodes ⊆ nodes')
    (idle : ∀ id ∉ nodes, s.charges id = .renewed 0) : Meter config nodes' n s := by
  have hx : ∑ id ∈ nodes', (s.charges id).extra = ∑ id ∈ nodes, (s.charges id).extra :=
    (Finset.sum_subset hsub fun id _ hid => by rw [idle id hid]; rfl).symm
  have hl : ∑ id ∈ nodes', (s.charges id).launches = ∑ id ∈ nodes, (s.charges id).launches :=
    (Finset.sum_subset hsub fun id _ hid => by rw [idle id hid]; rfl).symm
  have hcard : nodes.card * config.nodeGateLimit * s.automaticRecoveryStructuralDecisions ≤
      nodes'.card * config.nodeGateLimit * s.automaticRecoveryStructuralDecisions :=
    Nat.mul_le_mul_right _ (Nat.mul_le_mul_right _ (Finset.card_le_card hsub))
  unfold Meter at h ⊢
  omega

theorem structural_le (config : BudgetConfig) (nodes : Finset String)
    (hs : s.automaticRecoveryStructuralDecisions ≤
    t.automaticRecoveryStructuralDecisions) :
    nodes.card * config.nodeGateLimit * s.automaticRecoveryStructuralDecisions ≤
      nodes.card * config.nodeGateLimit * t.automaticRecoveryStructuralDecisions :=
  Nat.mul_le_mul_left _ hs

theorem Meter.quiet (h : Meter config nodes n s) (hc : t.charges = s.charges)
    (hx : s.automaticRecoveryExtraLaunches ≤ t.automaticRecoveryExtraLaunches)
    (hs : s.automaticRecoveryStructuralDecisions ≤ t.automaticRecoveryStructuralDecisions) :
    Meter config nodes n t := by
  have hle := structural_le config nodes hs
  unfold Meter at h ⊢
  rw [hc]
  omega

variable {id : String}

theorem sum_update {f : Charges → ℕ} {c : Charges} (hid : id ∈ nodes)
    (hc : t.charges = Function.update s.charges id c) :
    ∑ j ∈ nodes, f (t.charges j) + f (s.charges id) = ∑ j ∈ nodes, f (s.charges j) + f c := by
  have hrest : ∀ j ∈ nodes.erase id, f (t.charges j) = f (s.charges j) := fun j hj => by
    rw [hc, update_of_ne (Finset.ne_of_mem_erase hj)]
  rw [← Finset.add_sum_erase _ _ hid, ← Finset.add_sum_erase _ _ hid, Finset.sum_congr rfl hrest,
    hc, update_self]
  omega

theorem Meter.launch {c : Classification} {keys : List String} (h : Meter config nodes n s)
    (hid : id ∈ nodes)
    (hc : t.charges = Function.update s.charges id ((s.charges id).launch c keys))
    (hx : s.automaticRecoveryExtraLaunches ≤ t.automaticRecoveryExtraLaunches)
    (hs : s.automaticRecoveryStructuralDecisions ≤ t.automaticRecoveryStructuralDecisions) :
    Meter config nodes (n + 1) t := by
  have hle := structural_le config nodes hs
  have hsum := sum_update (f := Charges.extra) hid hc
  have hsum' := sum_update (f := Charges.launches) hid hc
  simp only [Charges.launch] at hsum hsum'
  unfold Meter at h ⊢
  omega

theorem Meter.extend {launches : ℕ} (h : Meter config nodes n s) (hid : id ∈ nodes)
    (hc : t.charges = Function.update s.charges id ((s.charges id).extend launches))
    (hx : s.automaticRecoveryExtraLaunches + launches ≤ t.automaticRecoveryExtraLaunches)
    (hs : s.automaticRecoveryStructuralDecisions ≤ t.automaticRecoveryStructuralDecisions) :
    Meter config nodes n t := by
  have hle := structural_le config nodes hs
  have hsum := sum_update (f := Charges.extra) hid hc
  have hsum' := sum_update (f := Charges.launches) hid hc
  simp only [Charges.extend] at hsum hsum'
  unfold Meter at h ⊢
  omega

/-- **One structural decision pays for renewing every node once**, since no node has more
launches on its counter than its limit and its extra launches. -/
theorem Meter.renew (h : Meter config nodes n s) (within : s.Within config)
    (hc : ∀ id, t.charges id = s.charges id ∨ t.charges id = .renewed 0)
    (hx : s.automaticRecoveryExtraLaunches ≤ t.automaticRecoveryExtraLaunches)
    (hs : s.automaticRecoveryStructuralDecisions + 1 ≤ t.automaticRecoveryStructuralDecisions) :
    Meter config nodes n t := by
  have hle : nodes.card * config.nodeGateLimit * (s.automaticRecoveryStructuralDecisions + 1) ≤
      nodes.card * config.nodeGateLimit * t.automaticRecoveryStructuralDecisions :=
    Nat.mul_le_mul_left _ hs
  rw [Nat.mul_add, Nat.mul_one] at hle
  have hnode : ∑ id ∈ nodes, ((t.charges id).extra + (s.charges id).launches) ≤
      ∑ id ∈ nodes, ((t.charges id).launches + (s.charges id).extra + config.nodeGateLimit) := by
    refine Finset.sum_le_sum fun id _ => ?_
    have hlimit := within.launches id
    rcases hc id with hid | hid <;> rw [hid]
    · omega
    · simp only [Charges.renewed]
      omega
  simp only [Finset.sum_add_distrib, Finset.sum_const, smul_eq_mul] at hnode
  unfold Meter at h ⊢
  omega

end Meter

/-! ### Runs without operator relief -/

/-- What an automatic operation appends when no authorization is open. -/
inductive AutomaticShape (config : BudgetConfig) (s : State) (events : List Event) : Prop where
  | quiet (h : ∀ e ∈ events, e.isQuiet = true ∧ e.isAutomatic = true) :
      AutomaticShape config s events
  | launch {id gate : String} {keys : List String} {c : Classification} {rid : String}
      {attempt : Option String} (reserves : Reserves s config id gate keys c)
      (eq : events = [launchEvent rid id gate keys c attempt]) : AutomaticShape config s events
  | decide {decision : Json} {prior : String} {authority : AutomaticRecoveryAuthority}
      {d : RecoveryDecision} {e : Event} (decides : Decides s decision prior authority d e)
      (eq : events = [.recoveryDecision decision prior, e]) : AutomaticShape config s events
  | transition {decision : Json} {prior : String} {rest : List Event}
      (renewals : ∀ e ∈ rest, (e.isQuiet = true ∨ e.isRenewal = true) ∧ e.isAutomatic = true)
      (eq : events = .structuralDecision decision prior :: rest) : AutomaticShape config s events

theorem neededChanges_of_unrelieved (hu : s.Unrelieved) {items : List (String × String)}
    (h : s.assertGateChanges items = .ok ()) :
    s.neededChanges items = [] := by
  refine filter_eq_nil_iff.2 fun p hp => ?_
  have hp := (assertGateChanges_ok.1 h p hp).resolve_right (by rw [hu.gates]; exact Bool.false_ne_true)
  simpa using hp

theorem automaticShape_register (hu : s.Unrelieved) {plan : String} {gates : Dict String String}
    {recovery transition : Option Json} {authority : AutomaticRecoveryAuthority}
    {checked : Option PlanVersionTransition}
    (h : Registers s plan gates recovery transition authority checked) :
    AutomaticShape config s (s.registerEvents authority plan gates checked) := by
  rw [registerEvents]
  split_ifs with hv
  · exact .quiet (forall_mem_singleton.2 ⟨rfl, rfl⟩)
  · rw [neededChanges_of_unrelieved hu (h.gates.resolve_left hv)]
    cases checked with
    | some t =>
      refine .transition ?_ rfl
      refine forall_mem_cons.2 ⟨⟨.inl rfl, rfl⟩, forall_mem_map.2 fun _ _ => ?_⟩
      exact ⟨.inr rfl, rfl⟩
    | none =>
      refine .quiet ?_
      simp only [registrationEvents]
      split_ifs
      · exact forall_mem_singleton.2 ⟨rfl, rfl⟩
      · exact forall_mem_nil _

/-- **What an operation appends when no operator has given relief.** -/
theorem automaticShape_appends (config : BudgetConfig) (hu : s.Unrelieved) {op : Operation}
    (hop : op.isRelief = false) :
    AutomaticShape config s (s.appends config op) := by
  have hwrites := writes_of_mem_appends config s op
  cases op with
  | register plan gates recovery transition =>
    rcases register_cases s plan gates recovery transition with ⟨e, he⟩ | ⟨a, checked, h⟩
    · rw [appends, run, he]; exact .quiet (forall_mem_nil _)
    · rw [appends, run, h.register_eq]; exact automaticShape_register hu h
  | reserve id gate keys c reason attempt rid =>
    rcases reserve_cases s config id gate keys c reason attempt rid with
      ⟨e, he⟩ | ⟨e, -, haccept, -⟩ | ⟨keys', hkeys, ha, h⟩
    · rw [appends, run, he]; exact .quiet (forall_mem_nil _)
    · rw [hu.gates] at haccept; cases haccept
    · have hgate : s.gates.get? id = some gate :=
        h.authorized.resolve_right (by rw [hu.gates]; exact Bool.false_ne_true)
      rw [appends, run, h.reserve_eq hkeys ha, launchGate, if_pos hgate]
      exact .launch h rfl
  | applyRecoveryDecision decision prior =>
    rcases applyRecoveryDecision_cases s decision prior with ⟨e, he⟩ | ⟨a, d, e, h, he⟩
    · rw [appends, run, he]; exact .quiet (forall_mem_nil _)
    · rw [appends, run, he]; exact .decide h rfl
  | extend id launches reason => cases hop
  | reset id reason acceptGate acceptPlan c => cases hop
  | _ =>
    refine .quiet fun e he => ?_
    have hw := hwrites e he
    cases e <;> first | exact ⟨rfl, rfl⟩ | cases hw

theorem isAutomatic_decisionEvent {d : RecoveryDecision} (h : s.decisionEvent d = some e) :
    e.isAutomatic = true ∧ e.isLaunch = false := by
  have hw := writes_decisionEvent h .null ""
  cases e <;> first | exact ⟨rfl, rfl⟩ | cases hw

/-- The frame of automatic events. -/
theorem frame_of_automatic (hu : s.Unrelieved) (ha : s.Allowed)
    (he : ∀ e ∈ events, e.isAutomatic = true) (ht : s.applyAll events = some t) :
    t.Unrelieved ∧ t.Allowed ∧
      s.automaticRecoveryExtraLaunches ≤ t.automaticRecoveryExtraLaunches ∧
      s.automaticRecoveryStructuralDecisions ≤ t.automaticRecoveryStructuralDecisions ∧
      t.gates.keySet ⊆ s.gates.keySet ∪ registeredNodes events := by
  induction events generalizing s with
  | nil => cases ht; exact ⟨hu, ha, le_rfl, le_rfl, Finset.subset_union_left⟩
  | cons e events ih =>
    obtain ⟨hauto, hrest⟩ := forall_mem_cons.1 he
    obtain ⟨m, hm, ht⟩ := bind_eq_some_iff.1 ht
    obtain ⟨hma, hx, hs⟩ := ha.apply hm
    obtain ⟨hu', ha', hx', hs', hg'⟩ := ih (hu.apply hm hauto) hma hrest ht
    refine ⟨hu', ha', hx.trans hx', hs.trans hs', hg'.trans ?_⟩
    rw [registeredNodes, ← Finset.union_assoc]
    exact Finset.union_subset_union_left (gates_of_apply hm hauto)

/-- The launches recorded in a ledger. -/
def launchCount (ledger : Ledger) : ℕ := ledger.countP Event.isLaunch

/-- The invariant of a ledger without operator relief. -/
structure Metered (config : BudgetConfig) (ledger : Ledger) (s : State) : Prop where
  accounted : s.Accounted config
  unrelieved : s.Unrelieved
  allowed : s.Allowed
  gates : s.gates.keySet ⊆ registeredNodes ledger
  idle : ∀ id ∉ registeredNodes ledger, s.charges id = .renewed 0
  meter : Meter config (registeredNodes ledger) (launchCount ledger) s

theorem metered_init (config : BudgetConfig) : Metered config [] {} where
  accounted := accounted_init config
  unrelieved := ⟨fun _ => rfl, rfl⟩
  allowed := ready_init.toAllowed
  gates := Finset.empty_subset _
  idle _ _ := rfl
  meter := Nat.zero_le _

theorem charges_of_quiet_events (he : ∀ e ∈ events, e.isQuiet = true)
    (ht : s.applyAll events = some t) :
    t.charges = s.charges :=
  replay_induction (P := fun t => t.charges = s.charges)
    (fun _ e _ hmem hs happ => (charges_of_quiet happ (he e hmem)).trans hs) rfl ht

theorem charges_of_renewals (he : ∀ e ∈ events, e.isQuiet = true ∨ e.isRenewal = true)
    (ht : s.applyAll events = some t) :
    ∀ id, t.charges id = s.charges id ∨ t.charges id = .renewed 0 := by
  refine replay_induction (P := fun t => ∀ id, t.charges id = s.charges id ∨
    t.charges id = .renewed 0) ?_ (fun _ => .inl rfl) ht
  intro m e u hmem hm happ id
  have hid := hm id
  rcases he e hmem with hq | hrenew
  · rw [charges_of_quiet happ hq]
    exact hid
  · cases effect_of_apply happ with
    | kept nodes => rw [nodes]; exact hid
    | launched => cases hrenew
    | extended => cases hrenew
    | renewed j _ nodes =>
      rw [nodes]
      by_cases hj : id = j
      · rw [hj, update_self]
        exact .inr rfl
      · rw [update_of_ne hj]
        exact hid
    | relieved => cases hrenew

theorem launchCount_append (ledger events : Ledger) :
    launchCount (ledger ++ events) = launchCount ledger + launchCount events :=
  countP_append

theorem launchCount_eq_zero (h : ∀ e ∈ events, e.isLaunch = false) :
    launchCount events = 0 :=
  countP_eq_zero.2 fun e he => by rw [h e he]; exact Bool.false_ne_true

theorem isLaunch_of_quiet (h : e.isQuiet = true) : e.isLaunch = false := by
  cases e <;> first | rfl | cases h

theorem isLaunch_of_renewal (h : e.isRenewal = true) : e.isLaunch = false := by
  cases e <;> first | rfl | cases h

/-- What is left to show when an automatic operation stops. -/
theorem Metered.append (h : Metered config ledger s) (haccounted : t.Accounted config)
    (hauto : ∀ e ∈ events, e.isAutomatic = true) (ht : s.applyAll events = some t)
    (idle : ∀ id ∉ registeredNodes (ledger ++ events), t.charges id = .renewed 0)
    (meter : ∀ nodes, registeredNodes ledger ⊆ nodes → Meter config nodes (launchCount ledger) s →
      Meter config nodes (launchCount (ledger ++ events)) t) :
    Metered config (ledger ++ events) t := by
  obtain ⟨hu, ha, -, -, hg⟩ := frame_of_automatic h.unrelieved h.allowed hauto ht
  have hsub : registeredNodes ledger ⊆ registeredNodes (ledger ++ events) := by
    rw [registeredNodes_append]
    exact Finset.subset_union_left
  refine ⟨haccounted, hu, ha, ?_, idle, meter _ hsub (h.meter.mono hsub h.idle)⟩
  rw [registeredNodes_append]
  exact hg.trans (Finset.union_subset_union_left h.gates)

theorem Metered.idle_append (h : Metered config ledger s)
    (hid : id ∉ registeredNodes (ledger ++ events)) : s.charges id = .renewed 0 := by
  rw [registeredNodes_append] at hid
  exact h.idle id fun hmem => hid (Finset.mem_union_left _ hmem)

/-- A change of one registered node's charges leaves the idle nodes idle. -/
theorem Metered.idle_update (h : Metered config ledger s) {j : String} {c : Charges}
    (hj : j ∈ s.gates.keys) (hc : t.charges = Function.update s.charges j c) :
    ∀ id ∉ registeredNodes (ledger ++ events), t.charges id = .renewed 0 := by
  intro id hid
  have hne : id ≠ j := by
    rintro rfl
    refine hid ?_
    rw [registeredNodes_append]
    exact Finset.mem_union_left _ (h.gates (Dict.mem_keySet.2 hj))
  rw [hc, update_of_ne hne]
  exact h.idle_append hid

theorem Metered.quiet (h : Metered config ledger s) (haccounted : t.Accounted config)
    (hq : ∀ e ∈ events, e.isQuiet = true ∧ e.isAutomatic = true) (ht : s.applyAll events = some t) :
    Metered config (ledger ++ events) t := by
  have hauto : ∀ e ∈ events, e.isAutomatic = true := fun e he => (hq e he).2
  have hc := charges_of_quiet_events (fun e he => (hq e he).1) ht
  obtain ⟨-, -, hx, hs, -⟩ := frame_of_automatic h.unrelieved h.allowed hauto ht
  refine h.append haccounted hauto ht (fun id hid => ?_) fun nodes _ hm => ?_
  · rw [hc]
    exact h.idle_append hid
  · rw [launchCount_append, launchCount_eq_zero fun e he => isLaunch_of_quiet (hq e he).1]
    exact hm.quiet hc hx hs

/-- A stopped recovery decision: nothing, a charge, or a charge with its effect. -/
theorem Metered.decide {decision : Json} {prior : String} {authority : AutomaticRecoveryAuthority}
    {d : RecoveryDecision} (h : Metered config ledger s) (haccounted : t.Accounted config)
    (decides : Decides s decision prior authority d e)
    (ht : s.applyAll [.recoveryDecision decision prior, e] = some t) :
    Metered config (ledger ++ [.recoveryDecision decision prior, e]) t := by
  have hauto : ∀ e' ∈ [.recoveryDecision decision prior, e], Event.isAutomatic e' = true :=
    forall_mem_cons.2
      ⟨rfl, forall_mem_singleton.2 (isAutomatic_decisionEvent decides.event).1⟩
  obtain ⟨-, -, hx, hs, -⟩ := frame_of_automatic h.unrelieved h.allowed hauto ht
  have hcount : launchCount (ledger ++ [.recoveryDecision decision prior, e]) =
      launchCount ledger := by
    have hzero : launchCount [.recoveryDecision decision prior, e] = 0 :=
      launchCount_eq_zero (forall_mem_cons.2
        ⟨rfl, forall_mem_singleton.2 (isAutomatic_decisionEvent decides.event).2⟩)
    rw [launchCount_append, hzero]
    rfl
  by_cases hquiet : e.isQuiet = true
  · refine h.quiet haccounted (forall_mem_cons.2 ⟨⟨rfl, rfl⟩, ?_⟩) ht
    exact forall_mem_singleton.2 ⟨hquiet, (isAutomatic_decisionEvent decides.event).1⟩
  obtain ⟨m, hm, hrest⟩ := bind_eq_some_iff.1 ht
  obtain ⟨u, hu, hnil⟩ := bind_eq_some_iff.1 hrest
  cases hnil
  obtain ⟨a, d', ha, hd', -, -, hmeq⟩ := recoveryDecision_cases hm
  obtain rfl : a = authority := Option.some.inj (ha.symm.trans decides.registered)
  obtain rfl : d' = d := by rw [decides.valid] at hd'; cases hd'; rfl
  have hmc : m.charges = s.charges := by rw [hmeq]; rfl
  have hmx : m.automaticRecoveryExtraLaunches =
      s.automaticRecoveryExtraLaunches + d'.extraLaunches := by rw [hmeq]
  have hms : m.automaticRecoveryStructuralDecisions =
      s.automaticRecoveryStructuralDecisions + d'.structuralDecisions := by rw [hmeq]
  have hevent := decides.event
  unfold decisionEvent at hevent
  cases hpay : d'.payload with
  | resume =>
    simp only [hpay] at hevent
    split_ifs at hevent
    cases hevent
    exact absurd rfl hquiet
  | transferOwnership receiving =>
    simp only [hpay] at hevent
    split_ifs at hevent
    cases hevent
    exact absurd rfl hquiet
  | revision a =>
    simp only [hpay] at hevent
    cases hevent
  | extendBudget launches =>
    simp only [hpay] at hevent
    split_ifs at hevent with htarget
    cases hevent
    have huc : t.charges = Function.update s.charges d'.target
        ((s.charges d'.target).extend launches) := by
      rw [← hmc]
      cases hu
      exact charges_setNode m d'.target _
    have hcontrol := control_of_apply hu rfl
    have hux : s.automaticRecoveryExtraLaunches + launches ≤ t.automaticRecoveryExtraLaunches := by
      rw [show t.automaticRecoveryExtraLaunches = m.automaticRecoveryExtraLaunches from
        congrArg Control.extraLaunches hcontrol, hmx, RecoveryDecision.extraLaunches, hpay]
    refine h.append haccounted hauto ht (h.idle_update htarget huc) fun nodes hsub hmeter => ?_
    rw [hcount]
    exact hmeter.extend (hsub (h.gates (Dict.mem_keySet.2 htarget))) huc hux hs
  | ratifyGateChange gate c =>
    simp only [hpay, map_eq_some_iff] at hevent
    obtain ⟨known, -, rfl⟩ := hevent
    have hrenew : ∀ id, t.charges id = s.charges id ∨ t.charges id = .renewed 0 := by
      rw [← hmc]
      refine charges_of_renewals ?_ hrest
      exact forall_mem_singleton.2 (.inr rfl)
    have hus : s.automaticRecoveryStructuralDecisions + 1 ≤
        t.automaticRecoveryStructuralDecisions := by
      have hstructural : d'.structuralDecisions = 1 := by
        simp [RecoveryDecision.structuralDecisions, RecoveryDecision.action, hpay,
          DecisionPayload.action, Action.IsStructural]
      rw [show t.automaticRecoveryStructuralDecisions = m.automaticRecoveryStructuralDecisions from
        congrArg Control.structuralDecisions (control_of_apply hu rfl), hms, hstructural]
    refine h.append haccounted hauto ht (fun id hid => ?_) fun nodes _ hmeter => ?_
    · rcases hrenew id with hid' | hid'
      · rw [hid']; exact h.idle_append hid
      · exact hid'
    · rw [hcount]
      exact hmeter.renew h.accounted.within hrenew hx hus

/-- A stopped transition after its structural decision. -/
theorem Metered.transition {decision : Json} {prior : String} {rest : List Event}
    (h : Metered config ledger s) (haccounted : t.Accounted config)
    (renewals : ∀ e ∈ rest, (e.isQuiet = true ∨ e.isRenewal = true) ∧ e.isAutomatic = true)
    (ht : s.applyAll (.structuralDecision decision prior :: rest) = some t) :
    Metered config (ledger ++ .structuralDecision decision prior :: rest) t := by
  obtain ⟨m, hm, hrest⟩ := bind_eq_some_iff.1 ht
  obtain ⟨a, d, -, -, -, -, hmeq⟩ := structuralDecision_cases hm
  have hmc : m.charges = s.charges := by rw [hmeq]; rfl
  have hms : m.automaticRecoveryStructuralDecisions =
      s.automaticRecoveryStructuralDecisions + 1 := by rw [hmeq]
  have hauto : ∀ e ∈ rest, e.isAutomatic = true := fun e he => (renewals e he).2
  have hauto' : ∀ e ∈ .structuralDecision decision prior :: rest, e.isAutomatic = true :=
    forall_mem_cons.2 ⟨rfl, hauto⟩
  obtain ⟨-, -, hx, -, -⟩ := frame_of_automatic h.unrelieved h.allowed hauto' ht
  obtain ⟨-, -, -, hs, -⟩ := frame_of_automatic (h.unrelieved.apply hm rfl)
    (h.allowed.apply hm).1 hauto hrest
  have hrenew : ∀ id, t.charges id = s.charges id ∨ t.charges id = .renewed 0 := by
    rw [← hmc]
    exact charges_of_renewals (fun e he => (renewals e he).1) hrest
  have hcount : launchCount (.structuralDecision decision prior :: rest) = 0 := by
    refine launchCount_eq_zero (forall_mem_cons.2 ⟨rfl, fun e he => ?_⟩)
    rcases (renewals e he).1 with hq | hr
    · exact isLaunch_of_quiet hq
    · exact isLaunch_of_renewal hr
  refine h.append haccounted hauto' ht (fun id hid => ?_) fun nodes _ hmeter => ?_
  · rcases hrenew id with hid' | hid'
    · rw [hid']; exact h.idle_append hid
    · exact hid'
  · rw [launchCount_append, hcount]
    exact hmeter.renew h.accounted.within hrenew hx (hms ▸ hs)

theorem Metered.launch {gate : String} {keys : List String} {c : Classification} {rid : String}
    {attempt : Option String} (h : Metered config ledger s) (haccounted : t.Accounted config)
    (reserves : Reserves s config id gate keys c)
    (ht : s.applyAll [launchEvent rid id gate keys c attempt] = some t) :
    Metered config (ledger ++ [launchEvent rid id gate keys c attempt]) t := by
  have hauto : ∀ e ∈ [launchEvent rid id gate keys c attempt], e.isAutomatic = true :=
    forall_mem_singleton.2 rfl
  obtain ⟨-, -, hx, hs, -⟩ := frame_of_automatic h.unrelieved h.allowed hauto ht
  obtain ⟨u, hu, hnil⟩ := bind_eq_some_iff.1 ht
  cases hnil
  have hc : t.charges = Function.update s.charges id ((s.charges id).launch c keys) := by
    simp only [launchEvent, State.apply, reserved, getD_some, ne_eq, not_true_eq_false,
      if_false] at hu
    cases hu
    exact charges_setNode s id _
  refine h.append haccounted hauto ht (h.idle_update reserves.known hc) fun nodes hsub hmeter => ?_
  rw [launchCount_append]
  exact hmeter.launch (hsub (h.gates (Dict.mem_keySet.2 reserves.known))) hc hx hs

/-- **A stopped automatic operation keeps the meter.** -/
theorem Metered.stopped {op : Operation} {k : ℕ} (h : Metered config ledger s)
    (hop : op.isRelief = false) (ht : s.applyAll ((s.appends config op).take k) = some t) :
    Metered config (ledger ++ (s.appends config op).take k) t := by
  have haccounted := h.accounted.stopped ht
  have hnothing : s.applyAll [] = some t → Metered config (ledger ++ []) t := fun ht =>
    h.quiet (by cases ht; exact h.accounted) (forall_mem_nil _) ht
  cases automaticShape_appends config h.unrelieved hop with
  | quiet hq => exact h.quiet haccounted (fun e he => hq e (mem_of_mem_take he)) ht
  | launch reserves eq =>
    rw [eq] at ht ⊢
    cases k with
    | zero => exact hnothing ht
    | succ k =>
      rw [take_succ_cons, take_nil] at ht ⊢
      exact h.launch haccounted reserves ht
  | decide decides eq =>
    rw [eq] at ht ⊢
    match k with
    | 0 => exact hnothing ht
    | 1 => exact h.quiet haccounted (forall_mem_singleton.2 ⟨rfl, rfl⟩) ht
    | k + 2 =>
      rw [take_succ_cons, take_succ_cons, take_nil] at ht ⊢
      exact h.decide haccounted decides ht
  | transition renewals eq =>
    rw [eq] at ht ⊢
    cases k with
    | zero => exact hnothing ht
    | succ k =>
      exact h.transition haccounted (fun e he => renewals e (mem_of_mem_take he)) ht

/-- **The retry budgets bound automatic work.** Whatever operations any number of controllers
issue, finished or stopped by a crash, as long as none of them is operator relief: with `N` nodes
registered, at most `N` full budgets for the first plan and for each structural decision, plus the
extra launches of the authority, are ever launched. -/
theorem reservations_bounded {config : BudgetConfig} {ledger : Ledger}
    (h : Reaches State.apply {} (State.appends config) (fun _ op _ => op.isRelief = false) ledger)
    {s : State} (hs : fold ledger = some s) :
    launchCount ledger ≤ (registeredNodes ledger).card * config.nodeGateLimit *
        (1 + (s.authority.getD .none).maxStructuralDecisions) +
      (s.authority.getD .none).maxExtraNodeLaunches := by
  have hm : Metered config ledger s :=
    h.induction (P := Metered config) (metered_init config)
      (fun _ _ _ _ _ hm hop ht => hm.stopped hop ht) hs
  have hcounters : ∑ id ∈ registeredNodes ledger, (s.charges id).launches ≤
      ∑ id ∈ registeredNodes ledger, (config.nodeGateLimit + (s.charges id).extra) :=
    Finset.sum_le_sum fun id _ => hm.accounted.within.launches id
  have hstructural : (registeredNodes ledger).card * config.nodeGateLimit *
      s.automaticRecoveryStructuralDecisions ≤ (registeredNodes ledger).card *
        config.nodeGateLimit * (s.authority.getD .none).maxStructuralDecisions :=
    Nat.mul_le_mul_left _ hm.allowed.structuralDecisions
  have hextra : s.automaticRecoveryExtraLaunches ≤
      (s.authority.getD .none).maxExtraNodeLaunches := hm.allowed.extraLaunches
  have hmeter := hm.meter
  simp only [Finset.sum_add_distrib, Finset.sum_const, smul_eq_mul] at hcounters
  unfold Meter at hmeter
  rw [Nat.mul_add, Nat.mul_one]
  omega

theorem reservations_bounded_oneLaunch : launchCount oneLaunch = 1 ∧
    launchCount oneLaunch ≤ (registeredNodes oneLaunch).card * ({} : BudgetConfig).nodeGateLimit *
      (1 + AutomaticRecoveryAuthority.none.maxStructuralDecisions) +
      AutomaticRecoveryAuthority.none.maxExtraNodeLaunches := by
  obtain ⟨s, hs, ha⟩ : ∃ s, fold oneLaunch = some s ∧ s.authority = some .none := ⟨_, rfl, rfl⟩
  have hbound := reservations_bounded (reaches_oneLaunch fun _ _ _ h => h) hs
  rw [ha] at hbound
  exact ⟨rfl, hbound⟩

end State

end HarnessLabs.Budget
