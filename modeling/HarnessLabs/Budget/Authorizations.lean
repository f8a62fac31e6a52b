import HarnessLabs.Budget.Crash

/-!
# Operator authorizations

A `reset` may carry two authorizations: the next gate change of its node, and the registration of
one plan digest. Each is a field of the folded state, and a change takes it back.

* `Grants` — the authorizations that were given and not used, noted from the events alone.
* `Event.flags` — what an event does to the flags of a node.
* `Preserving` — a reset gives no authorization up, and a transition finds none for another plan.
* `authorizations_kept` — **under such calls the ledger holds exactly the authorizations that are
  not used**, wherever the calls are cut off.

Of the fields that hold authorizations an event other than a reset and a registration changes at
most the flag of the node whose gate it changes. A reset overwrites both fields, and a registration
by a transition clears the authorized digest, whichever digest it is.
-/

namespace HarnessLabs.Budget

open EventLog

/-! ## Flags of a node -/

/-- The two flags of a node that admission looks at. -/
structure Flags where
  acceptGateChange : Bool
  blocked : Bool

def NodeAccount.flags (n : NodeAccount) : Flags := ⟨n.acceptGateChange, n.blocked⟩

/-- What an event does to the flags of the nodes. -/
def Event.flags (f : String → Flags) (id : String) : Event → Flags
  | .gateChanged j _ | .gateLineage j _ _ _ =>
    if id = j then { f j with acceptGateChange := false } else f id
  | .blocked j => if id = j then { f j with blocked := true } else f id
  | .extended j _ _ | .resumed j => if id = j then { f j with blocked := false } else f id
  | .reset j _ acceptGateChange _ _ => if id = j then ⟨acceptGateChange, false⟩ else f id
  | _ => f id

namespace State

def flags (s : State) (id : String) : Flags := (s.node id).flags

variable {s t : State}

theorem flags_of_nodes (h : t.nodes = s.nodes) (id : String) :
    t.flags id = s.flags id := by
  rw [flags, flags, node, node, h]

theorem flags_of_set {j : String} {n : NodeAccount} (h : t.nodes = s.nodes.set j n) (id : String) :
    t.flags id = if id = j then n.flags else s.flags id := by
  rw [flags_of_nodes (s := s.setNode j n) h id, flags, node_setNode]
  split_ifs <;> rfl

/-- An update that leaves the flags of the node alone. -/
theorem flags_of_set_eq {j : String} {n : NodeAccount} (h : t.nodes = s.nodes.set j n)
    (hn : n.flags = s.flags j) (id : String) :
    t.flags id = s.flags id := by
  rw [flags_of_set h id]
  split_ifs with hid
  · rw [hn, hid]
  · rfl

theorem flags_resetNodeAccounting (s : State) (j id : String) :
    (s.resetNodeAccounting j).flags id = s.flags id := by
  have hcharges : ∀ id, (s.resetCharges j).flags id = s.flags id := by
    intro id
    refine flags_of_set_eq (s := s) rfl ?_ id
    rfl
  refine Eq.trans (flags_of_set_eq (s := s.resetCharges j) rfl ?_ id) (hcharges id)
  rfl

/-- **An event changes the flags of its own node only.** -/
theorem flags_of_apply {e : Event} (h : s.apply e = some t) (id : String) :
    t.flags id = e.flags s.flags id := by
  cases e with
  | registered plan gates authority transition consumes =>
    obtain ⟨-, ⟨-, -, rfl⟩ | ⟨_, _, -, -, -, -, -, rfl⟩ | ⟨-, -, -, rfl⟩⟩ := registered_cases h
    all_goals exact flags_of_nodes rfl id
  | recoveryDecision value prior =>
    obtain ⟨_, _, -, -, -, -, rfl⟩ := recoveryDecision_cases h
    exact flags_of_nodes rfl id
  | structuralDecision value prior =>
    obtain ⟨_, _, -, -, -, -, rfl⟩ := structuralDecision_cases h
    exact flags_of_nodes rfl id
  | started rid =>
    obtain ⟨_, -, -, rfl⟩ := moveReservation_cases h
    exact flags_of_nodes rfl id
  | completed rid status tokens =>
    obtain ⟨_, -, -, rfl⟩ := moveReservation_cases h
    exact flags_of_nodes rfl id
  | abandoned rid j disposition reason attempt =>
    obtain ⟨_, -, rfl⟩ := abandoned_cases h
    exact flags_of_nodes rfl id
  | reserved rid j gate keys c attempt counters =>
    simp only [apply, reserved] at h
    split_ifs at h
    cases h
    refine flags_of_set_eq (s := s) rfl ?_ id
    rfl
  | evidenceImported j invocation kind c keys =>
    simp only [apply, evidenceImported] at h
    split_ifs at h
    cases h
    refine flags_of_set_eq (s := s) rfl ?_ id
    rfl
  | obligationTransferred source receiving =>
    simp only [apply] at h
    split_ifs at h
    cases h
    refine flags_of_set_eq (s := s) rfl ?_ id
    rfl
  | gateChanged j gate | blocked j | extended j launches reason =>
    cases h
    refine Eq.trans (flags_of_set (s := s) rfl id) ?_
    rfl
  | resumed j =>
    simp only [apply] at h
    split_ifs at h
    cases h
    refine Eq.trans (flags_of_set (s := s) rfl id) ?_
    rfl
  | gateLineage j predecessor successor c =>
    simp only [apply, gateLineage] at h
    split_ifs at h
    have hbound := flags_of_set (s := s) (t := { s with gates := s.gates.set j successor }.setNode j
      { s.node j with acceptGateChange := false, reverificationRequired := true }) rfl id
    cases c with
    | full =>
      cases h
      exact hbound.trans rfl
    | reset =>
      cases h
      exact ((flags_resetNodeAccounting _ j id).trans hbound).trans rfl
  | transitionCarryover j c plan =>
    simp only [apply, transitionCarryover] at h
    split_ifs at h
    cases c with
    | full =>
      cases h
      rfl
    | reset =>
      cases h
      exact flags_resetNodeAccounting s j id
  | reset j reason acceptGate acceptPlan c =>
    simp only [apply, reset] at h
    split_ifs at h
    have hopened := flags_of_set (s := s) (t := { s with acceptedPlanSha256 := acceptPlan }.setNode j
      { s.node j with blocked := false, acceptGateChange := acceptGate }) rfl id
    cases c with
    | full =>
      cases h
      exact hopened.trans rfl
    | reset =>
      cases h
      refine Eq.trans (flags_of_set_eq (s := { s with acceptedPlanSha256 := acceptPlan }.setNode j
        { s.node j with blocked := false, acceptGateChange := acceptGate }) rfl ?_ id)
        (hopened.trans rfl)
      rfl

/-- Only a reset and a registration touch the authorized plan. -/
theorem acceptedPlan_of_apply {e : Event} (h : s.apply e = some t)
    (hregistered : ∀ plan gates authority transition consumes,
      e ≠ .registered plan gates authority transition consumes)
    (hreset : ∀ id reason acceptGate acceptPlan c, e ≠ .reset id reason acceptGate acceptPlan c) :
    t.acceptedPlanSha256 = s.acceptedPlanSha256 := by
  by_cases he : e.isControl = false
  · exact congrArg Control.acceptedPlanSha256 (control_of_apply h he)
  cases e with
  | registered plan gates authority transition consumes =>
    exact absurd rfl (hregistered plan gates authority transition consumes)
  | reset id reason acceptGate acceptPlan c => exact absurd rfl (hreset id reason acceptGate acceptPlan c)
  | recoveryDecision value prior =>
    obtain ⟨_, _, -, -, -, -, rfl⟩ := recoveryDecision_cases h
    rfl
  | structuralDecision value prior =>
    obtain ⟨_, _, -, -, -, -, rfl⟩ := structuralDecision_cases h
    rfl
  | _ => exact absurd rfl he

end State

/-! ## What was given and not used -/

/-- The nodes whose next gate change is authorized, and the plans whose registration is. -/
structure Grants where
  gates : Finset String := ∅
  plans : Finset String := ∅

/-- A reset gives authorizations; a gate change and a change of the plan use theirs. -/
def Grants.note (g : Grants) : Event → Grants
  | .reset id _ acceptGateChange acceptPlan _ =>
    { gates := if acceptGateChange then insert id g.gates else g.gates
      plans := g.plans ∪ acceptPlan.toFinset }
  | .gateChanged id _ | .gateLineage id _ _ _ => { g with gates := g.gates.erase id }
  | .registered plan _ _ transition consumes =>
    if transition.isSome ∨ consumes then { g with plans := g.plans.erase plan } else g
  | _ => g

def grants (ledger : Ledger) : Grants := ledger.foldl Grants.note {}

namespace State

/-- The state holds exactly the authorizations that are not used. -/
structure HoldsGrants (s : State) (g : Grants) : Prop where
  gates : ∀ id, (s.flags id).acceptGateChange = decide (id ∈ g.gates)
  plans : ∀ plan, s.acceptedPlanSha256 = some plan ↔ plan ∈ g.plans

/-- No authorization is given up by the event. -/
def GivesNothingUp (s : State) : Event → Prop
  | .reset id _ acceptGateChange acceptPlan _ =>
    (acceptGateChange = true ∨ (s.node id).acceptGateChange = false) ∧
      (s.acceptedPlanSha256 = none ∨ s.acceptedPlanSha256 = acceptPlan)
  | .registered plan _ _ transition consumes => transition.isSome ∨ consumes →
    s.changedPlan plan = true ∧ (s.acceptedPlanSha256 = none ∨ s.acceptedPlanSha256 = some plan)
  | _ => True

variable {s : State} {plan : String} {gates : Dict String String}
  {authority : AutomaticRecoveryAuthority}

theorem HoldsGrants.plans_erase {g : Grants} (h : s.HoldsGrants g)
    (hs : s.acceptedPlanSha256 = none ∨ s.acceptedPlanSha256 = some plan) :
    g.plans.erase plan = ∅ := by
  rw [Finset.eq_empty_iff_forall_notMem]
  intro other hmem
  obtain ⟨hne, hother⟩ := Finset.mem_erase.1 hmem
  have hsome := (h.plans other).2 hother
  obtain hnone | hplan := hs
  · rw [hnone] at hsome
    cases hsome
  · rw [hplan] at hsome
    exact hne (Option.some.inj hsome).symm

theorem eq_bindPlan_of_registered {t : State}
    (h : s.registered plan gates authority none false = some t) :
    t = s.bindPlan plan gates authority false := by
  obtain ⟨-, ⟨-, -, ht⟩ | ⟨_, _, -, htransition, -⟩ | ⟨hchanged, -⟩⟩ := registered_cases h
  · exact ht
  · cases htransition
  · simp [registered, hchanged] at h

/-- **An event that gives nothing up keeps the agreement.** -/
theorem HoldsGrants.apply {t : State} {g : Grants} {e : Event} (hkeeps : s.GivesNothingUp e)
    (h : s.HoldsGrants g) (ht : s.apply e = some t) : t.HoldsGrants (g.note e) := by
  have hflags := flags_of_apply ht
  cases e with
  | reset j reason acceptGate acceptPlan c =>
    obtain ⟨hgate, hplan⟩ := hkeeps
    have haccepted : t.acceptedPlanSha256 = acceptPlan := by
      simp only [State.apply, State.reset] at ht
      split_ifs at ht
      cases ht
      cases c <;> rfl
    refine ⟨fun id => ?_, fun plan => ?_⟩
    · rw [hflags id]
      by_cases hid : id = j
      · subst hid
        cases acceptGate with
        | true => simp [Event.flags, Grants.note]
        | false =>
          have hfalse := hgate.resolve_left (by simp)
          have hmem := h.gates id
          rw [show (s.flags id).acceptGateChange = (s.node id).acceptGateChange from rfl,
            hfalse] at hmem
          simpa [Event.flags, Grants.note] using hmem
      · cases acceptGate <;> simp [Event.flags, Grants.note, hid, h.gates id]
    · rw [haccepted]
      simp only [Grants.note, Finset.mem_union, Option.mem_toFinset, Option.mem_def, ← h.plans plan]
      obtain hnone | hsame := hplan
      · simp [hnone]
      · rw [hsame, or_self]
  | registered plan gates authority transition consumes =>
    have hgates : ∀ id, (t.flags id).acceptGateChange = decide (id ∈ g.gates) := fun id =>
      (congrArg Flags.acceptGateChange (hflags id)).trans (h.gates id)
    by_cases hconsumes : transition.isSome ∨ consumes = true
    · obtain ⟨hchanged, hplan⟩ := hkeeps hconsumes
      have hnone : t.acceptedPlanSha256 = none := by
        obtain ⟨-, ⟨hsame, -⟩ | ⟨_, _, -, -, -, -, -, rfl⟩ | ⟨-, -, -, rfl⟩⟩ := registered_cases ht
        · rw [hchanged] at hsame
          cases hsame
        · rfl
        · rfl
      rw [Grants.note, if_pos hconsumes]
      refine ⟨hgates, fun other => ?_⟩
      rw [hnone, h.plans_erase hplan]
      simp
    · rw [Grants.note, if_neg hconsumes]
      refine ⟨hgates, fun other => ?_⟩
      have hsame : t.acceptedPlanSha256 = s.acceptedPlanSha256 := by
        cases transition with
        | some value => exact absurd (.inl rfl) hconsumes
        | none =>
          have hfalse : consumes = false := by simpa using hconsumes
          subst hfalse
          rw [eq_bindPlan_of_registered ht]
          rfl
      rw [hsame]
      exact h.plans other
  | gateChanged j gate | gateLineage j predecessor successor c =>
    refine ⟨fun id => ?_, fun plan => ?_⟩
    · rw [hflags id]
      by_cases hid : id = j
      · simp [Event.flags, Grants.note, hid]
      · simp [Event.flags, Grants.note, hid, h.gates id]
    · rw [acceptedPlan_of_apply ht (by simp) (by simp)]
      exact h.plans plan
  | blocked j | extended j launches reason | resumed j =>
    refine ⟨fun id => ?_, fun plan => ?_⟩
    · rw [hflags id, Event.flags]
      split_ifs with hid
      · rw [hid]
        exact h.gates j
      · exact h.gates id
    · rw [acceptedPlan_of_apply ht (by simp) (by simp)]
      exact h.plans plan
  | _ =>
    refine ⟨fun id => ?_, fun plan => ?_⟩
    · rw [hflags id]
      exact h.gates id
    · rw [acceptedPlan_of_apply ht (by simp) (by simp)]
      exact h.plans plan

/-! ## Calls that give nothing up -/

/-- A reset that is accepted gives no authorization up: it finds none on its node or gives it again,
and it finds no plan authorized but the one that it authorizes. A transition that is accepted finds
no plan authorized but its own. -/
def Preserving (config : BudgetConfig) (s : State) (op : Operation) : Prop :=
  (s.run config op).result = .ok () →
    match op with
    | .reset id _ acceptGateChange acceptPlan _ =>
      (acceptGateChange = true ∨ (s.node id).acceptGateChange = false) ∧
        (s.acceptedPlanSha256 = none ∨ s.acceptedPlanSha256 = acceptPlan)
    | .register plan _ _ (some _) => s.changedPlan plan = true →
      s.acceptedPlanSha256 = none ∨ s.acceptedPlanSha256 = some plan
    | _ => True

theorem along_of_quiet {es : List Event} (h : ∀ e ∈ es, ∀ s, GivesNothingUp s e) (s : State) :
    Along State.apply GivesNothingUp s es := along_of_forall h s

theorem along_registrationEvents {transition : Option Json} {checked : Option PlanVersionTransition}
    (h : Checked s authority plan gates transition checked)
    (hplan : transition.isSome → s.changedPlan plan = true →
      s.acceptedPlanSha256 = none ∨ s.acceptedPlanSha256 = some plan) :
    Along State.apply GivesNothingUp s (s.registrationEvents authority plan gates checked) := by
  cases h with
  | @transition t changed valid binds allowance =>
    refine ⟨True.intro, fun m hm => ⟨fun _ => ?_, fun u _ => ?_⟩⟩
    · obtain ⟨_, _, -, -, -, -, rfl⟩ := structuralDecision_cases hm
      exact ⟨changed, hplan rfl changed⟩
    · refine along_of_quiet (fun e he m => ?_) u
      obtain ⟨p, -, rfl⟩ := List.mem_map.1 he
      exact True.intro
  | accepted changed accepted =>
    rw [registrationEvents, if_pos changed]
    exact ⟨fun _ => ⟨changed, .inr accepted⟩, fun _ _ => True.intro⟩
  | same same =>
    rw [registrationEvents, same, if_neg Bool.false_ne_true]
    exact True.intro
  | replay same consumed =>
    rw [registrationEvents, same, if_neg Bool.false_ne_true]
    exact True.intro

theorem along_registerEvents {recovery transition : Option Json}
    {checked : Option PlanVersionTransition}
    (h : Registers s plan gates recovery transition authority checked)
    (hplan : transition.isSome → s.changedPlan plan = true →
      s.acceptedPlanSha256 = none ∨ s.acceptedPlanSha256 = some plan) :
    Along State.apply GivesNothingUp s (s.registerEvents authority plan gates checked) := by
  rw [registerEvents]
  split_ifs with hv
  · refine ⟨fun hconsumes => ?_, fun _ _ => True.intro⟩
    exact absurd hconsumes (by simp)
  · have hchanges : Along State.apply GivesNothingUp s
        (changeEvents (s.neededChanges gates.items)) := by
      refine along_of_quiet (fun e he m => ?_) s
      obtain ⟨p, -, rfl⟩ := List.mem_map.1 he
      exact True.intro
    refine hchanges.append fun m hm => ?_
    obtain rfl := Option.some.inj ((replay_changeEvents s _).symm.trans hm)
    have hcontrol := control_changeGates s (s.neededChanges gates.items)
    rw [← registrationEvents_congr hcontrol]
    refine along_registrationEvents (h.checked.changeGates _) fun hsome hchanged => ?_
    rw [changedPlan_congr hcontrol] at hchanged
    rw [show State.acceptedPlanSha256 _ = _ from congrArg Control.acceptedPlanSha256 hcontrol]
    exact hplan hsome hchanged

/-- **What a preserving call appends gives nothing up.** -/
theorem along_of_preserving {config : BudgetConfig} {op : Operation} (h : Preserving config s op) :
    Along State.apply GivesNothingUp s (s.appends config op) := by
  have hwrites := writes_of_mem_appends config s op
  cases op with
  | reset id reason acceptGate acceptPlan c =>
    simp only [Preserving, run, resetOp] at h
    simp only [appends, run, resetOp]
    split_ifs with hbad
    · exact True.intro
    · rw [if_neg hbad] at h
      exact ⟨h rfl, fun _ _ => True.intro⟩
  | register plan gates recovery transition =>
    rcases register_cases s plan gates recovery transition with ⟨e, he⟩ | ⟨a, checked, hregisters⟩
    · rw [appends, run, he]
      exact True.intro
    · have hok : (s.run config (.register plan gates recovery transition)).result = .ok () := by
        rw [run, hregisters.register_eq]
        rfl
      rw [appends, run, hregisters.register_eq]
      refine along_registerEvents hregisters fun hsome => ?_
      cases transition with
      | none => cases hsome
      | some value => exact h hok
  | _ =>
    refine along_of_quiet (fun e he => ?_) s
    have hwrite := hwrites e he
    intro m
    cases e <;> first | exact True.intro | cases hwrite

/-- **Authorizations are kept.** In every ledger that preserving calls leave behind, each one
finished or cut off, the fold holds exactly the authorizations that were given and that no change
has used. -/
theorem authorizations_kept {config : BudgetConfig} {ledger : Ledger}
    (h : Reaches State.apply {} (State.appends config) (fun s op _ => Preserving config s op) ledger)
    {s : State} (hs : fold ledger = some s) :
    (∀ id, (s.node id).acceptGateChange = true ↔ id ∈ (grants ledger).gates) ∧
      ∀ plan, s.acceptedPlanSha256 = some plan ↔ plan ∈ (grants ledger).plans := by
  have hholds : s.HoldsGrants (grants ledger) := by
    refine h.induction (P := fun log s => s.HoldsGrants (grants log)) ?_ ?_ hs
    · exact ⟨fun _ => rfl, fun _ => iff_of_false nofun (Finset.notMem_empty _)⟩
    · intro log m op k t hm hpreserving ht
      rw [grants, List.foldl_append]
      exact ((along_of_preserving hpreserving).take k).agrees Grants.note HoldsGrants
        (fun _ _ _ _ hkeeps hr happly => hr.apply hkeeps happly) hm ht
  refine ⟨fun id => ?_, hholds.plans⟩
  have hgate : (s.node id).acceptGateChange = decide (id ∈ (grants ledger).gates) := hholds.gates id
  rw [hgate, decide_eq_true_iff]

/-! ## A second reset -/

def twoNodes : Operation :=
  .register firstPlan (Dict.ofList [("node", "gate"), ("other", "gate")]) none none

/-- Relief for the gate of a node and for the revised plan, given again with the relief for another
node; a launch uses the first. -/
theorem authorizations_kept_of_launch : ∃ ledger s, fold ledger = some s ∧
    (grants ledger).gates = {"other"} ∧ (grants ledger).plans = {revisedPlan} ∧
    (∀ id, (s.node id).acceptGateChange = true ↔ id ∈ (grants ledger).gates) ∧
      ∀ plan, s.acceptedPlanSha256 = some plan ↔ plan ∈ (grants ledger).plans := by
  have hregister : Reaches State.apply {} (State.appends {}) (fun s op _ => Preserving {} s op) _ :=
    .append twoNodes 1 .nil rfl fun _ => True.intro
  have hnode : Reaches State.apply {} (State.appends {}) (fun s op _ => Preserving {} s op) _ :=
    .append (.reset "node" "relief" true (some revisedPlan) .full) 1 hregister rfl
      (by exact fun _ => ⟨.inl rfl, .inl rfl⟩)
  have hother : Reaches State.apply {} (State.appends {}) (fun s op _ => Preserving {} s op) _ :=
    .append (.reset "other" "relief" true (some revisedPlan) .full) 1 hnode rfl
      (by exact fun _ => ⟨.inl rfl, .inr rfl⟩)
  have hlaunch : Reaches State.apply {} (State.appends {}) (fun s op _ => Preserving {} s op) _ :=
    .append (.reserve "node" "changed" [] .indeterminate none none "r1") 2 hother rfl
      (by exact fun _ => True.intro)
  exact ⟨_, _, rfl, by decide, by decide, authorizations_kept hlaunch rfl⟩

/-- **A reset of another node takes the authorization of a plan back**, and its registration is
refused. -/
theorem authorization_erased : ∃ ledger s,
    Reaches State.apply {} (State.appends {}) (fun _ _ _ => True) ledger ∧ fold ledger = some s ∧
    revisedPlan ∈ (grants ledger).plans ∧ s.acceptedPlanSha256 = none ∧
    ∃ m, s.register revisedPlan (Dict.ofList [("node", "gate"), ("other", "gate")]) none none =
      .refused m := by
  have hregister : Reaches State.apply {} (State.appends {}) (fun _ _ _ => True) _ :=
    .append twoNodes 1 .nil rfl True.intro
  have hnode : Reaches State.apply {} (State.appends {}) (fun _ _ _ => True) _ :=
    .append (.reset "node" "relief" false (some revisedPlan) .full) 1 hregister rfl True.intro
  have hother : Reaches State.apply {} (State.appends {}) (fun _ _ _ => True) _ :=
    .append (.reset "other" "relief" false none .full) 1 hnode rfl True.intro
  exact ⟨_, _, hother, rfl, by decide, rfl, _, rfl⟩

end State

end HarnessLabs.Budget
