import HarnessLabs.Budget.Verdict

/-!
# The plan that a registration leaves active

A registration is accepted when its plan is one of those that the lineage knows. Only a plan that
the lineage does not know is recorded, and with it becomes active.

* `register_activates_iff` — **an accepted registration leaves its plan active, with its gates,
  exactly when the plan is new or active already**, and no transition is half recorded before a
  transition.

The gates are those given in every case: the second loop of a registration records each change, and
a change of the plan replaces them all.
-/

namespace HarnessLabs.Budget

open EventLog

namespace State

/-- The lineage is on the plan, with its gates. -/
structure OnPlan (s : State) (plan : String) (gates : Dict String String) : Prop where
  active : s.activePlanSha256 = some plan
  gates : ∀ p ∈ gates.items, s.gates.get? p.1 = some p.2

/-! ## Gates -/

theorem onPlan_bindPlan (s : State) (plan : String) (gates : Dict String String)
    (authority : AutomaticRecoveryAuthority) (changed : Bool) :
    (s.bindPlan plan gates authority changed).OnPlan plan gates := by
  refine ⟨rfl, fun p hp => ?_⟩
  cases changed with
  | true => exact Dict.get?_eq_some_iff.2 hp
  | false => exact Dict.get?_update_of_mem s.gates hp

/-- Behind the needed changes every node has its gate. -/
theorem gates_changeGates_needed (s : State) (gates : Dict String String) :
    ∀ p ∈ gates.items, (s.changeGates (s.neededChanges gates.items)).gates.get? p.1 = some p.2 := by
  intro p hp
  have hsub : ((s.neededChanges gates.items).map Prod.fst).Sublist (gates.items.map Prod.fst) :=
    List.filter_sublist.map Prod.fst
  by_cases hneeded : p ∈ s.neededChanges gates.items
  · exact get?_gates_changeGates (hsub.nodup gates.nodup) hneeded
  · have hbound : s.gates.get? p.1 = some p.2 := by
      by_contra hne
      exact hneeded (List.mem_filter.2 ⟨hp, decide_eq_true hne⟩)
    by_cases hkey : p.1 ∈ (s.neededChanges gates.items).map Prod.fst
    · obtain ⟨q, hq, hfst⟩ := List.mem_map.1 hkey
      have hsame : q = p := by
        have hqitem := List.mem_of_mem_filter hq
        have hget := Dict.get?_eq_some_iff.2 hqitem
        rw [hfst, Dict.get?_eq_some_iff.2 hp] at hget
        exact Prod.ext hfst (Option.some.inj hget).symm
      exact absurd (hsame ▸ hq) hneeded
    · rw [get?_gates_changeGates_of_notMem hkey, hbound]

/-! ## Registration -/

theorem allowed_of_reaches {config : BudgetConfig} {cut : State → Operation → ℕ → Prop}
    {ledger : Ledger} (h : Reaches State.apply {} (State.appends config) cut ledger) {s : State}
    (hs : fold ledger = some s) : s.Allowed := by
  refine h.induction (P := fun _ s => s.Allowed) ready_init.toAllowed ?_ hs
  exact fun _ _ _ _ _ hm _ ht => allowed_of_replay hm ht

theorem changedPlan_eq_true {s : State} {plan : String} :
    s.changedPlan plan = true ↔ s.planSha256.Nonempty ∧ plan ∉ s.planSha256 := by
  simp [changedPlan]

/-- What a registration of a known lineage leaves, behind its gate changes. -/
theorem registrationEvents_activates_iff {s : State} {authority : AutomaticRecoveryAuthority}
    {plan : String} {gates : Dict String String} {transition : Option Json}
    {checked : Option PlanVersionTransition} (hallowed : s.Allowed) (hknown : s.planSha256.Nonempty)
    (immutable : s.authority = none ∨ s.authority = some authority)
    (hgates : ∀ p ∈ gates.items, s.gates.get? p.1 = some p.2)
    (h : Checked s authority plan gates transition checked) :
    (∃ t, s.applyAll (s.registrationEvents authority plan gates checked) = some t ∧
      t.OnPlan plan gates) ↔
        (plan ∈ s.planSha256 → s.activePlanSha256 = some plan) ∧
          (s.changedPlan plan = true → transition.isSome →
            s.pendingPlanTransitionDecision = none) := by
  have hsame : s.changedPlan plan = false →
      ((∃ t, s.applyAll [] = some t ∧ t.OnPlan plan gates) ↔
        plan ∈ s.planSha256 → s.activePlanSha256 = some plan) := by
    intro hunchanged
    have hmem : plan ∈ s.planSha256 := by
      by_contra hnew
      rw [changedPlan_eq_true.2 ⟨hknown, hnew⟩] at hunchanged
      cases hunchanged
    constructor
    · rintro ⟨t, ht, honPlan⟩ _
      cases ht
      exact honPlan.active
    · intro hactive
      exact ⟨s, rfl, hactive hmem, hgates⟩
  cases h with
  | @transition t changed valid binds allowance =>
    have hnew : plan ∉ s.planSha256 := (changedPlan_eq_true.1 changed).2
    cases hpending : s.pendingPlanTransitionDecision with
    | none =>
      refine iff_of_true ?_ ⟨fun hmem => absurd hmem hnew, fun _ _ => rfl⟩
      have hready : s.Ready := { hallowed with noPending := hpending }
      refine ⟨_, (replay_registrationEvents hready immutable
        (.transition changed valid binds allowance)).1, ?_, ?_⟩
      · exact congrArg Control.activePlanSha256 (control_carryOver _ _)
      · intro p hp
        rw [registrationState, gates_carryOver]
        exact (onPlan_bindPlan _ plan gates authority true).gates p hp
    | some value =>
      -- The structural decision is refused, as one is recorded already.
      refine iff_of_false ?_ fun hcondition => by cases hcondition.2 changed rfl
      intro hreplays
      obtain ⟨u, hu, -⟩ := hreplays
      obtain ⟨m, hm, -⟩ := Option.bind_eq_some_iff.1 hu
      obtain ⟨_, _, -, -, hnone, -⟩ := structuralDecision_cases hm
      rw [hpending] at hnone
      cases hnone
  | accepted changed accepted =>
    have ha : s.authority = some authority :=
      immutable.resolve_left (hallowed.authorized hknown)
    have hnew : plan ∉ s.planSha256 := (changedPlan_eq_true.1 changed).2
    refine iff_of_true ?_ ⟨fun hmem => absurd hmem hnew, fun _ hsome => by cases hsome⟩
    rw [registrationEvents, if_pos changed]
    exact ⟨_, replay_cons_of (apply_registered_accepted ha changed accepted) [],
      onPlan_bindPlan _ plan gates authority true⟩
  | same same =>
    rw [registrationEvents, same, if_neg Bool.false_ne_true, hsame same]
    exact ⟨fun hactive => ⟨hactive, by simp⟩, fun h => h.1⟩
  | replay same consumed =>
    rw [registrationEvents, same, if_neg Bool.false_ne_true, hsame same]
    exact ⟨fun hactive => ⟨hactive, by simp⟩, fun h => h.1⟩

/-- **An accepted registration leaves its plan active** exactly when the plan is new or active, and
no transition is half recorded before a transition. -/
theorem register_activates_iff {config : BudgetConfig} {ledger : Ledger}
    (h : Reaches State.apply {} (State.appends config) (fun _ _ _ => True) ledger) {s : State}
    (hs : fold ledger = some s) {plan : String} {gates : Dict String String}
    {recovery transition : Option Json}
    (hok : (s.register plan gates recovery transition).result = .ok ()) :
    (∃ t, fold (ledger ++ (s.register plan gates recovery transition).appended) = some t ∧
      t.activePlanSha256 = some plan ∧ ∀ p ∈ gates.items, t.gates.get? p.1 = some p.2) ↔
        (plan ∈ s.planSha256 → s.activePlanSha256 = some plan) ∧
          (s.changedPlan plan = true → transition.isSome →
            s.pendingPlanTransitionDecision = none) := by
  have hallowed := allowed_of_reaches h hs
  have hstates : (∃ t, fold (ledger ++ (s.register plan gates recovery transition).appended) = some t ∧
      t.activePlanSha256 = some plan ∧ ∀ p ∈ gates.items, t.gates.get? p.1 = some p.2) ↔
        ∃ t, s.applyAll (s.register plan gates recovery transition).appended = some t ∧
          t.OnPlan plan gates := by
    rw [fold, applyAll, replay_append_of hs]
    constructor
    · rintro ⟨t, ht, hactive, hgates⟩
      exact ⟨t, ht, hactive, hgates⟩
    · rintro ⟨t, ht, honPlan⟩
      exact ⟨t, ht, honPlan.active, honPlan.gates⟩
  rw [hstates]
  rcases register_cases s plan gates recovery transition with ⟨e, he⟩ | ⟨authority, checked, hreg⟩
  · rw [he] at hok
    cases hok
  rw [hreg.register_eq, Outcome.accepted_appended, registerEvents]
  by_cases hfirst : s.planSha256 = ∅
  · rw [if_pos hfirst]
    refine iff_of_true ?_ ⟨fun hmem => ?_, fun hchanged => ?_⟩
    · exact ⟨_, replay_cons_of (apply_registered_first hfirst hreg.immutable) [],
        onPlan_bindPlan s plan gates authority false⟩
    · rw [hfirst] at hmem
      exact absurd hmem (Finset.notMem_empty _)
    · rw [changedPlan_of_unregistered hfirst] at hchanged
      cases hchanged
  · rw [if_neg hfirst]
    have hcontrol := control_changeGates s (s.neededChanges gates.items)
    have hknown : (s.changeGates (s.neededChanges gates.items)).planSha256.Nonempty := by
      rw [show State.planSha256 _ = _ from congrArg Control.planSha256 hcontrol]
      exact Finset.nonempty_iff_ne_empty.2 hfirst
    have hallowedChanged : (s.changeGates (s.neededChanges gates.items)).Allowed := by
      rw [Allowed, hcontrol]
      exact hallowed
    have himmutable : (s.changeGates (s.neededChanges gates.items)).authority = none ∨
        (s.changeGates (s.neededChanges gates.items)).authority = some authority := by
      rw [show State.authority _ = _ from congrArg Control.authority hcontrol]
      exact hreg.immutable
    have hiff := registrationEvents_activates_iff hallowedChanged hknown himmutable
      (gates_changeGates_needed s gates) (hreg.checked.changeGates _)
    rw [registrationEvents_congr hcontrol, changedPlan_congr hcontrol,
      show State.planSha256 _ = _ from congrArg Control.planSha256 hcontrol,
      show State.activePlanSha256 _ = _ from congrArg Control.activePlanSha256 hcontrol,
      show State.pendingPlanTransitionDecision _ = _ from congrArg Control.pending hcontrol] at hiff
    rw [applyAll, replay_append_of (replay_changeEvents s _)]
    exact hiff

/-! ## A plan that was superseded -/

def acceptedChange : Operation := .reset "node" "relief" false (some revisedPlan) .full

def changedRegistration : Operation :=
  .register revisedPlan (Dict.ofList [("node", "gate")]) none none

/-- An authorized change of the plan makes the new plan active. -/
theorem register_activates_change : ∃ ledger s, fold ledger = some s ∧
    s.activePlanSha256 = some firstPlan ∧
    ∃ t, fold (ledger ++ (s.register revisedPlan (Dict.ofList [("node", "gate")]) none none).appended) =
      some t ∧ t.activePlanSha256 = some revisedPlan ∧
      ∀ p ∈ (Dict.ofList [("node", "gate")] : Dict String String).items,
        t.gates.get? p.1 = some p.2 := by
  have hregister : Reaches State.apply {} (State.appends {}) (fun _ _ _ => True) _ :=
    .append oneNode 1 .nil rfl True.intro
  have hreset : Reaches State.apply {} (State.appends {}) (fun _ _ _ => True) _ :=
    .append acceptedChange 1 hregister rfl True.intro
  exact ⟨_, _, rfl, rfl, (register_activates_iff hreset rfl rfl).2
    ⟨fun hmem => absurd hmem (by decide), fun _ hsome => nomatch hsome⟩⟩

/-- **A superseded plan is registered again and stays superseded.** -/
theorem superseded_plan_accepted : ∃ ledger s,
    Reaches State.apply {} (State.appends {}) (fun _ _ _ => True) ledger ∧ fold ledger = some s ∧
    (s.register firstPlan (Dict.ofList [("node", "gate")]) none none).result = .ok () ∧
    ∃ t, fold (ledger ++ (s.register firstPlan (Dict.ofList [("node", "gate")]) none none).appended) =
      some t ∧ t.activePlanSha256 = some revisedPlan := by
  have hregister : Reaches State.apply {} (State.appends {}) (fun _ _ _ => True) _ :=
    .append oneNode 1 .nil rfl True.intro
  have hreset : Reaches State.apply {} (State.appends {}) (fun _ _ _ => True) _ :=
    .append acceptedChange 1 hregister rfl True.intro
  have hchange : Reaches State.apply {} (State.appends {}) (fun _ _ _ => True) _ :=
    .append changedRegistration 1 hreset rfl True.intro
  exact ⟨_, _, hchange, rfl, rfl, _, rfl, rfl⟩

end State

end HarnessLabs.Budget
