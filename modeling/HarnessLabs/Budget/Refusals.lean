import HarnessLabs.Budget.Limits

/-!
# Refused operations

An operation that raises should leave the ledger as it was. Every operation checks before it
appends, except `reserve`: it records the gate change that the operator authorized, and only then
looks whether the node may launch at all.

* `run_refused` — every other operation refuses without a trace.
* `refusal_atomic_iff` — **a refusal is atomic unless a launch is refused behind its gate change.**
-/

namespace HarnessLabs.Budget

namespace State

/-- A refused call appends nothing, so the fold of the ledger stays what it is. -/
def RefusesAtomically (config : BudgetConfig) (s : State) (op : Operation) : Prop :=
  ∀ message, (s.run config op).result = .error message →
    (s.run config op).appended = [] ∧ s.applyAll (s.run config op).appended = some s

/-- A launch under a changed gate, for which the operator's authorization is pending, of a node
that is blocked or has no capacity left. -/
def SpendsGateChange (config : BudgetConfig) (s : State) : Operation → Prop
  | .reserve id gate keys c reason attempt _ =>
    ∃ normalized, failureKeys keys reason = .ok normalized ∧ attempt ≠ some "" ∧
      s.assertGateChangeAuthorized id gate false = .ok true ∧
      ((s.node id).blocked = true ∨ s.assertCapacity config id normalized c ≠ .ok ())
  | _ => False

/-! ## What a refusal leaves -/

theorem Outcome.appended_of_refused {o : Outcome} (h : (∃ m, o = .refused m) ∨ o.result = .ok ())
    {message : String} (hm : o.result = .error message) : o.appended = [] := by
  rcases h with ⟨m, rfl⟩ | hok
  · rfl
  · rw [hok] at hm
    cases hm

theorem register_refused (s : State) (plan : String) (gates : Dict String String)
    (recovery transition : Option Json) :
    (∃ m, s.register plan gates recovery transition = .refused m) ∨
      (s.register plan gates recovery transition).result = .ok () := by
  rcases s.register_cases plan gates recovery transition with h | ⟨authority, checked, h⟩
  · exact .inl h
  · exact .inr (by rw [h.register_eq]; rfl)

theorem importChildEvidence_refused (s : State) (id : String)
    (evidence : Option VerificationEvidence) :
    (∃ m, s.importChildEvidence id evidence = .refused m) ∨
      (s.importChildEvidence id evidence).result = .ok () := by
  cases evidence with
  | none => exact .inr rfl
  | some e =>
    cases hf : childFacts e with
    | error m => exact .inl ⟨m, by simp only [importChildEvidence, hf]⟩
    | ok facts => exact .inr (by simp only [importChildEvidence, hf]; rfl)

/-- A check in front of what an operation appends. -/
theorem guarded_refused (p : Prop) [Decidable p] (message : String) (events : List Event) :
    (∃ m, (if p then Outcome.refused message else .accepted events) = .refused m) ∨
      (if p then Outcome.refused message else .accepted events).result = .ok () := by
  by_cases hp : p
  · exact .inl ⟨message, if_pos hp⟩
  · exact .inr (by rw [if_neg hp]; rfl)

theorem transition_refused (s : State) (rid : String) (sources : List ReservationState)
    (message : String) (e : Event) :
    (∃ m, s.transition rid sources message e = .refused m) ∨
      (s.transition rid sources message e).result = .ok () := by
  rcases s.transition_cases rid sources message e with h | ⟨r, -, -, h⟩
  · exact .inl h
  · exact .inr (by rw [h]; rfl)

/-- **Every operation but `reserve` refuses without a trace.** -/
theorem run_refused (config : BudgetConfig) (s : State) (op : Operation)
    (hop : ∀ id gate keys c reason attempt rid, op ≠ .reserve id gate keys c reason attempt rid) :
    (∃ m, s.run config op = .refused m) ∨ (s.run config op).result = .ok () := by
  cases op with
  | register plan gates recovery transition => exact s.register_refused plan gates recovery transition
  | reserve id gate keys c reason attempt rid => exact absurd rfl (hop id gate keys c reason attempt rid)
  | started rid => exact s.transition_refused ..
  | completed rid status tokens => exact s.transition_refused ..
  | abandon id disposition reason attempt => exact guarded_refused ..
  | reconcileAttempt attempt disposition reason live =>
    by_cases ha : attempt = ""
    · exact .inl ⟨_, if_pos ha⟩
    by_cases hr : reason = ""
    · exact .inl ⟨_, (if_neg ha).trans (if_pos hr)⟩
    · rw [run, reconcileAttempt, if_neg ha, if_neg hr]
      exact guarded_refused ..
  | applyRecoveryDecision decision prior =>
    rcases s.applyRecoveryDecision_cases decision prior with h | ⟨authority, d, e, -, h⟩
    · exact .inl h
    · exact .inr (by rw [run, h]; rfl)
  | importChildEvidence id evidence => exact s.importChildEvidence_refused id evidence
  | extend id launches reason => exact guarded_refused ..
  | reset id reason acceptGate acceptPlan c => exact guarded_refused ..

/-- The launch is refused exactly when the node is blocked or out of capacity. -/
theorem reserveLaunch_cases (s : State) (config : BudgetConfig) (id gate : String)
    (keys : List String) (c : Classification) (attempt : Option String) (rid : String) :
    (((s.node id).blocked = true ∨ s.assertCapacity config id keys c ≠ .ok ()) ∧
      ∃ m, s.reserveLaunch config id gate keys c attempt rid = .refused m) ∨
    ((s.node id).blocked = false ∧ s.assertCapacity config id keys c = .ok () ∧
      (s.reserveLaunch config id gate keys c attempt rid).result = .ok ()) := by
  cases hb : (s.node id).blocked with
  | true => exact .inl ⟨.inl rfl, _, if_pos hb⟩
  | false =>
    cases hc : s.assertCapacity config id keys c with
    | error m => exact .inl ⟨.inr nofun, m, by simp only [reserveLaunch, hb, hc]; rfl⟩
    | ok _ => exact .inr ⟨rfl, rfl, by rw [reserveLaunch_ok gate hb hc]; rfl⟩

/-- **A refused reservation leaves its gate change exactly when it spends one.** -/
theorem reserve_refused_iff (config : BudgetConfig) (s : State) (id gate : String)
    (keys : List String) (c : Classification) (reason attempt : Option String) (rid : String) :
    (∃ m, s.reserve config id gate keys c reason attempt rid = ⟨[.gateChanged id gate], .error m⟩) ∧
        SpendsGateChange config s (.reserve id gate keys c reason attempt rid) ∨
      ((∃ m, s.reserve config id gate keys c reason attempt rid = .refused m) ∨
        (s.reserve config id gate keys c reason attempt rid).result = .ok ()) ∧
        ¬ SpendsGateChange config s (.reserve id gate keys c reason attempt rid) := by
  cases hk : failureKeys keys reason with
  | error m =>
    refine .inr ⟨.inl ⟨m, by simp only [reserve, hk]⟩, ?_⟩
    rintro ⟨normalized, hn, -⟩
    cases hk.symm.trans hn
  | ok normalized =>
    by_cases ha : attempt = some ""
    · exact .inr ⟨.inl ⟨_, by simp only [reserve, hk, if_pos ha]; rfl⟩, fun h => h.choose_spec.2.1 ha⟩
    cases hg : s.assertGateChangeAuthorized id gate false with
    | error m =>
      refine .inr ⟨.inl ⟨m, by simp only [reserve, hk, if_neg ha, hg]⟩, ?_⟩
      rintro ⟨-, -, -, hauth, -⟩
      cases hg.symm.trans hauth
    | ok change =>
      have hlaunch := s.reserveLaunch_cases config id gate normalized c attempt rid
      cases change with
      | false =>
        have heq : s.reserve config id gate keys c reason attempt rid =
            s.reserveLaunch config id gate normalized c attempt rid := by
          simp only [reserve, hk, if_neg ha, hg]
        refine .inr ⟨?_, ?_⟩
        · rw [heq]
          rcases hlaunch with ⟨-, h⟩ | ⟨-, -, h⟩
          · exact .inl h
          · exact .inr h
        · rintro ⟨-, -, -, hauth, -⟩
          cases hg.symm.trans hauth
      | true =>
        have heq : s.reserve config id gate keys c reason attempt rid =
            (s.reserveLaunch config id gate normalized c attempt rid).prepend
              [.gateChanged id gate] := by
          simp only [reserve, hk, if_neg ha, hg, reserveLaunch_gateChanged]
        rw [heq]
        rcases hlaunch with ⟨hfull, m, h⟩ | ⟨hb, hc, h⟩
        · exact .inl ⟨⟨m, by rw [h]; rfl⟩, normalized, hk, ha, hg, hfull⟩
        · refine .inr ⟨.inr h, ?_⟩
          rintro ⟨other, hother, -, -, hfull⟩
          obtain rfl : normalized = other := Except.ok.inj (hk.symm.trans hother)
          rcases hfull with hblocked | hcapacity
          · cases hb.symm.trans hblocked
          · exact hcapacity hc

/-- **Refusals are atomic, except that a launch refused by the capacity checks keeps the gate
change it recorded on the way.** -/
theorem refusal_atomic_iff (config : BudgetConfig) (s : State) (op : Operation) :
    RefusesAtomically config s op ↔ ¬ SpendsGateChange config s op := by
  have hquiet : (∃ m, s.run config op = .refused m) ∨ (s.run config op).result = .ok () →
      RefusesAtomically config s op := by
    intro h message hm
    have hnil := Outcome.appended_of_refused h hm
    exact ⟨hnil, by rw [hnil]; rfl⟩
  cases op with
  | reserve id gate keys c reason attempt rid =>
    rcases reserve_refused_iff config s id gate keys c reason attempt rid with
      ⟨⟨m, hm⟩, hspends⟩ | ⟨h, hspends⟩
    · refine iff_of_false (fun hatomic => ?_) (not_not.2 hspends)
      have hrun : s.run config (.reserve id gate keys c reason attempt rid) =
          ⟨[.gateChanged id gate], .error m⟩ := hm
      have happended := (hatomic m (by rw [hrun])).1
      rw [hrun] at happended
      cases happended
    · exact iff_of_true (hquiet h) hspends
  | _ => exact iff_of_true (hquiet (run_refused config s _ nofun)) id

/-! ## An authorization spent on a refused launch -/

/-- A node whose single launch of its class is used, with a gate change authorized. -/
def authorizedLedger : Ledger :=
  [.registered "plan" (Dict.ofList [("node", "gate")]) .none none false,
    launchEvent "first" "node" "gate" [] .policyViolation none,
    .reset "node" "new gate" true none .full]

theorem reaches_authorizedLedger :
    EventLog.Reaches State.apply {} (State.appends {}) (fun _ _ _ => True) authorizedLedger := by
  have hregister : EventLog.Reaches State.apply {} (State.appends {}) (fun _ _ _ => True) _ :=
    .append (.register "plan" (Dict.ofList [("node", "gate")]) none none) 1 .nil rfl trivial
  have hlaunch : EventLog.Reaches State.apply {} (State.appends {}) (fun _ _ _ => True) _ :=
    .append (.reserve "node" "gate" [] .policyViolation none none "first") 1 hregister rfl trivial
  exact .append (.reset "node" "new gate" true none .full) 1 hlaunch rfl trivial

def changedLaunch : Operation :=
  .reserve "node" "other gate" [] .policyViolation none none "second"

/-- The launch is refused for want of capacity; its gate is bound, the authorization is gone, and
now a launch under the gate that was registered is refused as well. -/
theorem refused_launch_spends_authorization : ∃ s, fold authorizedLedger = some s ∧
    EventLog.Reaches State.apply {} (State.appends {}) (fun _ _ _ => True) authorizedLedger ∧
    (s.node "node").acceptGateChange = true ∧
    (s.run {} changedLaunch).result =
      .error "retry budget exhausted for node node; operator relief required" ∧
    (∃ t, s.applyAll (s.run {} changedLaunch).appended = some t ∧
      t.gates.get? "node" = some "other gate" ∧ (t.node "node").acceptGateChange = false ∧
      (t.run {} (.reserve "node" "gate" [] .product none none "third")).result =
        .error "gate-change block (gate_identity_v1_incomplete); operator relief required" ∧
      (s.run {} (.reserve "node" "gate" [] .product none none "third")).result = .ok ()) ∧
    ¬ RefusesAtomically {} s changedLaunch := by
  obtain ⟨s, hs, haccept, hresult, t, ht, hgates, hspent, hblocked, hopen⟩ :
      ∃ s, fold authorizedLedger = some s ∧ (s.node "node").acceptGateChange = true ∧
      (s.run {} changedLaunch).result =
        .error "retry budget exhausted for node node; operator relief required" ∧
      ∃ t, s.applyAll (s.run {} changedLaunch).appended = some t ∧
      t.gates.get? "node" = some "other gate" ∧ (t.node "node").acceptGateChange = false ∧
      (t.run {} (.reserve "node" "gate" [] .product none none "third")).result =
        .error "gate-change block (gate_identity_v1_incomplete); operator relief required" ∧
      (s.run {} (.reserve "node" "gate" [] .product none none "third")).result = .ok () :=
    ⟨_, rfl, rfl, rfl, _, rfl, rfl, rfl, rfl, rfl⟩
  refine ⟨s, hs, reaches_authorizedLedger, haccept, hresult,
    ⟨t, ht, hgates, hspent, hblocked, hopen⟩, fun hatomic => ?_⟩
  have hsame := (hatomic _ hresult).2.symm.trans ht
  obtain rfl : s = t := Option.some.inj hsame
  exact nomatch haccept.symm.trans hspent

end State

end HarnessLabs.Budget
