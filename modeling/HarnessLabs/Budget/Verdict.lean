import HarnessLabs.Budget.Authorizations
import HarnessLabs.Budget.Refusals

/-!
# The verdict of a resume

A resume asks for a verdict before it allocates work, and the launch reserves later. The verdict
lets an authorized gate change pass whether or not the node has a gate; the reservation refuses a
node without one.

* `State.verdict` — the read-only check.
* `unblocked_of_reaches` — no call of the ledger blocks a node, so the check that the verdict lacks
  never fails.
* `verdict_agrees_iff` — **both agree except on a node without a gate whose change is authorized and
  that has launches left.**
-/

namespace HarnessLabs.Budget

open EventLog

namespace State

/-! ## Verdict -/

/-- `_assert_gate`. -/
def assertGate (s : State) (id gate : String) : Except String Unit :=
  match s.gates.get? id with
  | none => .error s!"node {id} is not registered in retry lineage"
  | some known =>
    if known ≠ gate then
      .error "gate-change block (gate_identity_v1_incomplete); operator relief required"
    else .ok ()

/-- `verdict`. -/
def verdict (s : State) (config : BudgetConfig) (id gate : String) : Except String Unit := do
  if s.gates.get? id ≠ some gate ∧ (s.node id).acceptGateChange = false then s.assertGate id gate
  s.assertCapacity config id [] .indeterminate

variable {s : State} {id gate : String} {config : BudgetConfig}

theorem assertGate_ok :
    s.assertGate id gate = .ok () ↔ s.gates.get? id = some gate := by
  rw [assertGate]
  cases s.gates.get? id with
  | none => simp
  | some known => by_cases h : known = gate <;> simp [h]

theorem verdict_ok :
    s.verdict config id gate = .ok () ↔
      (s.gates.get? id = some gate ∨ (s.node id).acceptGateChange = true) ∧
        s.assertCapacity config id [] .indeterminate = .ok () := by
  by_cases hgate : s.gates.get? id = some gate
  · rw [verdict, if_neg fun h => h.1 hgate]
    exact ⟨fun h => ⟨.inl hgate, h⟩, fun h => h.2⟩
  · cases haccept : (s.node id).acceptGateChange with
    | true =>
      rw [verdict, if_neg (by rw [haccept]; exact nofun)]
      exact ⟨fun h => ⟨.inr rfl, h⟩, fun h => h.2⟩
    | false =>
      rw [verdict, if_pos ⟨hgate, haccept⟩]
      cases hassert : s.assertGate id gate with
      | ok _ => exact absurd (assertGate_ok.1 hassert) hgate
      | error m => exact iff_of_false nofun fun h => h.1.elim hgate nofun

/-! ## Reservation -/

theorem reserve_ok {rid : String} :
    (s.reserve config id gate [] .indeterminate none none rid).result = .ok () ↔
      Reserves s config id gate [] .indeterminate := by
  have hkeys : failureKeys [] none = .ok [] := rfl
  constructor
  · intro hok
    rcases reserve_cases s config id gate [] .indeterminate none none rid with
      ⟨e, he⟩ | ⟨e, -, -, he⟩ | ⟨keys, hread, -, h⟩
    · rw [he] at hok
      cases hok
    · rw [he] at hok
      cases hok
    · cases hkeys.symm.trans hread
      exact h
  · intro h
    rw [h.reserve_eq hkeys (Option.some_ne_none "").symm]
    rfl

/-- No call blocks a node. -/
theorem unblocked_of_reaches {cut : State → Operation → ℕ → Prop} {ledger : Ledger}
    (h : Reaches State.apply {} (State.appends config) cut ledger) (hs : fold ledger = some s)
    (id : String) : (s.node id).blocked = false := by
  refine h.induction (P := fun _ s => ∀ id, (s.flags id).blocked = false) ?_ ?_ hs id
  · exact fun _ => rfl
  · intro log m op k t hm _ ht
    refine replay_induction (P := fun s => ∀ id, (s.flags id).blocked = false)
      (fun a e b he ha hb id => ?_) hm ht
    have hwrite := writes_of_mem_appends config m op e (List.mem_of_mem_take he)
    have hflags := flags_of_apply hb id
    cases e with
    | blocked j => cases op <;> cases hwrite
    | gateChanged | gateLineage | extended | resumed | reset =>
      rw [hflags, Event.flags]
      split_ifs
      · first | rfl | exact ha _
      · exact ha id
    | _ => exact (congrArg Flags.blocked hflags).trans (ha id)

/-! ## Agreement -/

/-- No launch of the node is left. -/
def Exhausted (config : BudgetConfig) (s : State) (id : String) : Prop :=
  config.nodeGateLimit + (s.node id).extra ≤ (s.node id).launches ∨
    config.nodeGateLimit + (s.node id).extra ≤ (s.node id).counters .indeterminate

theorem exhausted_iff :
    Exhausted config s id ↔ s.assertCapacity config id [] .indeterminate ≠ .ok () := by
  rw [Exhausted, assertCapacity]
  split_ifs with hlaunches hcounters hkeys
  · exact iff_of_true (.inl hlaunches) (by simp)
  · exact iff_of_true (.inr hcounters) (by simp)
  · cases hkeys
  · exact iff_of_false (fun h => h.elim hlaunches hcounters) fun h => h rfl

/-- **The verdict agrees with the reservation** exactly when the node has a gate, no change of its
gate is authorized, or it has no launch left. -/
theorem verdict_agrees_iff {config config' : BudgetConfig} {ledger : Ledger}
    (h : Reaches State.apply {} (State.appends config') (fun _ _ _ => True) ledger) {s : State}
    (hs : fold ledger = some s) (id gate rid : String) :
    (s.verdict config id gate = .ok () ↔
        (s.reserve config id gate [] .indeterminate none none rid).result = .ok ()) ↔
      id ∈ s.gates.keys ∨ (s.node id).acceptGateChange = false ∨ Exhausted config s id := by
  rw [verdict_ok, reserve_ok, exhausted_iff]
  have hblocked := unblocked_of_reaches h hs id
  constructor
  · intro hagrees
    by_cases hcapacity : s.assertCapacity config id [] .indeterminate = .ok ()
    · cases haccept : (s.node id).acceptGateChange with
      | false => exact .inr (.inl rfl)
      | true => exact .inl (hagrees.1 ⟨.inr haccept, hcapacity⟩).known
    · exact .inr (.inr hcapacity)
  · intro hor
    constructor
    · intro ⟨hgate, hcapacity⟩
      refine ⟨?_, hgate, hblocked, hcapacity⟩
      rcases hor with hknown | hreject | hexhausted
      · exact hknown
      · rw [hreject] at hgate
        exact Dict.mem_keys_iff.2 ⟨gate, hgate.resolve_right nofun⟩
      · exact absurd hcapacity hexhausted
    · intro hreserves
      exact ⟨hreserves.authorized, hreserves.capacity⟩

/-! ## A node without a gate -/

def oneNode : Operation := .register firstPlan (Dict.ofList [("node", "gate")]) none none

theorem verdict_agrees_of_node : ∃ s, fold (State.appends {} {} oneNode) = some s ∧
    s.verdict {} "node" "gate" = .ok () ∧
    (s.reserve {} "node" "gate" [] .indeterminate none none "r1").result = .ok () := by
  have hreaches : Reaches State.apply {} (State.appends {}) (fun _ _ _ => True)
      (State.appends {} {} oneNode) := .append oneNode 1 .nil rfl True.intro
  obtain ⟨s, hs, hknown, hverdict⟩ : ∃ s, fold (State.appends {} {} oneNode) = some s ∧
      "node" ∈ s.gates.keys ∧ s.verdict {} "node" "gate" = .ok () := ⟨_, rfl, by decide, rfl⟩
  have hagrees : s.verdict {} "node" "gate" = .ok () ↔
      (s.reserve {} "node" "gate" [] .indeterminate none none "r1").result = .ok () :=
    (verdict_agrees_iff hreaches hs "node" "gate" "r1").2 (.inl hknown)
  exact ⟨s, hs, hverdict, hagrees.1 hverdict⟩

/-- **The verdict admits a node that no plan names**, once its gate change is authorized, and the
launch is refused. -/
theorem verdict_admits_unregistered : ∃ ledger s,
    Reaches State.apply {} (State.appends {}) (fun _ _ _ => True) ledger ∧ fold ledger = some s ∧
    s.verdict {} "new" "gate" = .ok () ∧
    ∃ m, s.reserve {} "new" "gate" [] .indeterminate none none "r1" = .refused m := by
  have hregister : Reaches State.apply {} (State.appends {}) (fun _ _ _ => True) _ :=
    .append oneNode 1 .nil rfl True.intro
  have hreset : Reaches State.apply {} (State.appends {}) (fun _ _ _ => True) _ :=
    .append (.reset "new" "relief" true none .full) 1 hregister rfl True.intro
  exact ⟨_, _, hreset, rfl, rfl, _, rfl⟩

end State

end HarnessLabs.Budget
