import HarnessLabs.Budget.Agreement

/-!
# The retry limits

In every ledger that operations leave behind, with crashes anywhere, the counters of a node agree
with each other and stay within the limits.

* `launchShape_appends` — only `reserve` launches, after its checks.
* `launches_within_limits` — **launches, class counters and finding counts agree and are bounded.**
-/

namespace HarnessLabs.Budget

open EventLog

/-- The call is operator relief. -/
def Operation.isRelief : Operation → Bool
  | .extend .. | .reset .. => true
  | _ => false

namespace State

/-! ## Launches come from `reserve` -/

/-- The shape of a call, as far as launches go. -/
inductive LaunchShape (config : BudgetConfig) (s : State) (events : List Event) : Prop where
  | noLaunch (h : ∀ e ∈ events, e.isLaunch = false) : LaunchShape config s events
  | launch {id gate : String} {keys : List String} {c : Classification} {rid : String}
      {attempt : Option String} (reserves : Reserves s config id gate keys c) (nodup : keys.Nodup)
      (eq : events = s.launchGate id gate ++ [launchEvent rid id gate keys c attempt]) :
      LaunchShape config s events

/-- **Only `reserve` launches, at the end and after its checks.** -/
theorem launchShape_appends (config : BudgetConfig) (s : State) (op : Operation) :
    LaunchShape config s (s.appends config op) := by
  have hwrites := writes_of_mem_appends config s op
  cases op with
  | reserve id gate keys c reason attempt rid =>
    rcases reserve_cases s config id gate keys c reason attempt rid with
      ⟨e, he⟩ | ⟨e, -, -, he⟩ | ⟨keys', hkeys, ha, h⟩
    · refine .noLaunch ?_
      rw [appends, run, he]; exact List.forall_mem_nil _
    · refine .noLaunch ?_
      rw [appends, run, he]
      exact List.forall_mem_singleton.2 rfl
    · have heq : s.appends config (.reserve id gate keys c reason attempt rid) =
          s.launchGate id gate ++ [launchEvent rid id gate keys' c attempt] := by
        rw [appends, run, h.reserve_eq hkeys ha]
        rfl
      exact .launch h (nodup_failureKeys hkeys) heq
  | _ =>
    refine .noLaunch fun e he => ?_
    have hw := hwrites e he
    cases e <;> first | rfl | cases hw

/-! ## The counters of a node -/

/-- The three granularities agree and are within the limits. -/
structure Accounted (config : BudgetConfig) (s : State) : Prop where
  balanced : s.Balanced
  within : s.Within config

theorem accounted_init (config : BudgetConfig) : Accounted config {} :=
  ⟨balanced_init, within_init config⟩

variable {config : BudgetConfig} {s t : State}

theorem Accounted.replay {events : List Event} (h : s.Accounted config)
    (hl : ∀ e ∈ events, e.isLaunch = false) (ht : s.applyAll events = some t) :
    t.Accounted config :=
  replay_induction (P := Accounted config)
    (fun _ e _ he hs happ => ⟨hs.balanced.apply happ, hs.within.apply happ (hl e he)⟩) h ht

/-- A gate change of the launched node does not touch the capacity that was checked. -/
theorem assertCapacity_launchGate {id gate : String} {keys : List String} {c : Classification}
    (ht : s.applyAll (s.launchGate id gate) = some t) :
    t.assertCapacity config id keys c = s.assertCapacity config id keys c := by
  rw [launchGate] at ht
  split_ifs at ht
  · cases ht; rfl
  · cases ht
    simp only [assertCapacity, node_gateChanged, if_true]
    rfl

/-- **A stopped operation keeps the accounts.** -/
theorem Accounted.stopped {op : Operation} {k : ℕ} (h : s.Accounted config)
    (ht : s.applyAll ((s.appends config op).take k) = some t) :
    t.Accounted config := by
  cases launchShape_appends config s op with
  | noLaunch hl => exact h.replay (fun e he => hl e (List.mem_of_mem_take he)) ht
  | @launch id gate keys c rid attempt reserves nodup eq =>
    have hgate : ∀ e ∈ s.launchGate id gate, e.isLaunch = false := by
      rw [launchGate]
      split_ifs
      · exact List.forall_mem_nil _
      · exact List.forall_mem_singleton.2 rfl
    rw [eq] at ht
    rcases Nat.lt_or_ge (s.launchGate id gate).length k with hk | hk
    · rw [List.take_of_length_le (by rw [List.length_append, List.length_singleton]; omega)] at ht
      obtain ⟨m, hm, hlaunch⟩ := replay_split ht
      have hacc := h.replay hgate hm
      obtain ⟨u, hu, hnil⟩ := Option.bind_eq_some_iff.1 hlaunch
      cases hnil
      refine ⟨hacc.balanced.apply hu, ?_⟩
      cases effect_of_apply hu with
      | kept nodes findings =>
        exact ⟨fun j => by rw [nodes]; exact hacc.within.launches j,
          fun j c => by rw [nodes]; exact hacc.within.counters j c,
          fun k => by rw [findings]; exact hacc.within.findings k⟩
      | renewed _ renewal => cases renewal
      | launched nodes findings =>
        have hcap := (assertCapacity_launchGate hm).trans reserves.capacity
        exact hacc.within.of_launched hcap nodup nodes findings
    · rw [List.take_append_of_le_length hk] at ht
      exact h.replay (fun e he => hgate e (List.mem_of_mem_take he)) ht

/-- **The retry budgets are kept.** In every ledger that operations leave behind, each one
finished or stopped by a crash: the launches of a node are the sum of its class counters, every
counter is within its limit and the extra launches granted to the node, and each finding key's
count for the lineage is the sum over the nodes and within its limit. -/
theorem launches_within_limits {config : BudgetConfig} {ledger : Ledger}
    (h : Reaches State.apply {} (State.appends config) (fun _ _ _ => True) ledger) {s : State}
    (hs : fold ledger = some s) :
    (∀ id, (s.node id).launches = ∑ c, (s.node id).counters c ∧
      (s.node id).launches ≤ config.nodeGateLimit + (s.node id).extra ∧
      ∀ c, (s.node id).counters c ≤ config.classLimit c + (s.node id).extra) ∧
    ∀ k, s.findingKeys k = ∑ id ∈ s.nodes.keySet, (s.node id).findingKeys k ∧
      s.findingKeys k ≤ config.findingKeyLimit := by
  have hacc : Accounted config s :=
    h.induction (P := fun _ s => Accounted config s) (accounted_init config)
      (fun _ _ _ _ _ hacc _ ht => hacc.stopped ht) hs
  refine ⟨fun id => ⟨?_, ?_, fun c => ?_⟩, fun k => ⟨?_, ?_⟩⟩
  · exact hacc.balanced.launches id
  · exact hacc.within.launches id
  · exact hacc.within.counters id c
  · exact hacc.balanced.findings k
  · exact hacc.within.findings k

/-- A lineage of one node, registered and launched once. -/
def oneLaunch : Ledger :=
  [.registered "plan" (Dict.ofList [("node", "gate")]) .none none false,
    launchEvent "reservation" "node" "gate" ["key"] .product none]

theorem reaches_oneLaunch {cut : State → Operation → ℕ → Prop}
    (hcut : ∀ s op k, op.isRelief = false → cut s op k) :
    Reaches State.apply {} (State.appends {}) cut oneLaunch := by
  have hregister : Reaches State.apply {} (State.appends {}) cut _ :=
    .append (.register "plan" (Dict.ofList [("node", "gate")]) none none) 1 .nil rfl
      (hcut _ _ _ rfl)
  exact .append (.reserve "node" "gate" ["key"] .product none none "reservation") 1 hregister rfl
    (hcut _ _ _ rfl)

theorem launches_within_limits_oneLaunch : ∃ s, fold oneLaunch = some s ∧
    (s.node "node").launches = 1 ∧
    (∀ id, (s.node id).launches = ∑ c, (s.node id).counters c ∧
      (s.node id).launches ≤ ({} : BudgetConfig).nodeGateLimit + (s.node id).extra ∧
      ∀ c, (s.node id).counters c ≤ ({} : BudgetConfig).classLimit c + (s.node id).extra) ∧
    ∀ k, s.findingKeys k = ∑ id ∈ s.nodes.keySet, (s.node id).findingKeys k ∧
      s.findingKeys k ≤ ({} : BudgetConfig).findingKeyLimit :=
  ⟨_, rfl, rfl, launches_within_limits (reaches_oneLaunch fun _ _ _ _ => trivial) rfl⟩

end State

end HarnessLabs.Budget
