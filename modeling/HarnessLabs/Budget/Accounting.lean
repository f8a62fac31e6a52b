import HarnessLabs.Budget.Operations
import Mathlib.Algebra.BigOperators.Group.Finset.Piecewise
import Mathlib.Algebra.Order.BigOperators.Group.Finset

/-!
# The three counters of the ledger

A launch is charged at three granularities: to the node, to its failure class, and to every
finding key, once in the node and once for the lineage. The capacity checks of `reserve` look at
these counters, and resets renew them.

* `Effect` — what one event does to the charges, in four cases.
* `Balanced` — the three granularities agree; every event keeps it.
* `Within` — the limits; an event that launches keeps them when `assertCapacity` passed.
-/

namespace HarnessLabs.Budget

open EventLog Function

/-! ## Charges -/

/-- The part of a node's account that admission looks at. -/
@[ext] structure Charges where
  launches : ℕ
  extra : ℕ
  counters : Classification → ℕ
  findingKeys : String → ℕ

namespace Charges

/-- One launch. -/
def launch (n : Charges) (c : Classification) (keys : List String) : Charges :=
  { n with
    launches := n.launches + 1
    counters := Function.update n.counters c (n.counters c + 1)
    findingKeys := fun k => n.findingKeys k + keys.count k }

/-- More launches allowed. -/
def extend (n : Charges) (launches : ℕ) : Charges := { n with extra := n.extra + launches }

/-- Renewed counters. -/
def renewed (extra : ℕ) : Charges := ⟨0, extra, fun _ => 0, fun _ => 0⟩

end Charges

def NodeAccount.charges (n : NodeAccount) : Charges :=
  ⟨n.launches, n.extra, n.counters, n.findingKeys⟩

namespace State

/-- The charges of every node. -/
def charges (s : State) (id : String) : Charges := (s.node id).charges

theorem charges_of_notMem {s : State} {id : String} (h : id ∉ s.nodes.keySet) :
    s.charges id = .renewed 0 := by
  rw [Dict.mem_keySet, ← Dict.get?_eq_none_iff] at h
  simp only [charges, node, Dict.getD, h]
  rfl

theorem charges_setNode (s : State) (id : String) (n : NodeAccount) :
    (s.setNode id n).charges = Function.update s.charges id n.charges := by
  funext j
  simp only [charges, node_setNode, update_apply]
  split_ifs <;> rfl

/-- An update that leaves the charges of the node alone leaves all charges alone. -/
theorem charges_setNode_of_eq {s : State} {id : String} {n : NodeAccount}
    (h : n.charges = (s.node id).charges) : (s.setNode id n).charges = s.charges := by
  rw [charges_setNode, h]
  exact update_eq_self id s.charges

@[simp] theorem findingKeys_setNode (s : State) (id : String) (n : NodeAccount) :
    (s.setNode id n).findingKeys = s.findingKeys := rfl

theorem charges_resetCharges (s : State) (id : String) :
    (s.resetCharges id).charges =
      Function.update s.charges id (.renewed (s.charges id).extra) :=
  charges_setNode s id _

theorem charges_resetNodeAccounting (s : State) (id : String) :
    (s.resetNodeAccounting id).charges = Function.update s.charges id (.renewed 0) := by
  rw [resetNodeAccounting, charges_setNode, charges_resetCharges, update_idem]
  simp [resetCharges, NodeAccount.charges, Charges.renewed, node, setNode, Dict.getD]

end State

/-- The event charges a launch. -/
def Event.isLaunch : Event → Bool
  | .reserved .. => true
  | _ => false

/-- The event may renew a node's counters and its extra launches. -/
def Event.isRenewal : Event → Bool
  | .gateLineage .. | .transitionCarryover .. => true
  | _ => false

namespace State

/-! ## Effects -/

/-- What one event does to the charges and to the lineage-wide finding counts. -/
inductive Effect (s t : State) : Event → Prop where
  | kept {e : Event} (nodes : t.charges = s.charges) (findings : ∀ k, t.findingKeys k = s.findingKeys k) :
      Effect s t e
  | launched {rid id gate : String} {keys : List String} {c : Classification}
      {attempt : Option String} {counters : Option AttemptCounters}
      (nodes : t.charges = Function.update s.charges id ((s.charges id).launch c keys))
      (findings : ∀ k, t.findingKeys k = s.findingKeys k + keys.count k) :
      Effect s t (.reserved rid id gate keys c attempt counters)
  | extended {id reason : String} {launches : ℕ}
      (nodes : t.charges = Function.update s.charges id ((s.charges id).extend launches))
      (findings : ∀ k, t.findingKeys k = s.findingKeys k) : Effect s t (.extended id launches reason)
  | renewed {e : Event} (id : String) (renewal : e.isRenewal = true)
      (nodes : t.charges = Function.update s.charges id (.renewed 0))
      (findings : ∀ k, t.findingKeys k = s.findingKeys k - (s.charges id).findingKeys k) :
      Effect s t e
  | relieved {id reason : String} {acceptGate : Bool} {acceptPlan : Option String}
      (nodes : t.charges = Function.update s.charges id (.renewed (s.charges id).extra))
      (findings : ∀ k, t.findingKeys k = s.findingKeys k - (s.charges id).findingKeys k) :
      Effect s t (.reset id reason acceptGate acceptPlan .reset)

variable {s t : State} {e : Event} {id : String} {config : BudgetConfig}

/-- **An event keeps the charges, launches a node, extends a node or renews a node.** -/
theorem effect_of_apply (h : s.apply e = some t) : Effect s t e := by
  cases e with
  | registered plan gates authority transition consumes =>
    obtain ⟨-, ⟨-, -, rfl⟩ | ⟨_, _, -, -, -, -, -, rfl⟩ | ⟨-, -, -, rfl⟩⟩ := registered_cases h
    all_goals exact .kept rfl fun _ => rfl
  | gateChanged id gate =>
    cases h
    exact .kept (charges_setNode_of_eq rfl) fun _ => rfl
  | reserved rid id gate keys c attempt counters =>
    simp only [apply, reserved] at h
    split at h
    · cases h
    · cases h
      exact .launched (charges_setNode s id _) fun _ => rfl
  | started rid =>
    obtain ⟨_, -, -, rfl⟩ := moveReservation_cases h
    exact .kept rfl fun _ => rfl
  | completed rid status tokens =>
    obtain ⟨_, -, -, rfl⟩ := moveReservation_cases h
    exact .kept rfl fun _ => rfl
  | abandoned rid id disposition reason attempt =>
    obtain ⟨_, -, rfl⟩ := abandoned_cases h
    exact .kept rfl fun _ => rfl
  | evidenceImported id invocation kind c keys =>
    simp only [apply, evidenceImported] at h
    split at h
    · cases h
    · cases h; exact .kept (charges_setNode_of_eq rfl) fun _ => rfl
  | blocked id =>
    cases h
    exact .kept (charges_setNode_of_eq rfl) fun _ => rfl
  | extended id launches reason =>
    cases h
    exact .extended (charges_setNode s id _) fun _ => rfl
  | recoveryDecision value prior =>
    obtain ⟨_, _, -, -, -, -, rfl⟩ := recoveryDecision_cases h
    exact .kept rfl fun _ => rfl
  | structuralDecision value prior =>
    obtain ⟨_, _, -, -, -, -, rfl⟩ := structuralDecision_cases h
    exact .kept rfl fun _ => rfl
  | resumed id =>
    simp only [apply] at h
    split at h
    · cases h; exact .kept (charges_setNode_of_eq rfl) fun _ => rfl
    · cases h
  | obligationTransferred source receiving =>
    simp only [apply] at h
    split at h
    · cases h; exact .kept (charges_setNode_of_eq rfl) fun _ => rfl
    · cases h
  | gateLineage id predecessor successor c =>
    simp only [apply, gateLineage] at h
    split at h
    · cases h
    · cases c with
      | full =>
        cases h
        exact .kept (charges_setNode_of_eq rfl) fun _ => rfl
      | reset =>
        cases h
        refine .renewed id rfl ?_ ?_
        · rw [charges_resetNodeAccounting, charges_setNode_of_eq (by rfl)]
          rfl
        · intro k
          simp [resetNodeAccounting, resetCharges, charges, NodeAccount.charges]
  | transitionCarryover id c plan =>
    simp only [apply, transitionCarryover] at h
    split at h
    · cases h
    · cases c with
      | full => cases h; exact .kept rfl fun _ => rfl
      | reset =>
        cases h
        exact .renewed id rfl (charges_resetNodeAccounting s id) fun _ => rfl
  | reset id reason acceptGate acceptPlan c =>
    simp only [apply, reset] at h
    split at h
    · cases c with
      | full =>
        cases h
        exact .kept (charges_setNode_of_eq rfl) fun _ => rfl
      | reset =>
        cases h
        refine .relieved ?_ ?_
        · rw [charges_resetCharges, charges_setNode_of_eq (by rfl)]
          rfl
        · intro k
          simp [resetCharges, charges, NodeAccount.charges]
    · cases h

/-! ## The equalities -/

/-- A finding key's charges, summed over the nodes. -/
def findingSum (s : State) (k : String) : ℕ :=
  ∑ id ∈ s.nodes.keySet, (s.charges id).findingKeys k

/-- Nodes without an account add nothing. -/
theorem findingSum_eq {nodes : Finset String} (h : s.nodes.keySet ⊆ nodes) (k : String) :
    s.findingSum k = ∑ id ∈ nodes, (s.charges id).findingKeys k := by
  refine Finset.sum_subset h fun id _ hid => ?_
  rw [charges_of_notMem hid]
  rfl

theorem findingSum_update {n : Charges} (h : t.charges = Function.update s.charges id n)
    (k : String) :
    t.findingSum k + (s.charges id).findingKeys k = s.findingSum k + n.findingKeys k := by
  have hs : s.nodes.keySet ⊆ insert id (s.nodes.keySet ∪ t.nodes.keySet) := fun j hj =>
    Finset.mem_insert_of_mem (Finset.mem_union_left _ hj)
  have ht : t.nodes.keySet ⊆ insert id (s.nodes.keySet ∪ t.nodes.keySet) := fun j hj =>
    Finset.mem_insert_of_mem (Finset.mem_union_right _ hj)
  have hid := Finset.mem_insert_self id (s.nodes.keySet ∪ t.nodes.keySet)
  rw [findingSum_eq hs, findingSum_eq ht, ← Finset.add_sum_erase _ _ hid,
    ← Finset.add_sum_erase _ _ hid, h, update_self]
  have hrest : ∀ j ∈ (insert id (s.nodes.keySet ∪ t.nodes.keySet)).erase id,
      (Function.update s.charges id n j).findingKeys k = (s.charges j).findingKeys k :=
    fun j hj => by rw [update_of_ne (Finset.ne_of_mem_erase hj)]
  rw [Finset.sum_congr rfl hrest]
  omega

/-- **The three granularities agree.** -/
structure Balanced (s : State) : Prop where
  launches : ∀ id, (s.charges id).launches = ∑ c, (s.charges id).counters c
  findings : ∀ k, s.findingKeys k = s.findingSum k

theorem findingSum_congr (h : t.charges = s.charges) (k : String) :
    t.findingSum k = s.findingSum k := by
  have h' : t.charges = Function.update s.charges "" (s.charges "") := by
    rw [h, update_eq_self]
  exact Nat.add_right_cancel (findingSum_update h' k)

theorem sum_counters_launch (n : Charges) (c : Classification) (keys : List String) :
    ∑ d, (n.launch c keys).counters d = (∑ d, n.counters d) + 1 := by
  have hc := Finset.mem_univ c
  have hl : (n.launch c keys).counters = Function.update n.counters c (n.counters c + 1) := rfl
  rw [hl, Finset.sum_update_of_mem hc, Finset.sum_eq_add_sum_sdiff_singleton_of_mem hc n.counters]
  omega

theorem balanced_init : Balanced {} where
  launches _ := rfl
  findings _ := rfl

/-- A renewed node gives its finding charges back to the lineage. -/
theorem Balanced.of_renewed {extra : ℕ} (h : s.Balanced)
    (nodes : t.charges = Function.update s.charges id (.renewed extra))
    (findings : ∀ k, t.findingKeys k = s.findingKeys k - (s.charges id).findingKeys k) :
    t.Balanced where
  launches j := by
    rw [nodes]
    by_cases hj : j = id
    · subst hj
      simp [Charges.renewed]
    · rw [update_of_ne hj]
      exact h.launches j
  findings k := by
    have hsum : t.findingSum k + (s.charges id).findingKeys k = s.findingSum k + 0 :=
      findingSum_update nodes k
    rw [findings, h.findings k]
    omega

/-- **Every event keeps the equalities.** -/
theorem Balanced.apply (h : s.Balanced) (ht : s.apply e = some t) :
    t.Balanced := by
  cases effect_of_apply ht with
  | kept nodes findings =>
    refine ⟨fun j => by rw [nodes]; exact h.launches j, fun k => ?_⟩
    rw [findings, findingSum_congr nodes]
    exact h.findings k
  | @launched rid id gate keys c attempt counters nodes findings =>
    refine ⟨fun j => ?_, fun k => ?_⟩
    · rw [nodes]
      by_cases hj : j = id
      · subst hj
        rw [update_self, sum_counters_launch, ← h.launches j]
        rfl
      · rw [update_of_ne hj]
        exact h.launches j
    · have hsum : t.findingSum k + (s.charges id).findingKeys k =
          s.findingSum k + ((s.charges id).findingKeys k + keys.count k) :=
        findingSum_update nodes k
      rw [findings, h.findings k]
      omega
  | @extended id reason launches nodes findings =>
    refine ⟨fun j => ?_, fun k => ?_⟩
    · rw [nodes]
      by_cases hj : j = id
      · subst hj
        rw [update_self]
        exact h.launches j
      · rw [update_of_ne hj]
        exact h.launches j
    · have hsum : t.findingSum k + (s.charges id).findingKeys k =
          s.findingSum k + (s.charges id).findingKeys k := findingSum_update nodes k
      rw [findings, h.findings k]
      omega
  | renewed id _ nodes findings => exact h.of_renewed nodes findings
  | relieved nodes findings => exact h.of_renewed nodes findings

/-! ## The limits -/

/-- **The limits that admission enforces.** -/
structure Within (config : BudgetConfig) (s : State) : Prop where
  launches : ∀ id, (s.charges id).launches ≤ config.nodeGateLimit + (s.charges id).extra
  counters : ∀ id c, (s.charges id).counters c ≤ config.classLimit c + (s.charges id).extra
  findings : ∀ k, s.findingKeys k ≤ config.findingKeyLimit

theorem within_init (config : BudgetConfig) : Within config {} where
  launches _ := Nat.zero_le _
  counters _ _ := Nat.zero_le _
  findings _ := Nat.zero_le _

theorem Within.of_renewed {extra : ℕ} (h : s.Within config)
    (nodes : t.charges = Function.update s.charges id (.renewed extra))
    (findings : ∀ k, t.findingKeys k = s.findingKeys k - (s.charges id).findingKeys k) :
    t.Within config where
  launches j := by
    rw [nodes]
    by_cases hj : j = id
    · subst hj
      rw [update_self]
      exact Nat.zero_le _
    · rw [update_of_ne hj]
      exact h.launches j
  counters j c := by
    rw [nodes]
    by_cases hj : j = id
    · subst hj
      rw [update_self]
      exact Nat.zero_le _
    · rw [update_of_ne hj]
      exact h.counters j c
  findings k := by
    have hk := h.findings k
    rw [findings]
    omega

/-- `_assert_capacity` passes exactly below all three limits. -/
theorem assertCapacity_ok {keys : List String} {c : Classification} :
    s.assertCapacity config id keys c = .ok () ↔
      (s.charges id).launches < config.nodeGateLimit + (s.charges id).extra ∧
      (s.charges id).counters c < config.classLimit c + (s.charges id).extra ∧
      ∀ k ∈ keys, s.findingKeys k < config.findingKeyLimit := by
  simp only [assertCapacity, charges, NodeAccount.charges]
  split_ifs with hl hc hk
  · simp [hl]
  · simp [hc]
  · simp only [List.any_eq_true, decide_eq_true_eq] at hk
    simpa using fun _ _ => hk
  · simp only [List.any_eq_true, decide_eq_true_eq, not_exists, not_and, not_le] at hk
    simpa using ⟨not_le.1 hl, not_le.1 hc, hk⟩

/-- A launch that passed the capacity checks stays within the limits. -/
theorem Within.of_launched {keys : List String} {c : Classification} (h : s.Within config)
    (capacity : s.assertCapacity config id keys c = .ok ()) (nodup : keys.Nodup)
    (nodes : t.charges = Function.update s.charges id ((s.charges id).launch c keys))
    (findings : ∀ k, t.findingKeys k = s.findingKeys k + keys.count k) : t.Within config := by
  obtain ⟨hlaunch, hclass, hkeys⟩ := assertCapacity_ok.1 capacity
  refine ⟨fun j => ?_, fun j d => ?_, fun k => ?_⟩
  · rw [nodes]
    by_cases hj : j = id
    · subst hj
      rw [update_self]
      exact hlaunch
    · rw [update_of_ne hj]
      exact h.launches j
  · rw [nodes]
    by_cases hj : j = id
    · subst hj
      rw [update_self]
      show Function.update (s.charges j).counters c _ d ≤ _
      by_cases hd : d = c
      · subst hd
        rw [update_self]
        exact hclass
      · rw [update_of_ne hd]
        exact h.counters j d
    · rw [update_of_ne hj]
      exact h.counters j d
  · rw [findings]
    by_cases hk : k ∈ keys
    · rw [List.count_eq_one_of_mem nodup hk]
      exact hkeys k hk
    · rw [List.count_eq_zero.2 hk]
      exact h.findings k

/-- **An event that does not launch keeps the limits.** -/
theorem Within.apply (h : s.Within config) (ht : s.apply e = some t) (he : e.isLaunch = false) :
    t.Within config := by
  cases effect_of_apply ht with
  | kept nodes findings =>
    refine ⟨fun j => ?_, fun j c => ?_, fun k => ?_⟩
    · rw [nodes]; exact h.launches j
    · rw [nodes]; exact h.counters j c
    · rw [findings]; exact h.findings k
  | launched nodes findings => cases he
  | @extended id reason launches nodes findings =>
    refine ⟨fun j => ?_, fun j c => ?_, fun k => ?_⟩
    · rw [nodes]
      by_cases hj : j = id
      · subst hj
        rw [update_self]
        exact (h.launches j).trans (by simp only [Charges.extend]; omega)
      · rw [update_of_ne hj]
        exact h.launches j
    · rw [nodes]
      by_cases hj : j = id
      · subst hj
        rw [update_self]
        exact (h.counters j c).trans (by simp only [Charges.extend]; omega)
      · rw [update_of_ne hj]
        exact h.counters j c
    · rw [findings]; exact h.findings k
  | renewed id _ nodes findings => exact h.of_renewed nodes findings
  | relieved nodes findings => exact h.of_renewed nodes findings

end State

end HarnessLabs.Budget
