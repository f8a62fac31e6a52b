import HarnessLabs.Lib.Saturate
import HarnessLabs.PlanGraph.Progress

/-!
# What a repair selects

The two loops of `repair_selection` are closed forms: the first one invalidates the retry frontier
and everything behind it, the second one reuses the greatest set of sealed nodes in custody that
needs none of these.

* `mem_invalidated_iff` — the invalidated nodes are those behind the frontier.
* `Selects` — what a selection has to be, as a set.
* `repair_selection_exact` — **the loops end, in the selection that is right.**
-/

namespace HarnessLabs.PlanGraph

open Saturate List

universe u

variable {C : Type u}

/-! ## Nodes of a checkpoint -/

/-- What a node of the checkpoint depends on. -/
def nodeDeps (nodes : Dict String (Node C)) (id : String) : List String :=
  ((nodes.get? id).map (·.dependsOn)).getD []

variable {nodes : Dict String (Node C)} {id : String} {frontier : List String}
  {state state' : AttemptState C} {plan : PlanGraphPlan C}

theorem nodeDeps_of_mem {node : Node C} (h : (id, node) ∈ nodes.items) :
    nodeDeps nodes id = node.dependsOn := by
  rw [nodeDeps, Dict.get?_eq_some_iff.2 h]
  rfl

theorem mem_keys_of_mem_items {p : String × Node C} (h : p ∈ nodes.items) :
    p.1 ∈ nodes.keys := mem_map_of_mem h

/-- `id` is one of the frontier or needs one, at any distance. -/
def BehindFrontier (nodes : Dict String (Node C)) (frontier : List String) (id : String) : Prop :=
  ∃ f ∈ frontier, Relation.ReflTransGen (fun x y => x ∈ nodeDeps nodes y) f id

/-- A list of nodes without repetitions is not longer than the checkpoint. -/
theorem length_le_items {ids : List String} (hnodup : ids.Nodup)
    (hsub : ∀ id ∈ ids, id ∈ nodes.keys) : ids.length ≤ nodes.items.length := by
  have hle := (subperm_of_subset hnodup hsub).length_le
  rwa [Dict.keys, length_map] at hle

/-! ## Invalidation -/

/-- The visit of one node. -/
def invalidateVisit (acc : List String) (p : String × Node C) : List String :=
  if p.1 ∉ acc ∧ p.2.dependsOn.any (· ∈ acc) then acc ++ [p.1] else acc

theorem adds_invalidateVisit :
    Adds List.length (invalidateVisit : List String → String × Node C → List String) := by
  intro acc p
  by_cases h : p.1 ∉ acc ∧ p.2.dependsOn.any (· ∈ acc) = true
  · right
    rw [invalidateVisit, if_pos h, length_append]
    exact Nat.lt_succ_self _
  · exact .inl (if_neg h)

/-- Nodes behind the frontier, and all of the frontier among them. -/
structure Invalidates (nodes : Dict String (Node C)) (frontier acc : List String) : Prop where
  nodup : acc.Nodup
  known : ∀ id ∈ acc, id ∈ nodes.keys
  all : ∀ f ∈ frontier, f ∈ acc
  behind : ∀ id ∈ acc, BehindFrontier nodes frontier id

theorem Invalidates.visit {acc : List String} (h : Invalidates nodes frontier acc)
    {p : String × Node C} (hp : p ∈ nodes.items) :
    Invalidates nodes frontier (invalidateVisit acc p) := by
  by_cases hnew : p.1 ∉ acc ∧ p.2.dependsOn.any (· ∈ acc) = true
  · rw [invalidateVisit, if_pos hnew]
    obtain ⟨d, hd, hacc⟩ := any_eq_true.1 hnew.2
    obtain ⟨f, hf, hpath⟩ := h.behind d (of_decide_eq_true hacc)
    have hdep : d ∈ nodeDeps nodes p.1 := by rwa [nodeDeps_of_mem hp]
    refine ⟨?_, ?_, ?_, ?_⟩
    · exact nodup_append.2 ⟨h.nodup, nodup_singleton _, fun a ha b hb hab =>
        hnew.1 (by rwa [← mem_singleton.1 hb, ← hab])⟩
    · exact forall_mem_append.2
        ⟨h.known, forall_mem_singleton.2 (mem_keys_of_mem_items hp)⟩
    · exact fun f hf => mem_append_left _ (h.all f hf)
    · exact forall_mem_append.2
        ⟨h.behind, forall_mem_singleton.2 ⟨f, hf, hpath.tail hdep⟩⟩
  · rw [invalidateVisit, if_neg hnew]
    exact h

theorem Invalidates.pass {acc : List String} (h : Invalidates nodes frontier acc) :
    Invalidates nodes frontier (invalidatePass nodes acc) :=
  List.foldlRecOn (motive := Invalidates nodes frontier) nodes.items _ h
    fun _ hacc _ hp => hacc.visit hp

theorem Invalidates.start (hnodup : frontier.Nodup) (hknown : ∀ f ∈ frontier, f ∈ nodes.keys) :
    Invalidates nodes frontier frontier :=
  ⟨hnodup, hknown, fun _ hf => hf, fun f hf => ⟨f, hf, .refl⟩⟩

/-- **The first loop ends.** -/
theorem invalidated_ends (hnodup : frontier.Nodup) (hknown : ∀ f ∈ frontier, f ∈ nodes.keys) :
    EndsIn (invalidatePass nodes) frontier (invalidated nodes frontier) :=
  endsIn_iterate (P := Invalidates nodes frontier) (fun _ h => h.pass)
    (fun _ _ => adds_invalidateVisit.grow nodes.items _)
    (fun _ h => length_le_items h.nodup h.known) (.start hnodup hknown)

/-- **The invalidated nodes are those behind the frontier.** -/
theorem mem_invalidated_iff (hnodup : frontier.Nodup) (hknown : ∀ f ∈ frontier, f ∈ nodes.keys) :
    id ∈ invalidated nodes frontier ↔ BehindFrontier nodes frontier id := by
  have hends := invalidated_ends hnodup hknown
  have hinv : Invalidates nodes frontier (invalidated nodes frontier) :=
    hends.invariant (fun _ h => h.pass) (.start hnodup hknown)
  refine ⟨hinv.behind id, ?_⟩
  rintro ⟨f, hf, hpath⟩
  have hvisits := adds_invalidateVisit.settled hends.settled
  induction hpath with
  | refl => exact hinv.all f hf
  | @tail d id _ hdep ih =>
    by_contra hout
    cases hnode : nodes.get? id with
    | none =>
      rw [nodeDeps, hnode] at hdep
      exact not_mem_nil hdep
    | some node =>
      have hitem := Dict.get?_eq_some_iff.1 hnode
      rw [nodeDeps_of_mem hitem] at hdep
      have hsame := hvisits (id, node) hitem
      rw [invalidateVisit, if_pos ⟨hout, any_eq_true.2 ⟨d, hdep, decide_eq_true ih⟩⟩] at hsame
      simpa using congrArg List.length hsame

/-! ## The order of the nodes -/

/-- Two checkpoints with the same nodes in any order and the same barriers. -/
structure SameNodes (state state' : AttemptState C) : Prop where
  nodes : ∀ id, state'.nodes.get? id = state.nodes.get? id
  barriers : ∀ b, b ∈ state'.integrationBarriers ↔ b ∈ state.integrationBarriers

theorem SameNodes.symm (h : SameNodes state state') :
    SameNodes state' state :=
  ⟨fun id => (h.nodes id).symm, fun b => (h.barriers b).symm⟩

theorem SameNodes.nodeDeps (h : SameNodes state state') :
    nodeDeps state'.nodes = nodeDeps state.nodes := by
  funext id
  rw [PlanGraph.nodeDeps, PlanGraph.nodeDeps, h.nodes]

theorem SameNodes.behind (h : SameNodes state state') :
    BehindFrontier state'.nodes frontier id ↔ BehindFrontier state.nodes frontier id := by
  rw [BehindFrontier, BehindFrontier, h.nodeDeps]

/-! ## Successors of a plan -/

/-- The checkpoint has the nodes of the plan. -/
structure OfPlan (plan : PlanGraphPlan C) (audit : AttemptState C) : Prop where
  keys : ∀ id, id ∈ audit.nodes.keys ↔ id ∈ runIds plan.runs
  deps : nodeDeps audit.nodes = plan.dependencies

/-- A transition keeps the nodes of the plan. -/
theorem OfPlan.transition {audit next : AttemptState C} (h : OfPlan plan audit) {nodeId : String}
    {updates : Node C → Node C} {running : Bool}
    (hnext : next.nodes = (audit.transition nodeId updates running).nodes)
    (hupdates : ∀ node, (updates node).dependsOn = node.dependsOn) : OfPlan plan next := by
  suffices OfPlan plan (audit.transition nodeId updates running) from
    ⟨by rw [hnext]; exact this.keys, by rw [hnext]; exact this.deps⟩
  rw [AttemptState.transition]
  cases hnode : audit.nodes.get? nodeId with
  | none => exact h
  | some node =>
    refine ⟨fun id => ?_, ?_⟩
    · rw [← h.keys, Dict.mem_keys_set]
      refine ⟨fun hid => hid.elim (fun heq => ?_) fun hid => hid, .inr⟩
      rw [heq]
      exact Dict.mem_keys_iff.2 ⟨node, hnode⟩
    · rw [← h.deps]
      funext id
      rw [nodeDeps, nodeDeps, Dict.get?_set]
      by_cases hid : id = nodeId
      · rw [if_pos hid, hid, hnode, Option.map_some, Option.map_some, hupdates]
      · rw [if_neg hid]

theorem get?_nodes_initialState {graphRunId : String} {reused : Dict String C}
    {predecessor : Option String} {node : Node C} :
    (initialState plan graphRunId reused predecessor).nodes.get? id = some node ↔
      ∃ run ∈ plan.ordered, run.id = id ∧ initialNode reused predecessor run = node := by
  have hnodup : ((plan.ordered.map fun run =>
      (run.id, initialNode reused predecessor run)).map Prod.fst).Nodup := by
    rw [map_map]
    exact plan.ordered_ids.nodup
  rw [initialState, Dict.get?_ofList hnodup]
  simp only [mem_map, Prod.mk.injEq]

/-- **A new attempt has the nodes of its plan.** -/
theorem ofPlan_initialState (plan : PlanGraphPlan C) (graphRunId : String)
    (reused : Dict String C) (predecessor : Option String) :
    OfPlan plan (initialState plan graphRunId reused predecessor) := by
  have hkeys : ∀ id, id ∈ (initialState plan graphRunId reused predecessor).nodes.keys ↔
      id ∈ runIds plan.runs := by
    intro id
    rw [Dict.mem_keys_iff]
    constructor
    · rintro ⟨node, hnode⟩
      obtain ⟨run, hrun, rfl, -⟩ := get?_nodes_initialState.1 hnode
      exact mem_runIds (plan.mem_ordered.1 hrun)
    · intro hid
      obtain ⟨run, hrun, rfl⟩ := mem_map.1 hid
      exact ⟨_, get?_nodes_initialState.2 ⟨run, plan.mem_ordered.2 hrun, rfl, rfl⟩⟩
  refine ⟨hkeys, ?_⟩
  funext id
  rw [nodeDeps]
  cases hnode : (initialState plan graphRunId reused predecessor).nodes.get? id with
  | none =>
    have hout : id ∉ runIds plan.runs := fun hid =>
      Dict.get?_eq_none_iff.1 hnode ((hkeys id).2 hid)
    rw [PlanGraphPlan.dependencies, dependenciesOf_of_notMem hout]
    rfl
  | some node =>
    obtain ⟨run, hrun, rfl, rfl⟩ := get?_nodes_initialState.1 hnode
    rw [dependencies_run plan hrun]
    rfl

theorem validateCompletedDependencies_ok {completed : Dict String C}
    (h : ∀ id ∈ completed.keys, ∀ d ∈ plan.dependencies id, d ∈ completed.keys) :
    validateCompletedDependencies plan.ordered completed = .ok () := by
  have hnone : (plan.ordered.find? fun run =>
      run.id ∈ completed.keys ∧ run.dependsOn.any (· ∉ completed.keys)) = none := by
    rw [List.find?_eq_none]
    intro run hrun hbad
    obtain ⟨hid, hany⟩ := of_decide_eq_true hbad
    obtain ⟨d, hd, hout⟩ := any_eq_true.1 hany
    refine of_decide_eq_true hout (h run.id hid d ?_)
    rwa [dependencies_run plan hrun]
  rw [validateCompletedDependencies, hnone]

/-- **A successor begins with what it reuses.** -/
theorem loadAuditCompleted_initialState (plan : PlanGraphPlan C) (graphRunId : String)
    {reused : Dict String C} (hreused : ∀ id ∈ reused.keys, id ∈ runIds plan.runs)
    (predecessor : Option String) (barriers : AttemptState C → AttemptState C)
    (hbarriers : ∀ s, (barriers s).nodes = s.nodes) :
    ∃ completed, (barriers (initialState plan graphRunId reused predecessor)).loadAuditCompleted =
        .ok completed ∧ ∀ id, completed.get? id = reused.get? id := by
  have hsealed : ∀ run, AttemptState.sealedCandidate (initialNode reused predecessor run) =
      reused.get? run.id := by
    intro run
    rw [AttemptState.sealedCandidate, initialNode]
    by_cases hmem : run.id ∈ reused.keys
    · rw [if_pos hmem, if_pos rfl]
    · rw [if_neg hmem, if_neg nofun, Dict.get?_eq_none_iff.2 hmem]
  have hfine : ¬ ((initialState plan graphRunId reused predecessor).nodes.values.any fun node =>
      node.status = .succeeded && node.candidateCommit.isNone) = true := by
    intro hany
    obtain ⟨node, hnode, hbad⟩ := any_eq_true.1 hany
    obtain ⟨id, hid⟩ := Dict.mem_values_iff.1 hnode
    obtain ⟨run, -, -, rfl⟩ := get?_nodes_initialState.1 hid
    rw [Bool.and_eq_true, decide_eq_true_eq] at hbad
    rw [initialNode] at hbad
    by_cases hmem : run.id ∈ reused.keys
    · obtain ⟨c, hc⟩ := Dict.mem_keys_iff.1 hmem
      rw [hc] at hbad
      exact Bool.false_ne_true hbad.2
    · rw [if_neg hmem] at hbad
      cases hbad.1
  refine ⟨_, by rw [AttemptState.loadAuditCompleted, hbarriers, if_neg hfine], fun id => ?_⟩
  rw [Dict.get?_filterMap]
  cases hnode : (initialState plan graphRunId reused predecessor).nodes.get? id with
  | none =>
    have hout : id ∉ reused.keys := fun hmem =>
      Dict.get?_eq_none_iff.1 hnode (((ofPlan_initialState plan graphRunId reused predecessor).keys
        id).2 (hreused id hmem))
    exact (Dict.get?_eq_none_iff.2 hout).symm
  | some node =>
    obtain ⟨run, -, rfl, rfl⟩ := get?_nodes_initialState.1 hnode
    exact hsealed run

/-! ## Reuse -/

section Reuse

variable [DecidableEq C]

/-- A node that can be reused with the candidate `c`, as far as it goes by itself: sealed with this
candidate, in custody, and not behind the frontier. -/
structure Reusable (state : AttemptState C) (inherited : Dict String C) (frontier : List String)
    (id : String) (c : C) : Prop where
  sealed : ∃ node, state.nodes.get? id = some node ∧ node.status = .succeeded ∧
    node.candidateCommit = some c
  custody : custodyMatches state.integrationBarriers inherited id c = true
  kept : ¬ BehindFrontier state.nodes frontier id

variable {state : AttemptState C} {inherited : Dict String C} {frontier : List String} {id : String}
  {c : C}

theorem Reusable.unique {c' : C} (h : Reusable state inherited frontier id c)
    (h' : Reusable state inherited frontier id c') :
    c = c' := by
  obtain ⟨node, hnode, -, hc⟩ := h.sealed
  obtain ⟨node', hnode', -, hc'⟩ := h'.sealed
  obtain rfl : node = node' := Option.some.inj (hnode.symm.trans hnode')
  exact Option.some.inj (hc.symm.trans hc')

theorem reusableCandidate_eq_some {again : List String} {reusable : Dict String C} {node : Node C} :
    reusableCandidate state inherited again reusable id node = some c ↔
      id ∉ reusable.keys ∧ id ∉ again ∧ node.status = .succeeded ∧ node.candidateCommit = some c ∧
        custodyMatches state.integrationBarriers inherited id c = true ∧
        ∀ d ∈ node.dependsOn, d ∈ reusable.keys := by
  rw [reusableCandidate]
  by_cases hout : id ∈ reusable.keys ∨ id ∈ again ∨ node.status ≠ .succeeded
  · rw [if_pos hout]
    refine iff_of_false nofun ?_
    rintro ⟨hnew, hkept, hstatus, -⟩
    rcases hout with h | h | h
    · exact hnew h
    · exact hkept h
    · exact h hstatus
  · rw [if_neg hout]
    push Not at hout
    rw [Option.bind_eq_some_iff]
    constructor
    · rintro ⟨candidate, hcandidate, hif⟩
      split_ifs at hif with hok
      cases hif
      refine ⟨hout.1, hout.2.1, hout.2.2, hcandidate, hok.1, fun d hd => ?_⟩
      exact of_decide_eq_true (all_eq_true.1 hok.2 d hd)
    · rintro ⟨-, -, -, hcandidate, hcustody, hdeps⟩
      refine ⟨c, hcandidate, if_pos ⟨hcustody, ?_⟩⟩
      exact all_eq_true.2 fun d hd => decide_eq_true (hdeps d hd)

/-- The visit of one node. -/
def reuseVisit (state : AttemptState C) (inherited : Dict String C) (again : List String)
    (acc : Dict String C) (p : String × Node C) : Dict String C :=
  match reusableCandidate state inherited again acc p.1 p.2 with
  | some candidate => acc.set p.1 candidate
  | none => acc

theorem reuseVisit_cases (state : AttemptState C) (inherited : Dict String C)
    (again : List String) (acc : Dict String C) (p : String × Node C) :
    (reusableCandidate state inherited again acc p.1 p.2 = none ∧
      reuseVisit state inherited again acc p = acc) ∨
    ∃ c, reusableCandidate state inherited again acc p.1 p.2 = some c ∧
      reuseVisit state inherited again acc p = acc.set p.1 c := by
  cases h : reusableCandidate state inherited again acc p.1 p.2 with
  | none => exact .inl ⟨rfl, by rw [reuseVisit, h]⟩
  | some c => exact .inr ⟨c, rfl, by rw [reuseVisit, h]⟩

theorem adds_reuseVisit (state : AttemptState C) (inherited : Dict String C)
    (again : List String) :
    Adds (fun acc => acc.items.length) (reuseVisit state inherited again) := by
  intro acc p
  rcases reuseVisit_cases state inherited again acc p with ⟨-, heq⟩ | ⟨c, hc, heq⟩
  · exact .inl heq
  · right
    dsimp only
    rw [heq, Dict.items_set_of_notMem (reusableCandidate_eq_some.1 hc).1, length_append]
    exact Nat.lt_succ_self _

/-- Reusable nodes, with everything that they depend on. -/
structure Reuses (state : AttemptState C) (inherited : Dict String C) (frontier : List String)
    (reused : Dict String C) : Prop where
  reusable : ∀ id c, reused.get? id = some c → Reusable state inherited frontier id c
  closed : ∀ id ∈ reused.keys, ∀ d ∈ nodeDeps state.nodes id, d ∈ reused.keys

theorem Reuses.known {reused : Dict String C} (h : Reuses state inherited frontier reused) :
    ∀ id ∈ reused.keys, id ∈ state.nodes.keys := by
  intro id hid
  obtain ⟨c, hc⟩ := Dict.mem_keys_iff.1 hid
  obtain ⟨node, hnode, -⟩ := (h.reusable id c hc).sealed
  exact Dict.mem_keys_iff.2 ⟨node, hnode⟩

section Frontier

variable {state : AttemptState C} {inherited : Dict String C} {frontier again : List String}
  (hagain : ∀ id, id ∈ again ↔ BehindFrontier state.nodes frontier id)

include hagain

variable {reused : Dict String C}

theorem Reuses.visit (h : Reuses state inherited frontier reused) {p : String × Node C}
    (hp : p ∈ state.nodes.items) :
    Reuses state inherited frontier (reuseVisit state inherited again reused p) := by
  rcases reuseVisit_cases state inherited again reused p with ⟨-, heq⟩ | ⟨c, hc, heq⟩
  · rwa [heq]
  · rw [heq]
    obtain ⟨-, hkept, hstatus, hcandidate, hcustody, hdeps⟩ := reusableCandidate_eq_some.1 hc
    refine ⟨fun id c' hget => ?_, fun id hid d hd => ?_⟩
    · rw [Dict.get?_set] at hget
      by_cases hid : id = p.1
      · rw [if_pos hid] at hget
        cases hget
        rw [hid]
        exact ⟨⟨p.2, Dict.get?_eq_some_iff.2 hp, hstatus, hcandidate⟩, hcustody,
          fun hbehind => hkept ((hagain p.1).2 hbehind)⟩
      · rw [if_neg hid] at hget
        exact h.reusable id c' hget
    · rcases Dict.mem_keys_set.1 hid with rfl | hid
      · rw [nodeDeps_of_mem hp] at hd
        exact Dict.mem_keys_set.2 (.inr (hdeps d hd))
      · exact Dict.mem_keys_set.2 (.inr (h.closed id hid d hd))

theorem Reuses.pass (h : Reuses state inherited frontier reused) :
    Reuses state inherited frontier (reusePass state inherited again reused) :=
  List.foldlRecOn (motive := Reuses state inherited frontier) state.nodes.items _ h
    fun _ hacc _ hp => hacc.visit hagain hp

/-- **The second loop ends.** -/
theorem reuse_ends : EndsIn (reusePass state inherited again) ∅
    ((reusePass state inherited again)^[state.nodes.items.length] ∅) := by
  refine endsIn_iterate (P := Reuses state inherited frontier) (fun _ h => h.pass hagain)
    (fun _ _ => (adds_reuseVisit state inherited again).grow state.nodes.items _)
    (fun reused h => ?_) ⟨nofun, nofun⟩
  have hle := length_le_items reused.nodup_keys h.known
  rwa [Dict.keys, length_map] at hle

/-- **What the second loop reuses is the greatest closed set of reusable nodes.** -/
theorem reuse_greatest (hacyclic : Dag.Acyclic (nodeDeps state.nodes))
    (hsettled : reusePass state inherited again reused = reused) {S : Set String}
    (hreusable : ∀ id ∈ S, ∃ c, Reusable state inherited frontier id c)
    (hclosed : ∀ id ∈ S, ∀ d ∈ nodeDeps state.nodes id, d ∈ S) :
    ∀ id ∈ S, id ∈ reused.keys := by
  obtain ⟨rank, hrank⟩ := hacyclic
  have hvisits := (adds_reuseVisit state inherited again).settled hsettled
  intro id hid
  induction hn : rank id using Nat.strong_induction_on generalizing id with
  | _ n ih =>
    by_contra hout
    obtain ⟨c, hc⟩ := hreusable id hid
    obtain ⟨node, hnode, hstatus, hcandidate⟩ := hc.sealed
    have hitem := Dict.get?_eq_some_iff.1 hnode
    have hdeps : ∀ d ∈ node.dependsOn, d ∈ reused.keys := by
      intro d hd
      rw [← nodeDeps_of_mem hitem] at hd
      exact ih (rank d) (hn ▸ hrank id d hd) d (hclosed id hid d hd) rfl
    have hsome : reusableCandidate state inherited again reused id node = some c :=
      reusableCandidate_eq_some.2 ⟨hout, fun hagain' => hc.kept ((hagain id).1 hagain'), hstatus,
        hcandidate, hc.custody, hdeps⟩
    have hsame := hvisits (id, node) hitem
    rw [reuseVisit, hsome] at hsame
    have hset := congrArg (fun d => d.items.length) hsame
    rw [Dict.items_set_of_notMem hout, length_append] at hset
    simp at hset

end Frontier

/-! ## The selection -/

/-- A selection of the right nodes. -/
structure Selects (state : AttemptState C) (inherited : Dict String C) (frontier : List String)
    (selection : RepairSelection C) : Prop extends
    Reuses state inherited frontier selection.reusedCompleted where
  invalidated : ∀ id, id ∈ selection.invalidatedNodeIds ↔ BehindFrontier state.nodes frontier id
  greatest : ∀ S : Set String, (∀ id ∈ S, ∃ c, Reusable state inherited frontier id c) →
    (∀ id ∈ S, ∀ d ∈ nodeDeps state.nodes id, d ∈ S) → ∀ id ∈ S, id ∈ selection.reusedCompleted.keys

/-- What is invalidated is not reused. -/
theorem Selects.disjoint {selection : RepairSelection C}
    (h : Selects state inherited frontier selection) :
    ∀ id ∈ selection.reusedCompleted.keys, id ∉ selection.invalidatedNodeIds := by
  intro id hid hinvalid
  obtain ⟨c, hc⟩ := Dict.mem_keys_iff.1 hid
  exact (h.reusable id c hc).kept ((h.invalidated id).1 hinvalid)

theorem SameNodes.reusable {state' : AttemptState C} (h : SameNodes state state')
    (hc : Reusable state inherited frontier id c) : Reusable state' inherited frontier id c := by
  obtain ⟨node, hnode, hsealed⟩ := hc.sealed
  refine ⟨⟨node, (h.nodes id).trans hnode, hsealed⟩, ?_, fun hb => hc.kept (h.behind.1 hb)⟩
  have hcustody := hc.custody
  rw [custodyMatches, Bool.or_eq_true, any_eq_true] at hcustody ⊢
  rcases hcustody with ⟨b, hb, hbinds⟩ | hreceipt
  · exact .inl ⟨b, (h.barriers b).2 hb, hbinds⟩
  · exact .inr hreceipt

/-- **The selection does not depend on the order of the nodes.** -/
theorem Selects.agree {state' : AttemptState C} (hsame : SameNodes state state')
    {selection selection' : RepairSelection C} (h : Selects state inherited frontier selection)
    (h' : Selects state' inherited frontier selection') :
    (∀ id, id ∈ selection'.invalidatedNodeIds ↔ id ∈ selection.invalidatedNodeIds) ∧
      ∀ id, selection'.reusedCompleted.get? id = selection.reusedCompleted.get? id := by
  have hkeys : ∀ {s s' : AttemptState C} {r r' : RepairSelection C}, SameNodes s s' →
      Selects s inherited frontier r → Selects s' inherited frontier r' →
      ∀ id c, r.reusedCompleted.get? id = some c → r'.reusedCompleted.get? id = some c := by
    intro s s' r r' hs hr hr' id c hc
    have hmem : id ∈ r'.reusedCompleted.keys := by
      refine hr'.greatest {id | id ∈ r.reusedCompleted.keys} (fun id hid => ?_)
        (fun id hid d hd => ?_) id (Dict.mem_keys_iff.2 ⟨c, hc⟩)
      · obtain ⟨c, hc⟩ := Dict.mem_keys_iff.1 hid
        exact ⟨c, hs.reusable (hr.reusable id c hc)⟩
      · rw [hs.nodeDeps] at hd
        exact hr.closed id hid d hd
    obtain ⟨c', hc'⟩ := Dict.mem_keys_iff.1 hmem
    rw [hc', (hr'.reusable id c' hc').unique (hs.reusable (hr.reusable id c hc))]
  refine ⟨fun id => ?_, fun id => Option.ext fun c => ⟨?_, ?_⟩⟩
  · rw [h'.invalidated, h.invalidated, hsame.behind]
  · exact hkeys hsame.symm h' h id c
  · exact hkeys hsame h h' id c

theorem repairSelection_selects (inherited : Dict String C)
    (hacyclic : Dag.Acyclic (nodeDeps state.nodes)) (hne : frontier ≠ []) (hnodup : frontier.Nodup)
    (hknown : ∀ f ∈ frontier, f ∈ state.nodes.keys) :
    ∃ selection, repairSelection state inherited frontier = .ok selection ∧
      Selects state inherited frontier selection ∧
      EndsIn (invalidatePass state.nodes) frontier (invalidated state.nodes frontier) ∧
      EndsIn (reusePass state inherited (invalidated state.nodes frontier)) ∅
        selection.reusedCompleted := by
  have hvalid : ¬ (frontier = [] ∨ ¬ frontier.Nodup ∨
      frontier.any (· ∉ state.nodes.keys) = true) := by
    rintro (h | h | h)
    · exact hne h
    · exact h hnodup
    · obtain ⟨f, hf, hout⟩ := any_eq_true.1 h
      exact of_decide_eq_true hout (hknown f hf)
  have hagain : ∀ id, id ∈ invalidated state.nodes frontier ↔
      BehindFrontier state.nodes frontier id := fun _ => mem_invalidated_iff hnodup hknown
  have hinvalid : Invalidates state.nodes frontier (invalidated state.nodes frontier) :=
    (invalidated_ends hnodup hknown).invariant (fun _ h => h.pass) (.start hnodup hknown)
  have hends : EndsIn (reusePass state inherited (invalidated state.nodes frontier)) ∅ _ :=
    reuse_ends hagain
  have hreuses : Reuses state inherited frontier
      ((reusePass state inherited (invalidated state.nodes frontier))^[state.nodes.items.length] ∅) :=
    hends.invariant (fun _ h => h.pass hagain) ⟨nofun, nofun⟩
  refine ⟨_, if_neg hvalid, ⟨hreuses, fun id => ?_, fun S hS hclosed => ?_⟩,
    invalidated_ends hnodup hknown, hends⟩
  · rw [mem_filter, decide_eq_true_eq, hagain]
    exact ⟨And.right, fun h => ⟨hinvalid.known id ((hagain id).2 h), h⟩⟩
  · exact reuse_greatest hagain hacyclic hends.settled hS hclosed

/-- **Repair selection is exact.** For every checkpoint of a plan, every custody and every frontier
of distinct nodes, both loops end. The nodes behind the frontier are invalidated, and the greatest
closed set of reusable nodes is reused with the candidates that they were sealed with, whatever the
order of the nodes. So the dependencies of what the successor begins with are complete. -/
theorem repair_selection_exact (plan : PlanGraphPlan C) {state : AttemptState C}
    (hplan : OfPlan plan state) (inherited : Dict String C) {frontier : List String}
    (hne : frontier ≠ []) (hnodup : frontier.Nodup) (hknown : ∀ f ∈ frontier, f ∈ state.nodes.keys) :
    ∃ selection, repairSelection state inherited frontier = .ok selection ∧
      EndsIn (invalidatePass state.nodes) frontier (invalidated state.nodes frontier) ∧
      EndsIn (reusePass state inherited (invalidated state.nodes frontier)) ∅
        selection.reusedCompleted ∧
      Selects state inherited frontier selection ∧
      (∀ id ∈ selection.reusedCompleted.keys, id ∉ selection.invalidatedNodeIds) ∧
      (∀ state', SameNodes state state' →
        ∃ selection', repairSelection state' inherited frontier = .ok selection' ∧
          (∀ id, id ∈ selection'.invalidatedNodeIds ↔ id ∈ selection.invalidatedNodeIds) ∧
          ∀ id, selection'.reusedCompleted.get? id = selection.reusedCompleted.get? id) ∧
      ∀ attemptId successor, openSuccessor plan state inherited frontier attemptId = .ok successor →
        ∃ completed, successor.audit.loadAuditCompleted = .ok completed ∧
          (∀ id, completed.get? id = selection.reusedCompleted.get? id) ∧
          validateCompletedDependencies plan.ordered completed = .ok () := by
  have hacyclic : Dag.Acyclic (nodeDeps state.nodes) := by
    rw [hplan.deps]
    exact plan.acyclic
  obtain ⟨selection, hselection, hselects, hfirst, hsecond⟩ :=
    repairSelection_selects inherited hacyclic hne hnodup hknown
  refine ⟨selection, hselection, hfirst, hsecond, hselects, hselects.disjoint, ?_, ?_⟩
  · intro state' hsame
    have hacyclic' : Dag.Acyclic (nodeDeps state'.nodes) := by rwa [hsame.nodeDeps]
    have hknown' : ∀ f ∈ frontier, f ∈ state'.nodes.keys := by
      intro f hf
      obtain ⟨node, hnode⟩ := Dict.mem_keys_iff.1 (hknown f hf)
      exact Dict.mem_keys_iff.2 ⟨node, (hsame.nodes f).trans hnode⟩
    obtain ⟨selection', hselection', hselects', -⟩ :=
      repairSelection_selects inherited hacyclic' hne hnodup hknown'
    exact ⟨selection', hselection', hselects.agree hsame hselects'⟩
  · intro attemptId successor hopen
    rw [openSuccessor] at hopen
    split_ifs at hopen
    rw [hselection] at hopen
    cases hopen
    obtain ⟨completed, hload, hget⟩ := loadAuditCompleted_initialState plan attemptId
      (fun id hid => (hplan.keys id).1 (hselects.known id hid)) (some state.graphRunId)
      (carryBarriers state) fun _ => rfl
    refine ⟨completed, hload, hget, validateCompletedDependencies_ok fun id hid d hd => ?_⟩
    have hmem : ∀ id, id ∈ completed.keys ↔ id ∈ selection.reusedCompleted.keys := by
      intro id
      simp only [Dict.mem_keys_iff, hget]
    rw [hmem] at hid ⊢
    exact hselects.closed id hid d (by rwa [hplan.deps])

end Reuse

/-! ## A node behind a sealed one -/

/-- The first run is sealed, and the run behind it has failed. -/
def pairFailed : AttemptState (Finset ℕ) :=
  ((initialState pairPlan "graph" ∅ none).nodeCompleted "a" {1} ∅).nodeFailed "b" .failed none

theorem ofPlan_pairFailed : OfPlan pairPlan pairFailed := by
  have hsealed : OfPlan pairPlan ((initialState pairPlan "graph" ∅ none).nodeCompleted "a" {1} ∅) :=
    (ofPlan_initialState pairPlan "graph" ∅ none).transition rfl fun _ => rfl
  exact hsealed.transition rfl fun _ => rfl

theorem repair_selection_exact_pair : ∃ selection,
    repairSelection pairFailed ∅ ["b"] = .ok selection ∧ Selects pairFailed ∅ ["b"] selection ∧
      selection.reusedCompleted.get? "a" = some {1} := by
  obtain ⟨selection, hselection, -, -, hselects, -⟩ := repair_selection_exact pairPlan
    ofPlan_pairFailed ∅ (cons_ne_nil "b" []) (nodup_singleton "b") (by decide)
  refine ⟨selection, hselection, hselects, ?_⟩
  have hreused : (match repairSelection pairFailed ∅ ["b"] with
      | .ok selection => selection.reusedCompleted.get? "a"
      | .error _ => none) = some {1} := by decide +kernel
  rwa [hselection] at hreused

end HarnessLabs.PlanGraph
