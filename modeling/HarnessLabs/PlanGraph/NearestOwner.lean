import HarnessLabs.Lib.Reach
import HarnessLabs.PlanGraph.Routing

/-!
# The nearest owner

A finding that a node may not fix is handed to a node behind it. The controller offers every grant
that is held behind the node, under the holder at the least distance, and takes the finding back
when the grants around its paths do not lead to the node that it was handed to.

* `distancesFrom_get?` — **the search finds the distance of every run behind the node.**
* `PlanGraphPlan.transferTargetsFor_get?` — a grant is offered exactly when one run holds it nearest.
* `transfers_downstream` — **a transfer that is accepted goes to a run behind the node, which owns
  all the paths among the grants that are offered.**
-/

namespace HarnessLabs.PlanGraph

open List
open Until (foldlM_invariant)

section Targets

variable {runs : List PlanRun}

/-! ## Distances -/

/-- What serving a run finds: the runs that depend on it and had no distance, one level below. -/
structure Served (todo : List PlanRun) (predecessor : String) (k : ℕ) (before after : Dict String ℕ)
    (new : List String) : Prop where
  nodup : new.Nodup
  fresh : ∀ x ∈ new, before.get? x = none ∧ ∃ run ∈ todo, run.id = x ∧ predecessor ∈ run.dependsOn
  same : ∀ x, x ∉ new → after.get? x = before.get? x
  set : ∀ x ∈ new, after.get? x = some (k + 1)
  all : ∀ run ∈ todo, predecessor ∈ run.dependsOn → ∃ j, after.get? run.id = some j

theorem served_visitDependents {predecessor : String} {k : ℕ} (todo : List PlanRun)
    {distances : Dict String ℕ} (hpredecessor : distances.get? predecessor = some k)
    (hbound : ∀ x j, distances.get? x = some j → j ≤ k + 1) (frontier : List String) :
    ∃ new, (visitDependents todo predecessor distances frontier).2 = frontier ++ new ∧
      Served todo predecessor k distances
        (visitDependents todo predecessor distances frontier).1 new := by
  induction todo generalizing distances frontier with
  | nil =>
    exact ⟨[], (append_nil _).symm, nodup_nil, (by simp), fun _ _ => rfl, (by simp), by simp⟩
  | cons candidate todo ih =>
    have hlevel : distances.getD predecessor 0 = k := by rw [Dict.getD, hpredecessor, Option.getD]
    by_cases hnew : predecessor ∈ candidate.dependsOn ∧ distances.get? candidate.id = none
    · have hvisit : visitDependents (candidate :: todo) predecessor distances frontier =
          visitDependents todo predecessor (distances.set candidate.id (k + 1))
            (frontier ++ [candidate.id]) := by
        rw [visitDependents, foldl_cons, hlevel, if_pos ⟨hnew.1, by rw [hnew.2]; rfl⟩]
        rfl
      have hne : predecessor ≠ candidate.id := fun heq => by
        rw [heq, hnew.2] at hpredecessor
        cases hpredecessor
      have hkept : (distances.set candidate.id (k + 1)).get? predecessor = some k := by
        rwa [Dict.get?_set_ne _ _ hne]
      have hbound' : ∀ x j, (distances.set candidate.id (k + 1)).get? x = some j → j ≤ k + 1 := by
        intro x j hx
        rw [Dict.get?_set] at hx
        split_ifs at hx
        · exact (Option.some.inj hx).ge
        · exact hbound x j hx
      obtain ⟨new, hfrontier, hserved⟩ := ih hkept hbound' (frontier ++ [candidate.id])
      have hcandidate : candidate.id ∉ new := fun hmem => by
        have hnone := (hserved.fresh _ hmem).1
        rw [Dict.get?_set_self] at hnone
        cases hnone
      have hafter := hserved.same candidate.id hcandidate
      rw [Dict.get?_set_self] at hafter
      rw [hvisit]
      refine ⟨candidate.id :: new, by rw [hfrontier, append_assoc, singleton_append],
        nodup_cons.2 ⟨hcandidate, hserved.nodup⟩, fun x hx => ?_, fun x hx => ?_,
        fun x hx => ?_, fun run hrun hdepends => ?_⟩
      · rcases mem_cons.1 hx with rfl | hx
        · exact ⟨hnew.2, candidate, mem_cons_self, rfl, hnew.1⟩
        · obtain ⟨hnone, run, hrun, hid⟩ := hserved.fresh x hx
          have hxne : x ≠ candidate.id := fun heq => hcandidate (heq ▸ hx)
          rw [Dict.get?_set_ne _ _ hxne] at hnone
          exact ⟨hnone, run, mem_cons_of_mem _ hrun, hid⟩
      · rw [mem_cons, not_or] at hx
        rw [hserved.same x hx.2, Dict.get?_set_ne _ _ hx.1]
      · rcases mem_cons.1 hx with rfl | hx
        · exact hafter
        · exact hserved.set x hx
      · rcases mem_cons.1 hrun with rfl | hrun
        · exact ⟨k + 1, hafter⟩
        · exact hserved.all run hrun hdepends
    · have hvisit : visitDependents (candidate :: todo) predecessor distances frontier =
          visitDependents todo predecessor distances frontier := by
        rw [visitDependents, foldl_cons, hlevel, if_neg]
        · rfl
        · rintro ⟨hdepends, hshorter⟩
          cases hget : distances.get? candidate.id with
          | none => exact hnew ⟨hdepends, hget⟩
          | some j =>
            rw [hget, Option.all_some, decide_eq_true_eq] at hshorter
            have hle := hbound _ j hget
            omega
      rw [hvisit]
      obtain ⟨new, hfrontier, hserved⟩ := ih hpredecessor hbound frontier
      refine ⟨new, hfrontier, hserved.nodup, fun x hx => ?_, hserved.same, hserved.set,
        fun run hrun hdepends => ?_⟩
      · obtain ⟨hnone, run, hrun, hid⟩ := hserved.fresh x hx
        exact ⟨hnone, run, mem_cons_of_mem _ hrun, hid⟩
      · rcases mem_cons.1 hrun with rfl | hrun
        · -- it has a distance already, which is kept
          cases hget : distances.get? run.id with
          | none => exact absurd ⟨hdepends, hget⟩ hnew
          | some j =>
            by_cases hmem : run.id ∈ new
            · exact ⟨k + 1, hserved.set _ hmem⟩
            · exact ⟨j, by rw [hserved.same _ hmem, hget]⟩
        · exact hserved.all run hrun hdepends

theorem Served.length_keys {todo : List PlanRun} {predecessor : String} {k : ℕ}
    {before after : Dict String ℕ} {new : List String}
    (h : Served todo predecessor k before after new) :
    before.keys.length + new.length ≤ after.keys.length := by
  have hnodup : (before.keys ++ new).Nodup := by
    refine nodup_append.2 ⟨before.nodup_keys, h.nodup, fun x hx y hy heq => ?_⟩
    exact Dict.get?_eq_none_iff.1 (h.fresh y hy).1 (heq ▸ hx)
  have hsubset : before.keys ++ new ⊆ after.keys := by
    intro x hx
    rw [Dict.mem_keys_iff]
    by_cases hmem : x ∈ new
    · exact ⟨k + 1, h.set x hmem⟩
    · rw [h.same x hmem, ← Dict.mem_keys_iff]
      exact (mem_append.1 hx).resolve_right hmem
  rw [← length_append]
  exact (hnodup.subperm hsubset).length_le

/-- A run enters the frontier once, so that the fuel lasts. -/
theorem breadth_distancesFrom (hunique : (runIds runs).Nodup) {source : String} {fuel : ℕ}
    {distances : Dict String ℕ} {frontier : List String}
    (h : Dag.Breadth (dependenciesOf runs) source distances.get? frontier)
    (hkeys : ∀ id ∈ distances.keys, id ∈ runIds runs)
    (hfuel : runs.length + frontier.length ≤ distances.keys.length + fuel) :
    Dag.Breadth (dependenciesOf runs) source
      (distancesFrom runs fuel distances frontier).get? [] := by
  induction fuel generalizing distances frontier with
  | zero =>
    have hle := (distances.nodup_keys.subperm hkeys).length_le
    rw [runIds, length_map] at hle
    have hnil : frontier = [] := eq_nil_of_length_eq_zero (by omega)
    subst hnil
    exact h
  | succ fuel ih =>
    cases frontier with
    | nil => exact h
    | cons predecessor rest =>
      obtain ⟨k, hk⟩ := h.queued predecessor mem_cons_self
      obtain ⟨new, hfrontier, hserved⟩ :=
        served_visitDependents runs hk (fun _ _ hx => h.level_le hk hx) rest
      have hdepends : ∀ x, predecessor ∈ dependenciesOf runs x →
          ∃ run ∈ runs, run.id = x ∧ predecessor ∈ run.dependsOn := by
        intro x hx
        by_cases hmem : x ∈ runIds runs
        · obtain ⟨run, hrun, rfl⟩ := mem_map.1 hmem
          rw [dependenciesOf_self hunique hrun] at hx
          exact ⟨run, hrun, rfl, hx⟩
        · rw [dependenciesOf_of_notMem hmem] at hx
          cases hx
      have hnext := h.serve hk hserved.nodup (fun x hx => ?_) hserved.same hserved.set
        fun x hx => ?_
      · rw [distancesFrom]
        dsimp only
        rw [hfrontier]
        refine ih hnext (fun id hid => ?_) ?_
        · rw [Dict.mem_keys_iff] at hid
          by_cases hmem : id ∈ new
          · obtain ⟨-, run, hrun, rfl, -⟩ := hserved.fresh id hmem
            exact mem_runIds hrun
          · rw [hserved.same id hmem, ← Dict.mem_keys_iff] at hid
            exact hkeys id hid
        · have hlength := hserved.length_keys
          rw [length_cons] at hfuel
          rw [length_append]
          omega
      · obtain ⟨hnone, run, hrun, rfl, hin⟩ := hserved.fresh x hx
        exact ⟨hnone, by rwa [dependenciesOf_self hunique hrun]⟩
      · obtain ⟨run, hrun, rfl, hin⟩ := hdepends x hx
        exact hserved.all run hrun hin

/-- **The search finds the distance of every run behind the node.** -/
theorem distancesFrom_get? (hunique : (runIds runs).Nodup) {run : PlanRun} (hrun : run ∈ runs)
    {id : String} {k : ℕ} :
    (distancesFrom runs (runs.length + 1) (Dict.set ∅ run.id 0) [run.id]).get? id = some k ↔
      Dag.Distance (dependenciesOf runs) run.id k id := by
  refine (breadth_distancesFrom hunique (.begin (Dict.get?_set_self _ _ _) fun x hx => ?_)
    (fun x hx => ?_) ?_).level_eq_some
  · rw [Dict.get?_set_ne _ _ hx, Dict.get?_empty]
  · rw [Dict.mem_keys_set, Dict.keys_empty] at hx
    exact (hx.resolve_right not_mem_nil) ▸ mem_runIds hrun
  · rw [length_singleton]
    omega

/-! ## The grants behind a node -/

/-- A grouping has the claims of a key in their order. -/
theorem get?_grouped (claims : List (String × ℕ × String))
    (groups : Dict String (List (ℕ × String))) (path : String) :
    (claims.foldl (fun acc claim => acc.set claim.1 (acc.getD claim.1 [] ++ [claim.2]))
      groups).get? path =
      if claims.filter (·.1 = path) = [] then groups.get? path
      else some (groups.getD path [] ++ (claims.filter (·.1 = path)).map Prod.snd) := by
  induction claims generalizing groups with
  | nil => rfl
  | cons claim claims ih =>
    rw [foldl_cons, ih]
    by_cases hpath : claim.1 = path
    · subst hpath
      have hset (owners : List (ℕ × String)) :
          (groups.set claim.1 owners).getD claim.1 [] = owners := by
        rw [Dict.getD, Dict.get?_set_self, Option.getD]
      rw [filter_cons_of_pos (by simp), if_neg (cons_ne_nil _ _), Dict.get?_set_self,
        hset]
      by_cases hnil : claims.filter (·.1 = claim.1) = []
      · rw [if_pos hnil, hnil]
        rfl
      · rw [if_neg hnil]
        simp
    · rw [filter_cons_of_neg (by simpa using hpath), Dict.get?_set_ne _ _ (Ne.symm hpath),
        Dict.getD, Dict.get?_set_ne _ _ (Ne.symm hpath), Dict.getD]

theorem nearestOwner_eq_some {owners : List (ℕ × String)} {owner : String} :
    nearestOwner owners = some owner ↔
      ∃ k, (k, owner) ∈ owners ∧ ∀ o ∈ owners, k ≤ o.1 ∧ (o.1 = k → o.2 = owner) := by
  have hmem : ∀ other, other ∈ ((owners.filter fun o =>
      owners.all fun other => o.1 ≤ other.1).map Prod.snd).dedup ↔
        ∃ k, (k, other) ∈ owners ∧ ∀ o ∈ owners, k ≤ o.1 := by
    simp [mem_dedup]
  rw [nearestOwner, theOnly_eq_some (nodup_dedup _)]
  simp only [hmem]
  constructor
  · intro h
    obtain ⟨k, hk, hleast⟩ := (h owner).2 rfl
    refine ⟨k, hk, fun o ho => ⟨hleast o ho, fun heq => (h o.2).1 ⟨k, ?_, hleast⟩⟩⟩
    rw [← heq]
    exact ho
  · rintro ⟨k, hk, hleast⟩ other
    constructor
    · rintro ⟨j, hj, hother⟩
      refine (hleast _ hj).2 (le_antisymm (hother _ hk) (hleast _ hj).1)
    · intro heq
      exact ⟨k, heq ▸ hk, fun o ho => (hleast o ho).1⟩

/-- A run behind the node that holds the grant, at its distance. -/
structure HeldBehind (runs : List PlanRun) (source path : String) (k : ℕ) (id : String) : Prop where
  behind : Dag.Needs (dependenciesOf runs) id source
  distance : Dag.Distance (dependenciesOf runs) source k id
  held : ∃ holder ∈ runs, holder.id = id ∧ path ∈ holder.allowedPaths

/-- The only one of the runs behind the node that holds the grant at the least distance. -/
def NearestHolder (runs : List PlanRun) (source path id : String) : Prop :=
  ∃ k, HeldBehind runs source path k id ∧
    ∀ j other, HeldBehind runs source path j other → k ≤ j ∧ (j = k → other = id)

end Targets

section Plans

universe u

variable {C : Type u} (plan : PlanGraphPlan C) {run : PlanRun}

theorem PlanGraphPlan.needs_iff {source id : String} {k : ℕ}
    (h : Dag.Distance plan.dependencies source k id) :
    Dag.Needs plan.dependencies id source ↔ id ≠ source := by
  constructor
  · intro hneeds heq
    exact plan.acyclic.not_needs_self source (heq ▸ hneeds)
  · intro hne
    cases k with
    | zero =>
      cases h.1
      exact absurd rfl hne
    | succ k => exact h.1.needs

/-- The claims on a grant are those of the runs behind the node. -/
theorem PlanGraphPlan.mem_claims (hrun : run ∈ plan.runs) {path id : String} {k : ℕ} :
    (path, k, id) ∈
      ((distancesFrom plan.runs (plan.runs.length + 1) (Dict.set ∅ run.id 0) [run.id]).items.flatMap
        fun p => if p.1 = run.id then []
          else (((runById plan.runs p.1).map (·.allowedPaths)).getD []).map fun path =>
            (path, p.2, p.1)) ↔
      HeldBehind plan.runs run.id path k id := by
  have hdistance := @distancesFrom_get? _ plan.nodup_ids _ hrun id k
  rw [Dict.get?_eq_some_iff] at hdistance
  have hheld : path ∈ ((runById plan.runs id).map (·.allowedPaths)).getD [] ↔
      ∃ holder ∈ plan.runs, holder.id = id ∧ path ∈ holder.allowedPaths := by
    constructor
    · intro hpath
      cases hfind : runById plan.runs id with
      | none =>
        rw [hfind] at hpath
        exact nomatch hpath
      | some holder =>
        rw [hfind] at hpath
        obtain ⟨hholder, hid⟩ := (runById_eq_some plan.nodup_ids).1 hfind
        exact ⟨holder, hholder, hid, hpath⟩
    · intro ⟨holder, hholder, hid, hpath⟩
      rw [(runById_eq_some plan.nodup_ids).2 ⟨hholder, hid⟩]
      exact hpath
  rw [mem_flatMap]
  constructor
  · intro ⟨p, hp, hmem⟩
    split_ifs at hmem with hself
    · exact nomatch hmem
    · obtain ⟨grant, hgrant, heq⟩ := mem_map.1 hmem
      obtain ⟨rfl, rfl, rfl⟩ : grant = path ∧ p.2 = k ∧ p.1 = id := by simpa using heq
      have hd := hdistance.1 hp
      exact ⟨(plan.needs_iff hd).2 hself, hd, hheld.1 hgrant⟩
  · intro h
    refine ⟨(id, k), hdistance.2 h.distance, ?_⟩
    rw [if_neg ((plan.needs_iff h.distance).1 h.behind)]
    exact mem_map_of_mem (hheld.2 h.held)

/-- **A grant is offered exactly when one run behind the node holds it nearest.** -/
theorem PlanGraphPlan.transferTargetsFor_get? (hrun : run ∈ plan.runs) {path id : String} :
    (transferTargetsFor plan.runs run).get? path = some id ↔
      NearestHolder plan.runs run.id path id := by
  rw [transferTargetsFor, Dict.get?_filterMap, get?_grouped, Dict.get?_empty]
  generalize hclaims : ((distancesFrom plan.runs (plan.runs.length + 1) (Dict.set ∅ run.id 0)
    [run.id]).items.flatMap fun p => if p.1 = run.id then []
      else (((runById plan.runs p.1).map (·.allowedPaths)).getD []).map fun path =>
        (path, p.2, p.1)) = claims
  have hmem : ∀ k id, (path, k, id) ∈ claims ↔ HeldBehind plan.runs run.id path k id := by
    intro k id
    rw [← hclaims]
    exact plan.mem_claims hrun
  have howners : ∀ o : ℕ × String, o ∈ (claims.filter (·.1 = path)).map Prod.snd ↔
      HeldBehind plan.runs run.id path o.1 o.2 := by
    rintro ⟨k, id⟩
    rw [← hmem]
    simp
  by_cases hnil : claims.filter (·.1 = path) = []
  · rw [if_pos hnil]
    refine iff_of_false (fun h => by cases h) ?_
    rintro ⟨k, hheld, _⟩
    have hin := (howners (k, id)).2 hheld
    rw [hnil] at hin
    cases hin
  · rw [if_neg hnil, Dict.getD, Dict.get?_empty]
    show nearestOwner ([] ++ (claims.filter (·.1 = path)).map Prod.snd) = some id ↔ _
    rw [nil_append, nearestOwner_eq_some]
    simp only [howners, Prod.forall]
    rfl

/-! ## Transfers -/

/-- The finding is owed by a run behind the node, which owns its paths among the grants offered. -/
def HandedDownstream (run : PlanRun) (targets : Dict String String) (advanced : Obligations)
    (finding : Json) : Prop :=
  ∃ o target paths, Obligation.ofRecord? finding = some o ∧
    (finding.get? "transferred_to").bind Json.asStr? = some target ∧
    nonEmptyTexts? (finding.get? "required_paths") = some paths ∧
    Dag.Needs plan.dependencies target run.id ∧
    (∀ path ∈ paths, ownerForPath targets path = some target) ∧
    o ∈ advanced.owed target

variable {pending after : Obligations}

theorem mem_owed_addObligation {message target : String} {o : Obligation}
    (h : addObligation message pending target o = .ok after) :
    o ∈ after.owed target ∧ ∀ node, ∀ other ∈ pending.owed node, other ∈ after.owed node := by
  rw [addObligation] at h
  split_ifs at h
  cases h
  refine ⟨?_, fun node other hother => ?_⟩
  · rw [owed_set, if_pos rfl]
    exact mem_append_right _ (mem_singleton_self o)
  · rw [owed_set]
    split_ifs with hnode
    · exact mem_append_left _ (hnode ▸ hother)
    · exact hother

/-- What a transfer checks, and where it leads. -/
theorem transferFinding_eq_ok {targets : Dict String String} {completed : Dict String C}
    {finding : Json} (h : transferFinding run targets completed pending finding = .ok after) :
    (∃ o target paths, Obligation.ofRecord? finding = some o ∧
      (finding.get? "transferred_to").bind Json.asStr? = some target ∧
      nonEmptyTexts? (finding.get? "required_paths") = some paths ∧
      (∀ path ∈ paths, ownerForPath targets path = some target) ∧ o ∈ after.owed target) ∧
    ∀ node, ∀ other ∈ pending.owed node, other ∈ after.owed node := by
  rw [transferFinding] at h
  cases ho : Obligation.ofRecord? finding with
  | none =>
    rw [ho] at h
    cases h
  | some o =>
    cases htarget : (finding.get? "transferred_to").bind Json.asStr? with
    | none =>
      rw [ho, htarget] at h
      cases h
    | some target =>
      cases hpaths : nonEmptyTexts? (finding.get? "required_paths") with
      | none =>
        rw [ho, htarget, hpaths] at h
        cases h
      | some paths =>
        rw [ho, htarget, hpaths] at h
        dsimp only at h
        split_ifs at h with hempty howners hdone
        rw [all_eq_true] at howners
        obtain ⟨hmem, hkept⟩ := mem_owed_addObligation h
        exact ⟨⟨o, target, paths, rfl, rfl, rfl, fun path hpath =>
          by simpa using howners path hpath, hmem⟩, hkept⟩

theorem mem_owed_applyEscalationAdvances {advances : List (String × Obligation)}
    (h : applyEscalationAdvances pending advances = .ok after) {node : String} {o : Obligation}
    (ho : o ∈ pending.owed node) : o ∈ after.owed node :=
  foldlM_invariant (P := fun acc => o ∈ Obligations.owed acc node) h ho
    fun _ _ _ _ hacc hadd => (mem_owed_addObligation hadd).2 node o hacc

/-- Every transfer of a fold checked its paths, and its obligation is kept. -/
theorem transferFindings_eq_ok {targets : Dict String String} {completed : Dict String C}
    {transferred : List Json}
    (h : transferred.foldlM (transferFinding run targets completed) pending = .ok after) :
    ∀ finding ∈ transferred, ∃ o target paths, Obligation.ofRecord? finding = some o ∧
      (finding.get? "transferred_to").bind Json.asStr? = some target ∧
      nonEmptyTexts? (finding.get? "required_paths") = some paths ∧
      (∀ path ∈ paths, ownerForPath targets path = some target) ∧ o ∈ after.owed target := by
  induction transferred generalizing pending with
  | nil => exact fun finding hfinding => nomatch hfinding
  | cons first rest ih =>
    obtain ⟨middle, hfirst, hrest⟩ := Dag.foldlM_ok_iff.1 h
    obtain ⟨⟨o, target, paths, ho, htarget, hpaths, howners, hmem⟩, -⟩ :=
      transferFinding_eq_ok hfirst
    intro finding hfinding
    cases mem_cons.1 hfinding with
    | inl heq =>
      subst heq
      refine ⟨o, target, paths, ho, htarget, hpaths, howners, ?_⟩
      exact foldlM_invariant (P := fun acc => o ∈ Obligations.owed acc target) hrest hmem
        fun _ _ _ _ hacc hnext => (transferFinding_eq_ok hnext).2 target o hacc
    | inr hrest' => exact ih hrest finding hrest'

/-- **Transfers go strictly downstream to the nearest owner.** -/
theorem transfers_downstream (hrun : run ∈ plan.runs) :
    (∀ path id, (transferTargetsFor plan.runs run).get? path = some id ↔
      NearestHolder plan.runs run.id path id) ∧
    ∀ (request : FeatureRunRequest C) (outcome : FeatureRunOutcome C) (completed : Dict String C)
      (current : Obligations) (advances : List (String × Obligation)) (advanced : Obligations)
      (transferred : List Json),
      request.findingTransferTargets = transferTargetsFor plan.runs run →
      advanceFindingObligations run request outcome current completed advances = .ok advanced →
      transferredFindings outcome.evidence = .ok transferred →
      ∀ finding ∈ transferred,
        HandedDownstream plan run request.findingTransferTargets advanced finding := by
  refine ⟨fun path id => plan.transferTargetsFor_get? hrun, ?_⟩
  intro request outcome completed current advances advanced transferred htargets hadvance
    htransferred finding hfinding
  rw [advanceFindingObligations, htransferred] at hadvance
  dsimp only at hadvance
  cases hfold : transferred.foldlM (transferFinding run request.findingTransferTargets completed)
      (current.erase run.id) with
  | error message =>
    rw [hfold] at hadvance
    cases hadvance
  | ok pending =>
    rw [hfold] at hadvance
    obtain ⟨o, target, paths, ho, htarget, hpaths, howners, hmem⟩ :=
      transferFindings_eq_ok hfold finding hfinding
    refine ⟨o, target, paths, ho, htarget, hpaths, ?_, howners,
      mem_owed_applyEscalationAdvances hadvance hmem⟩
    obtain ⟨path, hpath⟩ := exists_mem_of_ne_nil _ (nonEmptyTexts?_ne_nil hpaths)
    have hoffered := ownerForPath_mem (howners path hpath)
    rw [htargets] at hoffered
    exact needs_of_transferTarget plan.nodup_ids hoffered

end Plans

/-- A library, a tool beneath it and a guide beneath the tool. -/
def chainPlan : PlanGraphPlan (Finset ℕ) where
  baseCommit := ∅
  runs := [⟨"library", [], ["src/library"]⟩, ⟨"tool", ["library"], ["src/tool"]⟩,
    ⟨"guide", ["tool"], ["src/tool", "docs"]⟩]
  functionalityTests := []
  ordered := [⟨"library", [], ["src/library"]⟩, ⟨"tool", ["library"], ["src/tool"]⟩,
    ⟨"guide", ["tool"], ["src/tool", "docs"]⟩]
  valid := by decide +kernel
  ordered_eq := by decide +kernel

theorem transfers_downstream_chain :
    NearestHolder chainPlan.runs "library" "src/tool" "tool" ∧
      NearestHolder chainPlan.runs "library" "docs" "guide" ∧
      ¬ NearestHolder chainPlan.runs "library" "src/tool" "guide" := by
  have hmem : ⟨"library", [], ["src/library"]⟩ ∈ chainPlan.runs := mem_cons_self
  have htargets := (transfers_downstream chainPlan hmem).1
  refine ⟨(htargets "src/tool" "tool").1 (by decide +kernel),
    (htargets "docs" "guide").1 (by decide +kernel), fun h => ?_⟩
  have htool := (htargets "src/tool" "guide").2 h
  revert htool
  decide +kernel

end HarnessLabs.PlanGraph
