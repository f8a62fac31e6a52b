import HarnessLabs.PlanGraph.Progress
import HarnessLabs.PlanGraph.Stopped
import HarnessLabs.PlanGraph.TransferClaim

/-!
# Discharging obligations

A launch is built with the obligations of its node, and the seal drops what the node owes. A finding
may reach the node in between: transfers go downstream, where nothing is in flight, but a confirmed
escalation goes to any owner.

* `transferTargetsFor` — the owners that a launch may transfer to.
* `sealOutcome_owed` — what a seal leaves of the obligations of the other nodes.
* `Unsurprised` — the turns in which no obligation reaches a node in flight.
* `discharges_seen` — **what a seal removes was in the request.**
* `obligation_discharged_unseen` — what a finding does that is confirmed for a node in flight.
-/

namespace HarnessLabs.PlanGraph

open List

universe u

open Until (foldlM_invariant)

/-! ## Transfer targets -/

section Targets

variable (runs : List PlanRun)

/-- The runs that depend on a predecessor, with a distance that is new or shorter. -/
def visitDependents (predecessor : String) (distances : Dict String ℕ) (frontier : List String) :
    Dict String ℕ × List String :=
  runs.foldl (fun acc candidate =>
    let distance := acc.1.getD predecessor 0 + 1
    if predecessor ∈ candidate.dependsOn ∧ (acc.1.get? candidate.id).all (distance < ·) then
      (acc.1.set candidate.id distance, acc.2 ++ [candidate.id])
    else acc) (distances, frontier)

/-- Breadth first: a run enters the frontier once, so the fuel is the number of runs. -/
def distancesFrom : ℕ → Dict String ℕ → List String → Dict String ℕ
  | 0, distances, _ => distances
  | _, distances, [] => distances
  | fuel + 1, distances, predecessor :: rest =>
    let (distances, frontier) := visitDependents runs predecessor distances rest
    distancesFrom fuel distances frontier

/-- The only owner at the least distance. -/
def nearestOwner (owners : List (ℕ × String)) : Option String :=
  theOnly (((owners.filter fun o => owners.all fun other => o.1 ≤ other.1).map Prod.snd).dedup)

/-- `_transfer_targets_for`. -/
def transferTargetsFor (run : PlanRun) : Dict String String :=
  let distances := distancesFrom runs (runs.length + 1) (Dict.set ∅ run.id 0) [run.id]
  let claims := distances.items.flatMap fun p =>
    if p.1 = run.id then []
    else (((runById runs p.1).map (·.allowedPaths)).getD []).map fun path => (path, p.2, p.1)
  let candidates : Dict String (List (ℕ × String)) :=
    claims.foldl (fun acc claim => acc.set claim.1 (acc.getD claim.1 [] ++ [claim.2])) ∅
  candidates.filterMap fun _ owners => nearestOwner owners

/-- The run itself, or one behind it. -/
def Behind (source id : String) : Prop := id = source ∨ Dag.Needs (dependenciesOf runs) id source

variable {runs}

theorem behind_visitDependents (hunique : (runIds runs).Nodup) {source predecessor : String}
    (hpredecessor : Behind runs source predecessor) {distances : Dict String ℕ}
    {frontier : List String} (hdistances : ∀ id ∈ distances.keys, Behind runs source id)
    (hfrontier : ∀ id ∈ frontier, Behind runs source id) :
    (∀ id ∈ (visitDependents runs predecessor distances frontier).1.keys, Behind runs source id) ∧
      ∀ id ∈ (visitDependents runs predecessor distances frontier).2, Behind runs source id := by
  refine List.foldlRecOn (motive := fun acc : Dict String ℕ × List String =>
    (∀ id ∈ acc.1.keys, Behind runs source id) ∧ ∀ id ∈ acc.2, Behind runs source id)
    runs _ ⟨hdistances, hfrontier⟩ fun acc hacc candidate hcandidate => ?_
  dsimp only
  split_ifs with hnew
  · have hbehind : Behind runs source candidate.id := by
      have hstep : predecessor ∈ dependenciesOf runs candidate.id := by
        rw [dependenciesOf_self hunique hcandidate]
        exact hnew.1
      cases hpredecessor with
      | inl heq => exact .inr (.single (heq ▸ hstep))
      | inr hneeds => exact .inr (.head hstep hneeds)
    refine ⟨fun id hid => ?_, fun id hid => ?_⟩
    · cases Dict.mem_keys_set.1 hid with
      | inl heq => exact heq ▸ hbehind
      | inr hold => exact hacc.1 id hold
    · cases mem_append.1 hid with
      | inl hold => exact hacc.2 id hold
      | inr hlast => exact mem_singleton.1 hlast ▸ hbehind
  · exact hacc

theorem behind_distancesFrom (hunique : (runIds runs).Nodup) {source : String} (fuel : ℕ)
    {distances : Dict String ℕ} {frontier : List String}
    (hdistances : ∀ id ∈ distances.keys, Behind runs source id)
    (hfrontier : ∀ id ∈ frontier, Behind runs source id) :
    ∀ id ∈ (distancesFrom runs fuel distances frontier).keys, Behind runs source id := by
  induction fuel generalizing distances frontier with
  | zero => exact hdistances
  | succ fuel ih =>
    cases frontier with
    | nil => exact hdistances
    | cons predecessor rest =>
      obtain ⟨hkeys, hrest⟩ := behind_visitDependents hunique (hfrontier predecessor
        mem_cons_self) hdistances fun id hid => hfrontier id (mem_cons_of_mem _ hid)
      exact ih hkeys hrest

theorem mem_of_nearestOwner {owners : List (ℕ × String)} {owner : String}
    (h : nearestOwner owners = some owner) : ∃ distance, (distance, owner) ∈ owners := by
  rw [nearestOwner] at h
  have hmem : owner ∈ ((owners.filter fun o => owners.all fun other => o.1 ≤ other.1).map
      Prod.snd).dedup := by
    revert h
    cases ((owners.filter fun o => owners.all fun other => o.1 ≤ other.1).map Prod.snd).dedup with
    | nil => exact nofun
    | cons first rest =>
      cases rest with
      | nil => exact fun h => Option.some.inj h ▸ mem_cons_self
      | cons second rest => exact nofun
  obtain ⟨o, ho, rfl⟩ := mem_map.1 (mem_dedup.1 hmem)
  exact ⟨o.1, mem_of_mem_filter ho⟩

/-- An owner of a path is claimed. -/
theorem mem_candidates (claims : List (String × ℕ × String)) {path : String}
    {owners : List (ℕ × String)}
    (h : (claims.foldl (fun acc claim => acc.set claim.1 (acc.getD claim.1 [] ++ [claim.2]))
      (∅ : Dict String (List (ℕ × String)))).get? path = some owners) :
    ∀ o ∈ owners, ∃ claim ∈ claims, claim.2 = o := by
  revert path owners h
  refine List.foldlRecOn (motive := fun acc : Dict String (List (ℕ × String)) =>
    ∀ {path : String} {owners : List (ℕ × String)}, acc.get? path = some owners →
      ∀ o ∈ owners, ∃ claim ∈ claims, claim.2 = o) claims _
      (fun hnone => by rw [Dict.get?_empty] at hnone; cases hnone)
      fun acc hacc claim hclaim => ?_
  intro path owners h o ho
  rw [Dict.get?_set] at h
  split_ifs at h
  · cases h
    cases mem_append.1 ho with
    | inl hold =>
      rw [Dict.getD] at hold
      cases hget : acc.get? claim.1 with
      | none =>
        rw [hget] at hold
        cases hold
      | some earlier =>
        rw [hget] at hold
        exact hacc hget o hold
    | inr hlast => exact ⟨claim, hclaim, (mem_singleton.1 hlast).symm⟩
  · exact hacc h o ho

/-- **A transfer goes to a run behind the one that transfers.** -/
theorem needs_of_transferTarget (hunique : (runIds runs).Nodup) {run : PlanRun} {target : String}
    (h : target ∈ (transferTargetsFor runs run).values) :
    Dag.Needs (dependenciesOf runs) target run.id := by
  obtain ⟨path, hpath⟩ := Dict.mem_values_iff.1 h
  rw [transferTargetsFor, Dict.get?_filterMap, Option.bind_eq_some_iff] at hpath
  obtain ⟨owners, howners, hnearest⟩ := hpath
  obtain ⟨distance, hdistance⟩ := mem_of_nearestOwner hnearest
  obtain ⟨claim, hclaim, hsame⟩ := mem_candidates _ howners _ hdistance
  obtain ⟨p, hp, hmem⟩ := mem_flatMap.1 hclaim
  split_ifs at hmem with hself
  · exact nomatch hmem
  · obtain ⟨grant, -, rfl⟩ := mem_map.1 hmem
    obtain rfl : p.1 = target := congrArg Prod.snd hsame
    have hbehind : Behind runs run.id p.1 := by
      refine behind_distancesFrom hunique (runs.length + 1) (fun id hid => ?_) (fun id hid => ?_) p.1
        (mem_map_of_mem hp)
      · exact .inl ((Dict.mem_keys_set.1 hid).resolve_right fun hnone => nomatch hnone)
      · exact .inl (mem_singleton.1 hid)
    exact hbehind.resolve_left hself

end Targets

/-! ## What a seal adds to other nodes -/

section Owed

variable {C : Type u} {current pending : Obligations} {node : String}

theorem owed_addObligation {message target : String} {o : Obligation} {after : Obligations}
    (h : addObligation message pending target o = .ok after) (hnode : node ≠ target) :
    after.owed node = pending.owed node := by
  rw [addObligation] at h
  split_ifs at h
  cases h
  exact (owed_set pending target node _).trans (if_neg hnode)

theorem owed_applyEscalationAdvances {advances : List (String × Obligation)} {merged : Obligations}
    (h : applyEscalationAdvances pending advances = .ok merged)
    (hnode : node ∉ advances.map Prod.fst) : merged.owed node = pending.owed node := by
  refine foldlM_invariant (P := fun acc => acc.owed node = pending.owed node) h rfl
    fun acc advance hadvance after hacc hadd => ?_
  have hne : node ≠ advance.1 := fun heq => hnode (heq ▸ mem_map_of_mem hadvance)
  exact (owed_addObligation hadd hne).trans hacc

variable {run : PlanRun}

theorem owed_transferFinding {targets : Dict String String} {completed : Dict String C}
    {finding : Json} {after : Obligations}
    (h : transferFinding run targets completed pending finding = .ok after)
    (hnode : node ∉ targets.values) : after.owed node = pending.owed node := by
  rw [transferFinding] at h
  split at h
  · rename_i o target paths _ _ hpaths
    split_ifs at h with hempty howned hdone
    refine owed_addObligation h fun heq => hnode ?_
    obtain ⟨path, hpath⟩ := exists_mem_of_ne_nil _ (nonEmptyTexts?_ne_nil hpaths)
    have hall := all_eq_true.1 howned path hpath
    exact heq ▸ ownerForPath_mem (of_decide_eq_true hall)
  · cases h

theorem owed_erase_ne {id : String} (hnode : node ≠ id) :
    Obligations.owed (current.erase id) node = current.owed node :=
  (owed_erase current id node).trans (if_neg hnode)

/-- A node that is no target keeps what it owes behind a seal. -/
theorem owed_advanceFindingObligations {request : FeatureRunRequest C}
    {outcome : FeatureRunOutcome C} {completed : Dict String C}
    {advances : List (String × Obligation)} {advanced : Obligations}
    (h : advanceFindingObligations run request outcome current completed advances = .ok advanced)
    (hnode : node ≠ run.id) (htargets : node ∉ request.findingTransferTargets.values)
    (hadvances : node ∉ advances.map Prod.fst) : advanced.owed node = current.owed node := by
  rw [advanceFindingObligations] at h
  split at h
  · exact nomatch h
  · split at h
    · exact nomatch h
    · rename_i pending hpending
      have hkept : pending.owed node = current.owed node :=
        foldlM_invariant (P := fun acc => acc.owed node = current.owed node) hpending
          (owed_erase_ne hnode) fun acc finding _ after hacc htransfer =>
            (owed_transferFinding htransfer htargets).trans hacc
      exact (owed_applyEscalationAdvances h hadvances).trans hkept

/-- A node that is no target keeps what it owes behind a stop. -/
theorem owed_stoppedObligations {outcome : FeatureRunOutcome C} {escalation : EscalationDisposition}
    {merged : Obligations}
    (h : stoppedObligations run outcome escalation current = .ok (some merged))
    (hnode : node ≠ run.id) (hadvances : node ∉ escalation.advances.map Prod.fst) :
    merged.owed node = current.owed node := by
  have hcarried {carried : Obligations}
      (hsome : carriedFindingObligations run outcome current = some carried) :
      carried.owed node = current.owed node := by
    rw [carriedFindingObligations] at hsome
    split at hsome
    · cases hsome
    · obtain ⟨records, -, rfl⟩ := Option.map_eq_some_iff.1 hsome
      rw [owed_set, if_neg hnode]
      exact owed_erase_ne hnode
  rw [stoppedObligations] at h
  split_ifs at h
  · exact hcarried (Except.ok.inj h)
  · split at h
    · cases h
    · rename_i result hmerged
      cases Except.ok.inj h
      refine (owed_applyEscalationAdvances hmerged hadvances).trans ?_
      cases hbase : carriedFindingObligations run outcome current with
      | none => exact owed_erase_ne hnode
      | some carried => exact hcarried hbase

end Owed

/-! ## Seals -/

section Transitions

variable {C : Type u} (audit : AttemptState C) (id : String)

theorem findingObligations_transition (updates : Node C → Node C) (running : Bool) :
    (audit.transition id updates running).findingObligations = audit.findingObligations := by
  rw [AttemptState.transition]
  split <;> rfl

theorem findingObligations_nodeFailed (status : NodeStatus) (obligations : Option Obligations) :
    (audit.nodeFailed id status obligations).findingObligations =
      obligations.getD audit.findingObligations := by
  rw [AttemptState.nodeFailed, AttemptState.withObligations, findingObligations_transition]

theorem findingObligations_transferConflictBlocked (obligations : Option Obligations) :
    (audit.transferConflictBlocked id obligations).findingObligations =
      obligations.getD audit.findingObligations := by
  rw [AttemptState.transferConflictBlocked, AttemptState.withObligations,
    findingObligations_transition]

theorem findingObligations_candidateVerified (candidate : C) :
    (audit.candidateVerifiedPendingTransfer id candidate).findingObligations =
      audit.findingObligations := findingObligations_transition audit id _ _

theorem findingObligations_nodeStarted :
    (audit.nodeStarted id).findingObligations = audit.findingObligations :=
  findingObligations_transition audit id _ _

end Transitions

section Seals

variable {C : Type u} [PartialOrder C] (g : Controller C)

/-- The escalations of the launch that a seal is about. -/
def resolvedEscalations (run : PlanRun) (request : FeatureRunRequest C) (launched : Launched C)
    (s : RunState C) : List String × Except String EscalationDisposition :=
  resolveEscalations g.plan.runs g.escalationJudge run (recordedOutcome request launched.outcome)
    s.completed s.rejected launched.answers

/-- **A seal raises, or it resolves the escalations and goes on with the outcome.** -/
theorem sealOutcome_split (run : PlanRun) (request : FeatureRunRequest C) (launched : Launched C)
    (s : RunState C) :
    (∃ rejected message, sealOutcome g run request launched s =
      ({ s with rejected := rejected }, .error message)) ∨
    ∃ d, (resolvedEscalations g run request launched s).2 = .ok d ∧
      ((recordedOutcome request launched.outcome).status ≠ "succeeded" ∧
        sealOutcome g run request launched s =
          sealStopped run (recordedOutcome request launched.outcome) launched d
            { s with rejected := (resolvedEscalations g run request launched s).1 } ∨
      (recordedOutcome request launched.outcome).status = "succeeded" ∧ ∃ candidate,
        (recordedOutcome request launched.outcome).candidateCommit = some candidate ∧
        sealOutcome g run request launched s =
          sealCandidate run request (recordedOutcome request launched.outcome) candidate launched d
            { s with rejected := (resolvedEscalations g run request launched s).1 }) := by
  rw [sealOutcome]
  split
  · exact .inl ⟨s.rejected, _, rfl⟩
  · rw [resolvedEscalations]
    generalize resolveEscalations g.plan.runs g.escalationJudge run
      (recordedOutcome request launched.outcome) s.completed s.rejected launched.answers = resolution
    obtain ⟨rejected, resolved⟩ := resolution
    cases resolved with
    | error message => exact .inl ⟨rejected, message, rfl⟩
    | ok d =>
      dsimp only
      by_cases hstatus : (recordedOutcome request launched.outcome).status = "succeeded"
      · rw [if_neg (not_not.2 hstatus)]
        cases hcandidate : (recordedOutcome request launched.outcome).candidateCommit with
        | none => exact .inl ⟨rejected, _, rfl⟩
        | some candidate => exact .inr ⟨d, rfl, .inr ⟨hstatus, candidate, rfl, rfl⟩⟩
      · rw [if_pos hstatus]
        exact .inr ⟨d, rfl, .inl ⟨hstatus, rfl⟩⟩

end Seals

/-! ## What a launch has not seen -/

/-- What the seal removes of the obligations of the node was in the request. -/
def DischargesSeen {C : Type u} (before after : Obligations) (request : FeatureRunRequest C) :
    Prop :=
  ∀ o ∈ before.owed request.run.id, o.key ∉ (after.owed request.run.id).map (·.key) →
    o ∈ request.findingObligations

/-- In the audit, and in the controller's own copy. -/
def SealsSeen {C : Type u} (before after : RunState C) (request : FeatureRunRequest C) : Prop :=
  DischargesSeen before.audit.findingObligations after.audit.findingObligations request ∧
    DischargesSeen before.obligations after.obligations request

section Seen

variable {C : Type u} [PartialOrder C] (g : Controller C)

theorem judgedLandings_eq_nil {run : PlanRun} {outcome : FeatureRunOutcome C}
    {s : RunState C} {answers : ℕ → EscalationAnswer}
    (h : escalatedFindings outcome.evidence = []) :
    judgedLandings g run outcome s answers = [] := by
  rw [judgedLandings, h]
  cases g.escalationJudge with
  | none => rfl
  | some identity => rfl

omit [PartialOrder C] in
theorem escalatedFindings_recorded {request : FeatureRunRequest C} {outcome : FeatureRunOutcome C}
    (h : escalatedFindings outcome.evidence = []) :
    escalatedFindings (recordedOutcome request outcome).evidence = [] := by
  rw [recordedOutcome]
  split_ifs
  · exact h
  · rfl

/-- The obligations that a seal writes behind a disposition. -/
inductive SealWrites (run : PlanRun) (request : FeatureRunRequest C) (outcome : FeatureRunOutcome C)
    (d : EscalationDisposition) (s : RunState C) : Obligations → Prop
  | stopped {written : Obligations} (hstatus : outcome.status ≠ "succeeded")
      (hmerged : stoppedObligations run outcome d s.obligations = .ok (some written)) :
    SealWrites run request outcome d s written
  | advanced {written : Obligations} (hstatus : outcome.status = "succeeded")
      (hcandidate : outcome.candidateCommit.isSome)
      (hadvanced : advanceFindingObligations run request outcome s.obligations s.completed
        d.advances = .ok written) :
    SealWrites run request outcome d s written

/-- **A seal leaves the obligations, or writes them into the audit**, and then into the controller's
copy or not. -/
theorem sealOutcome_writes (run : PlanRun) (request : FeatureRunRequest C) (launched : Launched C)
    (s : RunState C) :
    let sealing := sealOutcome g run request launched s
    sealing.1.obligations = s.obligations ∧
        sealing.1.audit.findingObligations = s.audit.findingObligations ∧
        (∀ advanced, sealing.2 ≠ .ok (.sealed advanced)) ∨
      ∃ d written, (resolvedEscalations g run request launched s).2 = .ok d ∧
        SealWrites run request (recordedOutcome request launched.outcome) d s written ∧
        (sealing.1.obligations = s.obligations ∨ sealing.1.obligations = written) ∧
        sealing.1.audit.findingObligations = written ∧
        ∀ advanced, sealing.2 = .ok (.sealed advanced) → advanced = written := by
  intro sealing
  obtain ⟨rejected, message, hraised⟩ | ⟨d, hd, hcase⟩ := sealOutcome_split g run request launched s
  · rw [show sealing = ({ s with rejected := rejected }, .error message) from hraised]
    exact .inl ⟨rfl, rfl, by simp⟩
  obtain ⟨hstatus, hstop⟩ | ⟨hstatus, candidate, hsome, hcandidate⟩ := hcase
  · rw [show sealing = _ from hstop, sealStopped]
    cases hmerged : stoppedObligations run (recordedOutcome request launched.outcome) d
        s.obligations with
    | error message => exact .inl ⟨rfl, rfl, by simp⟩
    | ok merged =>
      have hstopped {advanced : Obligations} {blocks : Prop} [Decidable blocks]
          {result : PlanGraphResult C} {reason : String} {escalation : Option EscalationDisposition}
          (h : (.ok (if blocks then .blocked result reason escalation else .failed result) :
            Except String (SealDecision C)) = .ok (.sealed advanced)) : False := by
        split_ifs at h <;> cases Except.ok.inj h
      cases merged with
      | none =>
        exact .inl ⟨rfl, findingObligations_nodeFailed _ _ _ _, fun _ hsealed => hstopped hsealed⟩
      | some written =>
        exact .inr ⟨d, written, hd, .stopped hstatus hmerged, .inr rfl,
          findingObligations_nodeFailed _ _ _ _, fun _ hsealed => (hstopped hsealed).elim⟩
  · rw [show sealing = _ from hcandidate, sealCandidate]
    cases hadvanced : advanceFindingObligations run request (recordedOutcome request launched.outcome)
        s.obligations s.completed d.advances with
    | error message =>
      refine .inl ⟨rfl, ?_, by simp⟩
      rw [findingObligations_transferConflictBlocked, findingObligations_candidateVerified]
      rfl
    | ok written =>
      have hwrites := SealWrites.advanced (s := s) hstatus (Option.isSome_of_mem hsome) hadvanced
      split_ifs
      · exact .inr ⟨d, written, hd, hwrites, .inl rfl,
          findingObligations_transferConflictBlocked _ _ _, by simp⟩
      · refine .inr ⟨d, written, hd, hwrites, .inl rfl, rfl, fun other hother => ?_⟩
        exact (SealDecision.sealed.inj (Except.ok.inj hother)).symm

variable {g}

/-- **Behind a seal the other nodes owe what they owed**, when no finding lands on them: in the
controller's copy, and in the audit unless that is left as it was. -/
theorem sealOutcome_owed {run : PlanRun} {request : FeatureRunRequest C} {launched : Launched C}
    {s : RunState C} {node : String} (hnode : node ≠ run.id)
    (htargets : node ∉ request.findingTransferTargets.values)
    (hlandings : node ∉ (judgedLandings g run (recordedOutcome request launched.outcome) s
      launched.answers).map Prod.fst) :
    let sealing := sealOutcome g run request launched s
    sealing.1.obligations.owed node = s.obligations.owed node ∧
    (sealing.1.audit.findingObligations = s.audit.findingObligations ∨
      sealing.1.audit.findingObligations.owed node = s.obligations.owed node) ∧
    ∀ advanced, sealing.2 = .ok (.sealed advanced) →
      advanced.owed node = s.obligations.owed node := by
  obtain ⟨hcopy, haudit, hsealed⟩ | ⟨d, written, hd, hwrites, hcopy, haudit, hsealed⟩ :=
    sealOutcome_writes g run request launched s
  · exact ⟨congrArg (Obligations.owed · node) hcopy, .inl haudit,
      fun advanced h => absurd h (hsealed advanced)⟩
  have hadvances : node ∉ d.advances.map Prod.fst := by
    rw [← resolveEscalations_advances g hd, map_map] at hlandings
    exact hlandings
  have hkept : written.owed node = s.obligations.owed node := by
    cases hwrites with
    | stopped _ hmerged => exact owed_stoppedObligations hmerged hnode hadvances
    | advanced _ _ hadvanced =>
      exact owed_advanceFindingObligations hadvanced hnode htargets hadvances
  refine ⟨?_, .inr ((congrArg (Obligations.owed · node) haudit).trans hkept), fun advanced h => ?_⟩
  · cases hcopy with
    | inl hsame => exact congrArg (Obligations.owed · node) hsame
    | inr hnew => exact (congrArg (Obligations.owed · node) hnew).trans hkept
  · rw [hsealed advanced h]
    exact hkept

end Seen

/-! ## The parallel loop -/

section Parallel

variable {C : Type u} [PartialOrder C] [DecidableEq C] [DecidableLE C] {g : Controller C}
  {l : ReadySetLoop C}

/-- In a turn, the loop right before the outcome of a node is sealed. -/
structure SealsIn (g : Controller C) (round : Round C) (l m : ReadySetLoop C) (id : String)
    (launch : Except LaunchError (Launched C)) (request : FeatureRunRequest C) : Prop where
  going : l.ending = none
  turn : ∃ admitted before after, l.admitReady g round.refusal = .ok admitted ∧
    admitted.doneIds round.done = before ++ id :: after ∧
    m = admitted.completeNodes g round.done before
  launched : round.done id = some launch
  inFlight : m.inFlight.get? id = some request

/-- A turn in which no obligation reaches a node in flight: a node is admitted while the controller's
copy has the obligations that the audit has for it, and no escalated finding lands on another node in
flight. -/
structure Unsurprised (g : Controller C) (l : ReadySetLoop C) (round : Round C) : Prop where
  admitted : ∀ admitted, l.admitReady g round.refusal = .ok admitted → ∀ id ∈ admitted.inFlight.keys,
    id ∉ l.inFlight.keys → ∀ o ∈ l.state.audit.findingObligations.owed id,
      o ∈ l.state.obligations.owed id
  inFlight : ∀ m id launch request, SealsIn g round l m id launch request →
    ∀ landed ∈ judgedLandings g request.run
        (recordedOutcome request (ReadySetLoop.launchedOf launch).outcome) m.state
        (ReadySetLoop.launchedOf launch).answers,
      landed.1 ∈ m.inFlight.keys → landed.1 = id

namespace ReadySetLoop

/-- What a node in flight owes was in its request. -/
structure Known (g : Controller C) (l : ReadySetLoop C) : Prop where
  sound : Sound g l
  targets : ∀ id request, l.inFlight.get? id = some request →
    request.findingTransferTargets = transferTargetsFor g.plan.runs request.run
  copied : ∀ id request, l.inFlight.get? id = some request →
    ∀ o ∈ l.state.obligations.owed id, o ∈ request.findingObligations
  recorded : ∀ id request, l.inFlight.get? id = some request →
    ∀ o ∈ l.state.audit.findingObligations.owed id, o ∈ request.findingObligations

variable {id : String} {launch : Except LaunchError (Launched C)} {next : ReadySetLoop C}
  {round : Round C}

omit [DecidableEq C] [DecidableLE C] in
/-- No node in flight is behind another one. -/
theorem Sound.not_needs (h : Sound g l) {other : String} (hid : id ∈ l.inFlight.keys)
    (hother : other ∈ l.inFlight.keys) :
    ¬ Dag.Needs (dependenciesOf g.plan.runs) other id := by
  intro hneeds
  have hclosed (x : String) (hx : x ∈ l.state.completed.keys) (y : String)
      (hxy : Dag.Needs (dependenciesOf g.plan.runs) x y) : y ∈ l.state.completed.keys := by
    induction hxy with
    | single hd => exact h.closed x hx _ hd
    | tail _ hd ih => exact h.closed _ ih _ hd
  have hcompleted : id ∈ l.state.completed.keys := by
    obtain ⟨d, hd, hrest⟩ := Relation.TransGen.head'_iff.1 hneeds
    have hready := (h.flight other hother).ready d hd
    cases Relation.reflTransGen_iff_eq_or_transGen.1 hrest with
    | inl heq => exact heq ▸ hready
    | inr hneeds' => exact hclosed d hready id hneeds'
  exact (h.flight id hid).isOpen hcompleted

omit [DecidableEq C] [DecidableLE C] in
/-- **A seal on which no finding lands in flight leaves every launch informed.** -/
theorem Known.completeNode (h : Known g l)
    (hlandings : ∀ request, l.inFlight.get? id = some request →
      ∀ landed ∈ judgedLandings g request.run
          (recordedOutcome request (launchedOf launch).outcome) l.state (launchedOf launch).answers,
        landed.1 ∈ l.inFlight.keys → landed.1 = id) :
    Known g (l.completeNode g launch id) := by
  have hsound := h.sound.completeNode launch id
  revert hsound
  rw [ReadySetLoop.completeNode]
  cases hrequest : l.inFlight.get? id with
  | none => exact fun _ => h
  | some request =>
    dsimp only
    have hflight : id ∈ l.inFlight.keys := Dict.mem_keys_iff.2 ⟨request, hrequest⟩
    have hid := h.sound.request id request hrequest
    have howed {other : String} (hother : other ∈ l.inFlight.keys) (hne : other ≠ id) :=
      @sealOutcome_owed C _ g request.run request (launchedOf launch) l.state other (hid ▸ hne)
        (by
          rw [h.targets id request hrequest]
          exact fun hmem => h.sound.not_needs hflight hother
            (hid ▸ needs_of_transferTarget g.plan.nodup_ids hmem))
        (fun hmem => by
          obtain ⟨landed, hlanded, rfl⟩ := mem_map.1 hmem
          exact hne (hlandings request hrequest landed hlanded hother))
    have hother {other : String} {r : FeatureRunRequest C}
        (hr : (l.inFlight.erase id).get? other = some r) :
        other ≠ id ∧ l.inFlight.get? other = some r := by
      rw [Dict.get?_erase] at hr
      split_ifs at hr with heq
      exact ⟨heq, hr⟩
    generalize sealOutcome g request.run request (launchedOf launch) l.state = sealing at howed ⊢
    obtain ⟨s, decision⟩ := sealing
    -- the copy and the audit owe nothing new to another node in flight
    have hcopied {other : String} {r : FeatureRunRequest C}
        (hr : (l.inFlight.erase id).get? other = some r) :
        ∀ o ∈ s.obligations.owed other, o ∈ r.findingObligations := by
      obtain ⟨hne, hget⟩ := hother hr
      obtain ⟨hkept, -, -⟩ := howed (Dict.mem_keys_iff.2 ⟨r, hget⟩) hne
      rw [hkept]
      exact h.copied other r hget
    have hrecorded {other : String} {r : FeatureRunRequest C}
        (hr : (l.inFlight.erase id).get? other = some r) :
        ∀ o ∈ s.audit.findingObligations.owed other, o ∈ r.findingObligations := by
      obtain ⟨hne, hget⟩ := hother hr
      obtain ⟨-, hkept, -⟩ := howed (Dict.mem_keys_iff.2 ⟨r, hget⟩) hne
      cases hkept with
      | inl hsame =>
        rw [hsame]
        exact h.recorded other r hget
      | inr howed =>
        rw [howed]
        exact h.copied other r hget
    have htargets {other : String} {r : FeatureRunRequest C}
        (hr : (l.inFlight.erase id).get? other = some r) :
        r.findingTransferTargets = transferTargetsFor g.plan.runs r.run :=
      h.targets other r (hother hr).2
    intro hsound
    cases decision with
    | error message =>
      exact ⟨hsound, fun _ _ => htargets, fun _ _ => hcopied, fun _ _ => hrecorded⟩
    | ok decision =>
      cases decision with
      | sealed advanced =>
        refine ⟨hsound, fun _ _ => htargets, fun other r hr => ?_, fun _ _ => hrecorded⟩
        obtain ⟨hne, hget⟩ := hother hr
        obtain ⟨-, -, hkept⟩ := howed (Dict.mem_keys_iff.2 ⟨r, hget⟩) hne
        change ∀ o ∈ advanced.owed other, o ∈ r.findingObligations
        rw [hkept advanced rfl]
        exact h.copied other r hget
      | blocked result reason escalation =>
        exact ⟨hsound, fun _ _ => htargets, fun _ _ => hcopied, fun _ _ => hrecorded⟩
      | failed result =>
        exact ⟨hsound, fun _ _ => htargets, fun _ _ => hcopied, fun _ _ => hrecorded⟩

/-- What admission has added to a loop. -/
structure Admitted (g : Controller C) (l next : ReadySetLoop C) : Prop where
  copy : next.state.obligations = l.state.obligations
  audit : next.state.audit.findingObligations = l.state.audit.findingObligations
  completed : next.state.completed = l.state.completed
  terminal : ∀ t, l.terminal = some t → next.terminal = some t
  inFlight : ∀ id request, next.inFlight.get? id = some request →
    l.inFlight.get? id = some request ∨ id ∉ l.inFlight.keys ∧
      request.findingObligations = l.state.obligations.owed id ∧
      request.findingTransferTargets = g.transferTargets request.run

theorem Admitted.admitNode (h : Admitted g l next) (refusal : String → Option String)
    {run : PlanRun} (hidle : run.id ∉ l.inFlight.keys) :
    Admitted g l (next.admitNode g refusal run) := by
  have hrefused : Admitted g l (next.refuse run) := by
    refine ⟨h.copy, (findingObligations_nodeFailed _ _ _ _).trans h.audit, h.completed,
      fun t ht => ?_, h.inFlight⟩
    rw [ReadySetLoop.refuse, h.terminal t ht]
    rfl
  rw [ReadySetLoop.admitNode]
  split
  · exact hrefused
  · exact hrefused
  · refine ⟨h.copy, (findingObligations_nodeStarted _ _).trans h.audit, h.completed, h.terminal,
      fun id request hget => ?_⟩
    rw [Dict.get?_set] at hget
    split_ifs at hget with hid
    · cases hget
      refine .inr ⟨hid ▸ hidle, ?_, rfl⟩
      change next.state.obligations.owed run.id = l.state.obligations.owed id
      rw [h.copy, hid]
    · exact h.inFlight id request hget

theorem Admitted.admitNodes (h : Admitted g l next) (refusal : String → Option String)
    {rest : List PlanRun} (hidle : ∀ run ∈ rest, run.id ∉ l.inFlight.keys) :
    Admitted g l (next.admitNodes g refusal rest) := by
  induction rest generalizing next with
  | nil => exact h
  | cons run rest ih =>
    have hnext := h.admitNode refusal (hidle run mem_cons_self)
    rw [ReadySetLoop.admitNodes]
    split_ifs
    · exact ih hnext fun other hother => hidle other (mem_cons_of_mem run hother)
    · exact hnext

theorem Sound.admitted (h : Sound g l) {refusal : String → Option String}
    (hentered : l.admitReady g refusal = .ok next) : Admitted g l next := by
  have hself : Admitted g l l := ⟨rfl, rfl, rfl, fun _ ht => ht, fun _ _ hget => .inl hget⟩
  rw [ReadySetLoop.admitReady] at hentered
  split_ifs at hentered
  · cases hunits : g.scheduler.select l.schedulerState with
    | error message =>
      rw [hunits] at hentered
      cases hentered
    | ok units =>
      rw [hunits] at hentered
      cases hentered
      exact hself.admitNodes refusal (h.admits_selected hunits).idle
  · cases hentered
    exact hself

omit [DecidableEq C] [DecidableLE C] in
theorem inFlight_completeNode {other : String} (hne : other ≠ id) :
    (l.completeNode g launch id).inFlight.get? other = l.inFlight.get? other := by
  have herased : (l.inFlight.erase id).get? other = l.inFlight.get? other := by
    rw [Dict.get?_erase, if_neg hne]
  rw [completeNode]
  split
  · rfl
  · dsimp only
    split <;> exact herased

/-- Every launch is informed behind the admission of a turn without surprise. -/
theorem Known.admitReady (h : Known g l)
    (htargets : g.transferTargets = transferTargetsFor g.plan.runs) (hround : Unsurprised g l round)
    (hentered : l.admitReady g round.refusal = .ok next) : Known g next := by
  obtain ⟨found, hfound, hsound, -⟩ := h.sound.admitReady round.refusal
  cases hentered.symm.trans hfound
  have hadmitted := h.sound.admitted hentered
  refine ⟨hsound, fun id request hget => ?_, fun id request hget => ?_, fun id request hget => ?_⟩
  · cases hadmitted.inFlight id request hget with
    | inl hold => exact h.targets id request hold
    | inr hnew => exact hnew.2.2.trans (congrFun htargets request.run)
  · rw [hadmitted.copy]
    cases hadmitted.inFlight id request hget with
    | inl hold => exact h.copied id request hold
    | inr hnew => exact fun o ho => hnew.2.1 ▸ ho
  · rw [hadmitted.audit]
    cases hadmitted.inFlight id request hget with
    | inl hold => exact h.recorded id request hold
    | inr hnew =>
      intro o ho
      rw [hnew.2.1]
      exact hround.admitted next hentered id (Dict.mem_keys_iff.2 ⟨request, hget⟩) hnew.1 o ho

/-- The seals of a turn, up to any of them. -/
theorem Known.completeNodes {admitted : ReadySetLoop C} (h : Known g admitted)
    (hround : Unsurprised g l round) (hgoing : l.ending = none)
    (hentered : l.admitReady g round.refusal = .ok admitted) {before after : List String}
    (hdone : admitted.doneIds round.done = before ++ after) :
    Known g (admitted.completeNodes g round.done before) := by
  induction before using List.reverseRecOn generalizing after with
  | nil => exact h
  | append_singleton before id ih =>
    rw [append_assoc] at hdone
    have hm := ih hdone
    rw [completeNodes_concat]
    cases hlaunch : round.done id with
    | none => exact hm
    | some launch =>
      refine hm.completeNode fun request hrequest => ?_
      exact hround.inFlight _ id launch request
        ⟨hgoing, ⟨admitted, before, after, hentered, hdone, rfl⟩, hlaunch, hrequest⟩

theorem Known.step (h : Known g l) (htargets : g.transferTargets = transferTargetsFor g.plan.runs)
    (hround : Unsurprised g l round) (hstep : readySetStep g round l = some next) :
    Known g next := by
  have hsound := (h.sound.step hstep).1
  obtain ⟨hgoing, admitted, hentered, -, hturn⟩ := h.sound.turns hstep
  have hadmitted := h.admitReady htargets hround hentered
  obtain ⟨hidle, -, rfl⟩ | ⟨-, rfl⟩ := hturn
  · obtain ⟨state, ending, heq, -⟩ := conclude_eq g round.finishing admitted
    have hnone {id : String} {request : FeatureRunRequest C}
        (hget : (admitted.conclude g round.finishing).inFlight.get? id = some request) : False := by
      rw [heq] at hget
      have hmem : id ∈ admitted.inFlight.keys := Dict.mem_keys_iff.2 ⟨request, hget⟩
      rw [hidle] at hmem
      exact nomatch hmem
    exact ⟨hsound, fun _ _ hget => (hnone hget).elim, fun _ _ hget => (hnone hget).elim,
      fun _ _ hget => (hnone hget).elim⟩
  · exact hadmitted.completeNodes hround hgoing hentered (append_nil _).symm

/-- What is sealed in a turn without surprise was in the request. -/
theorem Known.seals (h : Known g l) (htargets : g.transferTargets = transferTargetsFor g.plan.runs)
    (hround : Unsurprised g l round) {m : ReadySetLoop C} {request : FeatureRunRequest C}
    (hseal : SealsIn g round l m id launch request) :
    SealsSeen m.state (m.completeNode g launch id).state request := by
  obtain ⟨hgoing, ⟨admitted, before, after, hentered, hdone, rfl⟩, hlaunch, hrequest⟩ := hseal
  have hknown := (h.admitReady htargets hround hentered).completeNodes hround hgoing hentered hdone
  have hid := hknown.sound.request id request hrequest
  refine ⟨fun o ho _ => ?_, fun o ho _ => ?_⟩
  · exact hknown.recorded id request hrequest o (hid ▸ ho)
  · exact hknown.copied id request hrequest o (hid ▸ ho)

end ReadySetLoop

end Parallel

/-! ## The sequential loop -/

section Sequential

variable {C : Type u} [PartialOrder C] {g : Controller C}

/-- A sealed node leaves in the audit what the decision has. -/
theorem sealed_recorded {run : PlanRun} {request : FeatureRunRequest C} {launched : Launched C}
    {s : RunState C} {advanced : Obligations}
    (h : (sealOutcome g run request launched s).2 = .ok (.sealed advanced)) :
    (sealOutcome g run request launched s).1.audit.findingObligations = advanced := by
  have hcases := sealOutcome_cases g run request launched s
  generalize sealOutcome g run request launched s = sealing at h hcases
  obtain ⟨after, decision⟩ := sealing
  subst h
  cases hcases with
  | stopped rejected escalation merged blocks decision hmerged hdecision =>
    cases blocks <;> exact nomatch hdecision
  | sealed => rfl

/-- A run that goes on has the obligations of its audit. -/
theorem SequentialRun.copied {audit : AttemptState C} {l : SequentialLoop C}
    (h : SequentialRun g audit l) (hgoing : l.ending = none) :
    l.state.audit.findingObligations = l.state.obligations := by
  obtain ⟨s, hstart, hrun⟩ := h
  refine hrun.invariant (P := fun l => l.ending = none →
    l.state.audit.findingObligations = l.state.obligations) (fun turn x y hstep hx hy => ?_) ?_ hgoing
  · rw [sequentialStep] at hstep
    split at hstep
    · cases hstep
    · cases hstep
      cases hy
    · rename_i run rest hnone _
      split at hstep
      · cases hstep
        exact hx hnone
      · cases hstep
        rw [SequentialLoop.launchNode] at hy ⊢
        split at hy
        · cases hy
        · dsimp only at hy ⊢
          split at hy
          · cases hy
          · rename_i launched _
            split at hy
            · cases hy
            · rename_i after advanced hsealed
              have hrecorded := sealed_recorded (congrArg Prod.snd hsealed)
              rw [hsealed] at hrecorded
              exact hrecorded
            · cases hy
            · cases hy
  · intro _
    obtain ⟨rejected, hbegins⟩ := hstart.begins
    rw [startRun] at hbegins
    split at hbegins
    · cases hbegins
    · rename_i completed _
      cases hvalid : validateCompletedDependencies g.plan.ordered completed with
      | error message =>
        rw [hvalid] at hbegins
        cases hbegins
      | ok _ =>
        rw [hvalid] at hbegins
        cases hbegins
        rfl

end Sequential

/-! ## Runs -/

def twinController : Controller (Finset ℕ) where
  plan := forkPlan
  graphRunId := "graph"
  runRoot := "runs"
  maxParallelism := 2
  positive := Nat.two_pos
  continueIndependentAfterBlock := false
  escalationJudge := some "judge"
  transferTargets := transferTargetsFor forkPlan.runs
  git := changeGit

def twinStart : ReadySetLoop (Finset ℕ) where
  state :=
    { audit := initialState forkPlan "graph" ∅ none, completed := ∅, obligations := ∅ }

def twinRequest (run : PlanRun) : FeatureRunRequest (Finset ℕ) :=
  requestForRun twinController run ∅ []

/-- A node verifies its candidate; its review escalates the findings, which the judge confirms. -/
def twinLaunch (run : PlanRun) (findings : List Json) : Launched (Finset ℕ) where
  outcome :=
    { status := "succeeded"
      candidateCommit := some {1}
      evidence := .obj [("review_fix", .obj [("escalated_findings", .arr findings)])]
      planGraphId := some "graph"
      planNodeId := some run.id
      featureRunId := some (twinRequest run).featureRunId
      runDir := some (twinRequest run).runDir }
  answers := fun _ => ⟨.answered (.obj [("protocol", .str escalationJudgmentProtocol),
    ("verdict", .str "confirm"), ("rationale", .str "the file is theirs")]), none⟩

/-- A finding on a file of `b`. -/
def twinFinding : Json :=
  .obj [("key", .str "k"), ("required_paths", .arr [.str "src/b/file"])]

/-- Both launches come back; the first escalates `findings`. -/
def twinRound (findings : List Json) : Round (Finset ℕ) where
  done := fun id =>
    if id = "a" then some (.ok (twinLaunch ⟨"a", [], ["src/a"]⟩ findings))
    else if id = "b" then some (.ok (twinLaunch ⟨"b", [], ["src/b"]⟩ []))
    else none

/-- Both nodes are in flight. -/
def twinAdmitted : ReadySetLoop (Finset ℕ) :=
  twinStart.admitNodes twinController (fun _ => none)
    [⟨"a", [], ["src/a"]⟩, ⟨"b", [], ["src/b"]⟩]

/-- The loop right before the outcome of `b` is sealed. -/
def twinSealed (findings : List Json) : ReadySetLoop (Finset ℕ) :=
  twinAdmitted.completeNodes twinController (twinRound findings).done ["a"]

theorem admit_twinStart (findings : List Json) :
    twinStart.admitReady twinController (twinRound findings).refusal = .ok twinAdmitted := by
  have hstate : twinStart.schedulerState = ⟨[], [], [], []⟩ := by
    rw [ReadySetLoop.schedulerState, show twinStart.inFlight.keys = [] from rfl,
      show twinStart.withheld = [] from rfl, mergeSort_nil]
    rfl
  have hselect : twinController.scheduler.select ⟨[], [], [], []⟩ =
      .ok [⟨"a", .featureRun⟩, ⟨"b", .featureRun⟩] := by
    rfl
  rw [ReadySetLoop.admitReady, if_neg (by decide), hstate, hselect]
  rfl

theorem doneIds_twinAdmitted (findings : List Json) :
    twinAdmitted.doneIds (twinRound findings).done = ["a", "b"] := by
  have hkeys : twinAdmitted.inFlight.keys.filter (fun id => ((twinRound findings).done id).isSome) =
      ["a", "b"] := by
    rfl
  rw [ReadySetLoop.doneIds, hkeys]
  exact mergeSort_of_pairwise (by decide)

theorem sealsIn_twin (findings : List Json) :
    SealsIn twinController (twinRound findings) twinStart (twinSealed findings) "b"
      (.ok (twinLaunch ⟨"b", [], ["src/b"]⟩ [])) (twinRequest ⟨"b", [], ["src/b"]⟩) where
  going := rfl
  turn := ⟨twinAdmitted, ["a"], [], admit_twinStart findings, doneIds_twinAdmitted findings, rfl⟩
  launched := rfl
  inFlight := by
    change (twinAdmitted.completeNode twinController
      (.ok (twinLaunch ⟨"a", [], ["src/a"]⟩ findings)) "a").inFlight.get? "b" = _
    rw [ReadySetLoop.inFlight_completeNode (by decide)]
    rfl

theorem startsOn_twin : StartsOn twinController.plan (initialState forkPlan "graph" ∅ none)
    twinStart.state :=
  ⟨fun _ => Iff.rfl, rfl, [], rfl⟩

end HarnessLabs.PlanGraph
