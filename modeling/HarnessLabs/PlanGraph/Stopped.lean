import HarnessLabs.Budget.Agreement
import HarnessLabs.PlanGraph.Seal

/-!
# Stopped nodes in the ledger and in the audit

A launch that did not succeed is marked completed in the retry ledger first and recorded in the
audit last. What raises in between leaves a node that the audit has running and the ledger does not.

* `sealBooks` — `_seal_outcome` on the audit and on the ledger.
* `landings` — where the judged findings of a launch go.
* `failure_recorded_iff` — **the failure is recorded unless a judged finding lands where one of its
  key is already owed.**
-/

namespace HarnessLabs.PlanGraph

open List Option

universe u

variable {C : Type u}

/-! ## The two stores -/

/-- A run of the controller with the retry ledger. The ledger is as the import of the child's
evidence and the decisions on its escalations leave it; neither touches a reservation. -/
structure Books (C : Type u) where
  run : RunState C
  ledger : Budget.State

/-- `self.budget.completed`. -/
def markCompleted (ledger : Budget.State) (reservation : String)
    (status : Budget.CompletionStatus) : Except String Budget.State :=
  match (ledger.completed reservation status none).result with
  | .error message => .error message
  | .ok () =>
    match ledger.applyAll (ledger.completed reservation status none).appended with
    | none => .error "retry budget ledger is corrupt; operator intervention required"
    | some next => .ok next

/-- Mark the reservation, then go on; where the ledger refuses, the run is left at `before`. -/
def thenMark (ledger : Budget.State) (reservation : String) (status : Budget.CompletionStatus)
    (before : RunState C) (after : RunState C × Except String (SealDecision C)) :
    Books C × Except String (SealDecision C) :=
  match markCompleted ledger reservation status with
  | .error message => (⟨before, ledger⟩, .error message)
  | .ok ledger => (⟨after.1, ledger⟩, after.2)

/-- What the ledger is told about a verified candidate. -/
def candidateStatus : Except String (SealDecision C) → Budget.CompletionStatus
  | .ok (.sealed _) => .succeeded
  | _ => .blocked

section Sealing

variable [PartialOrder C] (g : Controller C)

/-- `_seal_outcome`, with what it does to the ledger. -/
def sealBooks (run : PlanRun) (request : FeatureRunRequest C) (launched : Launched C)
    (reservation : String) (b : Books C) : Books C × Except String (SealDecision C) :=
  let outcome := recordedOutcome request launched.outcome
  match launched.importError, outcome.evidence with
  | some error, .obj _ => (b, .error error)
  | _, _ =>
    let (rejected, resolved) := resolveEscalations g.plan.runs g.escalationJudge run outcome
      b.run.completed b.run.rejected launched.answers
    let s := { b.run with rejected := rejected }
    match resolved with
    | .error message => (⟨s, b.ledger⟩, .error message)
    | .ok escalation =>
      if outcome.status ≠ "succeeded" then
        thenMark b.ledger reservation
          (if outcome.status = "blocked" ∨ escalation.forcesBlock then .blocked else .failed) s
          (sealStopped run outcome launched escalation s)
      else
        match outcome.candidateCommit with
        | none =>
          thenMark b.ledger reservation .failed s
            (s, .error s!"successful FeatureRun '{run.id}' did not provide a candidate commit")
        | some candidate =>
          let sealing := sealCandidate run request outcome candidate launched escalation s
          thenMark b.ledger reservation (candidateStatus sealing.2)
            { s with
              completed := sealing.1.completed
              audit := s.audit.candidateVerifiedPendingTransfer run.id candidate }
            sealing

end Sealing

/-! ## Reservations -/

def ReservationLive (ledger : Budget.State) (reservation : String) : Prop :=
  ∃ r, ledger.reservations.get? reservation = some r ∧ (r.state = .reserved ∨ r.state = .started)

def NodeRunning (audit : AttemptState C) (nodeId : String) : Prop :=
  ∃ node, audit.nodes.get? nodeId = some node ∧ node.status = .running

variable {reservation : String} {run : PlanRun} {d : EscalationDisposition}
  {outcome : FeatureRunOutcome C}

theorem markCompleted_of_live {ledger : Budget.State} (h : ReservationLive ledger reservation)
    (status : Budget.CompletionStatus) :
    ∃ next, markCompleted ledger reservation status = .ok next ∧
      ¬ ReservationLive next reservation := by
  obtain ⟨r, hr, hstate⟩ := h
  have hmem : r.state ∈ [Budget.ReservationState.reserved, .started] := by simpa using hstate
  have houtcome : ledger.completed reservation status none =
      .accepted [.completed reservation status none] := by
    rw [Budget.State.completed, Budget.State.transition, hr]
    exact if_pos hmem
  have happly : ledger.applyAll [.completed reservation status none] = some
      (ledger.withReservations (ledger.reservations.set reservation
        { r with state := .completed })) := by
    have hmove := Budget.State.apply_moveReservation hr hmem .completed
    show (ledger.apply _).bind _ = _
    rw [show ledger.apply (.completed reservation status none) = _ from hmove]
    rfl
  refine ⟨ledger.withReservations (ledger.reservations.set reservation
    { r with state := .completed }), ?_, ?_⟩
  · simp only [markCompleted, houtcome, Budget.Outcome.accepted_result,
      Budget.Outcome.accepted_appended, happly]
  · rintro ⟨r', hr', hstate'⟩
    obtain rfl : { r with state := .completed } = r' :=
      Option.some.inj ((Dict.get?_set_self ..).symm.trans hr')
    simp at hstate'

/-! ## Where findings land -/

/-- The verdict of an answer that is one. -/
def JudgeAnswer.verdict? : JudgeAnswer → Option Verdict
  | .answered raw => (validateJudgment raw).toOption.map (·.verdict)
  | _ => none

theorem verdict?_answered {raw : Json} {judgment : Judgment}
    (h : validateJudgment raw = .ok judgment) :
    (JudgeAnswer.answered raw).verdict? = some judgment.verdict := by
  rw [JudgeAnswer.verdict?, h]
  rfl

/-- Where one finding lands: a rejected one on the run that raised it, a confirmed one on the owner
of its paths. It does not land where it is not routed and judged, or where the ledger refuses to
unseal the owner. -/
def landsAt (runs : List PlanRun) (identity : String) (run : PlanRun) (completed : String → Bool)
    (answer : EscalationAnswer) (rejected : List String) (record : Json) :
    Option (Verdict × String × String) :=
  match Obligation.ofRecord? record,
      (nonEmptyTexts? (record.get? "required_paths")).bind (ownerForPaths runs) with
  | some o, some owner =>
    if o.key ∈ rejected ∨ identity = run.id then none
    else
      match answer.judge.verdict? with
      | some .reject => some (.reject, run.id, o.key)
      | some .confirm =>
        if completed owner ∧ answer.ledger.isSome then none else some (.confirm, owner, o.key)
      | none => none
  | _, _ => none

/-- The landings of the findings of a launch, up to the first that does not land. -/
def landings (runs : List PlanRun) (identity : String) (run : PlanRun)
    (completed : String → Bool) (answers : ℕ → EscalationAnswer) :
    ℕ → List String → List Json → List (String × String)
  | _, _, [] => []
  | n, rejected, record :: rest =>
    match landsAt runs identity run completed (answers n) rejected record with
    | none => []
    | some (.reject, l) =>
      l :: landings runs identity run completed answers (n + 1) (l.2 :: rejected) rest
    | some (.confirm, l) => l :: landings runs identity run completed answers (n + 1) rejected rest

def landing (advance : String × Obligation) : String × String := (advance.1, advance.2.key)

/-- What one finding does to the pass. -/
def Resolution.Lands (pass : Resolving) (landed : Option (Verdict × String × String)) :
    Resolution → Prop
  | .next later => ∃ verdict l, landed = some (verdict, l) ∧
      later.advances.map landing = pass.advances.map landing ++ [l] ∧
      later.rejected = if verdict = .reject then l.2 :: pass.rejected else pass.rejected
  | .stop _ d => landed = none ∧ d.advances = pass.advances
  | .raised .. => True

theorem applyJudgment_lands (run : PlanRun) (completed : String → Bool) (ledger : Option String)
    (pass : Resolving) (o : Obligation) (owner : String) (paths : List String)
    (judgment : Judgment) :
    (applyJudgment run completed ledger pass o owner paths judgment).Lands pass
      (match judgment.verdict with
        | .reject => some (.reject, run.id, o.key)
        | .confirm =>
          if completed owner ∧ ledger.isSome then none else some (.confirm, owner, o.key)) := by
  unfold applyJudgment
  cases judgment.verdict with
  | reject => exact ⟨.reject, _, rfl, map_append, rfl⟩
  | confirm =>
    cases hc : completed owner with
    | false => exact ⟨.confirm, (owner, o.key), rfl, map_append, rfl⟩
    | true =>
      cases ledger with
      | none => exact ⟨.confirm, (owner, o.key), rfl, map_append, rfl⟩
      | some error => exact ⟨rfl, rfl⟩

theorem judgeFinding_lands (identity : String) (run : PlanRun) (completed : String → Bool)
    (answer : EscalationAnswer) (pass : Resolving) (o : Obligation) (owner : String)
    (paths : List String) :
    (judgeFinding identity run completed answer pass o owner paths).Lands pass
      (if o.key ∈ pass.rejected ∨ identity = run.id then none
      else
        match answer.judge.verdict? with
        | some .reject => some (.reject, run.id, o.key)
        | some .confirm =>
          if completed owner ∧ answer.ledger.isSome then none else some (.confirm, owner, o.key)
        | none => none) := by
  rw [judgeFinding]
  by_cases hrejected : o.key ∈ pass.rejected
  · rw [if_pos hrejected, if_pos (.inl hrejected)]
    exact ⟨rfl, rfl⟩
  rw [if_neg hrejected]
  by_cases hsame : identity = run.id
  · rw [if_pos hsame]
    exact True.intro
  rw [if_neg hsame, if_neg (not_or.2 ⟨hrejected, hsame⟩)]
  cases answer.judge with
  | unavailable why => exact ⟨rfl, rfl⟩
  | raised message => exact True.intro
  | answered raw =>
    cases hv : validateJudgment raw with
    | error message =>
      simp only [hv]
      exact True.intro
    | ok judgment =>
      have hlands := applyJudgment_lands run completed answer.ledger pass o owner paths judgment
      rw [verdict?_answered hv]
      simp only [hv]
      revert hlands
      cases judgment.verdict <;> exact id

theorem resolveFinding_lands (runs : List PlanRun) (identity : String) (run : PlanRun)
    (completed : String → Bool) (answer : EscalationAnswer) (pass : Resolving) (record : Json) :
    (resolveFinding runs identity run completed answer pass record).Lands pass
      (landsAt runs identity run completed answer pass.rejected record) := by
  rw [resolveFinding, landsAt]
  cases Obligation.ofRecord? record with
  | none => exact True.intro
  | some o =>
    cases nonEmptyTexts? (record.get? "required_paths") with
    | none => exact True.intro
    | some paths =>
      dsimp only [bind_some]
      cases ownerForPaths runs paths with
      | none => exact ⟨rfl, rfl⟩
      | some owner => exact judgeFinding_lands identity run completed answer pass o owner paths

/-- **What the pass over the findings advances is where they land.** -/
theorem resolveAll_advances {runs : List PlanRun} {identity : String} {completed : String → Bool}
    {answers : ℕ → EscalationAnswer} {findings : List Json} {n : ℕ} {pass : Resolving}
    (h : (resolveAll runs identity run completed answers n pass findings).2 = .ok d) :
    d.advances.map landing = pass.advances.map landing ++
      landings runs identity run completed answers n pass.rejected findings := by
  induction findings generalizing n pass with
  | nil =>
    cases h
    exact (append_nil _).symm
  | cons record rest ih =>
    have hlands := resolveFinding_lands runs identity run completed (answers n) pass record
    rw [resolveAll] at h
    rw [landings]
    cases hr : resolveFinding runs identity run completed (answers n) pass record with
    | raised last message =>
      rw [hr] at h
      cases h
    | stop last stopped =>
      rw [hr] at h hlands
      cases h
      rw [hlands.1, hlands.2]
      exact (append_nil _).symm
    | next next =>
      rw [hr] at h hlands
      obtain ⟨verdict, l, hl, hadvances, hrejected⟩ := hlands
      rw [ih h, hl, hadvances, hrejected, append_assoc]
      cases verdict <;> rfl

/-! ## What is owed already -/

/-- The keys of the open findings of a launch, when there are some, each names its key and no key
comes twice. -/
def reportedKeys? (outcome : FeatureRunOutcome C) : Option (List String) :=
  match openFindings outcome.evidence with
  | [] => none
  | openings =>
    (openings.mapM fun finding => (Obligation.ofRecord? finding).map (·.key)).filter (·.Nodup)

/-- The keys that a node owes when the judged findings of `run` land. The run itself owes what it
reported open and what it owed before; nothing, when it reported nothing. -/
def owedKeys (run : PlanRun) (outcome : FeatureRunOutcome C) (current : Obligations)
    (node : String) : List String :=
  if node = run.id then
    match reportedKeys? outcome with
    | some keys => keys ++ (current.owed run.id).map (·.key)
    | none => []
  else (current.owed node).map (·.key)

theorem carriedObligations_keys (runId : String) (acc : List Obligation) (findings : List Json)
    (hacc : (acc.map (·.key)).Nodup) :
    (carriedObligations runId acc findings).map (List.map (·.key)) =
      ((findings.mapM fun finding => (Obligation.ofRecord? finding).map (·.key)).map
        (acc.map (·.key) ++ ·)).filter (·.Nodup) := by
  induction findings generalizing acc with
  | nil => simp [carriedObligations, Option.filter, hacc]
  | cons finding rest ih =>
    rw [carriedObligations, mapM_cons]
    cases ho : Obligation.ofRecord? finding with
    | none => rfl
    | some o =>
      simp only [Option.bind_some, Option.map_some, Option.pure_def, Option.bind_eq_bind]
      by_cases hany : (acc.any (·.key = o.key)) = true
      · rw [if_pos hany]
        cases rest.mapM fun finding => (Obligation.ofRecord? finding).map (·.key) with
        | none => rfl
        | some keys =>
          have hmem : o.key ∈ acc.map (·.key) := by simpa using hany
          have hdup : ¬ (acc.map (·.key) ++ o.key :: keys).Nodup := fun h =>
            disjoint_of_nodup_append h hmem mem_cons_self
          exact (if_neg (by simpa using hdup)).symm
      · rw [if_neg hany]
        have hnew : o.key ∉ acc.map (·.key) := by simpa using hany
        rw [ih]
        · cases rest.mapM fun finding => (Obligation.ofRecord? finding).map (·.key) with
          | none => rfl
          | some keys => simp
        · simpa [nodup_append] using ⟨hacc, fun a ha hk => hnew (by simpa using ⟨a, ha, hk⟩)⟩

theorem owed_set (pending : Obligations) (node other : String) (os : List Obligation) :
    Obligations.owed (pending.set node os) other = if other = node then os else pending.owed other := by
  rw [Obligations.owed, Dict.getD, Dict.get?_set]
  by_cases h : other = node
  · rw [if_pos h, if_pos h]
    rfl
  · rw [if_neg h, if_neg h]
    rfl

theorem owed_erase (pending : Obligations) (node other : String) :
    Obligations.owed (pending.erase node) other = if other = node then [] else pending.owed other := by
  rw [Obligations.owed, Dict.getD, Dict.get?_erase]
  by_cases h : other = node
  · rw [if_pos h, if_pos h]
    rfl
  · rw [if_neg h, if_neg h]
    rfl

/-- **The base that the judged findings are added to owes exactly `owedKeys`.** -/
theorem mem_owed_base (run : PlanRun) (outcome : FeatureRunOutcome C) (current : Obligations)
    (node key : String) :
    key ∈ (((carriedFindingObligations run outcome current).getD (current.erase run.id)).owed
      node).map (·.key) ↔ key ∈ owedKeys run outcome current node := by
  have hkeys := carriedObligations_keys run.id [] (openFindings outcome.evidence) nodup_nil
  have hempty : key ∈ (Obligations.owed (current.erase run.id) node).map (·.key) ↔
      key ∈ if node = run.id then [] else (current.owed node).map (·.key) := by
    rw [owed_erase]
    by_cases hnode : node = run.id
    · simp [hnode]
    · rw [if_neg hnode, if_neg hnode]
  rw [owedKeys, reportedKeys?, carriedFindingObligations]
  cases ho : openFindings outcome.evidence with
  | nil => exact hempty
  | cons finding rest =>
    dsimp only
    rw [ho] at hkeys
    simp only [List.map_nil, List.nil_append, Option.map_id'] at hkeys
    rw [← hkeys]
    cases carriedObligations run.id [] (finding :: rest) with
    | none => exact hempty
    | some carried =>
      simp only [map_some, getD_some]
      rw [owed_set, owed_erase]
      by_cases hnode : node = run.id
      · rw [if_pos hnode, if_pos hnode, map_append, mem_append, mem_append]
        constructor
        · rintro (h | h)
          · exact .inl h
          · obtain ⟨o, hmem, rfl⟩ := mem_map.1 h
            exact .inr (mem_map_of_mem (mem_of_mem_filter hmem))
        · rintro (h | h)
          · exact .inl h
          · obtain ⟨o, hmem, rfl⟩ := mem_map.1 h
            by_cases hany : (carried.any (·.key = o.key)) = true
            · exact .inl (by simpa using hany)
            · exact .inr (mem_map_of_mem (mem_filter.2 ⟨hmem, by simpa using hany⟩))
      · rw [if_neg hnode, if_neg hnode, if_neg hnode]

/-! ## Adding obligations -/

theorem addObligation_cases (message : String) (pending : Obligations) (target : String)
    (o : Obligation) :
    (o.key ∈ (pending.owed target).map (·.key) ∧
      addObligation message pending target o = .error message) ∨
    (o.key ∉ (pending.owed target).map (·.key) ∧
      addObligation message pending target o =
        .ok (pending.set target (pending.owed target ++ [o]))) := by
  by_cases h : (pending.owed target).any (·.key = o.key) = true
  · exact .inl ⟨by simpa using h, if_pos h⟩
  · exact .inr ⟨by simpa using h, if_neg h⟩

/-- **The advances are accepted when no two of them, and none of them and what is owed, agree in
node and key.** -/
theorem applyEscalationAdvances_ok_iff {pending : Obligations}
    {advances : List (String × Obligation)} :
    (∃ merged, applyEscalationAdvances pending advances = .ok merged) ↔
      (advances.map landing).Nodup ∧
        ∀ l ∈ advances.map landing, l.2 ∉ (pending.owed l.1).map (·.key) := by
  induction advances generalizing pending with
  | nil => exact iff_of_true ⟨pending, rfl⟩ ⟨nodup_nil, forall_mem_nil _⟩
  | cons advance rest ih =>
    obtain ⟨target, o⟩ := advance
    have hstep := addObligation_cases
      s!"duplicate escalation-routed finding {o.key} for node {target}" pending target o
    rw [applyEscalationAdvances, foldlM_cons, map_cons, nodup_cons,
      forall_mem_cons]
    rcases hstep with ⟨howed, heq⟩ | ⟨hfree, heq⟩
    · refine iff_of_false ?_ fun h => h.2.1 howed
      rw [heq]
      rintro ⟨merged, h⟩
      cases h
    · rw [heq]
      refine (@ih (pending.set target (pending.owed target ++ [o]))).trans ?_
      constructor
      · rintro ⟨hnodup, hfresh⟩
        refine ⟨⟨fun hmem => ?_, hnodup⟩, hfree, fun l hl hmem => ?_⟩
        · refine hfresh _ hmem ?_
          show o.key ∈ (Obligations.owed _ target).map (·.key)
          rw [owed_set, if_pos rfl, map_append]
          exact mem_append_right _ (mem_singleton.2 rfl)
        · refine hfresh l hl ?_
          rw [owed_set]
          by_cases ht : l.1 = target
          · rw [if_pos ht, map_append]
            exact mem_append_left _ (by rw [← ht]; exact hmem)
          · rwa [if_neg ht]
      · rintro ⟨⟨hnew, hnodup⟩, -, hrest⟩
        refine ⟨hnodup, fun l hl hmem => ?_⟩
        rw [owed_set] at hmem
        by_cases ht : l.1 = target
        · rw [if_pos ht, map_append, mem_append] at hmem
          rcases hmem with hmem | hmem
          · exact hrest l hl (by rw [ht]; exact hmem)
          · have hkey : l.2 = o.key := by simpa using hmem
            exact hnew (by rwa [landing, ← ht, ← hkey])
        · rw [if_neg ht] at hmem
          exact hrest l hl hmem

/-! ## Recording the failure -/

/-- The launch is sealed without an error, the node has failed or is blocked in the audit, and the
ledger and the audit agree on whether it runs. -/
structure FailureRecorded (run : PlanRun) (reservation : String)
    (after : Books C × Except String (SealDecision C)) : Prop where
  decision : ∃ decision, after.2 = .ok decision
  stopped : ∃ node, after.1.run.audit.nodes.get? run.id = some node ∧ node.status.stopped = true
  agrees : ReservationLive after.1.ledger reservation ↔ NodeRunning after.1.run.audit run.id

theorem nodeFailed_node {audit : AttemptState C} {id : String} {node : Node C}
    (h : audit.nodes.get? id = some node) (status : NodeStatus)
    (obligations : Option Obligations) :
    (audit.nodeFailed id status obligations).nodes.get? id =
      some { node with status := status } := by
  rw [AttemptState.nodeFailed, AttemptState.withObligations, AttemptState.transition, h]
  exact Dict.get?_set_self ..

/-- No two findings land on the same node with the same key, and none lands where one of its key is
owed. -/
def LandsFreely (run : PlanRun) (outcome : FeatureRunOutcome C) (current : Obligations)
    (landed : List (String × String)) : Prop :=
  landed.Nodup ∧ ∀ l ∈ landed, l.2 ∉ owedKeys run outcome current l.1

/-- The obligations behind the stop can be written exactly when the findings land freely. -/
theorem stoppedObligations_ok_iff {current : Obligations} :
    (∃ merged, stoppedObligations run outcome d current = .ok merged) ↔
      LandsFreely run outcome current (d.advances.map landing) := by
  have hfree : LandsFreely run outcome current (d.advances.map landing) ↔
      ∃ merged, applyEscalationAdvances
        ((carriedFindingObligations run outcome current).getD (current.erase run.id))
        d.advances = .ok merged := by
    rw [applyEscalationAdvances_ok_iff, LandsFreely]
    simp only [mem_owed_base]
  rw [hfree, stoppedObligations]
  by_cases hnil : d.advances = []
  · rw [if_pos hnil, hnil]
    exact iff_of_true ⟨_, rfl⟩ ⟨_, rfl⟩
  · rw [if_neg hnil]
    cases applyEscalationAdvances ((carriedFindingObligations run outcome current).getD
        (current.erase run.id)) d.advances with
    | error message => exact iff_of_false nofun nofun
    | ok merged => exact iff_of_true ⟨_, rfl⟩ ⟨_, rfl⟩

/-- **Behind the ledger's mark, the failure is recorded exactly when the findings land freely.** -/
theorem sealStopped_recorded_iff (launched : Launched C) (d : EscalationDisposition)
    {s : RunState C} {ledger : Budget.State} (hrunning : NodeRunning s.audit run.id)
    (hmarked : ¬ ReservationLive ledger reservation) :
    FailureRecorded run reservation
        (⟨(sealStopped run outcome launched d s).1, ledger⟩,
          (sealStopped run outcome launched d s).2) ↔
      LandsFreely run outcome s.obligations (d.advances.map landing) := by
  obtain ⟨node, hnode, -⟩ := hrunning
  rw [← stoppedObligations_ok_iff, sealStopped]
  cases stoppedObligations run outcome d s.obligations with
  | error message =>
    refine iff_of_false (fun h => ?_) (by simp)
    obtain ⟨decision, hdecision⟩ := h.decision
    cases hdecision
  | ok merged =>
    refine iff_of_true ⟨⟨_, rfl⟩, ?_, ?_⟩ ⟨_, rfl⟩
    · refine ⟨_, nodeFailed_node hnode _ _, ?_⟩
      by_cases hblocks : outcome.status = "blocked" ∨ d.forcesBlock = true
      · simp only [if_pos hblocks]; rfl
      · simp only [if_neg hblocks]; rfl
    · refine iff_of_false hmarked ?_
      rintro ⟨other, hother, hstatus⟩
      rw [nodeFailed_node hnode] at hother
      cases hother
      by_cases hblocks : outcome.status = "blocked" ∨ d.forcesBlock = true
      · simp [if_pos hblocks] at hstatus
      · simp [if_neg hblocks] at hstatus

variable [PartialOrder C] (g : Controller C)

/-- The landings of the escalated findings of a launch. Without a judge none is judged. -/
def judgedLandings (run : PlanRun) (outcome : FeatureRunOutcome C) (s : RunState C)
    (answers : ℕ → EscalationAnswer) : List (String × String) :=
  match g.escalationJudge with
  | none => []
  | some identity => landings g.plan.runs identity run (· ∈ s.completed.keys) answers 0 s.rejected
      (escalatedFindings outcome.evidence)

theorem resolveEscalations_advances {s : RunState C} {answers : ℕ → EscalationAnswer}
    (h : (resolveEscalations g.plan.runs g.escalationJudge run outcome s.completed s.rejected
      answers).2 = .ok d) : d.advances.map landing = judgedLandings g run outcome s answers := by
  rw [judgedLandings]
  cases hj : g.escalationJudge with
  | none =>
    rw [hj] at h
    cases h
    rfl
  | some identity =>
    rw [hj] at h
    unfold resolveEscalations at h
    cases hf : escalatedFindings outcome.evidence with
    | nil =>
      rw [hf] at h
      cases h
      rfl
    | cons finding rest =>
      rw [hf] at h
      exact resolveAll_advances h

/-- A launch without success raises before it is marked, or goes on to `sealStopped`. -/
theorem sealBooks_failed (run : PlanRun) (request : FeatureRunRequest C) (launched : Launched C)
    (reservation : String) (b : Books C)
    (hfailed : (recordedOutcome request launched.outcome).status ≠ "succeeded") :
    (∃ s message, sealBooks g run request launched reservation b =
      (⟨s, b.ledger⟩, .error message)) ∨
    ∃ d rejected status, d.advances.map landing =
        judgedLandings g run (recordedOutcome request launched.outcome) b.run launched.answers ∧
      sealBooks g run request launched reservation b =
        thenMark b.ledger reservation status { b.run with rejected := rejected }
          (sealStopped run (recordedOutcome request launched.outcome) launched d
            { b.run with rejected := rejected }) := by
  dsimp only [sealBooks]
  split
  · exact .inl ⟨b.run, _, rfl⟩
  · cases hr : (resolveEscalations g.plan.runs g.escalationJudge run
        (recordedOutcome request launched.outcome) b.run.completed b.run.rejected
        launched.answers).2 with
    | error message => exact .inl ⟨_, message, rfl⟩
    | ok d =>
      dsimp only
      rw [if_pos hfailed]
      exact .inr ⟨d, _, _, resolveEscalations_advances g hr, rfl⟩

/-- **A failed launch whose reservation is marked is recorded exactly when its judged findings land
freely.** For every outcome without success, every obligations and every answer of the judge:
sealing ends without an error, with the node failed or blocked in the audit and the two stores in
agreement, if and only if no judged finding lands on a key that is owed there already. -/
theorem failure_recorded_iff (run : PlanRun) (request : FeatureRunRequest C)
    (launched : Launched C) (reservation : String) (b : Books C)
    (hfailed : (recordedOutcome request launched.outcome).status ≠ "succeeded")
    (hrunning : NodeRunning b.run.audit run.id) (hlive : ReservationLive b.ledger reservation)
    (hmarked : ¬ ReservationLive (sealBooks g run request launched reservation b).1.ledger
      reservation) :
    FailureRecorded run reservation (sealBooks g run request launched reservation b) ↔
      LandsFreely run (recordedOutcome request launched.outcome) b.run.obligations
        (judgedLandings g run (recordedOutcome request launched.outcome) b.run
          launched.answers) := by
  rcases sealBooks_failed g run request launched reservation b hfailed with
    ⟨s, message, heq⟩ | ⟨d, rejected, status, hd, heq⟩
  · rw [heq] at hmarked
    exact absurd hlive hmarked
  · obtain ⟨next, hnext, hdone⟩ := markCompleted_of_live hlive status
    rw [heq, thenMark, hnext, ← hd]
    exact sealStopped_recorded_iff launched d hrunning hdone

/-- **The ledger only follows.** While the reservation is live, the run goes as `sealOutcome` says. -/
theorem sealBooks_run (run : PlanRun) (request : FeatureRunRequest C) (launched : Launched C)
    {b : Books C} (hlive : ReservationLive b.ledger reservation) :
    ((sealBooks g run request launched reservation b).1.run,
      (sealBooks g run request launched reservation b).2) =
    sealOutcome g run request launched b.run := by
  have hmark : ∀ status before (after : RunState C × Except String (SealDecision C)),
      ((thenMark b.ledger reservation status before after).1.run,
        (thenMark b.ledger reservation status before after).2) = after := by
    intro status before after
    obtain ⟨next, hnext, -⟩ := markCompleted_of_live hlive status
    rw [thenMark, hnext]
  dsimp only [sealBooks, sealOutcome]
  cases launched.importError <;> cases (recordedOutcome request launched.outcome).evidence
  case some.obj => rfl
  all_goals
    cases (resolveEscalations g.plan.runs g.escalationJudge run
      (recordedOutcome request launched.outcome) b.run.completed b.run.rejected
      launched.answers).2 with
    | error message => rfl
    | ok d =>
      dsimp only
      by_cases hfailed : (recordedOutcome request launched.outcome).status ≠ "succeeded"
      · rw [if_pos hfailed, if_pos hfailed]
        exact hmark _ _ _
      · rw [if_neg hfailed, if_neg hfailed]
        cases (recordedOutcome request launched.outcome).candidateCommit with
        | none => exact hmark _ _ _
        | some candidate => exact hmark _ _ _

/-! ## A rejected finding that the node owes -/

/-- A run behind another. -/
def ownerPlan : PlanGraphPlan (Finset ℕ) where
  baseCommit := ∅
  runs := [⟨"owner", [], ["src/owner"]⟩, ⟨"node", ["owner"], ["src/node"]⟩]
  functionalityTests := []
  ordered := [⟨"owner", [], ["src/owner"]⟩, ⟨"node", ["owner"], ["src/node"]⟩]
  valid := by decide +kernel
  ordered_eq := by decide +kernel

def judgedController : Controller (Finset ℕ) where
  plan := ownerPlan
  graphRunId := "graph"
  runRoot := "runs"
  maxParallelism := 1
  positive := le_rfl
  continueIndependentAfterBlock := false
  escalationJudge := some "judge"
  transferTargets := fun _ => ∅
  git := changeGit

def judgedRun : PlanRun := ⟨"node", ["owner"], ["src/node"]⟩

/-- A finding under its key, which requires a path of the owner. -/
def ownerFinding (key : String) : Json :=
  .obj [("key", .str key), ("required_paths", .arr [.str "src/owner/file"])]

/-- The node runs, its launch is reserved, and it owes the finding `inherited`. -/
def judgedBooks : Books (Finset ℕ) where
  run :=
    { audit :=
        { graphRunId := "graph"
          nodes := Dict.ofList [("owner", { status := .succeeded, candidateCommit := some {1} }),
            ("node", { status := .running, dependsOn := ["owner"] })]
          currentCandidateCommit := {1} }
      completed := Dict.ofList [("owner", {1})]
      obligations := Dict.ofList [("node", [⟨"inherited", ownerFinding "inherited", rfl⟩])] }
  ledger :=
    { reservations :=
        Dict.ofList [("reservation", ⟨.started, "node", some "graph", .indeterminate, []⟩)] }

/-- The launch is blocked with an open finding and escalates `key`, which the judge rejects. -/
def escalatingLaunch (key : String) : Launched (Finset ℕ) where
  outcome :=
    { status := "blocked"
      evidence := .obj [("review_fix", .obj [
        ("open_findings", .arr [.obj [("key", .str "open")]]),
        ("escalated_findings", .arr [ownerFinding key])])] }
  answers := fun _ => ⟨.answered (.obj [("protocol", .str escalationJudgmentProtocol),
    ("verdict", .str "reject"), ("rationale", .str "the node can fix it")]), none⟩

def judgedRequest : FeatureRunRequest (Finset ℕ) :=
  requestForRun judgedController judgedRun {1} (judgedBooks.run.obligations.owed "node")

def sealJudged (key : String) : Books (Finset ℕ) × Except String (SealDecision (Finset ℕ)) :=
  sealBooks judgedController judgedRun judgedRequest (escalatingLaunch key) "reservation"
    judgedBooks

theorem not_reservationLive_sealJudged {key : String}
    (h : ((sealJudged key).1.ledger.reservations.get? "reservation").map (·.state) =
      some .completed) : ¬ ReservationLive (sealJudged key).1.ledger "reservation" := by
  rintro ⟨r, hr, hstate⟩
  rw [hr] at h
  have hcompleted : r.state = .completed := Option.some.inj h
  rw [hcompleted] at hstate
  simp at hstate

/-- A finding that the node does not owe is recorded with the failure. -/
theorem failure_recorded_iff_fresh :
    FailureRecorded judgedRun "reservation" (sealJudged "fresh") ↔
      LandsFreely judgedRun (recordedOutcome judgedRequest (escalatingLaunch "fresh").outcome)
        judgedBooks.run.obligations
        (judgedLandings judgedController judgedRun
          (recordedOutcome judgedRequest (escalatingLaunch "fresh").outcome) judgedBooks.run
          (escalatingLaunch "fresh").answers) :=
  failure_recorded_iff judgedController judgedRun judgedRequest (escalatingLaunch "fresh")
    "reservation" judgedBooks (by decide) ⟨_, rfl, rfl⟩ ⟨_, rfl, .inr rfl⟩
    (not_reservationLive_sealJudged (by decide +kernel))

/-- The judge rejects a finding that the node owes already: the reservation is completed, the node
runs on in the audit, and the failure is not recorded. -/
theorem owed_rejection_unrecorded :
    (recordedOutcome judgedRequest (escalatingLaunch "inherited").outcome).status = "blocked" ∧
    (sealJudged "inherited").2.toOption.isNone = true ∧
    ¬ ReservationLive (sealJudged "inherited").1.ledger "reservation" ∧
    NodeRunning (sealJudged "inherited").1.run.audit "node" ∧
    ¬ FailureRecorded judgedRun "reservation" (sealJudged "inherited") := by
  have hraised : (sealJudged "inherited").2.toOption.isNone = true := by decide +kernel
  have hstatus : ((sealJudged "inherited").1.run.audit.nodes.get? "node").map (·.status) =
      some .running := by decide +kernel
  obtain ⟨node, hnode, hrunning⟩ := map_eq_some_iff.1 hstatus
  refine ⟨by decide, hraised, not_reservationLive_sealJudged (by decide +kernel),
    ⟨node, hnode, hrunning⟩, fun h => ?_⟩
  obtain ⟨decision, hdecision⟩ := h.decision
  rw [hdecision] at hraised
  cases hraised

end HarnessLabs.PlanGraph
