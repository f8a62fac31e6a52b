import HarnessLabs.PlanGraph.Discharge

/-!
# Spent decisions

Each confirmed finding of a completed owner spends a decision of the ledger to unseal it. The
decisions are spent one by one while the pass over the findings goes on, and only the disposition
behind the pass tells of them: the pass may stop in between, the seal may be refused, and one
disposition of an attempt reaches its artifact.

* `spends` — the decisions that a pass spends.
* `blockEscalation` — the artifact of a blocked attempt.
* `Disclosed` — a loop with what was spent in it and the artifact that it left.
* `Discloses` — a seal that tells of what it spends.
* `spent_surfaced` — **what was spent is in the artifact and in the audit.**
* `spent_unsurfaced` — a finding without an owner behind one that unseals its owner.
-/

namespace HarnessLabs.PlanGraph

open List Option

universe u

open Until (foldlM_invariant)

variable {C : Type u}

/-! ## The artifact -/

/-- What `_transition_to_blocked` writes of a disposition into `escalation.json`. -/
structure BlockEscalation where
  blockedNodeId : Option String
  requestedAction : String
  candidateActions : List String
  retryFrontier : List String
  escalations : List EscalatedFinding

/-- The frontier of the resume template. -/
def resumeFrontier (continueIndependent : Bool) (audit : AttemptState C)
    (failedRunId : Option String) (d : Option EscalationDisposition) : List String :=
  match (d.map (·.retryFrontierPrefix)).getD [] with
  | [] =>
    failedRunId.toList ++ if continueIndependent then
      audit.stoppedNodes.filter (· ∉ failedRunId.toList) else []
  | led => led

def blockEscalation (continueIndependent : Bool) (audit : AttemptState C)
    (result : PlanGraphResult C) (d : Option EscalationDisposition) : BlockEscalation where
  blockedNodeId := result.failedRunId
  requestedAction :=
    if (d.bind (·.unrouted)).isSome then "assign_finding_owner" else "operator_review"
  candidateActions :=
    match d.bind (·.unrouted) with
    | some (_, owners) => owners
    | none => ["resume", "extend_budget", "reset_budget"]
  retryFrontier := resumeFrontier continueIndependent audit result.failedRunId d
  escalations := (d.map (·.escalationsPayload)).getD []

/-! ## Spending -/

/-- The decisions that the pass over the findings spends, as owners with the keys of their findings:
one for each confirmed finding of a completed owner, up to the first finding that does not land. -/
def spends (runs : List PlanRun) (identity : String) (run : PlanRun) (completed : String → Bool)
    (answers : ℕ → EscalationAnswer) : ℕ → List String → List Json → List (String × String)
  | _, _, [] => []
  | n, rejected, record :: rest =>
    match landsAt runs identity run completed (answers n) rejected record with
    | none => []
    | some (.reject, l) => spends runs identity run completed answers (n + 1) (l.2 :: rejected) rest
    | some (.confirm, l) =>
      (if completed l.1 then [l] else []) ++
        spends runs identity run completed answers (n + 1) rejected rest

/-- The disposition tells of a spent decision. -/
structure EscalationDisposition.Tells (d : EscalationDisposition) (spent : String × String) :
    Prop where
  frontier : spent.1 ∈ d.retryFrontierPrefix
  payload : ∃ f ∈ d.escalationsPayload, f.findingKey = spent.2 ∧ f.ownerNode = spent.1
  advance : spent ∈ d.advances.map landing

section Pass

variable {runs : List PlanRun} {identity : String} {run : PlanRun} {completed : String → Bool}

variable {owner : String}

theorem mem_of_theOnly {owners : List String} (h : theOnly owners = some owner) :
    owner ∈ owners := by
  unfold theOnly at h
  split at h
  · cases h
    exact mem_singleton_self _
  · exact nomatch h

theorem mem_deepestClaimants {path : String} (h : owner ∈ deepestClaimants runs path) :
    owner ∈ runIds runs := by
  rw [deepestClaimants, deepestOwners, mem_dedup] at h
  obtain ⟨m, hm, rfl⟩ := mem_map.1 h
  obtain ⟨claimant, hclaimant, hgrant⟩ := mem_flatMap.1 (mem_of_mem_filter hm)
  obtain ⟨grant, -, rfl⟩ := mem_map.1 hgrant
  exact mem_runIds hclaimant

theorem mem_of_ownerForPaths {paths : List String} (h : ownerForPaths runs paths = some owner) :
    owner ∈ runIds runs := by
  rw [ownerForPaths] at h
  split at h
  · rename_i other heq
    obtain rfl := Option.some.inj h
    have hmem : some other ∈ (paths.map fun path => theOnly (deepestClaimants runs path)).dedup := by
      rw [heq]
      exact mem_singleton_self _
    obtain ⟨path, -, honly⟩ := mem_map.1 (mem_dedup.1 hmem)
    exact mem_deepestClaimants (mem_of_theOnly honly)
  · exact nomatch h

/-- What a pass that goes on keeps of the pass before. -/
structure Resolving.Extends (pass later : Resolving) : Prop where
  payload : pass.payload ⊆ later.payload
  unsealed : pass.unsealed ⊆ later.unsealed
  advances : pass.advances ⊆ later.advances

theorem Resolving.Extends.trans {pass later last : Resolving} (h : pass.Extends later)
    (hmore : later.Extends last) : pass.Extends last where
  payload := List.Subset.trans h.payload hmore.payload
  unsealed := List.Subset.trans h.unsealed hmore.unsealed
  advances := List.Subset.trans h.advances hmore.advances

/-- The pass behind a finding tells of the decision that the finding spent. -/
structure Resolving.Told (pass : Resolving) (spent : String × String) : Prop where
  payload : ∃ f ∈ pass.payload, f.findingKey = spent.2 ∧ f.ownerNode = spent.1
  unsealed : spent.1 ∈ pass.unsealed
  advance : spent ∈ pass.advances.map landing

theorem Resolving.Told.extend {pass later : Resolving} {spent : String × String}
    (h : pass.Told spent) (hextends : pass.Extends later) : later.Told spent where
  payload := by
    obtain ⟨f, hf, heq⟩ := h.payload
    exact ⟨f, hextends.payload hf, heq⟩
  unsealed := hextends.unsealed h.unsealed
  advance := map_subset landing hextends.advances h.advance

/-- What one finding does that lands: the pass goes on and tells of what it spent. -/
def Resolution.Spends (runs : List PlanRun) (completed : String → Bool) (pass : Resolving)
    (landed : Option (Verdict × String × String)) (r : Resolution) : Prop :=
  ∀ verdict l, landed = some (verdict, l) → ∃ later, r = .next later ∧ pass.Extends later ∧
    (verdict = .confirm → completed l.1 → later.Told l ∧ l.1 ∈ runIds runs)

theorem applyJudgment_spends (ledger : Option String) (pass : Resolving) (o : Obligation)
    (howner : owner ∈ runIds runs) (paths : List String) (judgment : Judgment) :
    (applyJudgment run completed ledger pass o owner paths judgment).Spends runs completed pass
      (match judgment.verdict with
        | .reject => some (.reject, run.id, o.key)
        | .confirm =>
          if completed owner ∧ ledger.isSome then none else some (.confirm, owner, o.key)) := by
  unfold applyJudgment
  intro verdict l hl
  cases hverdict : judgment.verdict with
  | reject =>
    rw [hverdict] at hl
    cases hl
    exact ⟨_, rfl, ⟨subset_append_left _ _, List.Subset.refl _, subset_append_left _ _⟩,
      nofun⟩
  | confirm =>
    rw [hverdict] at hl
    cases hcompleted : completed owner with
    | false =>
      rw [if_neg (by simp [hcompleted])] at hl
      cases hl
      refine ⟨_, rfl,
        ⟨subset_append_left _ _, List.Subset.refl _, subset_append_left _ _⟩,
        fun _ hdone => ?_⟩
      rw [hcompleted] at hdone
      exact nomatch hdone
    | true =>
      cases ledger with
      | some error =>
        rw [if_pos ⟨hcompleted, rfl⟩] at hl
        exact nomatch hl
      | none =>
        rw [if_neg (by simp)] at hl
        cases hl
        refine ⟨_, rfl, ⟨subset_append_left _ _, ?_, subset_append_left _ _⟩,
          fun _ _ => ⟨⟨?_, ?_, ?_⟩, howner⟩⟩
        · dsimp only
          split_ifs
          · exact List.Subset.refl _
          · exact subset_append_left _ _
        · exact ⟨_, mem_append_right _ (mem_singleton_self _), rfl, rfl⟩
        · dsimp only
          split_ifs with hmem
          · exact hmem
          · exact mem_append_right _ (mem_singleton_self _)
        · rw [map_append]
          exact mem_append_right _ (mem_singleton_self _)

theorem judgeFinding_spends (answer : EscalationAnswer) (pass : Resolving) (o : Obligation)
    (howner : owner ∈ runIds runs) (paths : List String) :
    (judgeFinding identity run completed answer pass o owner paths).Spends runs completed pass
      (if o.key ∈ pass.rejected ∨ identity = run.id then none
      else
        match answer.judge.verdict? with
        | some .reject => some (.reject, run.id, o.key)
        | some .confirm =>
          if completed owner ∧ answer.ledger.isSome then none else some (.confirm, owner, o.key)
        | none => none) := by
  rw [judgeFinding]
  by_cases hrejected : o.key ∈ pass.rejected
  · rw [if_pos (.inl hrejected)]
    rintro _ _ ⟨⟩
  by_cases hsame : identity = run.id
  · rw [if_pos (.inr hsame)]
    rintro _ _ ⟨⟩
  rw [if_neg hrejected, if_neg hsame, if_neg (not_or.2 ⟨hrejected, hsame⟩)]
  cases answer.judge with
  | unavailable why => rintro _ _ ⟨⟩
  | raised message => rintro _ _ ⟨⟩
  | answered raw =>
    cases hv : validateJudgment raw with
    | error message =>
      simp only [JudgeAnswer.verdict?, hv]
      rintro _ _ ⟨⟩
    | ok judgment =>
      have hspends : Resolution.Spends runs completed pass _
          (applyJudgment run completed answer.ledger pass o owner paths judgment) :=
        applyJudgment_spends answer.ledger pass o howner paths judgment
      rw [verdict?_answered hv]
      simp only [hv]
      revert hspends
      cases judgment.verdict <;> exact id

theorem resolveFinding_spends (answer : EscalationAnswer) (pass : Resolving) (record : Json) :
    (resolveFinding runs identity run completed answer pass record).Spends runs completed pass
      (landsAt runs identity run completed answer pass.rejected record) := by
  rw [resolveFinding, landsAt]
  cases Obligation.ofRecord? record with
  | none => rintro _ _ ⟨⟩
  | some o =>
    cases nonEmptyTexts? (record.get? "required_paths") with
    | none => rintro _ _ ⟨⟩
    | some paths =>
      dsimp only [bind_some]
      cases howner : ownerForPaths runs paths with
      | none => rintro _ _ ⟨⟩
      | some owner => exact judgeFinding_spends answer pass o (mem_of_ownerForPaths howner) paths

/-- **A pass on which every finding lands tells of every decision that it spent.** -/
theorem resolveAll_tells {answers : ℕ → EscalationAnswer} {findings : List Json} {n : ℕ}
    (pass : Resolving)
    (hland : (landings runs identity run completed answers n pass.rejected findings).length =
      findings.length) :
    ∃ last, resolveAll runs identity run completed answers n pass findings =
        (last, .ok (finalDisposition runs run last)) ∧ pass.Extends last ∧
      ∀ spent ∈ spends runs identity run completed answers n pass.rejected findings,
        last.Told spent ∧ spent.1 ∈ runIds runs := by
  induction findings generalizing n pass with
  | nil =>
    exact ⟨pass, rfl, ⟨List.Subset.refl _, List.Subset.refl _, List.Subset.refl _⟩,
      forall_mem_nil _⟩
  | cons record rest ih =>
    have hspends : Resolution.Spends runs completed pass _
        (resolveFinding runs identity run completed (answers n) pass record) :=
      resolveFinding_spends (answers n) pass record
    have hlands := resolveFinding_lands runs identity run completed (answers n) pass record
    rw [landings] at hland
    rw [spends, resolveAll]
    cases hat : landsAt runs identity run completed (answers n) pass.rejected record with
    | none =>
      rw [hat] at hland
      cases hland
    | some landed =>
      obtain ⟨verdict, l⟩ := landed
      rw [hat] at hland hlands
      obtain ⟨later, hnext, hextends, htold⟩ := hspends verdict l hat
      rw [hnext] at hlands ⊢
      obtain ⟨verdict', l', heq, -, hrejected⟩ := hlands
      cases heq
      have hrest : (landings runs identity run completed answers (n + 1) later.rejected
          rest).length = rest.length := by
        rw [hrejected]
        cases verdict <;> exact Nat.succ.inj hland
      obtain ⟨last, hlast, hmore, hall⟩ := ih later hrest
      refine ⟨last, hlast, hextends.trans hmore, ?_⟩
      rw [hrejected] at hall
      cases verdict with
      | reject => exact hall
      | confirm =>
        intro spent hspent
        rcases mem_append.1 hspent with hhere | hlater
        · split_ifs at hhere with hcompleted
          · obtain rfl := mem_singleton.1 hhere
            obtain ⟨htold, hknown⟩ := htold rfl hcompleted
            exact ⟨htold.extend hmore, hknown⟩
          · cases hhere
        · exact hall spent hlater

/-- The final disposition tells of what the pass behind it tells of. -/
theorem Resolving.Told.tells {last : Resolving} {spent : String × String} (h : last.Told spent)
    (hknown : spent.1 ∈ runIds runs) : (finalDisposition runs run last).Tells spent where
  frontier := by
    have hsome : last.unsealed ≠ [] := ne_nil_of_mem h.unsealed
    rw [finalDisposition]
    rw [if_neg hsome, planDeclarationOrder]
    exact mem_filter.2 ⟨hknown, by simp [h.unsealed]⟩
  payload := h.payload
  advance := h.advance

end Pass

/-! ## What is owed -/

def Obligations.keysAt (obligations : Obligations) (node : String) : List String :=
  (obligations.owed node).map (·.key)

section Keys

variable {pending : Obligations}

theorem keysAt_set (pending : Obligations) (node other : String) (os : List Obligation) :
    Obligations.keysAt (pending.set node os) other =
      if other = node then os.map (·.key) else pending.keysAt other := by
  rw [Obligations.keysAt, owed_set]
  split_ifs <;> rfl

variable {node : String} {after : Obligations} {d : EscalationDisposition}

theorem keysAt_erase_ne (current : Obligations) {id : String} (hnode : node ≠ id) :
    Obligations.keysAt (current.erase id) node = current.keysAt node := by
  rw [Obligations.keysAt, owed_erase_ne hnode]
  rfl

theorem keysAt_addObligation {message target : String} {o : Obligation}
    (h : addObligation message pending target o = .ok after) (node : String) :
    pending.keysAt node ⊆ after.keysAt node := by
  rw [addObligation] at h
  split_ifs at h
  cases h
  rw [keysAt_set]
  split_ifs with hnode
  · rw [map_append, hnode]
    exact subset_append_left _ _
  · exact List.Subset.refl _

theorem mem_keysAt_addObligation {message target : String} {o : Obligation}
    (h : addObligation message pending target o = .ok after) : o.key ∈ after.keysAt target := by
  rw [addObligation] at h
  split_ifs at h
  cases h
  rw [keysAt_set, if_pos rfl, map_append]
  exact mem_append_right _ (mem_singleton_self _)

/-- Accepted advances are owed where they land, and nothing is dropped. -/
theorem keysAt_applyEscalationAdvances {advances : List (String × Obligation)}
    {merged : Obligations} (h : applyEscalationAdvances pending advances = .ok merged) :
    (∀ node, pending.keysAt node ⊆ merged.keysAt node) ∧
      ∀ l ∈ advances.map landing, l.2 ∈ merged.keysAt l.1 := by
  induction advances generalizing pending with
  | nil =>
    cases h
    exact ⟨fun _ => List.Subset.refl _, forall_mem_nil _⟩
  | cons advance rest ih =>
    rw [applyEscalationAdvances, foldlM_cons] at h
    cases hadd : addObligation
        s!"duplicate escalation-routed finding {advance.2.key} for node {advance.1}" pending
        advance.1 advance.2 with
    | error message =>
      rw [hadd] at h
      cases h
    | ok next =>
      rw [hadd] at h
      obtain ⟨hkept, hall⟩ := ih h
      refine ⟨fun node => List.Subset.trans (keysAt_addObligation hadd node) (hkept node), ?_⟩
      rw [map_cons, forall_mem_cons]
      exact ⟨hkept _ (mem_keysAt_addObligation hadd), hall⟩

variable {run : PlanRun} {request : FeatureRunRequest C} {outcome : FeatureRunOutcome C}
  {s : RunState C}

theorem keysAt_transferFinding {targets : Dict String String} {completed : Dict String C}
    {finding : Json} (h : transferFinding run targets completed pending finding = .ok after)
    (node : String) :
    pending.keysAt node ⊆ after.keysAt node := by
  rw [transferFinding] at h
  split at h
  · split_ifs at h
    exact keysAt_addObligation h node
  · cases h

theorem keysAt_carried {current carried : Obligations}
    (h : carriedFindingObligations run outcome current = some carried) (hnode : node ≠ run.id) :
    carried.keysAt node = current.keysAt node := by
  rw [carriedFindingObligations] at h
  split at h
  · cases h
  · obtain ⟨records, -, rfl⟩ := map_eq_some_iff.1 h
    rw [keysAt_set, if_neg hnode]
    exact keysAt_erase_ne current hnode

/-- **What a seal writes has what the other nodes owed before.** -/
theorem keysAt_written {written : Obligations} (h : SealWrites run request outcome d s written)
    (hnode : node ≠ run.id) :
    s.obligations.keysAt node ⊆ written.keysAt node := by
  cases h with
  | stopped _ hmerged =>
    rw [stoppedObligations] at hmerged
    split_ifs at hmerged
    · exact keysAt_carried (Except.ok.inj hmerged) hnode ▸ List.Subset.refl _
    · split at hmerged
      · cases hmerged
      · rename_i merged heq
        cases Except.ok.inj hmerged
        refine List.Subset.trans ?_ ((keysAt_applyEscalationAdvances heq).1 node)
        cases hcarried : carriedFindingObligations run outcome s.obligations with
        | none => exact keysAt_erase_ne s.obligations hnode ▸ List.Subset.refl _
        | some carried => exact keysAt_carried hcarried hnode ▸ List.Subset.refl _
  | advanced _ _ hadvanced =>
    rw [advanceFindingObligations] at hadvanced
    split at hadvanced
    · cases hadvanced
    · split at hadvanced
      · cases hadvanced
      · rename_i pending hpending
        refine List.Subset.trans ?_ ((keysAt_applyEscalationAdvances hadvanced).1 node)
        have herased := keysAt_erase_ne s.obligations hnode
        exact foldlM_invariant (P := fun acc => s.obligations.keysAt node ⊆ acc.keysAt node) hpending
          (herased ▸ List.Subset.refl _) fun acc finding _ after hacc htransfer =>
            List.Subset.trans hacc (keysAt_transferFinding htransfer node)

/-- What a seal writes has the advances of its disposition. -/
theorem mem_keysAt_written {written : Obligations} (h : SealWrites run request outcome d s written)
    {l : String × String} (hl : l ∈ d.advances.map landing) : l.2 ∈ written.keysAt l.1 := by
  cases h with
  | stopped _ hmerged =>
    rw [stoppedObligations] at hmerged
    split_ifs at hmerged with hnil
    · rw [hnil] at hl
      cases hl
    · split at hmerged
      · cases hmerged
      · rename_i merged heq
        cases Except.ok.inj hmerged
        exact (keysAt_applyEscalationAdvances heq).2 l hl
  | advanced _ _ hadvanced =>
    rw [advanceFindingObligations] at hadvanced
    split at hadvanced
    · cases hadvanced
    · split at hadvanced
      · cases hadvanced
      · exact (keysAt_applyEscalationAdvances hadvanced).2 l hl

/-- A stop on which findings land writes the obligations. -/
theorem stoppedObligations_some {current : Obligations} {merged : Option Obligations}
    (h : stoppedObligations run outcome d current = .ok merged) (hadvances : d.advances ≠ []) :
    ∃ written, merged = some written := by
  rw [stoppedObligations, if_neg hadvances] at h
  split at h
  · cases h
  · exact ⟨_, (Except.ok.inj h).symm⟩

end Keys

/-! ## Seals -/

section Seals

variable [PartialOrder C] (g : Controller C)

/-- The decisions that the seal of a launch spends. Without a judge, and where the ledger does not
bring in the evidence of the launch, none is. -/
def sealSpends (run : PlanRun) (request : FeatureRunRequest C) (launched : Launched C)
    (s : RunState C) : List (String × String) :=
  match launched.importError, (recordedOutcome request launched.outcome).evidence,
      g.escalationJudge with
  | some _, .obj _, _ | _, _, none => []
  | _, evidence, some identity =>
    spends g.plan.runs identity run (· ∈ s.completed.keys) launched.answers 0 s.rejected
      (escalatedFindings evidence)

/-- Every escalated finding of the launch lands. -/
def AllLand (run : PlanRun) (request : FeatureRunRequest C) (launched : Launched C)
    (s : RunState C) : Prop :=
  let outcome := recordedOutcome request launched.outcome
  (judgedLandings g run outcome s launched.answers).length =
    (escalatedFindings outcome.evidence).length

/-- The findings land freely behind the transfers of a candidate. -/
def LandsBehindTransfers (run : PlanRun) (request : FeatureRunRequest C)
    (outcome : FeatureRunOutcome C) (s : RunState C) (landed : List (String × String)) : Prop :=
  ∃ transferred pending, transferredFindings outcome.evidence = .ok transferred ∧
    transferred.foldlM (transferFinding run request.findingTransferTargets s.completed)
      (s.obligations.erase run.id) = .ok pending ∧
    landed.Nodup ∧ ∀ l ∈ landed, l.2 ∉ pending.keysAt l.1

/-- The obligations are written anew with the launch: it brings a candidate, or something to owe,
and the findings land freely. -/
def Rewrites (run : PlanRun) (request : FeatureRunRequest C) (launched : Launched C)
    (s : RunState C) : Prop :=
  let outcome := recordedOutcome request launched.outcome
  let landed := judgedLandings g run outcome s launched.answers
  if outcome.status = "succeeded" then
    outcome.candidateCommit.isSome ∧ LandsBehindTransfers run request outcome s landed
  else
    ((carriedFindingObligations run outcome s.obligations).isSome ∨ landed ≠ []) ∧
      LandsFreely run outcome s.obligations landed

variable {g} {run : PlanRun} {request : FeatureRunRequest C} {launched : Launched C}
  {s : RunState C} {d : EscalationDisposition}

omit [PartialOrder C] in
theorem advanceFindingObligations_ok_iff {outcome : FeatureRunOutcome C} :
    (∃ advanced, advanceFindingObligations run request outcome s.obligations s.completed
      d.advances = .ok advanced) ↔
      LandsBehindTransfers run request outcome s (d.advances.map landing) := by
  rw [advanceFindingObligations]
  constructor
  · rintro ⟨advanced, h⟩
    split at h
    · cases h
    · rename_i transferred htransferred
      split at h
      · cases h
      · rename_i pending hpending
        obtain ⟨hnodup, hfresh⟩ := applyEscalationAdvances_ok_iff.1 ⟨advanced, h⟩
        exact ⟨transferred, pending, htransferred, hpending, hnodup, hfresh⟩
  · rintro ⟨transferred, pending, htransferred, hpending, hnodup, hfresh⟩
    rw [htransferred]
    dsimp only
    rw [hpending]
    exact applyEscalationAdvances_ok_iff.2 ⟨hnodup, hfresh⟩

/-- Only such a launch has obligations written. -/
theorem rewrites_of_writes (hd : (resolvedEscalations g run request launched s).2 = .ok d)
    {written : Obligations}
    (h : SealWrites run request (recordedOutcome request launched.outcome) d s written) :
    Rewrites g run request launched s := by
  have hlanded := resolveEscalations_advances g hd
  rw [Rewrites, ← hlanded]
  cases h with
  | stopped hstatus hmerged =>
    rw [if_neg hstatus]
    refine ⟨?_, stoppedObligations_ok_iff.1 ⟨_, hmerged⟩⟩
    rw [stoppedObligations] at hmerged
    split_ifs at hmerged with hnil
    · rw [Except.ok.inj hmerged]
      exact .inl rfl
    · exact .inr fun h => hnil (map_eq_nil_iff.1 h)
  | advanced hstatus hcandidate hadvanced =>
    rw [if_pos hstatus]
    exact ⟨hcandidate, advanceFindingObligations_ok_iff.1 ⟨_, hadvanced⟩⟩

variable {spent : String × String}

/-- Where a decision was spent, the ledger imported the evidence and a judge was asked. -/
theorem sealSpends_judged (hspent : spent ∈ sealSpends g run request launched s) :
    (launched.importError = none ∨
      ∀ members, (recordedOutcome request launched.outcome).evidence ≠ .obj members) ∧
    ∃ identity, g.escalationJudge = some identity ∧
      spent ∈ spends g.plan.runs identity run (· ∈ s.completed.keys) launched.answers 0 s.rejected
        (escalatedFindings (recordedOutcome request launched.outcome).evidence) := by
  unfold sealSpends at hspent
  split at hspent
  · exact nomatch hspent
  · exact nomatch hspent
  · rename_i identity hjudge himport
    refine ⟨?_, identity, hjudge, hspent⟩
    cases herror : launched.importError with
    | none => exact .inl rfl
    | some error => exact .inr fun members hmembers => himport error members herror hmembers

/-- The pass of such a seal ends with a disposition that tells of the decision. -/
theorem resolvedEscalations_tells (hland : AllLand g run request launched s)
    (hspent : spent ∈ sealSpends g run request launched s) :
    ∃ rejected d, resolvedEscalations g run request launched s = (rejected, .ok d) ∧
      d.Tells spent := by
  obtain ⟨-, identity, hjudge, hspent⟩ := sealSpends_judged hspent
  rw [AllLand, judgedLandings, hjudge] at hland
  rw [resolvedEscalations, hjudge]
  unfold resolveEscalations
  generalize escalatedFindings (recordedOutcome request launched.outcome).evidence = findings at *
  cases findings with
  | nil => cases hspent
  | cons finding rest =>
    obtain ⟨last, hlast, -, htold⟩ := resolveAll_tells { rejected := s.rejected } hland
    obtain ⟨htold, hknown⟩ := htold spent hspent
    dsimp only
    rw [hlast]
    exact ⟨_, _, rfl, htold.tells hknown⟩

theorem EscalationDisposition.Tells.forcesBlock (h : d.Tells spent) :
    d.forcesBlock = true := by
  have hsome : d.retryFrontierPrefix ≠ [] := ne_nil_of_mem h.frontier
  simp [EscalationDisposition.forcesBlock, hsome]

theorem EscalationDisposition.Tells.noteworthy (h : d.Tells spent) :
    d.noteworthy = true := by
  obtain ⟨f, hf, -⟩ := h.payload
  have hsome : d.escalationsPayload ≠ [] := ne_nil_of_mem hf
  simp [EscalationDisposition.noteworthy, hsome]

/-- **A seal on which every finding lands tells of what it spent**, when the obligations are
written: it blocks with the disposition of the pass, and the audit has the obligations. -/
theorem sealOutcome_tells (hland : AllLand g run request launched s)
    (hrewrites : Rewrites g run request launched s)
    (hspent : spent ∈ sealSpends g run request launched s) :
    ∃ result reason d, (sealOutcome g run request launched s).2 =
        .ok (.blocked result reason (some d)) ∧ result.status = .blocked ∧ d.Tells spent ∧
      spent.2 ∈ (sealOutcome g run request launched s).1.audit.findingObligations.keysAt
        spent.1 := by
  obtain ⟨himport, -⟩ := sealSpends_judged hspent
  obtain ⟨rejected, d, hresolved, htells⟩ := resolvedEscalations_tells hland hspent
  have hlanded := resolveEscalations_advances g (congrArg Prod.snd hresolved)
  have hadvances : d.advances ≠ [] := fun hnil => by
    have hmem := htells.advance
    rw [hnil] at hmem
    cases hmem
  rw [Rewrites, ← hlanded] at hrewrites
  rw [sealOutcome]
  split
  · rename_i error members herror hmembers
    cases himport with
    | inl hnone => cases hnone.symm.trans herror
    | inr hother => exact absurd hmembers (hother members)
  rw [show resolveEscalations g.plan.runs g.escalationJudge run
    (recordedOutcome request launched.outcome) s.completed s.rejected launched.answers =
      (rejected, .ok d) from hresolved]
  dsimp only
  by_cases hstatus : (recordedOutcome request launched.outcome).status = "succeeded"
  · rw [if_pos hstatus] at hrewrites
    rw [if_neg (not_not.2 hstatus)]
    obtain ⟨candidate, hcandidate⟩ := isSome_iff_exists.1 hrewrites.1
    obtain ⟨advanced, hadvanced⟩ := advanceFindingObligations_ok_iff.2 hrewrites.2
    rw [hcandidate]
    dsimp only
    rw [sealCandidate]
    rw [hadvanced]
    dsimp only
    rw [if_pos htells.forcesBlock]
    refine ⟨_, _, d, rfl, rfl, htells, ?_⟩
    exact mem_keysAt_written (SealWrites.advanced hstatus hrewrites.1 hadvanced) htells.advance
  · rw [if_neg hstatus] at hrewrites
    rw [if_pos hstatus, sealStopped]
    obtain ⟨merged, hmerged⟩ := stoppedObligations_ok_iff.2 hrewrites.2
    obtain ⟨written, rfl⟩ := stoppedObligations_some hmerged hadvances
    have hblocks : (recordedOutcome request launched.outcome).status = "blocked" ∨
        d.forcesBlock = true := .inr htells.forcesBlock
    rw [hmerged]
    dsimp only
    rw [if_pos hblocks, if_pos hblocks, if_pos htells.noteworthy]
    refine ⟨_, _, d, rfl, rfl, htells, ?_⟩
    have hwritten : SealWrites run request (recordedOutcome request launched.outcome) d s written :=
      .stopped hstatus hmerged
    exact mem_keysAt_written hwritten htells.advance

theorem completed_of_spends {runs : List PlanRun} {identity : String} {completed : String → Bool}
    {answers : ℕ → EscalationAnswer} {n : ℕ} {rejected : List String} {findings : List Json}
    (h : spent ∈ spends runs identity run completed answers n rejected findings) :
    completed spent.1 = true := by
  induction findings generalizing n rejected with
  | nil => exact nomatch h
  | cons record rest ih =>
    rw [spends] at h
    split at h
    · exact nomatch h
    · exact ih h
    · cases mem_append.1 h with
      | inl hhere =>
        split_ifs at hhere with hcompleted
        · rwa [mem_singleton.1 hhere]
        · exact nomatch hhere
      | inr hlater => exact ih hlater

/-- Decisions are spent on completed owners. -/
theorem completed_of_sealSpends (h : spent ∈ sealSpends g run request launched s) :
    spent.1 ∈ s.completed.keys := by
  obtain ⟨-, identity, -, hspent⟩ := sealSpends_judged h
  exact of_decide_eq_true (completed_of_spends hspent)

/-- No seal takes a candidate back. -/
theorem completed_sealOutcome (g : Controller C) (run : PlanRun) (request : FeatureRunRequest C)
    (launched : Launched C) (s : RunState C) :
    s.completed.keys ⊆ (sealOutcome g run request launched s).1.completed.keys := by
  have hcases := sealOutcome_cases g run request launched s
  generalize sealOutcome g run request launched s = sealing at hcases ⊢
  obtain ⟨after, decision⟩ := sealing
  cases hcases with
  | sealed => exact fun id hid => Dict.mem_keys_set.2 (.inr hid)
  | _ => exact List.Subset.refl _

end Seals

/-! ## Loops -/

/-- A loop with the decisions that were spent in it, and the artifact that it left. -/
structure Disclosed (L : Type u) where
  loop : L
  spent : List (String × String) := []
  artifact : Option BlockEscalation := none

/-- The attempt ended blocked, its artifact tells of the decision, and the audit has the
obligation. -/
structure Surfaced (ending : Option (Ending C)) (audit : AttemptState C)
    (artifact : Option BlockEscalation) (spent : String × String) : Prop where
  blocked : ∃ result, ending = some (.returned result) ∧ result.status = .blocked
  final : audit.terminalGraphStatus = some .blocked
  written : ∃ a, artifact = some a ∧ spent.1 ∈ a.retryFrontier ∧
    ∃ f ∈ a.escalations, f.findingKey = spent.2 ∧ f.ownerNode = spent.1
  owed : spent.2 ∈ audit.findingObligations.keysAt spent.1

theorem status_withDeviationRecords (result : PlanGraphResult C) (records : List DeviationRecord) :
    (result.withDeviationRecords records).status = result.status := by
  rw [PlanGraphResult.withDeviationRecords]
  split_ifs <;> rfl

/-- The artifact tells of what its disposition tells of. -/
theorem written_blockEscalation {d : EscalationDisposition} {spent : String × String}
    (h : d.Tells spent) (continueIndependent : Bool) (audit : AttemptState C)
    (result : PlanGraphResult C) :
    spent.1 ∈ (blockEscalation continueIndependent audit result (some d)).retryFrontier ∧
      ∃ f ∈ (blockEscalation continueIndependent audit result (some d)).escalations,
        f.findingKey = spent.2 ∧ f.ownerNode = spent.1 := by
  refine ⟨?_, h.payload⟩
  change spent.1 ∈ resumeFrontier _ _ _ _
  rw [resumeFrontier]
  cases hled : d.retryFrontierPrefix with
  | nil =>
    have hmem := h.frontier
    rw [hled] at hmem
    exact nomatch hmem
  | cons first rest =>
    have hmem := h.frontier
    simpa [hled] using hmem

/-! ## The parallel loop -/

section Parallel

variable [PartialOrder C] [DecidableEq C] [DecidableLE C] (g : Controller C)

namespace ReadySetLoop

/-- The decisions that the seal of a node in flight spends. -/
def nodeSpends (launch : Except LaunchError (Launched C)) (l : ReadySetLoop C) (id : String) :
    List (String × String) :=
  match l.inFlight.get? id with
  | none => []
  | some request => sealSpends g request.run request (launchedOf launch) l.state

def spentAlong (done : String → Option (Except LaunchError (Launched C))) :
    ReadySetLoop C → List String → List (String × String)
  | _, [] => []
  | l, id :: rest =>
    match done id with
    | none => spentAlong done l rest
    | some launch => l.nodeSpends g launch id ++ spentAlong done (l.completeNode g launch id) rest

/-- The artifact with which the loop ends. -/
def endArtifact (l : ReadySetLoop C) : Option BlockEscalation :=
  match l.terminal with
  | none => none
  | some t =>
    if t.blocks then
      some (blockEscalation g.continueIndependentAfterBlock l.state.audit t.result t.escalation)
    else none

/-- The decisions of a turn. -/
def turnSpends (round : Round C) (l : ReadySetLoop C) : List (String × String) :=
  match l.admitReady g round.refusal with
  | .error _ => []
  | .ok admitted => admitted.spentAlong g round.done (admitted.doneIds round.done)

def turnArtifact (round : Round C) (l : ReadySetLoop C) : Option BlockEscalation :=
  match l.admitReady g round.refusal with
  | .error _ => none
  | .ok admitted => if admitted.inFlight.keys = [] then admitted.endArtifact g else none

end ReadySetLoop

/-- One turn of the parallel loop, with what it spends. -/
def disclosedReadySetStep (round : Round C) (x : Disclosed (ReadySetLoop C)) :
    Option (Disclosed (ReadySetLoop C)) :=
  (readySetStep g round x.loop).map fun next =>
    { loop := next
      spent := x.spent ++ x.loop.turnSpends g round
      artifact := x.loop.turnArtifact g round }

/-- The controller's copy has what the audit has for the completed nodes. -/
def CopyCurrent (s : RunState C) : Prop :=
  ∀ id ∈ s.completed.keys, s.audit.findingObligations.keysAt id ⊆ s.obligations.keysAt id

/-- A seal that tells of what it spends and keeps what was told. -/
structure Discloses (m : ReadySetLoop C) (launch : Except LaunchError (Launched C))
    (request : FeatureRunRequest C) : Prop where
  lands : sealSpends g request.run request (ReadySetLoop.launchedOf launch) m.state ≠ [] →
    AllLand g request.run request (ReadySetLoop.launchedOf launch) m.state ∧
      Rewrites g request.run request (ReadySetLoop.launchedOf launch) m.state
  first : sealSpends g request.run request (ReadySetLoop.launchedOf launch) m.state ≠ [] →
    ∀ t, m.terminal = some t → t.escalation = none
  current : Rewrites g request.run request (ReadySetLoop.launchedOf launch) m.state →
    CopyCurrent m.state

/-- A turn all of whose seals are so. -/
def DisclosesAll (x : Disclosed (ReadySetLoop C)) (round : Round C) : Prop :=
  ∀ m id launch request, SealsIn g round x.loop m id launch request → Discloses g m launch request

variable {g} {l : ReadySetLoop C} {spent : List (String × String)}

namespace ReadySetLoop

/-- The loop tells of what was spent. -/
structure Telling (g : Controller C) (l : ReadySetLoop C) (spent : List (String × String)) :
    Prop where
  sound : Sound g l
  told : ∀ p ∈ spent, ∃ t d, l.terminal = some t ∧ t.blocks = true ∧
    t.result.status = .blocked ∧ t.escalation = some d ∧ d.Tells p
  owed : ∀ p ∈ spent, p.2 ∈ l.state.audit.findingObligations.keysAt p.1
  completed : ∀ p ∈ spent, p.1 ∈ l.state.completed.keys

variable {id : String}

omit [PartialOrder C] [DecidableEq C] [DecidableLE C] in
theorem stop_keeps {t other : Terminal C} {d : EscalationDisposition} (ht : l.terminal = some t)
    (hd : t.escalation = some d) :
    (l.stop id other).terminal = some t := by
  simp [stop, ht, hd]

omit [PartialOrder C] [DecidableEq C] [DecidableLE C] in
theorem stop_tells {t : Terminal C} {d : EscalationDisposition}
    (hfirst : ∀ other, l.terminal = some other → other.escalation = none)
    (hd : t.escalation = some d) : (l.stop id t).terminal = some t := by
  rw [stop]
  cases hterminal : l.terminal with
  | none => rfl
  | some other => simp [hfirst other hterminal, hd]

omit [DecidableEq C] [DecidableLE C] in
/-- A seal keeps what is owed by the completed nodes. -/
theorem Telling.owed_seal (h : Telling g l spent) {request : FeatureRunRequest C}
    {launch : Except LaunchError (Launched C)} (hrequest : l.inFlight.get? id = some request)
    (hdiscloses : Discloses g l launch request) {p : String × String} (hp : p ∈ spent) :
    p.2 ∈ (sealOutcome g request.run request (launchedOf launch)
      l.state).1.audit.findingObligations.keysAt p.1 := by
  obtain ⟨-, haudit, -⟩ | ⟨d, written, hd, hwrites, -, haudit, -⟩ :=
    sealOutcome_writes g request.run request (launchedOf launch) l.state
  · rw [haudit]
    exact h.owed p hp
  · have hne : p.1 ≠ request.run.id := by
      rw [h.sound.request id request hrequest]
      intro heq
      have hopen := (h.sound.flight id (Dict.mem_keys_iff.2 ⟨request, hrequest⟩)).isOpen
      exact hopen (heq ▸ h.completed p hp)
    rw [haudit]
    refine keysAt_written hwrites hne ?_
    exact hdiscloses.current (rewrites_of_writes hd hwrites) p.1 (h.completed p hp) (h.owed p hp)

omit [DecidableEq C] [DecidableLE C] in
/-- **A seal that discloses leaves a loop that tells of what was spent.** -/
theorem Telling.completeNode (h : Telling g l spent) {launch : Except LaunchError (Launched C)}
    (hdiscloses : ∀ request, l.inFlight.get? id = some request → Discloses g l launch request) :
    Telling g (l.completeNode g launch id) (spent ++ l.nodeSpends g launch id) := by
  have hsound := h.sound.completeNode launch id
  revert hsound
  rw [ReadySetLoop.completeNode, nodeSpends]
  cases hrequest : l.inFlight.get? id with
  | none =>
    rw [append_nil]
    exact fun _ => h
  | some request =>
    dsimp only
    have hthis := hdiscloses request hrequest
    have htells (p) (hp : p ∈ sealSpends g request.run request (launchedOf launch) l.state) :=
      sealOutcome_tells (hthis.lands (ne_nil_of_mem hp)).1
        (hthis.lands (ne_nil_of_mem hp)).2 hp
    have hold (p) (hp : p ∈ spent) := h.owed_seal hrequest hthis hp
    have hkept := completed_sealOutcome g request.run request (launchedOf launch) l.state
    have hfirst (p) (hp : p ∈ sealSpends g request.run request (launchedOf launch) l.state) :=
      hthis.first (ne_nil_of_mem hp)
    have hspent (p) (hp : p ∈ sealSpends g request.run request (launchedOf launch) l.state) :
        p.1 ∈ l.state.completed.keys := completed_of_sealSpends hp
    generalize sealSpends g request.run request (launchedOf launch) l.state = new at *
    generalize sealOutcome g request.run request (launchedOf launch) l.state = sealing at *
    obtain ⟨s, decision⟩ := sealing
    have howed (p) (hp : p ∈ spent ++ new) : p.2 ∈ s.audit.findingObligations.keysAt p.1 := by
      cases mem_append.1 hp with
      | inl hp => exact hold p hp
      | inr hp =>
        obtain ⟨-, -, -, -, -, -, howed⟩ := htells p hp
        exact howed
    have hcompleted (p) (hp : p ∈ spent ++ new) : p.1 ∈ s.completed.keys := by
      cases mem_append.1 hp with
      | inl hp => exact hkept (h.completed p hp)
      | inr hp => exact hkept (hspent p hp)
    -- a seal that does not block has spent nothing
    have hnothing (hdecision : ∀ result reason d, decision ≠ .ok (.blocked result reason (some d))) :
        ∀ p ∈ spent ++ new, p ∈ spent := by
      intro p hp
      cases mem_append.1 hp with
      | inl hp => exact hp
      | inr hp =>
        obtain ⟨result, reason, d, hblocked, -⟩ := htells p hp
        exact absurd hblocked (hdecision result reason d)
    intro hsound
    cases decision with
    | error message =>
      exact ⟨hsound, fun p hp => h.told p (hnothing (by simp) p hp), howed, hcompleted⟩
    | ok decision =>
      cases decision with
      | sealed advanced =>
        have hold := hnothing fun _ _ _ heq => by cases Except.ok.inj heq
        exact ⟨hsound, fun p hp => h.told p (hold p hp), howed, hcompleted⟩
      | failed result =>
        have hold := hnothing fun _ _ _ heq => by cases Except.ok.inj heq
        refine ⟨hsound, fun p hp => ?_, howed, hcompleted⟩
        obtain ⟨t, d, hterminal, hblocks, hstatus, hd, htold⟩ := h.told p (hold p hp)
        exact ⟨t, d, stop_keeps hterminal hd, hblocks, hstatus, hd, htold⟩
      | blocked result reason escalation =>
        refine ⟨hsound, fun p hp => ?_, howed, hcompleted⟩
        cases mem_append.1 hp with
        | inl hp =>
          obtain ⟨t, d, hterminal, hblocks, hstatus, hd, htold⟩ := h.told p hp
          exact ⟨t, d, stop_keeps hterminal hd, hblocks, hstatus, hd, htold⟩
        | inr hp =>
          obtain ⟨result', reason', d, heq, hstatus, htold, -⟩ := htells p hp
          obtain ⟨rfl, rfl, rfl⟩ := SealDecision.blocked.inj (Except.ok.inj heq)
          exact ⟨_, d, stop_tells (hfirst p hp) rfl, rfl, hstatus, rfl, htold⟩

/-- Admission tells of what was spent. -/
theorem Telling.admitReady (h : Telling g l spent) {refusal : String → Option String}
    {next : ReadySetLoop C} (hentered : l.admitReady g refusal = .ok next) : Telling g next spent := by
  obtain ⟨found, hfound, hsound, -⟩ := h.sound.admitReady refusal
  cases hentered.symm.trans hfound
  have hadmitted := h.sound.admitted hentered
  refine ⟨hsound, fun p hp => ?_, fun p hp => ?_, fun p hp => ?_⟩
  · obtain ⟨t, d, hterminal, htold⟩ := h.told p hp
    exact ⟨t, d, hadmitted.terminal t hterminal, htold⟩
  · rw [hadmitted.audit]
    exact h.owed p hp
  · rw [hadmitted.completed]
    exact h.completed p hp

/-- The seals of a turn, from any of them on. -/
theorem Telling.completeNodes {x : Disclosed (ReadySetLoop C)} {round : Round C}
    {admitted m : ReadySetLoop C} (h : Telling g m spent) (hdiscloses : DisclosesAll g x round)
    (hgoing : x.loop.ending = none) (hentered : x.loop.admitReady g round.refusal = .ok admitted)
    {before rest : List String} (hdone : admitted.doneIds round.done = before ++ rest)
    (hm : m = admitted.completeNodes g round.done before) :
    Telling g (m.completeNodes g round.done rest) (spent ++ m.spentAlong g round.done rest) := by
  induction rest generalizing m before spent with
  | nil =>
    rw [spentAlong, append_nil]
    exact h
  | cons id rest ih =>
    have hnext := completeNodes_concat g round.done admitted before id
    rw [← hm] at hnext
    have hrest : admitted.doneIds round.done = before ++ [id] ++ rest := by
      rw [hdone, append_assoc]
      rfl
    rw [completeNodes_cons, spentAlong]
    cases hlaunch : round.done id with
    | none =>
      rw [hlaunch] at hnext
      exact ih h hrest hnext.symm
    | some launch =>
      rw [hlaunch] at hnext
      rw [← append_assoc]
      refine ih (h.completeNode fun request hrequest => ?_) hrest hnext.symm
      exact hdiscloses m id launch request
        ⟨hgoing, ⟨admitted, before, rest, hentered, hdone, hm⟩, hlaunch, hrequest⟩

/-- **The end tells of what was spent.** -/
theorem Telling.conclude (h : Telling g l spent) (finishing : Finishing)
    {p : String × String} (hp : p ∈ spent) :
    Surfaced (l.conclude g finishing).ending (l.conclude g finishing).state.audit (l.endArtifact g)
        p ∧
      (l.conclude g finishing).terminal = l.terminal ∧
      (l.conclude g finishing).state.completed = l.state.completed := by
  obtain ⟨t, d, hterminal, hblocks, hstatus, hd, htold⟩ := h.told p hp
  have hconclude : l.conclude g finishing =
      l.ended (transitionToBlocked l.state { t.result with completed := l.state.completed }
        finishing.deviationRecords) := by
    rw [ReadySetLoop.conclude, hterminal]
    dsimp only
    rw [if_pos hblocks]
  have hartifact : l.endArtifact g =
      some (blockEscalation g.continueIndependentAfterBlock l.state.audit t.result (some d)) := by
    rw [endArtifact, hterminal]
    dsimp only
    rw [if_pos hblocks, hd]
  rw [hconclude, hartifact]
  exact ⟨⟨⟨_, rfl, (status_withDeviationRecords _ _).trans hstatus⟩, rfl,
    ⟨_, rfl, written_blockEscalation htold _ _ _⟩, h.owed p hp⟩, rfl, rfl⟩

/-- **One turn.** -/
theorem Telling.step {x y : Disclosed (ReadySetLoop C)} {round : Round C}
    (h : Telling g x.loop x.spent) (hdiscloses : DisclosesAll g x round)
    (hstep : disclosedReadySetStep g round x = some y) :
    Telling g y.loop y.spent ∧ (y.loop.ending ≠ none → ∀ p ∈ y.spent,
      Surfaced y.loop.ending y.loop.state.audit y.artifact p) := by
  obtain ⟨next, hnext, rfl⟩ := map_eq_some_iff.1 hstep
  have hsound := (h.sound.step hnext).1
  obtain ⟨hgoing, admitted, hentered, -, hturn⟩ := h.sound.turns hnext
  have hadmitted := h.admitReady hentered
  rw [turnSpends, turnArtifact, hentered]
  dsimp only
  obtain ⟨hidle, -, rfl⟩ | ⟨-, rfl⟩ := hturn
  · rw [if_pos hidle]
    have hdone : admitted.doneIds round.done = [] := by
      rw [doneIds, hidle, filter_nil, mergeSort_nil]
    rw [hdone, spentAlong, append_nil]
    refine ⟨⟨hsound, fun p hp => ?_, fun p hp => ?_, fun p hp => ?_⟩, fun _ p hp => ?_⟩
    · rw [(hadmitted.conclude round.finishing hp).2.1]
      exact hadmitted.told p hp
    · exact (hadmitted.conclude round.finishing hp).1.owed
    · rw [(hadmitted.conclude round.finishing hp).2.2]
      exact hadmitted.completed p hp
    · exact (hadmitted.conclude round.finishing hp).1
  · refine ⟨hadmitted.completeNodes hdiscloses hgoing hentered (nil_append _).symm rfl,
      fun hended => absurd ?_ hended⟩
    rw [ending_completeNodes, ending_admitReady hentered, hgoing]

end ReadySetLoop

end Parallel

/-! ## The sequential loop -/

section Sequential

variable [PartialOrder C] (g : Controller C)

namespace SequentialLoop

/-- The request of a node in turn. -/
def turnRequest (l : SequentialLoop C) (run : PlanRun) : FeatureRunRequest C :=
  requestForRun g run l.candidate (l.state.obligations.owed run.id)

/-- The state in which the outcome of a node in turn is sealed. -/
def turnState (l : SequentialLoop C) (run : PlanRun) : RunState C :=
  { l.state with
    audit := l.state.audit.nodeStarted run.id
    requests := l.state.requests ++ [l.turnRequest g run] }

/-- The decisions of a turn. -/
def turnSpends (turn : Turn C) (l : SequentialLoop C) : List (String × String) :=
  match l.remaining, turn.refusal, turn.launch with
  | run :: _, none, .ok launched =>
    if run.id ∈ l.state.completed.keys then []
    else sealSpends g run (l.turnRequest g run) launched (l.turnState g run)
  | _, _, _ => []

/-- The artifact of a turn that blocks. -/
def turnArtifact (turn : Turn C) (l : SequentialLoop C) : Option BlockEscalation :=
  match l.remaining, turn.refusal, turn.launch with
  | run :: _, some _, _ =>
    if run.id ∈ l.state.completed.keys then none
    else
      some (blockEscalation g.continueIndependentAfterBlock
        (l.state.audit.nodeFailed run.id .blocked none) (stoppedResult l.state run .blocked none [])
        none)
  | run :: _, none, .ok launched =>
    if run.id ∈ l.state.completed.keys then none
    else
      match sealOutcome g run (l.turnRequest g run) launched (l.turnState g run) with
      | (s, .ok (.blocked result _ escalation)) =>
        some (blockEscalation g.continueIndependentAfterBlock s.audit result escalation)
      | _ => none
  | _, _, _ => none

end SequentialLoop

/-- One turn of the sequential loop, with what it spends. -/
def disclosedSequentialStep (turn : Turn C) (x : Disclosed (SequentialLoop C)) :
    Option (Disclosed (SequentialLoop C)) :=
  (sequentialStep g turn x.loop).map fun next =>
    { loop := next
      spent := x.spent ++ x.loop.turnSpends g turn
      artifact := x.loop.turnArtifact g turn }

/-- A turn that tells of what it spends. -/
def DisclosesTurn (x : Disclosed (SequentialLoop C)) (turn : Turn C) : Prop :=
  x.loop.turnSpends g turn ≠ [] → ∀ run rest launched, x.loop.remaining = run :: rest →
    turn.launch = .ok launched →
      AllLand g run (x.loop.turnRequest g run) launched (x.loop.turnState g run) ∧
      Rewrites g run (x.loop.turnRequest g run) launched (x.loop.turnState g run)

variable {g}

/-- **A sequential run that spends ends, and tells of it.** -/
theorem SequentialLoop.surfaced_step {x y : Disclosed (SequentialLoop C)} {turn : Turn C}
    (hgoing : x.loop.ending = none → x.spent = []) (hdiscloses : DisclosesTurn g x turn)
    (hstep : disclosedSequentialStep g turn x = some y) :
    ∀ p ∈ y.spent, Surfaced y.loop.ending y.loop.state.audit y.artifact p := by
  obtain ⟨next, hnext, rfl⟩ := map_eq_some_iff.1 hstep
  intro p hp
  have hending : x.loop.ending = none := by
    rw [sequentialStep] at hnext
    split at hnext
    · cases hnext
    · assumption
    · assumption
  rw [hgoing hending, nil_append] at hp
  have hdisclosed := hdiscloses (ne_nil_of_mem hp)
  unfold turnSpends at hp
  split at hp
  · rename_i run rest launched hremaining hrefusal hlaunch
    split_ifs at hp with hcompleted
    · cases hp
    obtain ⟨hland, hrewrites⟩ := hdisclosed run rest launched hremaining hlaunch
    obtain ⟨result, reason, d, hdecision, hstatus, htold, howed⟩ :=
      sealOutcome_tells hland hrewrites hp
    have hget : x.loop.state.completed.get? run.id = none := Dict.get?_eq_none_iff.2 hcompleted
    rw [sequentialStep, hending, hremaining] at hnext
    dsimp only at hnext
    rw [hget] at hnext
    cases hnext
    have hlaunched : x.loop.launchNode g turn run rest =
        x.loop.ended (transitionToBlocked
          (sealOutcome g run (x.loop.turnRequest g run) launched (x.loop.turnState g run)).1 result
          turn.finishing.deviationRecords) := by
      have hsealing : sealOutcome g run (x.loop.turnRequest g run) launched (x.loop.turnState g run) =
          ((sealOutcome g run (x.loop.turnRequest g run) launched (x.loop.turnState g run)).1,
            .ok (.blocked result reason (some d))) := Prod.ext rfl hdecision
      rw [turnState, turnRequest] at hsealing
      rw [launchNode, hrefusal, hlaunch]
      dsimp only
      rw [hsealing]
      rfl
    have hartifact : x.loop.turnArtifact g turn =
        some (blockEscalation g.continueIndependentAfterBlock
          (sealOutcome g run (x.loop.turnRequest g run) launched (x.loop.turnState g run)).1.audit
          result (some d)) := by
      rw [turnArtifact, hremaining, hrefusal, hlaunch]
      dsimp only
      rw [if_neg hcompleted]
      generalize sealOutcome g run (x.loop.turnRequest g run) launched (x.loop.turnState g run) =
        sealing at hdecision
      obtain ⟨s, decision⟩ := sealing
      obtain rfl := hdecision
      rfl
    rw [hlaunched, hartifact]
    exact ⟨⟨_, rfl, (status_withDeviationRecords _ _).trans hstatus⟩, rfl,
      ⟨_, rfl, written_blockEscalation htold _ _ _⟩, howed⟩
  · cases hp

end Sequential

/-! ## Runs -/

/-- **Every decision that a run spent is surfaced** where the run ends, when its turns tell of what
they spend. -/
theorem spent_surfaced [PartialOrder C] [DecidableEq C] [DecidableLE C] (g : Controller C)
    (audit : AttemptState C) (s : RunState C) (hstart : StartsOn g.plan audit s) :
    (∀ x, Inputs.RunsUnder (DisclosesTurn g) (disclosedSequentialStep g)
        { loop := SequentialLoop.start g s } x → x.loop.ending ≠ none →
      ∀ p ∈ x.spent, Surfaced x.loop.ending x.loop.state.audit x.artifact p) ∧
    ∀ x, Inputs.RunsUnder (DisclosesAll g) (disclosedReadySetStep g) { loop := { state := s } } x →
      x.loop.ending ≠ none →
        ∀ p ∈ x.spent, Surfaced x.loop.ending x.loop.state.audit x.artifact p := by
  constructor
  · intro x hrun hended
    have hinvariant : (x.loop.ending = none → x.spent = []) ∧
        ∀ p ∈ x.spent, Surfaced x.loop.ending x.loop.state.audit x.artifact p := by
      refine hrun.invariant (P := fun x : Disclosed (SequentialLoop C) =>
        (x.loop.ending = none → x.spent = []) ∧
          ∀ p ∈ x.spent, Surfaced x.loop.ending x.loop.state.audit x.artifact p)
        (fun turn x y hdiscloses hstep hx => ?_) ⟨fun _ => rfl, forall_mem_nil _⟩
      have hsurfaced := SequentialLoop.surfaced_step hx.1 hdiscloses hstep
      refine ⟨fun hgoing => eq_nil_iff_forall_not_mem.2 fun p hp => ?_, hsurfaced⟩
      obtain ⟨result, hending, -⟩ := (hsurfaced p hp).blocked
      exact nomatch hgoing.symm.trans hending
    exact hinvariant.2
  · intro x hrun hended
    have hinvariant : ReadySetLoop.Telling g x.loop x.spent ∧ (x.loop.ending ≠ none →
        ∀ p ∈ x.spent, Surfaced x.loop.ending x.loop.state.audit x.artifact p) := by
      refine hrun.invariant (P := fun x : Disclosed (ReadySetLoop C) =>
        ReadySetLoop.Telling g x.loop x.spent ∧ (x.loop.ending ≠ none →
          ∀ p ∈ x.spent, Surfaced x.loop.ending x.loop.state.audit x.artifact p))
        (fun round x y hdiscloses hstep hx => hx.1.step hdiscloses hstep) ⟨?_, fun h => absurd rfl h⟩
      exact ⟨ReadySetLoop.sound_start hstart, forall_mem_nil _, forall_mem_nil _,
        forall_mem_nil _⟩
    exact hinvariant.2 hended

/-! ## A finding without an owner -/

/-- An attempt that reuses the candidate of the owner. -/
def reopenedAudit : AttemptState (Finset ℕ) where
  graphRunId := "graph"
  nodes := Dict.ofList [("owner", { status := .succeeded, candidateCommit := some {1} }),
    ("node", { status := .queued, dependsOn := ["owner"] })]
  currentCandidateCommit := {1}

def reopenedState : RunState (Finset ℕ) where
  audit := reopenedAudit
  completed := Dict.ofList [("owner", {1})]
  obligations := ∅

theorem startsOn_reopened : StartsOn judgedController.plan reopenedAudit reopenedState :=
  ⟨fun _ => Iff.rfl, rfl, [], rfl⟩

/-- The node comes back blocked and escalates the findings; the judge confirms them. -/
def unsealTurn (findings : List Json) : Turn (Finset ℕ) where
  launch := .ok
    { outcome :=
      { status := "blocked"
        evidence := .obj [("review_fix", .obj [("escalated_findings", .arr findings)])] }
      answers := fun _ => ⟨.answered (.obj [("protocol", .str escalationJudgmentProtocol),
        ("verdict", .str "confirm"), ("rationale", .str "the file is theirs")]), none⟩ }

/-- The candidate of the owner is reused. -/
def reopenedLoop : Disclosed (SequentialLoop (Finset ℕ)) where
  loop := { state := reopenedState, candidate := {1}, remaining := [judgedRun] }

theorem reuses_reopened : disclosedSequentialStep judgedController {}
    { loop := SequentialLoop.start judgedController reopenedState } = some reopenedLoop :=
  rfl

/-- A turn in which one finding of the owner is escalated discloses it. -/
theorem disclosesTurn_reopened :
    DisclosesTurn judgedController reopenedLoop (unsealTurn [ownerFinding "k"]) := by
  intro _ run rest launched hremaining hlaunch
  obtain ⟨rfl, rfl⟩ := List.cons.inj hremaining
  cases hlaunch
  rw [AllLand, Rewrites]
  exact ⟨by decide +kernel, .inr (by decide +kernel), by decide +kernel, by decide +kernel⟩

theorem spent_surfaced_reopened : ∃ x,
    Inputs.Runs (disclosedSequentialStep judgedController)
      { loop := SequentialLoop.start judgedController reopenedState } x ∧
    x.spent = [("owner", "k")] ∧
    ∀ p ∈ x.spent, Surfaced x.loop.ending x.loop.state.audit x.artifact p := by
  have hend : (disclosedSequentialStep judgedController (unsealTurn [ownerFinding "k"])
      reopenedLoop).map (fun x => (x.spent, x.loop.ending.isSome)) =
        some ([("owner", "k")], true) := by
    decide +kernel
  obtain ⟨x, hx, heq⟩ := map_eq_some_iff.1 hend
  obtain ⟨hspent, hended⟩ := Prod.mk.inj heq
  refine ⟨x, ((Inputs.Runs.refl _).tail reuses_reopened).tail hx, hspent, ?_⟩
  refine (spent_surfaced judgedController reopenedAudit reopenedState startsOn_reopened).1 x
    ((Relation.ReflTransGen.single ⟨{}, fun h => absurd rfl h, reuses_reopened⟩).tail
      ⟨_, disclosesTurn_reopened, hx⟩) fun hnone => ?_
  rw [hnone] at hended
  exact nomatch hended

/-- **The node escalates a finding without an owner behind one that unseals its owner:** the
decision is spent, and the frontier of the artifact does not name the owner. -/
theorem spent_unsurfaced :
    ¬ ∀ (g : Controller (Finset ℕ)) (audit : AttemptState (Finset ℕ)) (s : RunState (Finset ℕ)),
      StartsOn g.plan audit s → ∀ x, Inputs.Runs (disclosedSequentialStep g)
        { loop := SequentialLoop.start g s } x → x.loop.ending ≠ none →
          ∀ p ∈ x.spent, Surfaced x.loop.ending x.loop.state.audit x.artifact p := by
  intro h
  have hend : (disclosedSequentialStep judgedController (unsealTurn [ownerFinding "k",
      .obj [("key", .str "lost"), ("required_paths", .arr [.str "docs"])]]) reopenedLoop).map
        (fun x => (x.spent, x.loop.ending.isSome, x.artifact.map (·.retryFrontier))) =
      some ([("owner", "k")], true, some ["node"]) := by
    decide +kernel
  obtain ⟨x, hx, heq⟩ := map_eq_some_iff.1 hend
  obtain ⟨hspent, heq⟩ := Prod.mk.inj heq
  obtain ⟨hended, hfrontier⟩ := Prod.mk.inj heq
  have hsurfaced := h judgedController reopenedAudit reopenedState startsOn_reopened x
    (((Inputs.Runs.refl _).tail reuses_reopened).tail hx)
    (fun hnone => by
      rw [hnone] at hended
      exact nomatch hended)
    ("owner", "k") (by
      rw [hspent]
      exact mem_singleton_self _)
  obtain ⟨a, ha, hmem, -⟩ := hsurfaced.written
  rw [ha] at hfrontier
  have hnode : a.retryFrontier = ["node"] := Option.some.inj hfrontier
  rw [hnode] at hmem
  exact absurd hmem (by decide)

end HarnessLabs.PlanGraph
