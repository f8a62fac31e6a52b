import HarnessLabs.PlanGraph.Progress

/-!
# Recorded inputs

The audit records an input for a node that starts, and again in the barrier of its completion. It
takes the input from itself: the one that the node already has, or else the candidate that was
sealed last. The controller launches the node on a base of its own: the candidate of the node before
it, or the join of the candidates that the node depends on.

* `InputsLaunched` — what the audit has for the launched nodes are the bases of their requests.
* `OnInput` — the audit will record the base of a launch.
* `carries_sealOutcome` — sealing an outcome leaves the recorded inputs as they are.
* `recorded_inputs_iff` — **the recorded inputs are the launched ones exactly when every launch is
  on its input.**
-/

namespace HarnessLabs.PlanGraph

open List Option

universe u

variable {C : Type u}

/-! ## Inputs -/

/-- The input that the audit has for a node. -/
def AttemptState.inputOf (state : AttemptState C) (nodeId : String) : Option C :=
  (state.nodes.get? nodeId).bind (·.inputCommit)

/-- The inputs of the launched nodes, and those in their barriers, are the bases of the requests. -/
def InputsLaunched (s : RunState C) : Prop :=
  ∀ r ∈ s.requests, s.audit.inputOf r.planNodeId = some r.baseCommit ∧
    ∀ b ∈ s.audit.integrationBarriers, b.nodeId = r.planNodeId → b.inputCommit = r.baseCommit

/-- What the audit records for a launch of the node is `base`: the node has it as its input, or has
none and it is the candidate sealed last. No barrier of the node has another one. -/
structure OnInput (audit : AttemptState C) (nodeId : String) (base : C) : Prop where
  input : (audit.inputOf nodeId).getD audit.currentCandidateCommit = base
  barriers : ∀ b ∈ audit.integrationBarriers, b.nodeId = nodeId → b.inputCommit = base

/-- The audit has the nodes, and an input for every launch. -/
structure Tracked (ids : List String) (s : RunState C) : Prop where
  nodes : ∀ id ∈ ids, id ∈ s.audit.nodes.keys
  inputs : ∀ r ∈ s.requests, (s.audit.inputOf r.planNodeId).isSome

/-- From `a` to `b` the inputs stay, and a barrier that comes has the input of its node. -/
structure Carries (a b : AttemptState C) : Prop where
  nodes : ∀ id, id ∈ b.nodes.keys ↔ id ∈ a.nodes.keys
  inputs : ∀ id, b.inputOf id = a.inputOf id
  kept : a.integrationBarriers ⊆ b.integrationBarriers
  added : ∀ barrier ∈ b.integrationBarriers, barrier ∈ a.integrationBarriers ∨
    a.inputOf barrier.nodeId = some barrier.inputCommit

section Carries

variable {a b c : AttemptState C}

theorem Carries.of_eq (hnodes : b.nodes = a.nodes)
    (hbarriers : b.integrationBarriers = a.integrationBarriers) : Carries a b where
  nodes id := by rw [hnodes]
  inputs id := by rw [AttemptState.inputOf, AttemptState.inputOf, hnodes]
  kept := by
    rw [hbarriers]
    exact List.Subset.refl _
  added := by
    intro barrier hbarrier
    rw [hbarriers] at hbarrier
    exact .inl hbarrier

theorem Carries.refl (a : AttemptState C) : Carries a a := .of_eq rfl rfl

theorem Carries.trans (hab : Carries a b) (hbc : Carries b c) : Carries a c where
  nodes id := (hbc.nodes id).trans (hab.nodes id)
  inputs id := (hbc.inputs id).trans (hab.inputs id)
  kept := List.Subset.trans hab.kept hbc.kept
  added := by
    intro barrier hbarrier
    rcases hbc.added barrier hbarrier with hold | hnew
    · exact hab.added barrier hold
    · exact .inr ((hab.inputs _).symm.trans hnew)

section

variable (audit : AttemptState C) (nodeId : String)

include audit nodeId

theorem keys_transition (updates : Node C → Node C) (running : Bool) (id : String) :
    id ∈ (audit.transition nodeId updates running).nodes.keys ↔ id ∈ audit.nodes.keys := by
  rw [AttemptState.transition]
  cases hnode : audit.nodes.get? nodeId with
  | none => exact Iff.rfl
  | some node =>
    refine Dict.mem_keys_set.trans (or_iff_right_of_imp ?_)
    intro hid
    exact Dict.mem_keys_iff.2 ⟨node, hid ▸ hnode⟩

theorem inputOf_transition (updates : Node C → Node C) (running : Bool) (id : String) :
    (audit.transition nodeId updates running).inputOf id =
      if id = nodeId then (audit.nodes.get? nodeId).bind fun node => (updates node).inputCommit
      else audit.inputOf id := by
  rw [AttemptState.transition]
  cases hnode : audit.nodes.get? nodeId with
  | none =>
    by_cases hid : id = nodeId
    · rw [if_pos hid, hid]
      exact congrArg (Option.bind · _) hnode
    · rw [if_neg hid]
  | some node =>
    rw [AttemptState.inputOf, AttemptState.inputOf, Dict.get?_set]
    by_cases hid : id = nodeId
    · rw [if_pos hid, if_pos hid]
      rfl
    · rw [if_neg hid, if_neg hid]

theorem barriers_transition (updates : Node C → Node C) (running : Bool) :
    (audit.transition nodeId updates running).integrationBarriers = audit.integrationBarriers := by
  rw [AttemptState.transition]
  split <;> rfl

/-- A transition that leaves the input of its node. -/
theorem carries_transition (updates : Node C → Node C)
    (hupdates : ∀ node, (updates node).inputCommit = node.inputCommit) (running : Bool) :
    Carries audit (audit.transition nodeId updates running) where
  nodes := keys_transition audit nodeId updates running
  inputs id := by
    rw [inputOf_transition]
    split_ifs with hid
    · simp only [hupdates, hid, AttemptState.inputOf]
    · rfl
  kept := by
    rw [barriers_transition]
    exact List.Subset.refl _
  added barrier hbarrier := by
    rw [barriers_transition] at hbarrier
    exact .inl hbarrier

theorem carries_nodeFailed (status : NodeStatus) (obligations : Option Obligations) :
    Carries audit (audit.nodeFailed nodeId status obligations) :=
  (carries_transition audit nodeId (fun node => { node with status := status }) (fun _ => rfl)
    false).trans (.of_eq rfl rfl)

theorem carries_transferConflictBlocked (obligations : Option Obligations) :
    Carries audit (audit.transferConflictBlocked nodeId obligations) :=
  (carries_transition audit nodeId (fun node => { node with status := .blocked }) (fun _ => rfl)
    false).trans (.of_eq rfl rfl)

theorem carries_candidateVerified (candidate : C) :
    Carries audit (audit.candidateVerifiedPendingTransfer nodeId candidate) :=
  carries_transition audit nodeId (fun node => { node with pendingTransfer := some candidate })
    (fun _ => rfl) true

end

/-- The completion of a node that has an input. -/
theorem carries_nodeCompleted (audit : AttemptState C) {nodeId : String} (candidate : C)
    (obligations : Obligations) {input : C} (hinput : audit.inputOf nodeId = some input) :
    Carries audit (audit.nodeCompleted nodeId candidate obligations) := by
  have hbarrier : (audit.completionBarrier nodeId candidate).inputCommit = input := by
    show (audit.inputOf nodeId).getD _ = input
    rw [hinput]
    rfl
  have hsubset : audit.integrationBarriers ⊆
      (audit.nodeCompleted nodeId candidate obligations).integrationBarriers := by
    intro barrier hmem
    show barrier ∈ ite _ _ _
    split_ifs
    · exact hmem
    · exact mem_append_left _ hmem
  refine ⟨keys_transition audit nodeId _ false, fun id => ?_, hsubset, fun barrier hmem => ?_⟩
  · refine (inputOf_transition audit nodeId _ false id).trans ?_
    split_ifs with hid
    · subst hid
      rw [hinput]
      obtain ⟨node, hnode, -⟩ := bind_eq_some_iff.1 hinput
      rw [hnode, bind_some, hbarrier]
    · rfl
  · change barrier ∈ ite _ _ _ at hmem
    split_ifs at hmem
    · exact .inl hmem
    · refine (mem_append.1 hmem).imp_right fun hmem => ?_
      obtain rfl := mem_singleton.1 hmem
      rw [hbarrier]
      exact hinput

end Carries

/-! ## Runs that carry their inputs -/

section Runs

variable {s t : RunState C} {ids : List String}

theorem Tracked.carried (h : Tracked ids s) (hcarries : Carries s.audit t.audit)
    (hrequests : t.requests = s.requests) : Tracked ids t where
  nodes id hid := (hcarries.nodes id).2 (h.nodes id hid)
  inputs r hr := by
    rw [hrequests] at hr
    rw [hcarries.inputs]
    exact h.inputs r hr

theorem inputsLaunched_carried (hcarries : Carries s.audit t.audit)
    (hrequests : t.requests = s.requests) : InputsLaunched t ↔ InputsLaunched s := by
  rw [InputsLaunched, InputsLaunched, hrequests]
  refine forall₂_congr fun r _ => ?_
  rw [hcarries.inputs]
  refine and_congr_right fun hinput => ?_
  constructor
  · intro h b hb
    exact h b (hcarries.kept hb)
  · intro h b hb hnode
    rcases hcarries.added b hb with hold | hnew
    · exact h b hold hnode
    · rw [hnode, hinput] at hnew
      exact (Option.some.inj hnew).symm

theorem inputOf_nodeStarted {audit : AttemptState C} {nodeId : String}
    (hnode : nodeId ∈ audit.nodes.keys) (id : String) :
    (audit.nodeStarted nodeId).inputOf id =
      if id = nodeId then
        some ((audit.inputOf nodeId).getD audit.currentCandidateCommit)
      else audit.inputOf id := by
  obtain ⟨node, hnode⟩ := Dict.mem_keys_iff.1 hnode
  refine (inputOf_transition audit nodeId _ true id).trans ?_
  have hinput : audit.inputOf nodeId = node.inputCommit := congrArg (Option.bind · _) hnode
  rw [hnode, hinput]
  rfl

theorem barriers_nodeStarted (audit : AttemptState C) (nodeId : String) :
    (audit.nodeStarted nodeId).integrationBarriers = audit.integrationBarriers :=
  barriers_transition audit nodeId _ true

/-- The launch of a node. -/
def RunState.launch (s : RunState C) (request : FeatureRunRequest C) : RunState C :=
  { s with
    audit := s.audit.nodeStarted request.planNodeId
    requests := s.requests ++ [request] }

variable {request : FeatureRunRequest C}

section

variable (h : Tracked ids s) (hknown : request.planNodeId ∈ ids)

include h hknown

theorem Tracked.launch :
    Tracked ids (s.launch request) where
  nodes id hid := (keys_transition s.audit request.planNodeId _ true id).2 (h.nodes id hid)
  inputs := by
    intro r hr
    show ((s.audit.nodeStarted request.planNodeId).inputOf r.planNodeId).isSome
    rw [inputOf_nodeStarted (h.nodes _ hknown)]
    split_ifs with hid
    · rfl
    · rcases mem_append.1 hr with hr | hr
      · exact h.inputs r hr
      · exact absurd (congrArg _ (mem_singleton.1 hr)) hid

/-- **A launch records its base exactly when it is on its input.** -/
theorem inputsLaunched_launch :
    InputsLaunched (s.launch request) ↔
      InputsLaunched s ∧ OnInput s.audit request.planNodeId request.baseCommit := by
  have hinput := inputOf_nodeStarted (h.nodes _ hknown)
  have hbarriers := barriers_nodeStarted s.audit request.planNodeId
  constructor
  · intro hlaunched
    refine ⟨fun r hr => ?_, ?_, ?_⟩
    · obtain ⟨hr', hbr⟩ := hlaunched r (mem_append_left _ hr)
      refine ⟨?_, fun b hb => hbr b (hbarriers ▸ hb)⟩
      obtain ⟨c, hc⟩ := isSome_iff_exists.1 (h.inputs r hr)
      change (s.audit.nodeStarted request.planNodeId).inputOf r.planNodeId = _ at hr'
      rw [hinput] at hr'
      split_ifs at hr' with hid
      · rw [← hid, hc] at hr'
        rw [hc]
        exact hr'
      · exact hr'
    · obtain ⟨hr, -⟩ := hlaunched request (mem_append_right _ (mem_singleton_self _))
      change (s.audit.nodeStarted request.planNodeId).inputOf request.planNodeId = _ at hr
      rw [hinput, if_pos rfl] at hr
      exact Option.some.inj hr
    · intro b hb hnode
      exact (hlaunched request (mem_append_right _ (mem_singleton_self _))).2 b
        (hbarriers ▸ hb) hnode
  · intro ⟨hlaunched, hon⟩ r hr
    show (s.audit.nodeStarted request.planNodeId).inputOf r.planNodeId = _ ∧
      ∀ b ∈ (s.audit.nodeStarted request.planNodeId).integrationBarriers, _
    rw [hinput, hbarriers]
    rcases mem_append.1 hr with hr | hr
    · obtain ⟨hr', hbr⟩ := hlaunched r hr
      refine ⟨?_, hbr⟩
      split_ifs with hid
      · rw [← hid, hr']
        rfl
      · exact hr'
    · obtain rfl := mem_singleton.1 hr
      rw [if_pos rfl, hon.input]
      exact ⟨rfl, hon.barriers⟩

/-- The launch of another node. -/
theorem onInput_launch {id : String} (hne : id ≠ request.planNodeId) (base : C) :
    OnInput (s.launch request).audit id base ↔ OnInput s.audit id base := by
  have hinput : (s.launch request).audit.inputOf id = s.audit.inputOf id :=
    (inputOf_nodeStarted (h.nodes _ hknown) id).trans (if_neg hne)
  have hbarriers : (s.launch request).audit.integrationBarriers = s.audit.integrationBarriers :=
    barriers_nodeStarted s.audit request.planNodeId
  have hcurrent : (s.launch request).audit.currentCandidateCommit =
      s.audit.currentCandidateCommit := by
    show (s.audit.transition _ _ _).currentCandidateCommit = _
    rw [AttemptState.transition]
    split <;> rfl
  constructor
  · intro ⟨h1, h2⟩
    rw [hinput, hcurrent] at h1
    rw [hbarriers] at h2
    exact ⟨h1, h2⟩
  · intro ⟨h1, h2⟩
    refine ⟨?_, ?_⟩
    · rw [hinput, hcurrent]
      exact h1
    · rw [hbarriers]
      exact h2

end

variable [PartialOrder C] (g : Controller C)

/-- Sealing an outcome leaves the recorded inputs and the launches. -/
theorem carries_sealOutcome {run : PlanRun} {input : C}
    (hinput : s.audit.inputOf run.id = some input) (request : FeatureRunRequest C) (launched : Launched C) :
    Carries s.audit (sealOutcome g run request launched s).1.audit ∧
      (sealOutcome g run request launched s).1.requests = s.requests := by
  have hcases := sealOutcome_cases g run request launched s
  generalize sealOutcome g run request launched s = sealing at hcases ⊢
  obtain ⟨t, decision⟩ := sealing
  cases hcases with
  | raised => exact ⟨.refl _, rfl⟩
  | stopped => exact ⟨carries_nodeFailed _ _ _ _, rfl⟩
  | conflict =>
    exact ⟨(carries_candidateVerified _ _ _).trans (carries_transferConflictBlocked _ _ _), rfl⟩
  | escalated =>
    exact ⟨(carries_candidateVerified _ _ _).trans (carries_transferConflictBlocked _ _ _), rfl⟩
  | sealed _ _ candidate =>
    have hverified := carries_candidateVerified s.audit run.id candidate
    have hkept := (hverified.inputs run.id).trans hinput
    exact ⟨hverified.trans (carries_nodeCompleted _ candidate _ hkept), rfl⟩

omit [PartialOrder C] in
theorem carries_runFunctionalityTests (errors : ℕ → Option String) (n : ℕ) (audit : AttemptState C)
    (tests : List String) : Carries audit (runFunctionalityTests errors n audit tests).1 := by
  induction tests generalizing n audit with
  | nil => exact .refl _
  | cons test tests ih =>
    rw [runFunctionalityTests]
    split
    · exact .of_eq rfl rfl
    · exact Carries.trans (b := audit.functionalityCompleted test) (.of_eq rfl rfl) (ih _ _)

omit [PartialOrder C] in
theorem carries_finalizeWithFunctionality (tests : List String) (finishing : Finishing)
    (s : RunState C) (candidate : C) :
    Carries s.audit (finalizeWithFunctionality tests finishing s candidate).state.audit ∧
      (finalizeWithFunctionality tests finishing s candidate).state.requests = s.requests := by
  have htests := carries_runFunctionalityTests finishing.testErrors 0 s.audit tests
  rw [finalizeWithFunctionality]
  dsimp only
  split
  · exact ⟨htests.trans (.of_eq rfl rfl), rfl⟩
  · split_ifs
    · exact ⟨htests.trans (.of_eq rfl rfl), rfl⟩
    · exact ⟨htests, rfl⟩

end Runs

/-! ## The sequential loop -/

section Sequential

variable [PartialOrder C] (g : Controller C)

/-- The launch of a turn, if there is one, is on its input: on the loop's candidate. -/
def TurnOnInput (l : SequentialLoop C) (turn : Turn C) : Prop :=
  ∀ run rest, l.remaining = run :: rest → l.state.completed.get? run.id = none →
    turn.refusal = none → OnInput l.state.audit run.id l.candidate

variable {g} {l m : SequentialLoop C}

theorem SequentialLoop.launchNode_launch {turn : Turn C} {run : PlanRun} {rest : List PlanRun}
    (hnode : run.id ∈ l.state.audit.nodes.keys) (hrefusal : turn.refusal = none) :
    ∃ request, request.planNodeId = run.id ∧ request.baseCommit = l.candidate ∧
      Carries (l.state.launch request).audit (l.launchNode g turn run rest).state.audit ∧
      (l.launchNode g turn run rest).state.requests = (l.state.launch request).requests := by
  obtain ⟨request, hrequest⟩ : ∃ request, request =
    requestForRun g run l.candidate (l.state.obligations.owed run.id) := ⟨_, rfl⟩
  have hid : request.planNodeId = run.id := congrArg FeatureRunRequest.planNodeId hrequest
  have hbase : request.baseCommit = l.candidate := congrArg FeatureRunRequest.baseCommit hrequest
  refine ⟨request, hid, hbase, ?_⟩
  rw [launchNode, hrefusal, RunState.launch, hid]
  rw [← hrequest]
  cases hlaunch : turn.launch with
  | error error => exact ⟨.refl _, rfl⟩
  | ok launched =>
    have hinput := (inputOf_nodeStarted hnode run.id).trans (if_pos rfl)
    have hseal := carries_sealOutcome g (s := { l.state with
      audit := l.state.audit.nodeStarted run.id
      requests := l.state.requests ++ [request] }) hinput request launched
    dsimp only at hseal ⊢
    generalize sealOutcome g run request launched _ = sealing at hseal ⊢
    obtain ⟨s, decision⟩ := sealing
    obtain ⟨hcarries, hrequests⟩ := hseal
    cases decision with
    | error message => exact ⟨hcarries, hrequests⟩
    | ok decision =>
      cases decision with
      | sealed => exact ⟨hcarries, hrequests⟩
      | blocked => exact ⟨hcarries.trans (.of_eq rfl rfl), hrequests⟩
      | failed => exact ⟨hcarries.trans (.of_eq rfl rfl), hrequests⟩

theorem SequentialLoop.remaining_launchNode (turn : Turn C) (run : PlanRun) (rest : List PlanRun) :
    (l.launchNode g turn run rest).remaining = l.remaining ∨
      (l.launchNode g turn run rest).remaining = rest := by
  rw [launchNode]
  split
  · exact .inl rfl
  · dsimp only
    split
    · exact .inl rfl
    · split
      · exact .inl rfl
      · exact .inr rfl
      · exact .inl rfl
      · exact .inl rfl

/-- **One turn.** -/
theorem SequentialLoop.inputs_step {turn : Turn C}
    (hremaining : ∀ run ∈ l.remaining, run.id ∈ runIds g.plan.runs)
    (htracked : Tracked (runIds g.plan.runs) l.state) (hlaunched : InputsLaunched l.state)
    (hstep : sequentialStep g turn l = some m) :
    (∀ run ∈ m.remaining, run.id ∈ runIds g.plan.runs) ∧ Tracked (runIds g.plan.runs) m.state ∧
      (InputsLaunched m.state ↔ TurnOnInput l turn) := by
  rw [sequentialStep] at hstep
  split at hstep
  · exact nomatch hstep
  · rename_i hempty
    cases hstep
    obtain ⟨hcarries, hrequests⟩ := carries_finalizeWithFunctionality
      g.plan.functionalityTests turn.finishing l.state l.candidate
    refine ⟨hremaining, htracked.carried hcarries hrequests, ?_⟩
    refine iff_of_true ((inputsLaunched_carried hcarries hrequests).2 hlaunched) ?_
    intro run rest hcons
    rw [hempty] at hcons
    exact nomatch hcons
  · rename_i run rest _ hcons
    have hrest : ∀ other ∈ rest, other.id ∈ runIds g.plan.runs := fun other hother =>
      hremaining other (hcons ▸ mem_cons_of_mem _ hother)
    have hknown := hremaining run (hcons ▸ mem_cons_self)
    split at hstep
    · rename_i candidate hcandidate
      cases hstep
      refine ⟨hrest, htracked, iff_of_true hlaunched ?_⟩
      intro other others hother hopen
      obtain ⟨rfl, rfl⟩ := List.cons.inj (hcons.symm.trans hother)
      rw [hcandidate] at hopen
      exact nomatch hopen
    · rename_i hopen
      cases hstep
      have hremains : ∀ other ∈ (l.launchNode g turn run rest).remaining,
          other.id ∈ runIds g.plan.runs := by
        intro other hother
        rcases remaining_launchNode turn run rest with hsame | hnext
        · exact hremaining other (hsame ▸ hother)
        · exact hrest other (hnext ▸ hother)
      cases hrefusal : turn.refusal with
      | some message =>
        have hcarries : Carries l.state.audit (l.launchNode g turn run rest).state.audit := by
          rw [launchNode, hrefusal]
          exact (carries_nodeFailed l.state.audit run.id .blocked none).trans (.of_eq rfl rfl)
        have hrequests : (l.launchNode g turn run rest).state.requests = l.state.requests := by
          rw [launchNode, hrefusal]
          rfl
        refine ⟨hremains, htracked.carried hcarries hrequests, ?_⟩
        refine iff_of_true ((inputsLaunched_carried hcarries hrequests).2 hlaunched) ?_
        intro _ _ _ _ hnone
        rw [hrefusal] at hnone
        exact nomatch hnone
      | none =>
        obtain ⟨request, hid, hbase, hcarries, hrequests⟩ := launchNode_launch
          (htracked.nodes run.id hknown) hrefusal
        rw [← hid] at hknown
        refine ⟨hremains, (htracked.launch hknown).carried hcarries hrequests, ?_⟩
        rw [inputsLaunched_carried hcarries hrequests, inputsLaunched_launch htracked hknown, hid,
          hbase, and_iff_right hlaunched]
        constructor
        · intro hon other others hother _ _
          obtain ⟨rfl, rfl⟩ := List.cons.inj (hcons.symm.trans hother)
          exact hon
        · intro hon
          exact hon run rest hcons hopen hrefusal

end Sequential

/-! ## The parallel loop -/

section Parallel

variable [PartialOrder C] [DecidableEq C] [DecidableLE C] (g : Controller C)

/-- A base can be joined for the node, and the ledger does not refuse it. -/
def launches (refusal : String → Option String) (s : RunState C) (run : PlanRun) : Bool :=
  (baseCommitForRun g run s.completed).isOk && (refusal run.id).isNone

/-- The selected nodes, up to one that is not launched, are on their inputs: on the joins of the
candidates that they depend on. -/
def AllOnInput (refusal : String → Option String) (s : RunState C) (runs : List PlanRun) : Prop :=
  ∀ run ∈ runs.takeWhile (launches g refusal s), ∀ base,
    baseCommitForRun g run s.completed = .ok base → OnInput s.audit run.id base

/-- The launches of a turn are on their inputs. -/
def RoundOnInput (l : ReadySetLoop C) (round : Round C) : Prop :=
  l.admits g.continueIndependentAfterBlock = true →
    ∀ units, g.scheduler.select l.schedulerState = .ok units →
      AllOnInput g round.refusal l.state
        (units.filterMap fun unit => runById g.plan.ordered unit.nodeId)

namespace ReadySetLoop

/-- The audit has the nodes, an input for every launch and one for every node in flight. -/
structure Tracked (ids : List String) (l : ReadySetLoop C) : Prop where
  state : PlanGraph.Tracked ids l.state
  flight : ∀ id ∈ l.inFlight.keys, (l.state.audit.inputOf id).isSome

variable {g} {l m : ReadySetLoop C} {ids : List String}

omit [PartialOrder C] [DecidableEq C] [DecidableLE C] in
theorem Tracked.carried (h : Tracked ids l) (hcarries : Carries l.state.audit m.state.audit)
    (hrequests : m.state.requests = l.state.requests)
    (hflight : ∀ id ∈ m.inFlight.keys, id ∈ l.inFlight.keys) : Tracked ids m where
  state := h.state.carried hcarries hrequests
  flight id hid := by
    rw [hcarries.inputs]
    exact h.flight id (hflight id hid)

variable {refusal : String → Option String} {s : RunState C}

theorem allOnInput_cons {run : PlanRun} {rest : List PlanRun} {base : C}
    (hbase : baseCommitForRun g run s.completed = .ok base) (hrefusal : refusal run.id = none) :
    AllOnInput g refusal s (run :: rest) ↔
      OnInput s.audit run.id base ∧ AllOnInput g refusal s rest := by
  have hgoes : launches g refusal s run = true := by
    rw [launches, hbase, hrefusal]
    rfl
  rw [AllOnInput, takeWhile_cons_of_pos hgoes, forall_mem_cons]
  refine and_congr_left fun _ => ?_
  constructor
  · intro h
    exact h base hbase
  · intro h other hother
    cases hbase.symm.trans hother
    exact h

theorem allOnInput_refused {run : PlanRun} (rest : List PlanRun)
    (hrefused : ∀ base, baseCommitForRun g run s.completed = .ok base → refusal run.id ≠ none) :
    AllOnInput g refusal s (run :: rest) := by
  have hstops : ¬ launches g refusal s run = true := by
    rw [launches, Bool.and_eq_true, isNone_iff_eq_none]
    intro ⟨hok, hnone⟩
    cases hbase : baseCommitForRun g run s.completed with
    | error message =>
      rw [hbase] at hok
      exact nomatch hok
    | ok base => exact hrefused base hbase hnone
  rw [AllOnInput, takeWhile_cons_of_neg hstops]
  exact forall_mem_nil _

/-- The launch of another node. -/
theorem allOnInput_launch (h : PlanGraph.Tracked ids s) {request : FeatureRunRequest C}
    (hknown : request.planNodeId ∈ ids) {runs : List PlanRun}
    (hother : ∀ run ∈ runs, run.id ≠ request.planNodeId) :
    AllOnInput g refusal (s.launch request) runs ↔ AllOnInput g refusal s runs := by
  refine forall₂_congr fun run hrun => forall₂_congr fun base _ => ?_
  exact onInput_launch h hknown (hother run (takeWhile_subset _ hrun)) base

/-- **The admission of the selected nodes.** -/
theorem inputs_admitNodes {rest : List PlanRun} (h : Tracked ids l)
    (hknown : ∀ run ∈ rest, run.id ∈ ids) (hnodup : (rest.map (·.id)).Nodup)
    (hadmitting : l.admitting = true) :
    Tracked ids (l.admitNodes g refusal rest) ∧
      (InputsLaunched (l.admitNodes g refusal rest).state ↔
        InputsLaunched l.state ∧ AllOnInput g refusal l.state rest) := by
  induction rest generalizing l with
  | nil => exact ⟨h, (and_iff_left (forall_mem_nil _)).symm⟩
  | cons run rest ih =>
    obtain ⟨hfirst, hnodup⟩ := nodup_cons.1 hnodup
    have hrun := hknown run mem_cons_self
    have hrefuse (hall : ∀ base, baseCommitForRun g run l.state.completed = .ok base →
        refusal run.id ≠ none) (hnode : l.admitNode g refusal run = l.refuse run) :
        Tracked ids (l.admitNodes g refusal (run :: rest)) ∧
          (InputsLaunched (l.admitNodes g refusal (run :: rest)).state ↔
            InputsLaunched l.state ∧ AllOnInput g refusal l.state (run :: rest)) := by
      have hstops : l.admitNodes g refusal (run :: rest) = l.refuse run := by
        rw [admitNodes, hnode]
        exact if_neg Bool.false_ne_true
      have hcarries : Carries l.state.audit (l.refuse run).state.audit := carries_nodeFailed _ _ _ _
      rw [hstops, inputsLaunched_carried hcarries rfl]
      exact ⟨h.carried hcarries rfl fun _ hid => hid,
        (and_iff_left (allOnInput_refused rest hall)).symm⟩
    cases hbase : baseCommitForRun g run l.state.completed with
    | error message =>
      refine hrefuse (fun base hok => ?_) (by rw [admitNode, hbase])
      rw [hbase] at hok
      cases hok
    | ok base =>
      cases hrefusal : refusal run.id with
      | some message =>
        refine hrefuse (fun _ _ hnone => ?_) (by rw [admitNode, hbase, hrefusal])
        rw [hrefusal] at hnone
        cases hnone
      | none =>
        obtain ⟨request, hrequest⟩ : ∃ request, request =
          requestForRun g run base (l.state.obligations.owed run.id) := ⟨_, rfl⟩
        have hid : request.planNodeId = run.id := congrArg FeatureRunRequest.planNodeId hrequest
        have hon : request.baseCommit = base := congrArg FeatureRunRequest.baseCommit hrequest
        have hnext : l.admitNode g refusal run =
            { l with
              state := l.state.launch request
              inFlight := l.inFlight.set run.id request } := by
          rw [admitNode, hbase, hrefusal, RunState.launch, hid, hrequest]
        have htracked : Tracked ids { l with
            state := l.state.launch request
            inFlight := l.inFlight.set run.id request } := by
          refine ⟨h.state.launch (hid ▸ hrun), fun id hmem => ?_⟩
          have hinput := inputOf_nodeStarted (h.state.nodes run.id hrun) id
          show ((l.state.audit.nodeStarted request.planNodeId).inputOf id).isSome
          rw [hid, hinput]
          split_ifs with hsame
          · rfl
          · exact h.flight id ((Dict.mem_keys_set.1 hmem).resolve_left hsame)
        obtain ⟨hlater, hiff⟩ := ih htracked
          (fun other hother => hknown other (mem_cons_of_mem _ hother)) hnodup hadmitting
        have hentered : l.admitNodes g refusal (run :: rest) = ReadySetLoop.admitNodes g refusal
            { l with
              state := l.state.launch request
              inFlight := l.inFlight.set run.id request } rest := by
          rw [admitNodes, hnext]
          exact if_pos hadmitting
        rw [hentered]
        refine ⟨hlater, hiff.trans ?_⟩
        have hothers : ∀ other ∈ rest, other.id ≠ request.planNodeId := by
          intro other hother hsame
          exact hfirst (mem_map.2 ⟨other, hother, hsame.trans hid⟩)
        rw [inputsLaunched_launch h.state (hid ▸ hrun),
          allOnInput_launch h.state (hid ▸ hrun) hothers, allOnInput_cons hbase hrefusal, hid, hon,
          and_assoc]

theorem Sound.inputs_admitReady (hsound : Sound g l) (h : Tracked (runIds g.plan.runs) l)
    {round : Round C} {next : ReadySetLoop C} (hentered : l.admitReady g round.refusal = .ok next) :
    Tracked (runIds g.plan.runs) next ∧
      (InputsLaunched next.state ↔ InputsLaunched l.state ∧ RoundOnInput g l round) := by
  rw [ReadySetLoop.admitReady] at hentered
  by_cases hadmits : l.admits g.continueIndependentAfterBlock = true
  · obtain ⟨units, hunits⟩ := ReadySetScheduler.select_isOk_iff.2 hsound.accepted
    rw [if_neg (not_not.2 hadmits), hunits] at hentered
    cases hentered
    have hselected := hsound.admits_selected hunits
    have hadmitting : l.admitting = true := by
      rw [admits, Bool.and_eq_true, Bool.and_eq_true] at hadmits
      exact hadmits.1.1
    obtain ⟨hnext, hiff⟩ := @inputs_admitNodes _ _ _ _ g _ _ round.refusal _ h
      (fun run hrun => (hselected.launchable run hrun).known) hselected.nodup hadmitting
    refine ⟨hnext, hiff.trans (and_congr_right fun _ => ?_)⟩
    constructor
    · intro hall _ others hothers
      cases hunits.symm.trans hothers
      exact hall
    · intro hround
      exact hround hadmits units hunits
  · rw [if_pos hadmits] at hentered
    cases hentered
    exact ⟨h, (and_iff_left fun hadmitted => absurd hadmitted hadmits).symm⟩

omit [DecidableEq C] [DecidableLE C] in
theorem Sound.inputs_completeNode (hsound : Sound g l) (h : Tracked ids l)
    (launch : Except LaunchError (Launched C)) (id : String) :
    Tracked ids (l.completeNode g launch id) ∧
      (InputsLaunched (l.completeNode g launch id).state ↔ InputsLaunched l.state) := by
  rw [ReadySetLoop.completeNode]
  cases hrequest : l.inFlight.get? id with
  | none => exact ⟨h, Iff.rfl⟩
  | some request =>
    have hflight := h.flight id (Dict.mem_keys_iff.2 ⟨request, hrequest⟩)
    obtain ⟨input, hinput⟩ := isSome_iff_exists.1 hflight
    rw [← hsound.request id request hrequest] at hinput
    have hseal := carries_sealOutcome g hinput request (launchedOf launch)
    dsimp only
    generalize sealOutcome g request.run request (launchedOf launch) l.state = sealing at hseal ⊢
    obtain ⟨s, decision⟩ := sealing
    obtain ⟨hcarries, hrequests⟩ := hseal
    have herased : ∀ other ∈ (l.inFlight.erase id).keys, other ∈ l.inFlight.keys :=
      fun other hmem => (mem_keys_erase.1 hmem).1
    have hiff := inputsLaunched_carried hcarries hrequests
    cases decision with
    | error message => exact ⟨h.carried hcarries hrequests herased, hiff⟩
    | ok decision =>
      cases decision with
      | sealed => exact ⟨h.carried hcarries hrequests herased, hiff⟩
      | blocked => exact ⟨h.carried hcarries hrequests herased, hiff⟩
      | failed => exact ⟨h.carried hcarries hrequests herased, hiff⟩

omit [DecidableEq C] [DecidableLE C] in
theorem Sound.inputs_completeNodes (hsound : Sound g l) (h : Tracked ids l)
    (done : String → Option (Except LaunchError (Launched C))) (nodes : List String) :
    Tracked ids (l.completeNodes g done nodes) ∧
      (InputsLaunched (l.completeNodes g done nodes).state ↔ InputsLaunched l.state) := by
  induction nodes generalizing l with
  | nil => exact ⟨h, Iff.rfl⟩
  | cons id rest ih =>
    cases hdone : done id with
    | none =>
      have hskip : l.completeNodes g done (id :: rest) = l.completeNodes g done rest := by
        rw [ReadySetLoop.completeNodes, foldl_cons, hdone]
        rfl
      rw [hskip]
      exact ih hsound h
    | some launch =>
      have hnext : l.completeNodes g done (id :: rest) =
          (l.completeNode g launch id).completeNodes g done rest := by
        rw [ReadySetLoop.completeNodes, foldl_cons, hdone]
        rfl
      obtain ⟨htracked, hiff⟩ := hsound.inputs_completeNode h launch id
      obtain ⟨hlater, hrest⟩ := ih (hsound.completeNode launch id) htracked
      rw [hnext]
      exact ⟨hlater, hrest.trans hiff⟩

theorem carries_conclude (finishing : Finishing) (l : ReadySetLoop C) :
    Carries l.state.audit (l.conclude g finishing).state.audit ∧
      (l.conclude g finishing).state.requests = l.state.requests ∧
      (l.conclude g finishing).inFlight = l.inFlight := by
  rw [ReadySetLoop.conclude]
  split
  · exact ⟨.refl _, rfl, rfl⟩
  · split_ifs
    · exact ⟨.of_eq rfl rfl, rfl, rfl⟩
    · exact ⟨.of_eq rfl rfl, rfl, rfl⟩
  · split
    · exact ⟨.refl _, rfl, rfl⟩
    · rename_i candidate _
      obtain ⟨hcarries, hrequests⟩ := carries_finalizeWithFunctionality g.plan.functionalityTests
        finishing l.state candidate
      exact ⟨hcarries, hrequests, rfl⟩

/-- **One turn.** -/
theorem Sound.inputs_step (hsound : Sound g l) (h : Tracked (runIds g.plan.runs) l)
    (hlaunched : InputsLaunched l.state) {round : Round C}
    (hstep : readySetStep g round l = some m) :
    Tracked (runIds g.plan.runs) m ∧ (InputsLaunched m.state ↔ RoundOnInput g l round) := by
  obtain ⟨-, admitted, hentered, hadmitted, hturn⟩ := hsound.turns hstep
  obtain ⟨htracked, hiff⟩ := hsound.inputs_admitReady h hentered
  rw [and_iff_right hlaunched] at hiff
  obtain ⟨-, -, rfl⟩ | ⟨-, rfl⟩ := hturn
  · obtain ⟨hcarries, hrequests, hflight⟩ := carries_conclude (g := g) round.finishing admitted
    refine ⟨htracked.carried hcarries hrequests ?_, ?_⟩
    · intro id hid
      rwa [hflight] at hid
    · exact (inputsLaunched_carried hcarries hrequests).trans hiff
  · obtain ⟨hlater, hsame⟩ := hadmitted.inputs_completeNodes htracked round.done _
    exact ⟨hlater, hsame.trans hiff⟩

end ReadySetLoop

end Parallel

/-! ## Recorded inputs -/

section Recorded

variable [PartialOrder C] {g : Controller C} {audit : AttemptState C} {s : RunState C}

omit [PartialOrder C] in
theorem StartsOn.tracked {plan : PlanGraphPlan C} (h : StartsOn plan audit s) :
    Tracked (runIds plan.runs) s ∧ s.requests = [] := by
  have hnodes := h.nodes
  obtain ⟨completed, rejected, rfl⟩ := h.begun
  exact ⟨⟨fun id hid => (hnodes id).2 hid, forall_mem_nil _⟩, rfl⟩

/-- **Recorded inputs.** In every run of the sequential controller, and in every run of the parallel
one, on an attempt with any reused nodes, the input that the audit has for a launched node, and the
one in its barrier, is the base of its request, exactly when every launch is on its input. -/
theorem recorded_inputs_iff [DecidableEq C] [DecidableLE C] (g : Controller C)
    (audit : AttemptState C) (s : RunState C) (hstart : StartsOn g.plan audit s) :
    (∀ turns, Inputs.AllStates (sequentialStep g) (fun l => InputsLaunched l.state)
        (SequentialLoop.start g s) turns ↔
      Inputs.AllInputs (sequentialStep g) TurnOnInput (SequentialLoop.start g s) turns) ∧
    ∀ rounds, Inputs.AllStates (readySetStep g) (fun l => InputsLaunched l.state)
        { state := s } rounds ↔
      Inputs.AllInputs (readySetStep g) (RoundOnInput g) { state := s } rounds := by
  obtain ⟨htracked, hrequests⟩ := hstart.tracked
  have hnone : InputsLaunched s := by
    rw [InputsLaunched, hrequests]
    exact forall_mem_nil _
  constructor
  · intro turns
    refine Inputs.allStates_iff_allInputs (fun l : SequentialLoop C => (∀ run ∈ l.remaining,
      run.id ∈ runIds g.plan.runs) ∧ Tracked (runIds g.plan.runs) l.state ∧ InputsLaunched l.state)
      (fun l hl => hl.2.2) ?_ ⟨?_, htracked, hnone⟩ turns
    · intro turn l m hstep ⟨hremaining, htracked, hlaunched⟩
      obtain ⟨hremains, hkept, hiff⟩ :=
        SequentialLoop.inputs_step hremaining htracked hlaunched hstep
      exact ⟨fun hallowed => ⟨hremains, hkept, hiff.2 hallowed⟩, hiff.1⟩
    · intro run hrun
      exact mem_runIds (g.plan.mem_ordered.1 hrun)
  · intro rounds
    refine Inputs.allStates_iff_allInputs (fun l => ReadySetLoop.Sound g l ∧
      ReadySetLoop.Tracked (runIds g.plan.runs) l ∧ InputsLaunched l.state)
      (fun l hl => hl.2.2) ?_ ⟨ReadySetLoop.sound_start hstart, ⟨htracked, ?_⟩, hnone⟩ rounds
    · intro round l m hstep ⟨hsound, htracked, hlaunched⟩
      obtain ⟨hkept, hiff⟩ := hsound.inputs_step htracked hlaunched hstep
      exact ⟨fun hallowed => ⟨(hsound.step hstep).1, hkept, hiff.2 hallowed⟩, hiff.1⟩
    · exact forall_mem_nil _

end Recorded

/-! ### A reused node -/

/-- The first of two nodes is reused. -/
def reusedPairAudit : AttemptState (Finset ℕ) :=
  initialState pairPlan "graph" (Dict.ofList [("a", {1})]) (some "graph-0")

def reusedPairState : RunState (Finset ℕ) where
  audit := reusedPairAudit
  completed := Dict.ofList [("a", {1})]
  obligations := ∅

theorem startsOn_reusedPair : StartsOn pairPlan reusedPairAudit reusedPairState :=
  ⟨fun _ => Iff.rfl, rfl, [], rfl⟩

theorem recorded_inputs_iff_pair :
    (∀ turns, Inputs.AllStates (sequentialStep pairController) (fun l => InputsLaunched l.state)
        (SequentialLoop.start pairController reusedPairState) turns ↔
      Inputs.AllInputs (sequentialStep pairController) TurnOnInput
        (SequentialLoop.start pairController reusedPairState) turns) ∧
    ∀ rounds, Inputs.AllStates (readySetStep pairController) (fun l => InputsLaunched l.state)
        { state := reusedPairState } rounds ↔
      Inputs.AllInputs (readySetStep pairController) (RoundOnInput pairController)
        { state := reusedPairState } rounds :=
  recorded_inputs_iff pairController reusedPairAudit reusedPairState startsOn_reusedPair

/-- The second node is launched and sealed. -/
def sealSecond : Turn (Finset ℕ) where
  launch := .ok
    { outcome :=
      { status := "succeeded"
        candidateCommit := some {1, 2}
        planGraphId := some "graph"
        planNodeId := some "b"
        featureRunId := some "graph-b"
        runDir := some "runs/graph-b" } }

/-- The base of the last request, the input that the audit has for the node, and that in its
barrier. -/
def lastInput (l : SequentialLoop (Finset ℕ)) :
    Option (Finset ℕ × Option (Finset ℕ) × List (Finset ℕ)) :=
  l.state.requests.getLast?.map fun r =>
    (r.baseCommit, l.state.audit.inputOf r.planNodeId,
      l.state.audit.integrationBarriers.map (·.inputCommit))

def linearController : Controller (Finset ℕ) :=
  { pairController with maxParallelism := 1, positive := Nat.one_pos }

/-- The second node is launched on the candidate of the reused one, and its input is recorded as the
base of the plan. -/
theorem reused_input_lost :
    ¬ ∀ (g : Controller (Finset ℕ)) (audit : AttemptState (Finset ℕ)) (s : RunState (Finset ℕ)),
      StartsOn g.plan audit s → ∀ turns, Inputs.AllStates (sequentialStep g)
        (fun l => InputsLaunched l.state) (SequentialLoop.start g s) turns := by
  intro hclaim
  have hall := hclaim linearController reusedPairAudit reusedPairState startsOn_reusedPair
    [{}, sealSecond]
  have hlast : (Inputs.runInputs (sequentialStep linearController)
      (SequentialLoop.start linearController reusedPairState) [{}, sealSecond]).map lastInput =
        some (some ({1}, some ∅, [∅])) := by
    decide +kernel
  obtain ⟨l, hl, hinput⟩ := map_eq_some_iff.1 hlast
  obtain ⟨r, hr, hvalues⟩ := map_eq_some_iff.1 hinput
  obtain ⟨hrecorded, -⟩ := hall.of_runInputs hl r (mem_of_getLast? hr)
  obtain ⟨hbase, hfound, -⟩ := Prod.mk.inj hvalues |>.imp_right Prod.mk.inj
  rw [hrecorded, hbase] at hfound
  exact absurd (Option.some.inj hfound) (by decide)

end HarnessLabs.PlanGraph
