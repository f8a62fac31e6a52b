import HarnessLabs.PlanGraph.Disclosure

/-!
# Obligations that stay

The audit has what the nodes owe, and the controller has a copy. A seal rewrites what it touches
from the copy: what the other nodes owe is kept as the copy has it, and what the node itself owes is
replaced.

* `Conserves` — between two states only the obligations of nodes that are sealed go.
* `KeepsOwed` — a seal that writes on a current copy, and that does not replace what its node owes
  unless the node is sealed or carries its findings.
* `sealOutcome_conserves` — **such a seal conserves the obligations.**
* `obligations_conserved` — **so does a run of such seals, between any two states of a turn.**
-/

namespace HarnessLabs.PlanGraph

open List

universe u

variable {C : Type u}

/-- What is owed stays, unless its node is sealed. -/
def Conserves (a b : RunState C) : Prop :=
  ∀ node, ∀ key ∈ a.audit.findingObligations.keysAt node,
    key ∈ b.audit.findingObligations.keysAt node ∨
      (node ∉ a.completed.keys ∧ node ∈ b.completed.keys)

theorem Conserves.of_eq {a b : RunState C}
    (h : b.audit.findingObligations = a.audit.findingObligations) : Conserves a b := by
  intro node key hkey
  rw [h]
  exact .inl hkey

/-- The copy has what the audit has. -/
def CopyHas (s : RunState C) : Prop :=
  ∀ node, s.audit.findingObligations.keysAt node ⊆ s.obligations.keysAt node

/-! ## What a seal writes -/

theorem keysAt_carried_self {run : PlanRun} {outcome : FeatureRunOutcome C}
    {current carried : Obligations}
    (h : carriedFindingObligations run outcome current = some carried) :
    current.keysAt run.id ⊆ carried.keysAt run.id := by
  rw [carriedFindingObligations] at h
  split at h
  · cases h
  · obtain ⟨records, -, rfl⟩ := Option.map_eq_some_iff.1 h
    rw [keysAt_set, if_pos rfl, map_append]
    intro key hkey
    obtain ⟨o, ho, rfl⟩ := mem_map.1 hkey
    by_cases hreported : records.any (·.key = o.key)
    · obtain ⟨r, hr, heq⟩ := any_eq_true.1 hreported
      rw [← of_decide_eq_true heq]
      exact mem_append_left _ (mem_map_of_mem hr)
    · refine mem_append_right _ (mem_map_of_mem (mem_filter.2 ⟨ho, ?_⟩))
      exact decide_eq_true hreported

/-- A stop that carries the findings of its node keeps what the node owes. -/
theorem keysAt_stopped_self {run : PlanRun} {outcome : FeatureRunOutcome C}
    {d : EscalationDisposition} {current written : Obligations}
    (hmerged : stoppedObligations run outcome d current = .ok (some written))
    (hcarried : d.advances = [] ∨ (carriedFindingObligations run outcome current).isSome) :
    current.keysAt run.id ⊆ written.keysAt run.id := by
  rw [stoppedObligations] at hmerged
  split_ifs at hmerged with hnil
  · exact keysAt_carried_self (Except.ok.inj hmerged)
  · obtain ⟨carried, hcarried⟩ := Option.isSome_iff_exists.1 (hcarried.resolve_left hnil)
    rw [hcarried] at hmerged
    split at hmerged
    · cases hmerged
    · rename_i merged heq
      cases Except.ok.inj hmerged
      exact List.Subset.trans (keysAt_carried_self hcarried)
        ((keysAt_applyEscalationAdvances heq).1 run.id)

/-! ## Seals -/

section Seals

variable [PartialOrder C] (g : Controller C)

/-- A node that owes something is not stopped with findings that land, unless it carries its own,
and its success is not blocked by its escalations. -/
def KeepsOwn (run : PlanRun) (request : FeatureRunRequest C) (launched : Launched C)
    (s : RunState C) : Prop :=
  let outcome := recordedOutcome request launched.outcome
  s.audit.findingObligations.keysAt run.id ≠ [] →
    ∀ d, (resolvedEscalations g run request launched s).2 = .ok d →
      if outcome.status = "succeeded" then d.forcesBlock = false
      else d.advances = [] ∨ (carriedFindingObligations run outcome s.obligations).isSome

/-- What the node owes is kept, and a seal that writes the obligations does it on a copy that has
what the audit has. -/
structure KeepsOwed (run : PlanRun) (request : FeatureRunRequest C) (launched : Launched C)
    (s : RunState C) : Prop where
  own : KeepsOwn g run request launched s
  copy : Rewrites g run request launched s → CopyHas s

variable {g} {run : PlanRun} {request : FeatureRunRequest C} {launched : Launched C}
  {s : RunState C}

/-- A seal that writes on a current copy keeps what the other nodes owe. -/
theorem conserves_written {t : RunState C} {written : Obligations} {d : EscalationDisposition}
    (hcopy : Rewrites g run request launched s → CopyHas s)
    (hd : (resolvedEscalations g run request launched s).2 = .ok d)
    (hwrites : SealWrites run request (recordedOutcome request launched.outcome) d s written)
    (haudit : t.audit.findingObligations = written)
    (hown : s.audit.findingObligations.keysAt run.id ≠ [] →
      s.obligations.keysAt run.id ⊆ written.keysAt run.id ∨
        (run.id ∉ s.completed.keys ∧ run.id ∈ t.completed.keys)) : Conserves s t := by
  intro node key hkey
  have hcurrent := hcopy (rewrites_of_writes hd hwrites) node hkey
  rw [haudit]
  by_cases hnode : node = run.id
  · subst hnode
    exact (hown (ne_nil_of_mem hkey)).imp_left fun hsubset => hsubset hcurrent
  · exact .inl (keysAt_written hwrites hnode hcurrent)

/-- **A seal that keeps what is owed conserves the obligations.** -/
theorem sealOutcome_conserves (hopen : run.id ∉ s.completed.keys)
    (h : KeepsOwed g run request launched s) :
    Conserves s (sealOutcome g run request launched s).1 := by
  obtain ⟨rejected, message, hraised⟩ | ⟨d, hd, hcase⟩ :=
    sealOutcome_split g run request launched s
  · rw [hraised]
    exact .of_eq rfl
  have hkeeps (howed : s.audit.findingObligations.keysAt run.id ≠ []) := h.own howed d hd
  obtain ⟨hstatus, hstop⟩ | ⟨hstatus, candidate, hsome, hcandidate⟩ := hcase
  · rw [hstop, sealStopped]
    cases hmerged : stoppedObligations run (recordedOutcome request launched.outcome) d
        s.obligations with
    | error message => exact .of_eq rfl
    | ok merged =>
      cases merged with
      | none => exact .of_eq (findingObligations_nodeFailed _ _ _ _)
      | some written =>
        refine conserves_written h.copy hd (.stopped hstatus hmerged)
          (findingObligations_nodeFailed _ _ _ _) fun howed => .inl ?_
        have hcarried := hkeeps howed
        rw [if_neg hstatus] at hcarried
        exact keysAt_stopped_self hmerged hcarried
  · rw [hcandidate, sealCandidate]
    cases hadvanced : advanceFindingObligations run request
        (recordedOutcome request launched.outcome) s.obligations s.completed d.advances with
    | error message =>
      refine .of_eq ?_
      rw [findingObligations_transferConflictBlocked, findingObligations_candidateVerified]
      rfl
    | ok written =>
      have hwrites := SealWrites.advanced (s := s) hstatus (Option.isSome_of_mem hsome) hadvanced
      dsimp only
      by_cases hblocks : d.forcesBlock = true
      · rw [if_pos hblocks]
        refine conserves_written h.copy hd hwrites
          (findingObligations_transferConflictBlocked _ _ _) fun howed => ?_
        have hfree := hkeeps howed
        rw [if_pos hstatus, hblocks] at hfree
        cases hfree
      · rw [if_neg hblocks]
        refine conserves_written h.copy hd hwrites rfl fun _ => .inr ⟨hopen, ?_⟩
        exact Dict.mem_keys_set.2 (.inl rfl)

end Seals

/-! ## The sequential loop -/

section Sequential

variable [PartialOrder C] (g : Controller C)

/-- The seal of a turn, if there is one, keeps what its node owes. -/
def KeepsTurn (l : SequentialLoop C) (turn : Turn C) : Prop :=
  ∀ run rest launched, l.remaining = run :: rest → turn.launch = .ok launched →
    KeepsOwn g run (l.turnRequest g run) launched (l.turnState g run)

variable {g} {l m : SequentialLoop C}

theorem copyHas_sealed {run : PlanRun} {request : FeatureRunRequest C} {launched : Launched C}
    {s : RunState C} {advanced : Obligations}
    (h : (sealOutcome g run request launched s).2 = .ok (.sealed advanced)) :
    CopyHas { (sealOutcome g run request launched s).1 with obligations := advanced } := by
  obtain ⟨-, -, hnever⟩ | ⟨d, written, -, -, -, haudit, hsealed⟩ :=
    sealOutcome_writes g run request launched s
  · exact absurd h (hnever advanced)
  · intro node
    rw [haudit, hsealed advanced h]
    exact List.Subset.refl _

omit [PartialOrder C] in
theorem findingObligations_finalize (tests : List String) (finishing : Finishing) (s : RunState C)
    (candidate : C) :
    (finalizeWithFunctionality tests finishing s candidate).state.audit.findingObligations =
      s.audit.findingObligations := by
  have htests (n : ℕ) (audit : AttemptState C) : (runFunctionalityTests finishing.testErrors n audit
      tests).1.findingObligations = audit.findingObligations := by
    induction tests generalizing n audit with
    | nil => rfl
    | cons test tests ih =>
      rw [runFunctionalityTests]
      split
      · rfl
      · exact ih _ _
  rw [finalizeWithFunctionality]
  dsimp only
  split
  · exact htests 0 s.audit
  · split_ifs
    · exact htests 0 s.audit
    · exact htests 0 s.audit

/-- **One turn.** While the loop goes on, the copy has what the audit has. -/
theorem SequentialLoop.conserves_step {turn : Turn C}
    (hcopy : l.ending = none → CopyHas l.state) (hturn : KeepsTurn g l turn)
    (hstep : sequentialStep g turn l = some m) :
    (m.ending = none → CopyHas m.state) ∧ Conserves l.state m.state := by
  rw [sequentialStep] at hstep
  cases hending : l.ending with
  | some ending =>
    rw [hending] at hstep
    cases hstep
  | none =>
    have hcurrent := hcopy hending
    rw [hending] at hstep
    cases hremaining : l.remaining with
    | nil =>
      rw [hremaining] at hstep
      cases hstep
      exact ⟨(fun hnone => by cases hnone), .of_eq (findingObligations_finalize _ _ _ _)⟩
    | cons run rest =>
      rw [hremaining] at hstep
      dsimp only at hstep
      cases hcandidate : l.state.completed.get? run.id with
      | some candidate =>
        rw [hcandidate] at hstep
        cases hstep
        exact ⟨fun _ => hcurrent, .of_eq rfl⟩
      | none =>
        rw [hcandidate] at hstep
        cases hstep
        have hopen := Dict.get?_eq_none_iff.1 hcandidate
        rw [SequentialLoop.launchNode]
        cases turn.refusal with
        | some refusal =>
          have hfailed := findingObligations_nodeFailed l.state.audit run.id .blocked none
          exact ⟨(fun hnone => by cases hnone), .of_eq hfailed⟩
        | none =>
          cases hlaunch : turn.launch with
          | error error =>
            have hstarted := findingObligations_nodeStarted l.state.audit run.id
            exact ⟨(fun hnone => by cases hnone), .of_eq hstarted⟩
          | ok launched =>
            have hstarted : (l.turnState g run).audit.findingObligations =
                l.state.audit.findingObligations := findingObligations_nodeStarted _ _
            have hkeeps : KeepsOwed g run (l.turnRequest g run) launched (l.turnState g run) := by
              refine ⟨hturn run rest launched hremaining hlaunch, fun _ node => ?_⟩
              rw [hstarted]
              exact hcurrent node
            have hstill : run.id ∉ (l.turnState g run).completed.keys := hopen
            have hconserves := sealOutcome_conserves hstill hkeeps
            have hsealed {advanced : Obligations}
                (h : (sealOutcome g run (l.turnRequest g run) launched (l.turnState g run)).2 =
                  .ok (.sealed advanced)) := copyHas_sealed h
            have hall : Conserves l.state
                (sealOutcome g run (l.turnRequest g run) launched (l.turnState g run)).1 := by
              intro node key hkey
              rw [← hstarted] at hkey
              exact hconserves node key hkey
            rw [turnState, turnRequest] at hall hsealed
            dsimp only
            generalize sealOutcome g run _ launched _ = sealing at hall hsealed ⊢
            obtain ⟨s, decision⟩ := sealing
            cases decision with
            | error message => exact ⟨(fun hnone => by cases hnone), hall⟩
            | ok decision =>
              cases decision with
              | sealed advanced => exact ⟨fun _ => hsealed rfl, hall⟩
              | blocked result reason escalation => exact ⟨(fun hnone => by cases hnone), hall⟩
              | failed result => exact ⟨(fun hnone => by cases hnone), hall⟩

end Sequential

/-! ## The parallel loop -/

section Parallel

variable [PartialOrder C] [DecidableEq C] [DecidableLE C] (g : Controller C)

/-- Every seal of a turn keeps what is owed. -/
def KeepsRound (l : ReadySetLoop C) (round : Round C) : Prop :=
  ∀ m id launch request, SealsIn g round l m id launch request →
    KeepsOwed g request.run request (ReadySetLoop.launchedOf launch) m.state

namespace ReadySetLoop

/-- The states before and behind the seals of a turn. -/
def statesAlong (done : String → Option (Except LaunchError (Launched C))) :
    ReadySetLoop C → List String → List (RunState C)
  | l, [] => [l.state]
  | l, id :: rest =>
    match done id with
    | none => statesAlong done l rest
    | some launch => l.state :: statesAlong done (l.completeNode g launch id) rest

/-- The states that a turn goes through, up to its end. -/
def turnStates (round : Round C) (l : ReadySetLoop C) : List (RunState C) :=
  match l.admitReady g round.refusal with
  | .error _ => [l.state]
  | .ok admitted => l.state :: admitted.statesAlong g round.done (admitted.doneIds round.done)

variable {g} {l m : ReadySetLoop C}

omit [DecidableEq C] [DecidableLE C] in
theorem conserves_completeNode (hsound : Sound g l) {id : String}
    {launch : Except LaunchError (Launched C)}
    (hkeeps : ∀ request, l.inFlight.get? id = some request →
      KeepsOwed g request.run request (launchedOf launch) l.state) :
    Conserves l.state (l.completeNode g launch id).state := by
  rw [ReadySetLoop.completeNode]
  cases hrequest : l.inFlight.get? id with
  | none => exact .of_eq rfl
  | some request =>
    have hopen := (hsound.flight id (Dict.mem_keys_iff.2 ⟨request, hrequest⟩)).isOpen
    rw [← hsound.request id request hrequest] at hopen
    have hall := sealOutcome_conserves hopen (hkeeps request hrequest)
    dsimp only
    generalize sealOutcome g request.run request (launchedOf launch) l.state = sealing at hall ⊢
    obtain ⟨s, decision⟩ := sealing
    cases decision with
    | error message => exact hall
    | ok decision =>
      cases decision with
      | sealed advanced => exact hall
      | blocked result reason escalation => exact hall
      | failed result => exact hall

omit [DecidableEq C] [DecidableLE C] in
theorem head_statesAlong (done : String → Option (Except LaunchError (Launched C)))
    (l : ReadySetLoop C) (ids : List String) :
    (l.statesAlong g done ids).head? = some l.state := by
  induction ids with
  | nil => rfl
  | cons id rest ih =>
    rw [statesAlong]
    split
    · exact ih
    · rfl

omit [DecidableEq C] [DecidableLE C] in
theorem getLast_statesAlong (done : String → Option (Except LaunchError (Launched C)))
    (l : ReadySetLoop C) (ids : List String) :
    (l.statesAlong g done ids).getLast? = some (l.completeNodes g done ids).state := by
  induction ids generalizing l with
  | nil => rfl
  | cons id rest ih =>
    rw [statesAlong, completeNodes, foldl_cons]
    cases hlaunch : done id with
    | none => exact ih l
    | some launch =>
      have hne : (l.completeNode g launch id).statesAlong g done rest ≠ [] := by
        intro hnil
        have hhead := head_statesAlong (g := g) done (l.completeNode g launch id) rest
        rw [hnil] at hhead
        cases hhead
      dsimp only
      rw [List.getLast?_cons_of_ne_nil hne]
      exact ih _

/-- The seals of a turn, from any of them on. -/
theorem chain_statesAlong {round : Round C} {admitted : ReadySetLoop C} (hsound : Sound g m)
    (hkeeps : KeepsRound g l round) (hgoing : l.ending = none)
    (hentered : l.admitReady g round.refusal = .ok admitted) {before rest : List String}
    (hdone : admitted.doneIds round.done = before ++ rest)
    (hm : m = admitted.completeNodes g round.done before) :
    (m.statesAlong g round.done rest).IsChain Conserves := by
  induction rest generalizing m before with
  | nil => exact isChain_singleton _
  | cons id rest ih =>
    have hnext := completeNodes_concat g round.done admitted before id
    rw [← hm] at hnext
    have hrest : admitted.doneIds round.done = before ++ [id] ++ rest := by
      rw [hdone, append_assoc]
      rfl
    rw [statesAlong]
    cases hlaunch : round.done id with
    | none =>
      rw [hlaunch] at hnext
      exact ih hsound hrest hnext.symm
    | some launch =>
      rw [hlaunch] at hnext
      refine isChain_cons.2 ⟨fun next hhead => ?_,
        ih (hsound.completeNode launch id) hrest hnext.symm⟩
      rw [head_statesAlong] at hhead
      cases hhead
      refine conserves_completeNode hsound fun request hrequest => ?_
      exact hkeeps m id launch request
        ⟨hgoing, ⟨admitted, before, rest, hentered, hdone, hm⟩, hlaunch, hrequest⟩

theorem conserves_conclude (finishing : Finishing) (l : ReadySetLoop C) :
    Conserves l.state (l.conclude g finishing).state := by
  rw [ReadySetLoop.conclude]
  split
  · exact .of_eq rfl
  · split_ifs <;> exact .of_eq rfl
  · split
    · exact .of_eq rfl
    · exact .of_eq (findingObligations_finalize _ _ _ _)

/-- **One turn.** -/
theorem Sound.conserves_step (hsound : Sound g l) {round : Round C} (hkeeps : KeepsRound g l round)
    (hstep : readySetStep g round l = some m) :
    (l.turnStates g round ++ [m.state]).IsChain Conserves := by
  obtain ⟨hgoing, admitted, hentered, hadmitted, hturn⟩ := hsound.turns hstep
  have hfirst : Conserves l.state admitted.state := .of_eq (hsound.admitted hentered).audit
  have hchain := chain_statesAlong hadmitted hkeeps hgoing hentered (nil_append _).symm rfl
  have hlast := getLast_statesAlong (g := g) round.done admitted (admitted.doneIds round.done)
  have hhead := head_statesAlong (g := g) round.done admitted (admitted.doneIds round.done)
  rw [turnStates, hentered]
  dsimp only
  have hend : ∀ s, (admitted.statesAlong g round.done (admitted.doneIds round.done)).getLast? =
      some s → Conserves s m.state →
        (l.state :: admitted.statesAlong g round.done (admitted.doneIds round.done) ++
          [m.state]).IsChain Conserves := by
    intro s hs hlater
    rw [cons_append]
    refine isChain_cons.2 ⟨fun next hnext => ?_, isChain_append.2
      ⟨hchain, isChain_singleton _, fun x hx y hy => ?_⟩⟩
    · rw [List.head?_append, hhead] at hnext
      cases hnext
      exact hfirst
    · rw [hs] at hx
      cases hx
      cases hy
      exact hlater
  obtain ⟨hidle, -, rfl⟩ | ⟨-, rfl⟩ := hturn
  · have hdone : admitted.doneIds round.done = [] := by
      rw [doneIds, hidle, filter_nil, mergeSort_nil]
    rw [hdone] at hlast
    rw [hdone] at hend ⊢
    exact hend _ hlast (conserves_conclude _ _)
  · exact hend _ hlast (.of_eq rfl)

end ReadySetLoop

end Parallel

/-! ## Conservation -/

theorem StartsOn.copyHas {plan : PlanGraphPlan C} {audit : AttemptState C} {s : RunState C}
    (h : StartsOn plan audit s) : CopyHas s := by
  obtain ⟨completed, rejected, rfl⟩ := h.begun
  exact fun _ => List.Subset.refl _

/-- **Conservation of obligations.** In every sequential run whose seals keep what their nodes owe,
every turn conserves the obligations of the audit; in every parallel run whose seals moreover write
on a copy that has what the audit has, so does every step between the states that a turn goes
through. -/
theorem obligations_conserved [PartialOrder C] [DecidableEq C] [DecidableLE C] (g : Controller C)
    (audit : AttemptState C) (s : RunState C) (hstart : StartsOn g.plan audit s) :
    (∀ l, Inputs.RunsUnder (KeepsTurn g) (sequentialStep g) (SequentialLoop.start g s) l →
      ∀ turn m, KeepsTurn g l turn → sequentialStep g turn l = some m →
        Conserves l.state m.state) ∧
    ∀ l, Inputs.RunsUnder (KeepsRound g) (readySetStep g) { state := s } l →
      ∀ round m, KeepsRound g l round → readySetStep g round l = some m →
        (l.turnStates g round ++ [m.state]).IsChain Conserves := by
  constructor
  · intro l hrun turn m hturn hstep
    have hcopy : l.ending = none → CopyHas l.state := by
      refine hrun.invariant (P := fun l : SequentialLoop C => l.ending = none → CopyHas l.state)
        (fun turn x y hallowed hstep hx => (x.conserves_step hx hallowed hstep).1) ?_
      exact fun _ => hstart.copyHas
    exact (l.conserves_step hcopy hturn hstep).2
  · intro l hrun round m hround hstep
    have hsound : ReadySetLoop.Sound g l := by
      refine hrun.invariant (P := ReadySetLoop.Sound g)
        (fun round x y _ hstep hx => (hx.step hstep).1) ?_
      exact ReadySetLoop.sound_start hstart
    exact hsound.conserves_step hround hstep

/-! ### A finding that is handed back -/

/-- A controller that asks a judge and lets findings be transferred. -/
def transferController : Controller (Finset ℕ) :=
  { judgedController with transferTargets := transferTargetsFor ownerPlan.runs }

def ownedState : RunState (Finset ℕ) where
  audit := initialState ownerPlan "graph" ∅ none
  completed := ∅
  obligations := ∅

theorem startsOn_owned : StartsOn ownerPlan ownedState.audit ownedState :=
  ⟨fun _ => Iff.rfl, rfl, [], rfl⟩

theorem obligations_conserved_owned :
    (∀ l, Inputs.RunsUnder (KeepsTurn transferController) (sequentialStep transferController)
        (SequentialLoop.start transferController ownedState) l →
      ∀ turn m, KeepsTurn transferController l turn →
        sequentialStep transferController turn l = some m → Conserves l.state m.state) ∧
    ∀ l, Inputs.RunsUnder (KeepsRound transferController) (readySetStep transferController)
        { state := ownedState } l →
      ∀ round m, KeepsRound transferController l round →
        readySetStep transferController round l = some m →
          (l.turnStates transferController round ++ [m.state]).IsChain Conserves :=
  obligations_conserved transferController ownedState.audit ownedState startsOn_owned

/-- The owner is sealed and transfers a finding to the node. -/
def transferTurn : Turn (Finset ℕ) where
  launch := .ok
    { outcome :=
      { status := "succeeded"
        candidateCommit := some {1}
        evidence := .obj [("transferred_findings", .arr [.obj [("key", .str "inherited"),
          ("required_paths", .arr [.str "src/node/file"]), ("transferred_to", .str "node")]])]
        planGraphId := some "graph"
        planNodeId := some "owner"
        featureRunId := some "graph-owner"
        runDir := some "runs/graph-owner" } }

/-- The node fails and escalates another finding, which the judge hands back. -/
def handBackTurn : Turn (Finset ℕ) where
  launch := .ok
    { outcome :=
      { status := "failed"
        evidence := .obj [("review_fix", .obj [
          ("escalated_findings", .arr [ownerFinding "fresh"])])] }
      answers := fun _ => ⟨.answered (.obj [("protocol", .str escalationJudgmentProtocol),
        ("verdict", .str "reject"), ("rationale", .str "the node can fix it")]), none⟩ }

/-- What the node owes, and whether it is sealed. -/
def nodeOwes (l : SequentialLoop (Finset ℕ)) : List String × Bool :=
  (l.state.audit.findingObligations.keysAt "node", decide ("node" ∈ l.state.completed.keys))

/-- The node fails, and the finding that was transferred to it is gone. -/
theorem transferred_finding_dropped :
    ¬ ∀ (g : Controller (Finset ℕ)) (audit : AttemptState (Finset ℕ)) (s : RunState (Finset ℕ)),
      StartsOn g.plan audit s → ∀ l, Inputs.Runs (sequentialStep g) (SequentialLoop.start g s) l →
        ∀ turn m, sequentialStep g turn l = some m → Conserves l.state m.state := by
  intro hclaim
  have hfirst : (sequentialStep transferController transferTurn
      (SequentialLoop.start transferController ownedState)).map (fun l =>
        (nodeOwes l, (sequentialStep transferController handBackTurn l).map nodeOwes)) =
      some ((["inherited"], false), some (["fresh"], false)) := by
    decide +kernel
  obtain ⟨l, hl, howes⟩ := Option.map_eq_some_iff.1 hfirst
  obtain ⟨hbefore, hsecond⟩ := Prod.mk.inj howes
  obtain ⟨m, hm, hafter⟩ := Option.map_eq_some_iff.1 hsecond
  obtain ⟨howed, -⟩ := Prod.mk.inj hbefore
  obtain ⟨hkeys, hsealed⟩ := Prod.mk.inj hafter
  have hconserves := hclaim transferController ownedState.audit ownedState startsOn_owned l
    ((Inputs.Runs.refl _).tail hl) handBackTurn m hm "node" "inherited" (by
      rw [howed]
      exact mem_singleton_self _)
  rcases hconserves with hkept | ⟨-, hdone⟩
  · rw [hkeys] at hkept
    exact absurd hkept (by decide)
  · exact absurd hdone (of_decide_eq_false hsealed)

end HarnessLabs.PlanGraph
