import HarnessLabs.PlanGraph.Disclosure
import HarnessLabs.PlanGraph.LaunchInput
import HarnessLabs.PlanGraph.Rerun

/-!
# Sealed work in later candidates

A sequential run carries one candidate from node to node, and a reused node replaces it by its own.
A parallel run launches a node on the join of the candidates that it depends on, and joins the
candidates of the sinks in the end.

* `NothingLost` — launches are on the candidates that they depend on, and the candidate of a success
  has every completed one behind it.
* `ReusedOnChain` — the candidate of a reused node has the carried one behind it.
* `ReusedDescend` — the candidate of a reused node has those behind it that it depends on.
* `nothing_lost` — **a sequential run whose reused nodes are on the chain loses nothing, and neither
  does a parallel run whose reused nodes descend from their dependencies.**

The sequential part is an induction along the plan order, whose prefix is behind the carried
candidate. In the parallel part every candidate stays behind those of its dependents, and from any
node they lead to a sink.
-/

namespace HarnessLabs.PlanGraph

open List

universe u

variable {C : Type u} [PartialOrder C]

/-! ## What is not lost -/

/-- Every launched node is on the candidates of the nodes that it depends on. -/
def OnDependencies (s : RunState C) : Prop :=
  ∀ r ∈ s.requests, ∀ d ∈ r.run.dependsOn, ∃ c, s.completed.get? d = some c ∧ c ≤ r.baseCommit

/-- The candidate has that of every completed node behind it. -/
def Covers (completed : Dict String C) (candidate : C) : Prop :=
  ∀ id c, completed.get? id = some c → c ≤ candidate

/-- No sealed work is lost. -/
structure NothingLost (s : RunState C) (ending : Option (Ending C)) : Prop where
  bases : OnDependencies s
  final : ∀ result, ending = some (.returned result) → result.status.success = true →
    ∃ candidate, result.candidateCommit = some candidate ∧ Covers s.completed candidate

/-- Every launcher's candidate descends from the base of its request. -/
def Descending (request : FeatureRunRequest C) (launched : Launched C) : Prop :=
  ∀ c, launched.outcome.candidateCommit = some c → request.baseCommit ≤ c

/-! ## Sealing -/

section Sealing

variable {run : PlanRun} {request : FeatureRunRequest C} {launched : Launched C} {s t : RunState C}
  {decision : Except String (SealDecision C)}

omit [PartialOrder C] in
theorem candidate_of_recorded {c : C}
    (h : (recordedOutcome request launched.outcome).candidateCommit = some c) :
    launched.outcome.candidateCommit = some c := by
  rw [recordedOutcome] at h
  split_ifs at h
  exact h

/-- What a decision says about the candidates. -/
inductive SealedCandidate (run : PlanRun) (launched : Launched C) (s t : RunState C) :
    Except String (SealDecision C) → Prop
  | sealed (advanced : Obligations) (candidate : C)
      (hcandidate : launched.outcome.candidateCommit = some candidate)
      (hcompleted : t.completed = s.completed.set run.id candidate) :
      SealedCandidate run launched s t (.ok (.sealed advanced))
  | blocked (result : PlanGraphResult C) (reason : String)
      (escalation : Option EscalationDisposition) (hstatus : result.status = .blocked)
      (hcompleted : t.completed = s.completed) :
      SealedCandidate run launched s t (.ok (.blocked result reason escalation))
  | failed (result : PlanGraphResult C) (hstatus : result.status = .failed)
      (hcompleted : t.completed = s.completed) :
      SealedCandidate run launched s t (.ok (.failed result))
  | raised (message : String) (hcompleted : t.completed = s.completed) :
      SealedCandidate run launched s t (.error message)

omit [PartialOrder C] in
theorem Seals.candidate (h : Seals run request launched s t decision) :
    SealedCandidate run launched s t decision ∧ t.requests = s.requests := by
  cases h with
  | raised rejected message => exact ⟨.raised message rfl, rfl⟩
  | stopped rejected escalation merged blocks decision hmerged hdecision =>
    subst hdecision
    cases blocks with
    | true => exact ⟨.blocked _ _ _ rfl rfl, rfl⟩
    | false => exact ⟨.failed _ rfl rfl, rfl⟩
  | conflict => exact ⟨.blocked _ _ _ rfl rfl, rfl⟩
  | escalated => exact ⟨.blocked _ _ _ rfl rfl, rfl⟩
  | sealed rejected escalation candidate advanced houtcome hadvanced =>
    exact ⟨.sealed advanced candidate (candidate_of_recorded houtcome.2) rfl, rfl⟩

omit [PartialOrder C] in
/-- The candidates of the other nodes stay. -/
theorem SealedCandidate.keeps (h : SealedCandidate run launched s t decision)
    (hopen : run.id ∉ s.completed.keys) {id : String} {c : C}
    (hc : s.completed.get? id = some c) : t.completed.get? id = some c := by
  have hne : id ≠ run.id := by
    rintro rfl
    exact hopen (Dict.mem_keys_iff.2 ⟨c, hc⟩)
  cases h with
  | sealed _ _ _ hcompleted => rw [hcompleted, Dict.get?_set_ne _ _ hne, hc]
  | blocked _ _ _ _ hcompleted => rw [hcompleted, hc]
  | failed _ _ hcompleted => rw [hcompleted, hc]
  | raised _ hcompleted => rw [hcompleted, hc]

theorem OnDependencies.kept (h : OnDependencies s) (hrequests : t.requests = s.requests)
    (hkept : ∀ id c, s.completed.get? id = some c → t.completed.get? id = some c) :
    OnDependencies t := by
  intro r hr d hd
  rw [hrequests] at hr
  obtain ⟨c, hc, hle⟩ := h r hr d hd
  exact ⟨c, hkept d c hc, hle⟩

theorem OnDependencies.launch (h : OnDependencies s) (request : FeatureRunRequest C)
    (hdeps : ∀ d ∈ request.run.dependsOn, ∃ c, s.completed.get? d = some c ∧
      c ≤ request.baseCommit) (audit : AttemptState C) :
    OnDependencies { s with audit := audit, requests := s.requests ++ [request] } := by
  intro r hr
  rcases mem_append.1 hr with hr | hr
  · exact h r hr
  · obtain rfl := mem_singleton.1 hr
    exact hdeps

end Sealing

/-! ## Ending -/

section Ending

variable {s : RunState C} {ending : Ending C}

theorem NothingLost.going (h : OnDependencies s) : NothingLost s none := ⟨h, nofun⟩

theorem NothingLost.raised (h : OnDependencies s) (message : String) :
    NothingLost s (some (.raised message)) := by
  refine ⟨h, fun result hresult => ?_⟩
  exact nomatch Option.some.inj hresult

/-- A result that is no success. -/
theorem NothingLost.stopped (h : OnDependencies s) {result : PlanGraphResult C}
    (hstatus : result.status.success = false) (status : GraphStatus) :
    NothingLost (s.finalize status result).state (some (s.finalize status result).ending) := by
  refine ⟨h, fun other hother hsuccess => ?_⟩
  obtain rfl := Ending.returned.inj (Option.some.inj hother)
  rw [hstatus] at hsuccess
  exact nomatch hsuccess

theorem NothingLost.blocked (h : OnDependencies s) {result : PlanGraphResult C}
    (hstatus : result.status = .blocked) (records : List DeviationRecord) :
    NothingLost (transitionToBlocked s result records).state
      (some (transitionToBlocked s result records).ending) := by
  refine .stopped h ?_ .blocked
  rw [status_withDeviationRecords, hstatus]
  rfl

theorem NothingLost.finalize (h : OnDependencies s) {candidate : C}
    (hcovers : Covers s.completed candidate) (tests : List String) (finishing : Finishing) :
    NothingLost (finalizeWithFunctionality tests finishing s candidate).state
      (some (finalizeWithFunctionality tests finishing s candidate).ending) := by
  obtain ⟨-, hrequests⟩ := carries_finalizeWithFunctionality tests finishing s candidate
  have hcompleted := completed_finalizeWithFunctionality tests finishing s candidate
  refine ⟨h.kept hrequests fun id c hc => by rwa [hcompleted], fun result hresult _ => ?_⟩
  rw [hcompleted]
  refine ⟨candidate, ?_, hcovers⟩
  rw [finalizeWithFunctionality] at hresult
  dsimp only at hresult
  split at hresult
  · obtain rfl := Ending.returned.inj (Option.some.inj hresult)
    rfl
  · split_ifs at hresult
    · obtain rfl := Ending.returned.inj (Option.some.inj hresult)
      rfl
    · cases Option.some.inj hresult

end Ending

/-! ## The sequential loop -/

section Sequential

/-- The launcher's candidate descends from the base of the launch. -/
def TurnDescends (l : SequentialLoop C) (turn : Turn C) : Prop :=
  ∀ launched c, turn.launch = .ok launched → launched.outcome.candidateCommit = some c →
    l.candidate ≤ c

/-- The candidate of a reused node descends from that of the node before. -/
def ReusedOnChain (l : SequentialLoop C) : Prop :=
  ∀ run rest c, l.remaining = run :: rest → l.state.completed.get? run.id = some c →
    l.candidate ≤ c

namespace SequentialLoop

/-- The nodes before the next one are behind the carried candidate. -/
structure Chained (g : Controller C) (l : SequentialLoop C) : Prop where
  lost : NothingLost l.state l.ending
  known : ∀ id ∈ l.state.completed.keys, id ∈ runIds g.plan.runs
  chain : l.ending = none → ∃ before, g.plan.ordered = before ++ l.remaining ∧
    ∀ run ∈ before, ∃ c, l.state.completed.get? run.id = some c ∧ c ≤ l.candidate

variable {g : Controller C} {l m : SequentialLoop C}

theorem Chained.of_ended {e : Ended C} (hlost : NothingLost e.state (some e.ending))
    (hknown : ∀ id ∈ e.state.completed.keys, id ∈ runIds g.plan.runs) :
    Chained g (l.ended e) := ⟨hlost, hknown, nofun⟩

/-- What the next node depends on is before it. -/
theorem dependencies_before {before rest : List PlanRun} {run : PlanRun}
    (hordered : g.plan.ordered = before ++ run :: rest) {d : String} (hd : d ∈ run.dependsOn) :
    ∃ other ∈ before, other.id = d := by
  have hids := g.plan.ordered_ids
  have hrun : run ∈ g.plan.ordered := hordered ▸ mem_append_right _ mem_cons_self
  rw [hordered, runIds, map_append, map_cons] at hids
  rw [← dependencies_run g.plan hrun] at hd
  exact mem_map.1 (hids.split.2.2 d hd)

/-- The launch of the next node. -/
theorem Chained.launchNode (h : Chained g l) (hending : l.ending = none) {run : PlanRun}
    {rest : List PlanRun} (hremaining : l.remaining = run :: rest)
    (hopen : run.id ∉ l.state.completed.keys) {turn : Turn C} (hturn : TurnDescends l turn) :
    Chained g (l.launchNode g turn run rest) := by
  obtain ⟨before, hordered, hbefore⟩ := h.chain hending
  rw [hremaining] at hordered
  have hrun : run ∈ g.plan.ordered := hordered ▸ mem_append_right _ mem_cons_self
  rw [SequentialLoop.launchNode]
  cases turn.refusal with
  | some refusal =>
    have hfailed : OnDependencies
        { l.state with audit := l.state.audit.nodeFailed run.id .blocked none } := h.lost.bases
    exact .of_ended (.blocked hfailed rfl _) h.known
  | none =>
    obtain ⟨request, hrequest⟩ : ∃ request, request =
      requestForRun g run l.candidate (l.state.obligations.owed run.id) := ⟨_, rfl⟩
    have hon : OnDependencies { l.state with
        audit := l.state.audit.nodeStarted run.id
        requests := l.state.requests ++ [request] } := by
      refine h.lost.bases.launch request (fun d hd => ?_) _
      rw [hrequest] at hd ⊢
      obtain ⟨other, hother, rfl⟩ := dependencies_before hordered hd
      exact hbefore other hother
    rw [← hrequest]
    cases hlaunch : turn.launch with
    | error error => exact .of_ended (.raised hon _) h.known
    | ok launched =>
      obtain ⟨hcandidate, hrequests⟩ := (sealOutcome_cases g run request launched { l.state with
        audit := l.state.audit.nodeStarted run.id
        requests := l.state.requests ++ [request] }).candidate
      have hkept {id : String} {c : C} (hc : l.state.completed.get? id = some c) :=
        hcandidate.keeps hopen hc
      have hsealed := hon.kept hrequests fun _ _ hc => hkept hc
      dsimp only at hcandidate hkept ⊢
      generalize sealOutcome g run request launched _ = sealing at hcandidate hkept hsealed ⊢
      obtain ⟨s, decision⟩ := sealing
      cases hcandidate with
      | raised message hcompleted =>
        exact .of_ended (.raised hsealed message) (by rw [hcompleted]; exact h.known)
      | blocked result reason escalation hstatus hcompleted =>
        refine .of_ended (.blocked hsealed hstatus _) ?_
        show ∀ id ∈ s.completed.keys, _
        rw [hcompleted]
        exact h.known
      | failed result hstatus hcompleted =>
        refine .of_ended (.stopped hsealed (by rw [hstatus]; rfl) .failed) ?_
        show ∀ id ∈ s.completed.keys, _
        rw [hcompleted]
        exact h.known
      | sealed advanced candidate hlaunched hcompleted =>
        have hself : s.completed.get? run.id = some candidate := by
          rw [hcompleted]
          exact Dict.get?_set_self _ _ _
        have hgrows : l.candidate ≤ candidate := hturn launched candidate hlaunch hlaunched
        refine ⟨?_, fun id hid => ?_, fun _ => ⟨before ++ [run], ?_, fun other hother => ?_⟩⟩
        · dsimp only
          rw [hending]
          exact .going hsealed
        · dsimp only at hid
          rw [hcompleted] at hid
          rcases Dict.mem_keys_set.1 hid with rfl | hid
          · exact mem_runIds (g.plan.mem_ordered.1 hrun)
          · exact h.known id hid
        · rw [hordered, append_assoc]
          rfl
        · show ∃ c, s.completed.get? other.id = some c ∧ c ≤ s.completed.getD run.id l.candidate
          rw [Dict.getD, hself, Option.getD_some]
          rcases mem_append.1 hother with hother | hother
          · obtain ⟨c, hc, hle⟩ := hbefore other hother
            exact ⟨c, hkept hc, hle.trans hgrows⟩
          · obtain rfl := mem_singleton.1 hother
            exact ⟨candidate, hself, le_rfl⟩

/-- **One turn.** -/
theorem Chained.step (h : Chained g l) {turn : Turn C} (hturn : TurnDescends l turn)
    (hreused : ReusedOnChain l) (hstep : sequentialStep g turn l = some m) : Chained g m := by
  rw [sequentialStep] at hstep
  cases hending : l.ending with
  | some ending =>
    rw [hending] at hstep
    cases hstep
  | none =>
    obtain ⟨before, hordered, hbefore⟩ := h.chain hending
    rw [hending] at hstep
    cases hremaining : l.remaining with
    | nil =>
      rw [hremaining] at hstep hordered
      rw [append_nil] at hordered
      cases hstep
      refine .of_ended (.finalize h.lost.bases (fun id c hc => ?_) _ _) fun id hid => ?_
      · have hid := h.known id (Dict.mem_keys_iff.2 ⟨c, hc⟩)
        obtain ⟨run, hrun, rfl⟩ := mem_map.1 ((mem_runIds_ordered g.plan).2 hid)
        obtain ⟨c', hc', hle⟩ := hbefore run (hordered ▸ hrun)
        cases hc.symm.trans hc'
        exact hle
      · rw [completed_finalizeWithFunctionality] at hid
        exact h.known id hid
    | cons run rest =>
      rw [hremaining] at hstep
      dsimp only at hstep
      cases hcandidate : l.state.completed.get? run.id with
      | none =>
        rw [hcandidate] at hstep
        cases hstep
        exact h.launchNode hending hremaining (Dict.get?_eq_none_iff.1 hcandidate) hturn
      | some candidate =>
        rw [hcandidate] at hstep
        cases hstep
        have hgrows := hreused run rest candidate hremaining hcandidate
        refine ⟨hending ▸ .going h.lost.bases, h.known,
          fun _ => ⟨before ++ [run], ?_, fun other hother => ?_⟩⟩
        · rw [hordered, hremaining, append_assoc]
          rfl
        · rcases mem_append.1 hother with hother | hother
          · obtain ⟨c, hc, hle⟩ := hbefore other hother
            exact ⟨c, hc, hle.trans hgrows⟩
          · obtain rfl := mem_singleton.1 hother
            exact ⟨candidate, hcandidate, le_rfl⟩

end SequentialLoop

end Sequential

/-! ## The parallel loop -/

section Parallel

/-- Every candidate has those behind it that its node depends on. -/
def ReusedDescend (plan : PlanGraphPlan C) (completed : Dict String C) : Prop :=
  ∀ id c, completed.get? id = some c → ∀ d ∈ plan.dependencies id, ∀ c',
    completed.get? d = some c' → c' ≤ c

variable {completed : Dict String C}

/-- The candidates of sinks cover those of all nodes. -/
theorem exists_sink {plan : PlanGraphPlan C} (hdescend : ReusedDescend plan completed)
    (hall : ∀ run ∈ plan.ordered, run.id ∈ completed.keys) {before after : List PlanRun}
    (hordered : plan.ordered = before ++ after) :
    ∀ run ∈ after, ∀ c, completed.get? run.id = some c →
      ∃ sink ∈ sinks plan.ordered, ∃ c', completed.get? sink.id = some c' ∧ c ≤ c' := by
  induction after generalizing before with
  | nil => exact forall_mem_nil _
  | cons first rest ih =>
    have hbehind : plan.ordered = (before ++ [first]) ++ rest := by
      rw [hordered, append_assoc]
      rfl
    have hrest := ih hbehind
    refine forall_mem_cons.2 ⟨fun c hc => ?_, hrest⟩
    have hfirst : first ∈ plan.ordered := hordered ▸ mem_append_right _ mem_cons_self
    by_cases hsink : plan.ordered.any fun other => first.id ∈ other.dependsOn
    · -- a dependent stands behind the node
      obtain ⟨other, hother, hdepends⟩ := any_eq_true.1 hsink
      have hd : first.id ∈ plan.dependencies other.id := by
        rw [dependencies_run plan hother]
        exact of_decide_eq_true hdepends
      obtain ⟨c', hc'⟩ := Dict.mem_keys_iff.1 (hall other hother)
      have hle := hdescend other.id c' hc' first.id hd c hc
      have hbehind : other ∈ rest := by
        have hids := plan.ordered_ids
        have hmem := hother
        rw [hordered] at hmem
        rw [hordered, runIds, map_append, map_cons] at hids
        rcases mem_append.1 hmem with hmem | hmem
        · obtain ⟨xs, ys, hsplit⟩ := append_of_mem hmem
          rw [hsplit, map_append, map_cons, append_assoc, cons_append] at hids
          have hearlier := hids.split.2.2 first.id hd
          have hnodup := hids.nodup
          rw [nodup_append] at hnodup
          refine absurd rfl (hnodup.2.2 first.id hearlier first.id ?_)
          simp
        · rcases mem_cons.1 hmem with rfl | hmem
          · exact absurd (hids.split.2.2 other.id hd) hids.split.2.1
          · exact hmem
      obtain ⟨sink, hmem, c'', hc'', hle'⟩ := hrest other hbehind c' hc'
      exact ⟨sink, hmem, c'', hc'', hle.trans hle'⟩
    · refine ⟨first, mem_filter.2 ⟨hfirst, ?_⟩, c, hc, le_rfl⟩
      rw [Bool.not_eq_true']
      exact Bool.eq_false_iff.2 hsink

omit [PartialOrder C] in
/-- What is looked up is found. -/
theorem mem_of_lookup {α : Type} {f : α → String} {message : α → String} {xs : List α}
    {parents : List C}
    (h : xs.mapM (fun x => (completed.get? (f x)).elim (.error (message x)) .ok) =
      (.ok parents : Except String (List C))) :
    ∀ x ∈ xs, ∃ c ∈ parents, completed.get? (f x) = some c := by
  induction xs generalizing parents with
  | nil => exact forall_mem_nil _
  | cons x rest ih =>
    rw [mapM_cons] at h
    cases hx : completed.get? (f x) with
    | none =>
      rw [hx] at h
      exact nomatch h
    | some c =>
      rw [hx] at h
      cases hothers : rest.mapM fun x =>
          ((completed.get? (f x)).elim (.error (message x)) .ok : Except String C) with
      | error e =>
        rw [hothers] at h
        exact nomatch h
      | ok others =>
      rw [hothers] at h
      cases h
      refine forall_mem_cons.2 ⟨⟨c, mem_cons_self, hx⟩, fun y hy => ?_⟩
      obtain ⟨d, hd, hget⟩ := ih hothers y hy
      exact ⟨d, mem_cons_of_mem _ hd, hget⟩

variable [DecidableEq C] [DecidableLE C] {g : Controller C}

theorem covers_finalCandidate {candidate : C} (hdescend : ReusedDescend g.plan completed)
    (hknown : ∀ id ∈ completed.keys, id ∈ runIds g.plan.runs)
    (hall : ∀ run ∈ g.plan.ordered, run.id ∈ completed.keys)
    (h : finalCandidate g completed = .ok candidate) : Covers completed candidate := by
  intro id c hc
  obtain ⟨run, hrun, rfl⟩ := mem_map.1
    ((mem_runIds_ordered g.plan).2 (hknown id (Dict.mem_keys_iff.2 ⟨c, hc⟩)))
  obtain ⟨sink, hsink, c', hc', hle⟩ :=
    exists_sink hdescend hall (nil_append _).symm run hrun c hc
  rw [finalCandidate] at h
  cases hparents : sinkCandidates g.plan.ordered completed with
  | error message =>
    rw [hparents] at h
    exact nomatch h
  | ok parents =>
    rw [hparents] at h
    obtain ⟨b, hb, hfound⟩ := mem_of_lookup hparents sink hsink
    cases hc'.symm.trans hfound
    exact hle.trans (le_of_join h c' hb)

/-- The base of a launch has the candidates behind it that the node depends on. -/
theorem dependencies_base {run : PlanRun} {base : C}
    (h : baseCommitForRun g run completed = .ok base) :
    ∀ d ∈ run.dependsOn, ∃ c, completed.get? d = some c ∧ c ≤ base := by
  intro d hd
  rw [baseCommitForRun] at h
  cases hparents : dependencyCandidates completed run with
  | error message =>
    rw [hparents] at h
    exact nomatch h
  | ok parents =>
    rw [hparents] at h
    obtain ⟨c, hc, hfound⟩ := mem_of_lookup hparents d hd
    cases parents with
    | nil => exact nomatch hc
    | cons first rest => exact ⟨c, hfound, le_of_join h c hc⟩

/-- The launchers' candidates that come back in a turn descend from the bases of their requests. -/
def RoundDescends (g : Controller C) (l : ReadySetLoop C) (round : Round C) : Prop :=
  ∀ admitted, l.admitReady g round.refusal = .ok admitted → ∀ id request,
    admitted.inFlight.get? id = some request → ∀ launched, round.done id = some (.ok launched) →
      Descending request launched

namespace ReadySetLoop

variable {l m : ReadySetLoop C}

/-- What is launched is on its dependencies, and what is sealed descends from them. -/
structure Descended (g : Controller C) (l : ReadySetLoop C) : Prop where
  bases : OnDependencies l.state
  planned : ∀ r ∈ l.state.requests, r.run ∈ g.plan.ordered
  flight : ∀ id r, l.inFlight.get? id = some r → r ∈ l.state.requests
  completed : ReusedDescend g.plan l.state.completed

theorem Descended.admitNode (h : Descended g l) (refusal : String → Option String) {run : PlanRun}
    (hrun : run ∈ g.plan.ordered) : Descended g (l.admitNode g refusal run) := by
  have hrefused : Descended g (l.refuse run) := ⟨h.bases, h.planned, h.flight, h.completed⟩
  rw [ReadySetLoop.admitNode]
  split
  · exact hrefused
  · exact hrefused
  · rename_i base hbase _
    have hbases := h.bases.launch (requestForRun g run base (l.state.obligations.owed run.id))
      (dependencies_base hbase) (l.state.audit.nodeStarted run.id)
    refine ⟨hbases, fun r hr => ?_, fun id r hr => ?_, h.completed⟩
    · rcases mem_append.1 hr with hr | hr
      · exact h.planned r hr
      · obtain rfl := mem_singleton.1 hr
        exact hrun
    · rw [Dict.get?_set] at hr
      split_ifs at hr
      · cases hr
        exact mem_append_right _ (mem_singleton_self _)
      · exact mem_append_left _ (h.flight id r hr)

theorem Descended.admitNodes (h : Descended g l) (refusal : String → Option String)
    {rest : List PlanRun} (hrest : ∀ run ∈ rest, run ∈ g.plan.ordered) :
    Descended g (l.admitNodes g refusal rest) := by
  induction rest generalizing l with
  | nil => exact h
  | cons run rest ih =>
    have hnode := h.admitNode refusal (hrest run mem_cons_self)
    rw [ReadySetLoop.admitNodes]
    split_ifs
    · exact ih hnode fun other hother => hrest other (mem_cons_of_mem _ hother)
    · exact hnode

theorem Descended.admitReady (h : Descended g l) {refusal : String → Option String}
    (hentered : l.admitReady g refusal = .ok m) : Descended g m := by
  rw [ReadySetLoop.admitReady] at hentered
  split_ifs at hentered
  · split at hentered
    · cases hentered
    · cases hentered
      refine h.admitNodes refusal fun run hrun => ?_
      obtain ⟨unit, -, hfound⟩ := mem_filterMap.1 hrun
      exact mem_of_find?_eq_some hfound
  · cases hentered
    exact h

variable {id : String}

omit [DecidableEq C] [DecidableLE C] in
/-- A sealed candidate descends from those that its node depends on. -/
theorem Descended.seal (h : Descended g l) (hsound : Sound g l) {request : FeatureRunRequest C}
    (hrequest : l.inFlight.get? id = some request) {candidate : C}
    (hle : request.baseCommit ≤ candidate) :
    ReusedDescend g.plan (l.state.completed.set request.run.id candidate) := by
  have hmem := h.flight id request hrequest
  have hid := hsound.request id request hrequest
  have hopen := (hsound.flight id (Dict.mem_keys_iff.2 ⟨request, hrequest⟩)).isOpen
  intro other c hc d hd c' hc'
  rw [hid, Dict.get?_set] at hc hc'
  split_ifs at hc with hother
  · cases hc
    rw [hother, ← hid, dependencies_run g.plan (h.planned request hmem)] at hd
    obtain ⟨found, hfound, hbase⟩ := h.bases request hmem d hd
    have hne : d ≠ id := by
      rintro rfl
      exact hopen (Dict.mem_keys_iff.2 ⟨found, hfound⟩)
    rw [if_neg hne, hfound] at hc'
    cases hc'
    exact hbase.trans hle
  · have hne : d ≠ id := by
      rintro rfl
      exact hopen (hsound.closed other (Dict.mem_keys_iff.2 ⟨c, hc⟩) d hd)
    rw [if_neg hne] at hc'
    exact h.completed other c hc d hd c' hc'

omit [DecidableEq C] [DecidableLE C] in
theorem Descended.completeNode (h : Descended g l) (hsound : Sound g l)
    {launch : Except LaunchError (Launched C)}
    (hlaunch : ∀ request, l.inFlight.get? id = some request → ∀ launched, launch = .ok launched →
      Descending request launched) :
    Descended g (l.completeNode g launch id) := by
  rw [ReadySetLoop.completeNode]
  cases hrequest : l.inFlight.get? id with
  | none => exact h
  | some request =>
    have hid := hsound.request id request hrequest
    have hopen := (hsound.flight id (Dict.mem_keys_iff.2 ⟨request, hrequest⟩)).isOpen
    rw [← hid] at hopen
    obtain ⟨hcandidate, hrequests⟩ :=
      (sealOutcome_cases g request.run request (launchedOf launch) l.state).candidate
    have hsealed := h.bases.kept hrequests fun _ _ hc => hcandidate.keeps hopen hc
    dsimp only
    generalize sealOutcome g request.run request (launchedOf launch) l.state = sealing at *
    obtain ⟨s, decision⟩ := sealing
    dsimp only at hcandidate hrequests hsealed
    have hplanned : ∀ r ∈ s.requests, r.run ∈ g.plan.ordered := by
      rw [hrequests]
      exact h.planned
    have hflight : ∀ other r, (l.inFlight.erase id).get? other = some r → r ∈ s.requests := by
      intro other r hr
      rw [Dict.get?_erase] at hr
      split_ifs at hr
      rw [hrequests]
      exact h.flight other r hr
    have hkept (hcompleted : s.completed = l.state.completed) :
        ReusedDescend g.plan s.completed := by
      rw [hcompleted]
      exact h.completed
    cases hcandidate with
    | raised message hcompleted => exact ⟨hsealed, hplanned, hflight, hkept hcompleted⟩
    | blocked result reason escalation hstatus hcompleted =>
      exact ⟨hsealed, hplanned, hflight, hkept hcompleted⟩
    | failed result hstatus hcompleted => exact ⟨hsealed, hplanned, hflight, hkept hcompleted⟩
    | sealed advanced candidate hlaunched hcompleted =>
      refine ⟨hsealed, hplanned, hflight, ?_⟩
      dsimp only
      rw [hcompleted]
      refine h.seal hsound hrequest ?_
      cases launch with
      | error error => cases hlaunched
      | ok launched => exact hlaunch request hrequest launched rfl candidate hlaunched

omit [DecidableEq C] [DecidableLE C] in
theorem inFlight_of_completeNode {launch : Except LaunchError (Launched C)} {other : String}
    {request : FeatureRunRequest C}
    (h : (l.completeNode g launch id).inFlight.get? other = some request) :
    l.inFlight.get? other = some request := by
  rw [ReadySetLoop.completeNode] at h
  have herased (h : (l.inFlight.erase id).get? other = some request) :
      l.inFlight.get? other = some request := by
    rw [Dict.get?_erase] at h
    split_ifs at h
    exact h
  split at h
  · exact h
  · dsimp only at h
    split at h <;> exact herased h

omit [DecidableEq C] [DecidableLE C] in
theorem Descended.completeNodes (h : Descended g l) (hsound : Sound g l)
    {done : String → Option (Except LaunchError (Launched C))} (ids : List String)
    (hdone : ∀ id request, l.inFlight.get? id = some request → ∀ launched,
      done id = some (.ok launched) → Descending request launched) :
    Descended g (l.completeNodes g done ids) := by
  induction ids generalizing l with
  | nil => exact h
  | cons id rest ih =>
    rw [ReadySetLoop.completeNodes, foldl_cons]
    cases hlaunch : done id with
    | none => exact ih h hsound hdone
    | some launch =>
      refine ih (h.completeNode hsound fun request hrequest launched hlaunched => ?_)
        (hsound.completeNode launch id) fun other request hrequest => ?_
      · exact hdone id request hrequest launched (by rw [hlaunch, hlaunched])
      · exact hdone other request (inFlight_of_completeNode hrequest)

/-- The end of the loop. -/
theorem Descended.conclude (h : Descended g l) (hsound : Sound g l) (hreports : Reports g l)
    (hall : l.terminal = none → l.deferredError = none →
      ∀ run ∈ g.plan.runs, run.id ∈ l.state.completed.keys) (finishing : Finishing) :
    NothingLost (l.conclude g finishing).state (l.conclude g finishing).ending := by
  rw [ReadySetLoop.conclude]
  cases hterminal : l.terminal with
  | some t =>
    obtain ⟨id, -, hstopped⟩ := hreports.terminal t hterminal
    dsimp only
    cases hblocks : t.blocks with
    | true =>
      rw [hblocks] at hstopped
      have hstatus : { t.result with completed := l.state.completed }.status = .blocked :=
        hstopped.status
      exact NothingLost.blocked h.bases hstatus finishing.deviationRecords
    | false =>
      rw [hblocks] at hstopped
      refine .stopped h.bases ?_ _
      have hstatus : t.result.status = .failed := hstopped.status
      rw [hstatus]
      rfl
  | none =>
    cases hdeferred : l.deferredError with
    | some message => exact .raised h.bases message
    | none =>
      cases hcandidate : finalCandidate g l.state.completed with
      | error message => exact .raised h.bases message
      | ok candidate =>
        have hcompleted := hall hterminal hdeferred
        exact .finalize h.bases (covers_finalCandidate h.completed hsound.known
          (fun run hrun => hcompleted run (g.plan.mem_ordered.1 hrun)) hcandidate) _ _

/-- The invariant of the loop. -/
structure Lossless (g : Controller C) (l : ReadySetLoop C) : Prop where
  tracks : Tracks g l
  descended : l.ending = none → Descended g l
  lost : NothingLost l.state l.ending

/-- **One turn.** -/
theorem Lossless.step (h : Lossless g l) {round : Round C} (hround : RoundDescends g l round)
    (hstep : readySetStep g round l = some m) : Lossless g m := by
  have htracks := h.tracks.step hstep
  have hsound := h.tracks.sound
  obtain ⟨hending, admitted, hentered, hadmitted, hturn⟩ := hsound.turns hstep
  have hdescended := (h.descended hending).admitReady hentered
  have hreports := (h.tracks.reports hending).admitReady hsound hentered
  obtain ⟨-, hcomplete, rfl⟩ | ⟨-, rfl⟩ := hturn
  · refine ⟨htracks, fun hnone => ?_, hdescended.conclude hadmitted hreports hcomplete _⟩
    obtain ⟨state, ending, heq, -⟩ := conclude_eq g round.finishing admitted
    rw [heq] at hnone
    exact nomatch hnone
  · have hnext := hdescended.completeNodes hadmitted (admitted.doneIds round.done)
      (hround admitted hentered)
    refine ⟨htracks, fun _ => hnext, ?_⟩
    rw [ending_completeNodes, ending_admitReady hentered, hending]
    exact .going hnext.bases

end ReadySetLoop

end Parallel

/-! ## Nothing lost -/

/-- **No sealed work is lost.** On an attempt with any reused nodes, when the launchers' candidates
descend from the bases of their requests: in every sequential run in which the candidate of each
reused node descends from that of the node before, and in every parallel run whose reused candidates
descend from those that their nodes depend on, every launch is on the candidates that it depends on,
and the candidate of a success descends from every completed one. -/
theorem nothing_lost [DecidableEq C] [DecidableLE C] (g : Controller C) (audit : AttemptState C)
    (s : RunState C) (hstart : StartsOn g.plan audit s) :
    (∀ l, Inputs.RunsUnder (fun l turn => TurnDescends l turn ∧ ReusedOnChain l)
      (sequentialStep g) (SequentialLoop.start g s) l → NothingLost l.state l.ending) ∧
    (ReusedDescend g.plan s.completed → ∀ l, Inputs.RunsUnder (RoundDescends g) (readySetStep g)
      { state := s } l → NothingLost l.state l.ending) := by
  have hnone : OnDependencies s := by
    rw [OnDependencies, hstart.tracked.2]
    exact forall_mem_nil _
  constructor
  · intro l hrun
    refine (hrun.invariant (P := SequentialLoop.Chained g)
      (fun turn x y hallowed hstep hx => hx.step hallowed.1 hallowed.2 hstep) ?_).lost
    exact ⟨.going hnone, hstart.completed.1, fun _ => ⟨[], rfl, forall_mem_nil _⟩⟩
  · intro hreused l hrun
    have htracks := ReadySetRun.tracks (g := g) ⟨s, hstart, Inputs.Runs.refl _⟩
    refine (hrun.invariant (P := ReadySetLoop.Lossless g)
      (fun round x y hallowed hstep hx => hx.step hallowed hstep) ?_).lost
    refine ⟨htracks, fun _ => ⟨hnone, ?_, nofun, hreused⟩, .going hnone⟩
    rw [hstart.tracked.2]
    exact forall_mem_nil _

/-! ### A reused sibling -/

/-- Two runs behind a third one. -/
def siblingPlan : PlanGraphPlan (Finset ℕ) where
  baseCommit := ∅
  runs := [⟨"a", [], ["src/a"]⟩, ⟨"b", ["a"], ["src/b"]⟩, ⟨"c", ["a"], ["src/c"]⟩]
  functionalityTests := []
  ordered := [⟨"a", [], ["src/a"]⟩, ⟨"b", ["a"], ["src/b"]⟩, ⟨"c", ["a"], ["src/c"]⟩]
  valid := by decide +kernel
  ordered_eq := by decide +kernel

def siblingController : Controller (Finset ℕ) :=
  { pairController with plan := siblingPlan, positive := Nat.two_pos }

/-- What a parallel run has sealed in which `b` failed. -/
def siblingReused : Dict String (Finset ℕ) := Dict.ofList [("a", {1}), ("c", {1, 3})]

def siblingState : RunState (Finset ℕ) where
  audit := initialState siblingPlan "graph" siblingReused (some "graph-0")
  completed := siblingReused
  obligations := ∅

theorem startsOn_sibling : StartsOn siblingPlan siblingState.audit siblingState :=
  ⟨fun _ => Iff.rfl, rfl, [], rfl⟩

theorem descends_sibling : ReusedDescend siblingPlan siblingState.completed := by
  have hall : ∀ id ∈ siblingState.completed.keys, ∀ d ∈ siblingPlan.dependencies id,
      (siblingState.completed.get? d).getD ∅ ⊆ (siblingState.completed.get? id).getD ∅ := by
    decide +kernel
  intro id c hc d hd c' hc'
  have hle := hall id (Dict.mem_keys_iff.2 ⟨c, hc⟩) d hd
  rwa [hc, hc'] at hle

/-- A parallel run on the reused nodes loses nothing. -/
theorem nothing_lost_sibling :
    ReusedDescend siblingPlan siblingState.completed ∧
    ∀ l, Inputs.RunsUnder (RoundDescends siblingController) (readySetStep siblingController)
      { state := siblingState } l → NothingLost l.state l.ending :=
  ⟨descends_sibling, (nothing_lost siblingController siblingState.audit siblingState
    startsOn_sibling).2 descends_sibling⟩

/-- A sequential run on them. -/
def serialController : Controller (Finset ℕ) := { linearController with plan := siblingPlan }

/-- The reused nodes are skipped, and the one between them is sealed on the first. -/
def siblingTurns : List (Turn (Finset ℕ)) :=
  [{}, { launch := .ok (sealedLaunch serialController "b" {1, 2}) }, {}, {}]

theorem turnDescends_idle (l : SequentialLoop (Finset ℕ)) : TurnDescends l {} :=
  fun _ _ hlaunch => nomatch hlaunch

theorem turnsDescend_sibling : Inputs.AllInputs (sequentialStep serialController) TurnDescends
    (SequentialLoop.start serialController siblingState) siblingTurns := by
  intro l hl
  cases hl
  refine ⟨turnDescends_idle _, fun m hm => ⟨?_, fun n hn => ⟨turnDescends_idle _, fun o ho =>
    ⟨turnDescends_idle _, True.intro⟩⟩⟩⟩
  intro launched c hlaunch hc
  cases hlaunch
  cases hc
  decide

/-- A success whose candidate does not have the work of `b`. -/
def successWithout (l : SequentialLoop (Finset ℕ)) : Bool :=
  match l.ending, l.state.completed.get? "b" with
  | some (.returned result), some c =>
    result.status.success && !decide (c ⊆ result.candidateCommit.getD ∅)
  | _, _ => false

/-- The sequential run ends in a success on the candidate of the sibling that was reused last. -/
theorem sibling_lost :
    ¬ ∀ (g : Controller (Finset ℕ)) (audit : AttemptState (Finset ℕ)) (s : RunState (Finset ℕ)),
      StartsOn g.plan audit s → ∀ l, Inputs.RunsUnder TurnDescends (sequentialStep g)
        (SequentialLoop.start g s) l → NothingLost l.state l.ending := by
  intro hclaim
  have hend : (Inputs.runInputs (sequentialStep serialController)
      (SequentialLoop.start serialController siblingState) siblingTurns).any successWithout =
        true := by
    decide +kernel
  obtain ⟨l, hrun, hwithout⟩ := (Option.any_eq_true _ _).1 hend
  have hlost := hclaim serialController siblingState.audit siblingState startsOn_sibling l
    (turnsDescend_sibling.runsUnder hrun)
  rw [successWithout] at hwithout
  split at hwithout
  · rename_i result c hending hc
    rw [Bool.and_eq_true] at hwithout
    obtain ⟨candidate, hcandidate, hcovers⟩ := hlost.final result hending hwithout.1
    have hle : c ⊆ candidate := hcovers "b" c hc
    rw [hcandidate, Option.getD_some, decide_eq_true hle] at hwithout
    exact nomatch hwithout.2
  · exact nomatch hwithout

end HarnessLabs.PlanGraph
