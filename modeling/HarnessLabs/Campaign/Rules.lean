import HarnessLabs.Campaign.Driver
import HarnessLabs.PlanGraph.ConvergenceStatus

/-!
# Rules for the steps of the driver

What an observer asserts of the disk is carried through a step along its script. Most steps only
save states that agree with the one they loaded, seal artifacts and record rulings.

* `enter`, `appends` — the rules of the primitives.
* `Quiet` — assertions that saves, seals and rulings keep. **Every step other than open, ingest and
  close keeps them**, also where it is cut off.
* `watch` — a step under an observer.
-/

namespace HarnessLabs.Campaign

open PlanGraph.Convergence (Key Record Written Writes field fold foldOne recordRuling)
open Durable (Script Watched Holds)

variable {G : Type} {note : G → Disk → Write → G} {I : Watched Disk G → Prop}
variable {w : Watched Disk G}

/-- A step under an observer. -/
def watch (host : Host) (note : DriverInput → G → Disk → Write → G) (input : DriverInput × ℕ)
    (w : Watched Disk G) : Option (Watched Disk G) :=
  some (w.writeAll (note input.1) (((input.1.script host) w.store).1.take input.2))

/-! ## Primitives -/

namespace Rules

@[simp] theorem journal_seal (w : Watched Disk G) (digest : String) (content : Json) :
    (w.write note (.seal digest content)).store.journal = w.store.journal := by
  change (w.store.write (.seal digest content)).journal = _
  unfold Disk.write
  by_cases h : (w.store.artifacts.get? digest).isSome <;> simp [h]

@[simp] theorem checkpoint_seal (w : Watched Disk G) (digest : String) (content : Json) :
    (w.write note (.seal digest content)).store.checkpoint = w.store.checkpoint := by
  change (w.store.write (.seal digest content)).checkpoint = _
  unfold Disk.write
  by_cases h : (w.store.artifacts.get? digest).isSome <;> simp [h]

theorem raise {α : Type} {Q : α → Watched Disk G → Prop} {message : String} (hI : I w) :
    Holds note I (Campaign.raise message : Driver α) Q w := Holds.lift hI fun _ h => nomatch h

theorem liftM {α : Type} {result : Except String α} {Q : α → Watched Disk G → Prop} (hI : I w)
    (hQ : ∀ r, result = .ok r → Q r w) : Holds note I (liftM result : Driver α) Q w :=
  Holds.lift hI hQ

variable {head : Option String} {lifecycle : Lifecycle} {host : Host}

theorem loadState {Q : Option CampaignState → Watched Disk G → Prop} (hI : I w)
    (hQ : Q (w.store.checkpoint.map (·.state)) w) :
    Holds note I (Campaign.loadState head) Q w := by
  refine Holds.bind (Holds.read hI ?_)
  cases hcheckpoint : w.store.checkpoint with
  | none =>
    rw [hcheckpoint] at hQ
    exact Holds.pure hI hQ
  | some checkpoint =>
    rw [hcheckpoint] at hQ
    simp only
    by_cases hhead : head.any (· ≠ checkpoint.state.currentBaseCommit)
    · rw [if_pos hhead]
      exact raise hI
    · rw [if_neg hhead]
      exact Holds.pure hI hQ

theorem save {state : CampaignState} {Q : Unit → Watched Disk G → Prop} (hI : I w)
    (hnext : I (w.write note (.save ⟨lifecycle, state⟩)))
    (hQ : Q () (w.write note (.save ⟨lifecycle, state⟩))) :
    Holds note I (Campaign.save lifecycle state) Q w := by
  refine Holds.bind (liftM hI fun _ _ => Holds.bind (liftM hI fun _ _ => ?_))
  exact Holds.put hI hnext hQ

theorem saveLoaded {loaded : Option CampaignState} {Q : CampaignState → Watched Disk G → Prop}
    (hI : I w) (h : ∀ state, loaded = some state → I (w.write note (.save ⟨lifecycle, state⟩)) ∧
      Q state (w.write note (.save ⟨lifecycle, state⟩))) :
    Holds note I (Campaign.saveLoaded lifecycle loaded) Q w := by
  cases loaded with
  | none => exact raise hI
  | some state =>
    obtain ⟨hnext, hQ⟩ := h state rfl
    exact Holds.bind (save hI hnext (Holds.pure hnext hQ))

/-- The state that is loaded is saved again as it is. -/
theorem enter {Q : CampaignState → Watched Disk G → Prop} (hI : I w)
    (h : ∀ before state, w.store.checkpoint = some ⟨before, state⟩ →
      I (w.write note (.save ⟨lifecycle, state⟩)) ∧
        Q state (w.write note (.save ⟨lifecycle, state⟩))) :
    Holds note I (Campaign.enter head lifecycle) Q w := by
  refine Holds.bind (loadState hI (saveLoaded hI fun state hstate => ?_))
  obtain ⟨checkpoint, hcheckpoint, rfl⟩ := Option.map_eq_some_iff.1 hstate
  exact h checkpoint.lifecycle checkpoint.state hcheckpoint

theorem campaignConfig {Q : Json → Watched Disk G → Prop} (hI : I w) (hQ : ∀ config, Q config w) :
    Holds note I Campaign.campaignConfig Q w := by
  refine Holds.bind (Holds.read hI ?_)
  exact Holds.bind (liftM hI fun _ _ => Holds.pure hI (hQ _))

theorem sealEvidence {evidence : Evidence} {J : Watched Disk G → Prop} (hI : ∀ b, J b → I b)
    (hseal : ∀ b digest content, J b → J (b.write note (.seal digest content))) (hw : J w) :
    Holds note I (Campaign.sealEvidence evidence) (fun _ => J) w := by
  refine Holds.bind ((Holds.forM hI (fun item _ b hb => ?_) hw).mono fun _ b hb => ?_)
  · exact Holds.put (hI b hb) (hI _ (hseal b _ _ hb)) (hseal b _ _ hb)
  · cases evidence.failure with
    | some message => exact raise (hI b hb)
    | none => exact Holds.pure (hI b hb) hb

/-- The records of an operation, one by one, with the state that they fold to. -/
theorem appends {s t : PlanGraph.Convergence.State} {records : List Record}
    (hwrites : Writes s records t)
    {J : PlanGraph.Convergence.State → Watched Disk G → Prop} (hI : ∀ a b, J a b → I b)
    (hstep : ∀ a b c record, record ∈ records → Written a record → foldOne a record = some c →
      J a b → J c (b.write note (.append record))) (hw : J s w) :
    Holds note I (appendAll records) (fun _ => J t) w := by
  induction hwrites generalizing w with
  | nil s => exact Holds.pure (hI s w hw) hw
  | @cons s c t record rest hwritten hfold _ ih =>
    have hnext : J c (w.write note (.append record)) :=
      hstep s w c record List.mem_cons_self hwritten hfold hw
    refine Holds.bind (Holds.put (hI s w hw) (hI c _ hnext) ?_)
    exact ih (fun a b c r hr => hstep a b c r (List.mem_cons_of_mem _ hr)) hnext

theorem sealedInspectorRecall {config : Json} {Q : ℚ → Watched Disk G → Prop} (hI : I w)
    (hQ : ∀ score, Q score w) :
    Holds note I (Campaign.sealedInspectorRecall host config) Q w := by
  unfold Campaign.sealedInspectorRecall
  split
  · split_ifs
    · exact Holds.pure hI (hQ 0)
    · exact Holds.bind (Holds.read hI (Holds.bind (liftM hI fun _ _ => Holds.pure hI (hQ _))))
  · exact Holds.pure hI (hQ 0)

/-- What termination is evaluated on. -/
def Evaluated (s : PlanGraph.Convergence.State) (state : CampaignState) (input : TerminationInput)
    (report : TerminationReport) : Prop :=
  ∃ score recallThreshold ratioThreshold, report = evaluateSuccessTermination s input
    (input.newRequiredFindings.getD state.lastIngestNewRequiredFindings) score recallThreshold
    ratioThreshold

/-- Only a success is saved. -/
theorem evaluateFrom {loaded : Option CampaignState} {input : TerminationInput} (hI : I w)
    (h : ∀ s state report, fold w.store.journal = .ok s → loaded = some state →
      Evaluated s state input report → report.success →
      I (w.write note (.save ⟨.succeeded, { state with termination := some report }⟩))) :
    Holds note I (Campaign.evaluateFrom host loaded input) (fun _ => I) w := by
  refine Holds.bind (campaignConfig hI fun config => ?_)
  have hrest : ∀ score, Holds note I (do
      let s ← (fold (← Script.read).journal : Driver _)
      let report := evaluateSuccessTermination s input
        (input.newRequiredFindings.getD ((loaded.map (·.lastIngestNewRequiredFindings)).getD 0))
        score (host.recallThreshold config) (host.amendmentRatioThreshold config)
      if report.success then
        let _ ← Campaign.saveLoaded .succeeded
          (loaded.map fun state => { state with termination := some report })
        return report
      else return report) (fun _ => I) w := by
    intro score
    refine Holds.bind (Holds.read hI (Holds.bind (liftM hI fun s hs => ?_)))
    simp only
    split_ifs with hsuccess
    · refine Holds.bind (saveLoaded hI fun state hstate => ?_)
      obtain ⟨before, rfl, rfl⟩ := Option.map_eq_some_iff.1 hstate
      have hnext := h s before _ hs rfl ⟨score, _, _, rfl⟩ hsuccess
      exact ⟨hnext, Holds.pure hnext hnext⟩
    · exact Holds.pure hI hI
  cases input.inspectorRecall with
  | some score => exact Holds.bind (Holds.pure hI (hrest score))
  | none => exact Holds.bind (sealedInspectorRecall hI hrest)

theorem evaluateTermination {input : TerminationInput} (hI : I w)
    (h : ∀ s before state report, fold w.store.journal = .ok s →
      w.store.checkpoint = some ⟨before, state⟩ → Evaluated s state input report →
      report.success →
      I (w.write note (.save ⟨.succeeded, { state with termination := some report }⟩))) :
    Holds note I (Campaign.evaluateTermination host head input) (fun _ => I) w := by
  refine Holds.bind (loadState hI (Holds.bind ?_))
  refine (evaluateFrom hI fun s state report hs hloaded => ?_).mono fun _ _ hb => Holds.pure hb hb
  obtain ⟨checkpoint, hcheckpoint, rfl⟩ := Option.map_eq_some_iff.1 hloaded
  exact h s checkpoint.lifecycle checkpoint.state report hs hcheckpoint

end Rules

/-! ## Quiet steps -/

/-- The two states agree on what the steps other than ingest and close leave alone. -/
structure Kin (a b : CampaignState) : Prop where
  base : b.currentBaseCommit = a.currentBaseCommit
  harvest : b.harvestedFindings = a.harvestedFindings
  required : b.lastIngestNewRequiredFindings = a.lastIngestNewRequiredFindings

theorem Kin.refl (a : CampaignState) : Kin a a := ⟨rfl, rfl, rfl⟩

/-- The lifecycles under which no step opens, ingests, closes or succeeds. -/
def Lifecycle.quiet : Lifecycle → Bool
  | .opened | .ingested | .closed | .succeeded => false
  | .measuring | .measured | .ingesting | .ruling | .ruled | .planning | .planned | .approving
  | .approved | .running | .runSucceeded | .runBlocked | .closing | .blocked => true

/-- An assertion on the state that a step works on, kept by all that a quiet step writes. -/
structure Quiet (note : G → Disk → Write → G) (I : Watched Disk G → Prop)
    (J : CampaignState → Watched Disk G → Prop) : Prop where
  holds : ∀ {state w}, J state w → I w
  save : ∀ {w state next lifecycle}, J state w → Kin state next → lifecycle.quiet →
    J next (w.write note (.save ⟨lifecycle, next⟩))
  sealed : ∀ {w state digest content}, J state w → J state (w.write note (.seal digest content))
  ruled : ∀ {w state key disposition statement actor record}, J state w →
    recordRuling w.store.journal key disposition statement actor = .ok record →
    J state (w.write note (.append record))

/-- The assertion holds of the state in the checkpoint. -/
def Loads (J : CampaignState → Watched Disk G → Prop) (w : Watched Disk G) : Prop :=
  ∀ before state, w.store.checkpoint = some ⟨before, state⟩ → J state w

/-- The steps that only save, seal and rule. -/
def DriverInput.quiet : DriverInput → Bool
  | .openCampaign _ | .ingest _ _ | .close _ _ | .evaluateTermination _ _ => false
  | .measure _ _ | .rule _ _ | .plan _ _ | .approvePrepare _ | .approveIssue _ _
  | .runGraph _ _ => true

namespace Quiet

variable {J : CampaignState → Watched Disk G → Prop} (q : Quiet note I J)

include q

variable {state : CampaignState} {host : Host}

theorem saved {next : CampaignState} {lifecycle : Lifecycle} {Q : Unit → Watched Disk G → Prop}
    (hw : J state w) (hkin : Kin state next) (hquiet : lifecycle.quiet)
    (hQ : ∀ b, J next b → Q () b) :
    Holds note I (Campaign.save lifecycle next) Q w := by
  have hnext := q.save hw hkin hquiet
  exact Rules.save (q.holds hw) (q.holds hnext) (hQ _ hnext)

theorem enter {head : Option String} {lifecycle : Lifecycle} (hI : I w) (hload : Loads J w)
    (hquiet : lifecycle.quiet) : Holds note I (Campaign.enter head lifecycle) J w := by
  refine Rules.enter hI fun before state hcheckpoint => ?_
  have hnext := q.save (hload before state hcheckpoint) (Kin.refl state) hquiet
  exact ⟨q.holds hnext, hnext⟩

theorem sealEvidence {evidence : Evidence} (hw : J state w) :
    Holds note I (Campaign.sealEvidence evidence) (fun _ => J state) w :=
  Rules.sealEvidence (fun _ => q.holds) (fun _ _ _ => q.sealed) hw

theorem measureFrom {input : MeasureInput} (hw : J state w) :
    Holds note I (Campaign.measureFrom host state input)
      (fun digest => J { state with pendingAuditDigest := some digest }) w := by
  refine Holds.bind (q.saved hw (Kin.refl state) rfl fun b hb => ?_)
  refine Holds.bind (Rules.liftM (q.holds hb) fun capture _ => ?_)
  refine Holds.bind (Rules.liftM (q.holds hb) fun _ _ => ?_)
  cases capture.receipt with
  | none => exact Rules.raise (q.holds hb)
  | some receipt =>
    refine Holds.bind (Rules.campaignConfig (q.holds hb) fun config => ?_)
    refine Holds.bind (Rules.liftM (q.holds hb) fun auditResult _ => ?_)
    have hsealed : J state (b.write note (.seal (host.digest auditResult) auditResult)) :=
      q.sealed hb
    refine Holds.bind (Holds.put (q.holds hb) (q.holds hsealed) ?_)
    refine Holds.bind ((q.sealEvidence hsealed).mono fun _ c hc => ?_)
    refine Holds.bind (q.saved hc ⟨rfl, rfl, rfl⟩ rfl fun e he => ?_)
    exact Holds.pure (q.holds he) he

theorem closeMeasure {outcome : Outcome} {input : CloseInput} (hw : J state w) :
    Holds note I (Campaign.closeMeasure host outcome input state) J w := by
  unfold Campaign.closeMeasure
  cases input.measure with
  | none => exact Holds.pure (q.holds hw) hw
  | some measureInput =>
    split_ifs
    · exact Holds.bind ((q.measureFrom hw).mono fun _ b hb => Holds.pure (q.holds hb) hb)
    · exact Holds.pure (q.holds hw) hw

theorem harvestPayload {harvested : List HarvestedFinding} {evidence : Evidence} (hw : J state w) :
    Holds note I (Campaign.harvestPayload host harvested evidence) (fun _ => J state) w := by
  unfold Campaign.harvestPayload
  split_ifs
  · exact Holds.pure (q.holds hw) hw
  · refine Holds.bind (Rules.campaignConfig (q.holds hw) fun config => ?_)
    refine Holds.bind (Rules.liftM (q.holds hw) fun payload _ => ?_)
    exact Holds.bind ((q.sealEvidence hw).mono fun _ b hb => Holds.pure (q.holds hb) hb)

theorem sealAnnotations {history : Option (Except String (Key → Option Json))} {keys : List Key}
    (hw : J state w) :
    Holds note I (Campaign.sealRecurrenceAnnotations host history keys) (fun _ => J state) w := by
  unfold Campaign.sealRecurrenceAnnotations
  cases history with
  | none => exact Holds.pure (q.holds hw) hw
  | some history =>
    split_ifs
    · exact Holds.pure (q.holds hw) hw
    · refine Holds.bind (Rules.liftM (q.holds hw) fun history _ => ?_)
      refine Holds.foldlM (fun _ => q.holds) (fun digests key _ b hb => ?_) hw
      unfold Campaign.annotationSealed
      cases history key with
      | none => exact Holds.pure (q.holds hb) hb
      | some payload =>
        have hnext : J state (b.write note (.seal (host.digest payload) payload)) := q.sealed hb
        exact Holds.bind (Holds.put (q.holds hb) (q.holds hnext) (Holds.pure (q.holds hnext) hnext))

theorem ruleItem {item : RulingItem} (hw : J state w) :
    Holds note I (Campaign.ruleItem item) (fun _ => J state) w := by
  refine Holds.bind (Holds.read (q.holds hw) ?_)
  refine Holds.bind (Rules.liftM (q.holds hw) fun record hrecord => ?_)
  have hnext := q.ruled hw hrecord
  exact Holds.put (q.holds hw) (q.holds hnext) hnext

section Steps

variable (hI : I w) (hload : Loads J w)

include hI hload

variable {host : Host} {head : Option String}

theorem measure {input : MeasureInput} :
    Holds note I (Campaign.measure host head input) (fun _ => I) w := by
  refine Holds.bind (Rules.loadState hI ?_)
  cases hcheckpoint : w.store.checkpoint with
  | none => exact Rules.raise hI
  | some checkpoint =>
    have hw : J checkpoint.state w := hload checkpoint.lifecycle checkpoint.state hcheckpoint
    refine Holds.bind ((q.measureFrom hw).mono fun _ b hb => ?_)
    exact Holds.pure (q.holds hb) (q.holds hb)

theorem rule {dispositions : List RulingItem} :
    Holds note I (Campaign.rule head dispositions) (fun _ => I) w := by
  refine Holds.bind ((q.enter hI hload rfl).mono fun state b hb => ?_)
  refine Holds.bind ((Holds.forM (fun _ => q.holds) (fun _ _ _ => q.ruleItem) hb).mono
    fun _ c hc => ?_)
  by_cases hmissing : unanswered state.regressionSuspects dispositions ≠ []
  · rw [if_pos hmissing]
    exact Holds.bind (q.saved hc ⟨rfl, rfl, rfl⟩ rfl fun e he => Rules.raise (q.holds he))
  · rw [if_neg hmissing]
    exact q.saved hc (Kin.refl state) rfl fun e he => q.holds he

theorem plan {source : Except String RoundPlan} :
    Holds note I (Campaign.plan host head source) (fun _ => I) w := by
  refine Holds.bind (Rules.loadState hI ?_)
  refine Holds.bind (Rules.liftM hI fun _ _ => ?_)
  refine Holds.bind (Holds.read hI (Holds.bind (Rules.liftM hI fun s _ => ?_)))
  have hloaded : ∀ state, w.store.checkpoint.map (·.state) = some state → J state w := by
    intro state hstate
    obtain ⟨checkpoint, hcheckpoint, rfl⟩ := Option.map_eq_some_iff.1 hstate
    exact hload checkpoint.lifecycle checkpoint.state hcheckpoint
  cases guardBeforePlan s host.maxRepairRounds _ with
  | some reason =>
    refine Holds.bind (Rules.saveLoaded hI fun state hstate => ?_)
    obtain ⟨loaded, hbefore, rfl⟩ := Option.map_eq_some_iff.1 hstate
    have hnext : J { loaded with blockedReason := some reason }
        (w.write note (.save ⟨.blocked, { loaded with blockedReason := some reason }⟩)) :=
      q.save (hloaded loaded hbefore) ⟨rfl, rfl, rfl⟩ rfl
    exact ⟨q.holds hnext, Rules.raise (q.holds hnext)⟩
  | none =>
    refine Holds.bind (Rules.saveLoaded hI fun state hstate => ?_)
    have hnext : J state (w.write note (.save ⟨.planning, state⟩)) :=
      q.save (hloaded state hstate) (Kin.refl state) rfl
    refine ⟨q.holds hnext, Holds.bind (Rules.liftM (q.holds hnext) fun roundPlan _ => ?_)⟩
    exact q.saved hnext ⟨rfl, rfl, rfl⟩ rfl fun b hb => q.holds hb

theorem approvePrepare :
    Holds note I (Campaign.approvePrepare head) (fun _ => I) w :=
  Holds.bind ((q.enter hI hload rfl).mono fun _ _ hb => Holds.pure (q.holds hb) (q.holds hb))

theorem approveIssue {receipt : Except String Unit} :
    Holds note I (Campaign.approveIssue head receipt) (fun _ => I) w := by
  refine Holds.bind (Rules.liftM hI fun _ _ => ?_)
  exact Holds.bind ((q.enter hI hload rfl).mono fun _ _ hb => Holds.pure (q.holds hb) (q.holds hb))

theorem runGraph {result : Except String Json} :
    Holds note I (Campaign.runGraph head result) (fun _ => I) w := by
  refine Holds.bind ((q.enter hI hload rfl).mono fun state b hb => ?_)
  refine Holds.bind (Rules.liftM (q.holds hb) fun result _ => ?_)
  refine Holds.bind (Rules.liftM (q.holds hb) fun flags _ => ?_)
  refine q.saved hb ⟨rfl, rfl, rfl⟩ ?_ fun c hc => q.holds hc
  by_cases hsuccess : PlanGraph.truthy (field flags "success") <;> simp [hsuccess, Lifecycle.quiet]

/-- **A quiet step keeps the assertion.** -/
theorem step {input : DriverInput} (hquiet : input.quiet) :
    Holds note I (input.script host) (fun _ => I) w := by
  cases input with
  | openCampaign | ingest | close | evaluateTermination => cases hquiet
  | measure head input => exact q.measure hI hload
  | rule head dispositions => exact q.rule hI hload
  | plan head source => exact q.plan hI hload
  | approvePrepare head => exact q.approvePrepare hI hload
  | approveIssue head receipt => exact q.approveIssue hI hload
  | runGraph head result => exact q.runGraph hI hload

end Steps

end Quiet

end HarnessLabs.Campaign
