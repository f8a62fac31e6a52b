import HarnessLabs.Campaign.Admission
import HarnessLabs.Campaign.Rules

/-!
# The custody of harvested findings

A blocked round leaves findings that nobody routed. `close` places them in the checkpoint, and the
next ingest merges them into its audit and clears them. The ledger knows an audit by its digest
alone, so an audit that it folded before is not folded again for the findings merged into it.

* `Custody` — what an observer notes: how often the waiting findings were folded, which were dropped
  before, which were folded twice.
* `Careful` — an ingest repeats a digest exactly when the findings are folded already, and a close
  finds them folded.
* `harvest_kept` — **careful steps lose no finding and fold none twice**, whatever is cut off; and a
  harvested record makes no audit fail exactly when no text of it is blank.
* `harvest_lost` — a digest that is ingested again behind a close.

Between a close and the next one that is careful, the findings are folded by one ingest. A crash
behind that fold leaves them in the checkpoint; the retry finds the digest recorded and clears them.
-/

namespace HarnessLabs.Campaign

open Audit (bind_eq_ok require_bind_eq_ok)
open PlanGraph.Convergence (Record Written Writes State Campaign validateFinding
  validateAudit fold foldOne ingestAudit openCampaign recordRuling)
open Durable (Watched Holds)

/-! ## What is noted -/

/-- How often the findings that wait were folded since they were placed, the findings that were
dropped before, and those that were folded again. -/
structure Custody where
  folds : ℕ := 0
  lost : List Json := []
  twice : List Json := []

/-- The findings that wait in the checkpoint. -/
def Disk.harvest (d : Disk) : List Json :=
  (d.checkpoint.map (·.state.harvestedFindings)).getD []

/-- The ledger knows the key of a finding. -/
def Disk.knows (d : Disk) (finding : Json) : Bool :=
  match validateFinding finding, fold d.journal with
  | .ok f, .ok s => (s.keys.get? f.key).isSome
  | _, _ => false

/-- The lifecycles under which the waiting findings are placed or cleared. -/
def Lifecycle.assigns : Lifecycle → Bool
  | .opened | .ingested | .closed => true
  | _ => false

/-- A recorded digest folds what waits; a save that assigns the findings drops what waited. -/
def Custody.note (c : Custody) (d : Disk) : Write → Custody
  | .append (.auditIngested _ _) =>
    { c with folds := c.folds + 1, twice := if c.folds = 0 then c.twice else c.twice ++ d.harvest }
  | .save checkpoint =>
    if checkpoint.lifecycle.assigns ∨ checkpoint.state.harvestedFindings ≠ d.harvest then
      { c with
        folds := 0
        lost := c.lost ++ d.harvest.filter fun finding => c.folds = 0 || !d.knows finding }
    else c
  | _ => c

/-- Whether the ledger holds the digest of the audit already, where it takes the audit. -/
def IngestInput.repeats? (input : IngestInput) (d : Disk) : Option Bool := do
  let checkpoint ← d.checkpoint
  let merged ← (input.merged checkpoint.state d.artifacts).toOption
  let a ← (validateAudit merged).toOption
  let s ← (fold d.journal).toOption
  if a.digest ∈ s.ingestedDigests then return true
  else if ∀ v ∈ a.verdicts, (s.keys.get? v.key).isSome then return false
  else none

/-- While findings wait, an ingest repeats a digest exactly when they are folded already, and a
close finds them folded. -/
def Careful (w : Watched Disk Custody) : DriverInput → Prop
  | .ingest _ input =>
    w.store.harvest = [] ∨ ∀ repeats ∈ input.repeats? w.store, repeats = decide (w.notes.folds ≠ 0)
  | .close _ _ => w.store.harvest = [] ∨ w.notes.folds ≠ 0
  | _ => True

instance (w : Watched Disk Custody) (input : DriverInput) : Decidable (Careful w input) :=
  match input with
  | .ingest _ _ => inferInstanceAs (Decidable (_ ∨ _))
  | .close _ _ => inferInstanceAs (Decidable (_ ∨ _))
  | .openCampaign _ | .measure _ _ | .rule _ _ | .plan _ _ | .approvePrepare _ | .approveIssue _ _
  | .runGraph _ _ | .evaluateTermination _ _ => .isTrue trivial

/-! ## The invariant -/

/-- Nothing is lost or folded twice; what is folded is known to the ledger. -/
structure Kept (w : Watched Disk Custody) : Prop where
  journal : ∃ s, Writes .initial w.store.journal s ∧
    (w.store.checkpoint.isSome → s.campaign.isSome)
  lost : w.notes.lost = []
  twice : w.notes.twice = []
  known : w.notes.folds ≠ 0 → ∀ finding ∈ w.store.harvest, w.store.knows finding = true

/-- What waits may be dropped. -/
def Covered (w : Watched Disk Custody) : Prop := w.store.harvest = [] ∨ w.notes.folds ≠ 0

/-- The state that a step works on has the findings that wait. -/
structure Holding (state : CampaignState) (w : Watched Disk Custody) : Prop where
  kept : Kept w
  opened : w.store.checkpoint.isSome
  harvest : w.store.harvest = state.harvestedFindings

variable {d : Disk} {s t : State} {record : Record} {w : Watched Disk Custody}
  {state : CampaignState} {host : Host}

theorem knows_of_writes (h : Writes .initial d.journal s) {finding : Json}
    {f : PlanGraph.Convergence.Finding} (hvalid : validateFinding finding = .ok f) :
    d.knows finding = (s.keys.get? f.key).isSome := by
  rw [Disk.knows, hvalid, h.fold_eq]

/-- What the ledger knows stays known behind a written record. -/
theorem knows_append (h : Writes .initial d.journal s) (hwritten : Written s record)
    (hfold : foldOne s record = some t) {finding : Json} (hknows : d.knows finding = true) :
    ({ d with journal := d.journal ++ [record] } : Disk).knows finding = true := by
  cases hvalid : validateFinding finding with
  | error message => simp [Disk.knows, hvalid] at hknows
  | ok f =>
    rw [knows_of_writes h hvalid] at hknows
    rw [knows_of_writes (h.snoc hwritten hfold) hvalid]
    exact hwritten.keeps_known hfold hknows

theorem campaign_foldOne (hfold : foldOne s record = some t) (h : s.campaign.isSome) :
    t.campaign.isSome := by
  cases record with
  | campaignOpened | captureCoverage | targetAmended | findingOpened | findingFixClaimed
  | auditIngested =>
    cases hfold
    first | exact h | rfl
  | findingFixed | findingInvalidated | findingReopened | findingRuled =>
    obtain ⟨info, -, rfl⟩ := Option.map_eq_some_iff.1 hfold
    exact h
  | baseRebase =>
    obtain ⟨e, -, rfl⟩ := Option.map_eq_some_iff.1 hfold
    exact h
  | confirmedGood other assertion =>
    rw [foldOne] at hfold
    split_ifs at hfold <;> obtain rfl := Option.some.inj hfold <;> exact h

/-- A record other than a digest leaves the notes alone. -/
theorem note_append {c : Custody} (h : record.ingested? = none) :
    c.note d (.append record) = c := by
  cases record with
  | auditIngested => cases h
  | _ => rfl

theorem note_save {c : Custody} {checkpoint : Checkpoint}
    (hassigns : checkpoint.lifecycle.assigns = false)
    (hharvest : checkpoint.state.harvestedFindings = d.harvest) :
    c.note d (.save checkpoint) = c := by
  rw [Custody.note, if_neg]
  simp [hassigns, hharvest]

/-- A save that leaves the waiting findings alone. -/
theorem Holding.save {next : CampaignState} (h : Holding state w) {lifecycle : Lifecycle}
    (hassigns : lifecycle.assigns = false)
    (hharvest : next.harvestedFindings = state.harvestedFindings) :
    Holding next (w.write Custody.note (.save ⟨lifecycle, next⟩)) := by
  have hsame : next.harvestedFindings = w.store.harvest := hharvest.trans h.harvest.symm
  have hnotes : (w.write Custody.note (.save ⟨lifecycle, next⟩)).notes = w.notes :=
    note_save hassigns hsame
  obtain ⟨s, hs, hcampaign⟩ := h.kept.journal
  refine ⟨⟨⟨s, hs, fun _ => hcampaign h.opened⟩, ?_, ?_, ?_⟩, rfl, rfl⟩
  · rw [hnotes, h.kept.lost]
  · rw [hnotes, h.kept.twice]
  · intro hfolds finding hmem
    rw [hnotes] at hfolds
    exact h.kept.known hfolds finding (hsame ▸ hmem)

/-- A save that drops the findings that wait. -/
theorem Holding.assign {next : CampaignState} (h : Holding state w) {lifecycle : Lifecycle}
    (hassigns : lifecycle.assigns) (hcovered : Covered w) :
    Holding next (w.write Custody.note (.save ⟨lifecycle, next⟩)) := by
  have hnotes : (w.write Custody.note (.save ⟨lifecycle, next⟩)).notes = { w.notes with
      folds := 0
      lost := w.notes.lost ++ w.store.harvest.filter fun finding =>
        w.notes.folds = 0 || !w.store.knows finding } :=
    if_pos (.inl hassigns)
  have hdropped : (w.store.harvest.filter fun finding =>
      w.notes.folds = 0 || !w.store.knows finding) = [] := by
    obtain hempty | hfolds := hcovered
    · rw [hempty, List.filter_nil]
    · refine List.filter_eq_nil_iff.2 fun finding hmem => ?_
      simp [hfolds, h.kept.known hfolds finding hmem]
  obtain ⟨s, hs, hcampaign⟩ := h.kept.journal
  refine ⟨⟨⟨s, hs, fun _ => hcampaign h.opened⟩, ?_, ?_, ?_⟩, rfl, rfl⟩
  · rw [hnotes, h.kept.lost, hdropped]
    rfl
  · rw [hnotes]
    exact h.kept.twice
  · intro hfolds
    rw [hnotes] at hfolds
    exact absurd rfl hfolds

theorem Holding.seal (h : Holding state w) {digest : String} {content : Json} :
    Holding state (w.write Custody.note (.seal digest content)) := by
  have hharvest : (w.write Custody.note (.seal digest content)).store.harvest =
      w.store.harvest := by
    rw [Disk.harvest, Rules.checkpoint_seal]
    rfl
  have hknows : ∀ finding, (w.write Custody.note (.seal digest content)).store.knows finding =
      w.store.knows finding := by
    intro finding
    rw [Disk.knows, Rules.journal_seal]
    rfl
  refine ⟨⟨?_, h.kept.lost, h.kept.twice, ?_⟩, ?_, hharvest.trans h.harvest⟩
  · rw [Rules.journal_seal, Rules.checkpoint_seal]
    exact h.kept.journal
  · intro hfolds finding hmem
    rw [hknows]
    exact h.kept.known hfolds finding (hharvest ▸ hmem)
  · rw [Rules.checkpoint_seal]
    exact h.opened

/-- A record other than a digest, on the state that the journal folds to. -/
theorem Holding.append (h : Holding state w) (hs : Writes .initial w.store.journal s)
    (hwritten : Written s record) (hfold : foldOne s record = some t)
    (hrecord : record.ingested? = none) :
    Holding state (w.write Custody.note (.append record)) := by
  have hnotes : (w.write Custody.note (.append record)).notes = w.notes := note_append hrecord
  obtain ⟨u, hu, hcampaign⟩ := h.kept.journal
  obtain rfl : u = s := Except.ok.inj (hu.fold_eq.symm.trans hs.fold_eq)
  refine ⟨⟨⟨t, hs.snoc hwritten hfold, fun _ => ?_⟩, ?_, ?_, ?_⟩, h.opened, h.harvest⟩
  · exact campaign_foldOne hfold (hcampaign h.opened)
  · rw [hnotes, h.kept.lost]
  · rw [hnotes, h.kept.twice]
  · intro hfolds finding hmem
    rw [hnotes] at hfolds
    exact knows_append hs hwritten hfold (h.kept.known hfolds finding hmem)

/-- The digest of an audit into which the findings were merged. -/
theorem Holding.ingested (h : Holding state w) (hs : Writes .initial w.store.journal s)
    {digest : String} {unobserved : List PlanGraph.Convergence.Key}
    (hfold : foldOne s (.auditIngested digest unobserved) = some t)
    (honce : w.store.harvest = [] ∨ w.notes.folds = 0)
    (hknown : ∀ finding ∈ state.harvestedFindings, ∃ f, validateFinding finding = .ok f ∧
      (s.keys.get? f.key).isSome) :
    Holding state (w.write Custody.note (.append (.auditIngested digest unobserved))) := by
  obtain ⟨u, hu, hcampaign⟩ := h.kept.journal
  obtain rfl : u = s := Except.ok.inj (hu.fold_eq.symm.trans hs.fold_eq)
  have hwritten : Written u (.auditIngested digest unobserved) := trivial
  have hwrites := hs.snoc hwritten hfold
  refine ⟨⟨⟨t, hwrites, fun _ => ?_⟩, h.kept.lost, ?_, ?_⟩, h.opened, h.harvest⟩
  · exact campaign_foldOne hfold (hcampaign h.opened)
  · change (if w.notes.folds = 0 then w.notes.twice else w.notes.twice ++ w.store.harvest) = []
    obtain hempty | hfolds := honce
    · rw [hempty, List.append_nil, ite_self, h.kept.twice]
    · rw [if_pos hfolds, h.kept.twice]
  · intro _ finding hmem
    obtain ⟨f, hvalid, hsome⟩ := hknown finding (h.harvest ▸ hmem)
    rw [knows_of_writes hwrites hvalid]
    exact hwritten.keeps_known hfold hsome

theorem ruling_eq {journal : List Record} {key : Json} {disposition statement actor : String}
    (h : recordRuling journal key disposition statement actor = .ok record) :
    record.ingested? = none := by
  obtain ⟨key, -, h⟩ := bind_eq_ok.1 h
  cases hdisposition : PlanGraph.Convergence.disposition? disposition with
  | none => simp [hdisposition] at h
  | some d =>
    simp only [hdisposition] at h
    obtain ⟨-, h⟩ := require_bind_eq_ok.1 h
    obtain ⟨s, -, h⟩ := bind_eq_ok.1 h
    obtain ⟨-, h⟩ := require_bind_eq_ok.1 h
    cases h
    rfl

theorem quiet_holding : Quiet Custody.note Kept Holding where
  holds := Holding.kept
  save h hkin hquiet := by
    refine h.save ?_ hkin.harvest
    revert hquiet
    rename_i lifecycle
    cases lifecycle <;> simp [Lifecycle.quiet, Lifecycle.assigns]
  sealed h := h.seal
  ruled h hrecord := by
    obtain ⟨s, hs, -⟩ := h.kept.journal
    have hwritten := PlanGraph.Convergence.recordRuling_written hs.fold_eq hrecord
    obtain ⟨t, ht⟩ := hwritten.foldOne_isSome
    exact h.append hs hwritten ht (ruling_eq hrecord)

/-- The findings stay covered under what a quiet step writes. -/
theorem Covered.of_notes {a b : Watched Disk Custody} (h : Covered a)
    (hharvest : b.store.harvest = a.store.harvest) (hnotes : b.notes = a.notes) : Covered b := by
  obtain hempty | hfolds := h
  · exact .inl (hharvest.trans hempty)
  · exact .inr (hnotes ▸ hfolds)

theorem quiet_covered : Quiet Custody.note Kept fun state w => Holding state w ∧ Covered w where
  holds h := h.1.kept
  save := by
    intro w state next lifecycle h hkin hquiet
    have hnext := quiet_holding.save h.1 hkin hquiet
    have hassigns : lifecycle.assigns = false := by
      cases lifecycle <;> first | rfl | cases hquiet
    refine ⟨hnext, h.2.of_notes (hnext.harvest.trans (hkin.harvest.trans h.1.harvest.symm)) ?_⟩
    exact note_save hassigns (hkin.harvest.trans h.1.harvest.symm)
  sealed := by
    intro w state digest content h
    have hnext : Holding state (w.write Custody.note (.seal digest content)) := h.1.seal
    exact ⟨hnext, h.2.of_notes (hnext.harvest.trans h.1.harvest.symm) rfl⟩
  ruled := by
    intro w state key disposition statement actor record h hrecord
    have hnext := quiet_holding.ruled h.1 hrecord
    exact ⟨hnext, h.2.of_notes (hnext.harvest.trans h.1.harvest.symm)
      (note_append (ruling_eq hrecord))⟩

theorem Kept.loads (h : Kept w) : Loads Holding w := by
  intro before state hcheckpoint
  refine ⟨h, ?_, ?_⟩
  · rw [hcheckpoint]
    rfl
  · rw [Disk.harvest, hcheckpoint]
    rfl

/-! ## Ingest -/

/-- The ledger takes an audit with the waiting findings in it. -/
theorem ingestLedger_holds (h : Holding state w) {auditResult merged : Json}
    (hmerge : mergeHarvest auditResult state.harvestedFindings = .ok merged)
    (hcareful : w.store.harvest = [] ∨ ∀ records summary,
      ingestAudit w.store.journal merged = .ok (records, summary) →
        summary.idempotent = decide (w.notes.folds ≠ 0)) :
    Holds Custody.note Kept (ingestLedger merged) (fun _ b => Holding state b ∧ Covered b) w := by
  refine Holds.bind (Holds.read h.kept (Holds.bind (Rules.liftM h.kept fun result hingest => ?_)))
  obtain ⟨records, summary⟩ := result
  obtain ⟨s, hs, -⟩ := h.kept.journal
  obtain ⟨a, hvalid, hrest⟩ := bind_eq_ok.1 hingest
  obtain ⟨u, hu, htake⟩ := bind_eq_ok.1 hrest
  cases hs.fold_eq.symm.trans hu
  obtain ⟨-, rfl, rfl⟩ | ⟨-, -, rfl, -, hfresh, -⟩ := State.ingest_cases htake
  · -- The digest is repeated, so what waits is folded already.
    have hcovered : Covered w := by
      refine hcareful.imp_right fun hall => ?_
      simpa using hall [] _ hingest
    exact Holds.bind (Holds.pure h.kept (Holds.pure h.kept ⟨h, hcovered⟩))
  · have honce : w.store.harvest = [] ∨ w.notes.folds = 0 := by
      refine hcareful.imp_right fun hall => ?_
      have hdecide := hall _ _ hingest
      rw [hfresh] at hdecide
      simpa using hdecide
    -- The records of the loops leave the notes alone, and the digest folds what waits.
    have hloops : Holds Custody.note Kept (appendAll (s.ingestLoops a).appended)
        (fun _ b => Holding state b ∧ Writes .initial b.store.journal (s.ingestLoops a).state ∧
          b.notes = w.notes) w := by
      refine Rules.appends (J := fun t b => Holding state b ∧
        Writes .initial b.store.journal t ∧ b.notes = w.notes) (s.ingestLoops_agrees a)
        (fun _ b hb => hb.1.kept) ?_ ⟨h, hs, rfl⟩
      intro t b c record hrecord hwritten hfold ⟨hb, hjournal, hnotes⟩
      have hnone := PlanGraph.Convergence.ingested?_of_appended hrecord
      exact ⟨hb.append hjournal hwritten hfold hnone, hjournal.snoc hwritten hfold,
        (note_append hnone).trans hnotes⟩
    refine Holds.bind (Holds.forM_append (hloops.mono fun _ b ⟨hb, hjournal, hnotes⟩ => ?_))
    have hlast : Holding state (b.write Custody.note (.append (.auditIngested a.digest
        (PlanGraph.Convergence.sortKeys (s.activeKeys.filter (· ∉ a.mentioned)))))) := by
      refine hb.ingested hjournal rfl ?_ fun finding hmem => ?_
      · rwa [hnotes, hb.harvest, ← h.harvest]
      · obtain ⟨f, hf, hfinding⟩ := merged_findings hmerge hvalid hmem
        exact ⟨f, hfinding, PlanGraph.Convergence.known_of_ingested s hf⟩
    refine Holds.bind (Holds.put hb.kept hlast.kept (Holds.pure hlast.kept ?_))
    exact Holds.pure hlast.kept ⟨hlast, .inr (Nat.succ_ne_zero _)⟩

theorem repeats?_of_ingest {input : IngestInput} {before : Lifecycle} {merged : Json}
    {records : List Record} {summary : PlanGraph.Convergence.Summary}
    (hcheckpoint : d.checkpoint = some ⟨before, state⟩)
    (hmerged : input.merged state d.artifacts = .ok merged)
    (hingest : ingestAudit d.journal merged = .ok (records, summary)) :
    input.repeats? d = some summary.idempotent := by
  obtain ⟨a, hvalid, hrest⟩ := bind_eq_ok.1 hingest
  obtain ⟨s, hfold, htake⟩ := bind_eq_ok.1 hrest
  have hread : input.repeats? d = if a.digest ∈ s.ingestedDigests then some true
      else if ∀ v ∈ a.verdicts, (s.keys.get? v.key).isSome then some false else none := by
    rw [IngestInput.repeats?, hcheckpoint]
    simp only [Option.bind_eq_bind, Option.bind_some, hmerged, Except.toOption, hvalid, hfold,
      pure]
  obtain ⟨hdigest, -, rfl⟩ | ⟨hdigest, hknown, -, -, hfresh, -⟩ := State.ingest_cases htake
  · rw [hread, if_pos hdigest]
  · rw [hread, if_neg hdigest, if_pos hknown, hfresh]

theorem ingest_holds {head : Option String} {input : IngestInput} (h : Kept w)
    (hcareful : Careful w (.ingest head input)) :
    Holds Custody.note Kept (ingest host head input) (fun _ => Kept) w := by
  refine Holds.bind (Rules.enter h fun before state hcheckpoint => ?_)
  have hload := h.loads before state hcheckpoint
  have hw : Holding state (w.write Custody.note (.save ⟨.ingesting, state⟩)) :=
    hload.save rfl rfl
  have hnotes : (w.write Custody.note (.save ⟨.ingesting, state⟩)).notes = w.notes :=
    note_save rfl hload.harvest.symm
  refine ⟨hw.kept, Holds.bind (Holds.read hw.kept (Holds.bind ?_))⟩
  refine Rules.liftM hw.kept fun merged hmerged => ?_
  obtain ⟨auditResult, -, hmerge⟩ := bind_eq_ok.1 hmerged
  refine Holds.bind ((ingestLedger_holds hw hmerge ?_).mono fun summary b hb => ?_)
  · rw [hnotes, hw.harvest, ← hload.harvest]
    exact hcareful.imp_right fun hall records summary hingest =>
      hall _ (repeats?_of_ingest hcheckpoint hmerged hingest)
  · refine Holds.bind (Holds.read hb.1.kept (Holds.bind ?_))
    refine (quiet_covered.sealAnnotations hb).mono fun annotations c hc => ?_
    exact Rules.save hc.1.kept (hc.1.assign rfl hc.2).kept (hc.1.assign rfl hc.2).kept

/-! ## Close, open and evaluation -/

theorem evaluate_holds {input : TerminationInput} (h : Holding state w) :
    Holds Custody.note Kept (evaluateFrom host (some state) input) (fun _ => Kept) w := by
  refine Rules.evaluateFrom h.kept fun s next report _ hstate _ _ => ?_
  obtain rfl := Option.some.inj hstate
  have hnext : Holding { state with termination := some report }
      (w.write Custody.note (.save ⟨.succeeded, { state with termination := some report }⟩)) :=
    h.save rfl rfl
  exact hnext.kept

theorem close_holds {head : Option String} {input : CloseInput} (h : Kept w)
    (hcareful : Careful w (.close head input)) :
    Holds Custody.note Kept (close host head input) (fun _ => Kept) w := by
  have hload : Loads (fun state w => Holding state w ∧ Covered w) w :=
    fun before state hcheckpoint => ⟨h.loads before state hcheckpoint, hcareful⟩
  refine Holds.bind ((quiet_covered.enter h hload rfl).mono fun state b hb => ?_)
  refine Holds.bind (Rules.liftM hb.1.kept fun outcome _ => ?_)
  refine Holds.bind ((quiet_covered.harvestPayload hb).mono fun payload c hc => ?_)
  refine Holds.bind (Rules.liftM hc.1.kept fun argv _ => ?_)
  have hclosed : Holding (state.closed outcome payload argv) (c.write Custody.note
      (.save ⟨.closed, state.closed outcome payload argv⟩)) := hc.1.assign rfl hc.2
  refine Holds.bind (Rules.save hc.1.kept hclosed.kept ?_)
  refine Holds.bind ((quiet_holding.closeMeasure hclosed).mono fun measured e he => ?_)
  cases input.termination with
  | none => exact Holds.pure he.kept he.kept
  | some termination =>
    exact Holds.bind ((evaluate_holds he).mono fun _ x hx => Holds.pure hx hx)

/-- A campaign is opened once, so nothing waits when it is. -/
theorem openCampaign_eq_ok {journal : List Record} {campaign : Campaign}
    (h : openCampaign journal campaign = .ok record) :
    record = .campaignOpened campaign ∧ ∃ s, fold journal = .ok s ∧ s.campaign = none := by
  obtain ⟨-, h⟩ := require_bind_eq_ok.1 h
  obtain ⟨-, h⟩ := require_bind_eq_ok.1 h
  obtain ⟨_, -, h⟩ := bind_eq_ok.1 h
  obtain ⟨_, -, h⟩ := bind_eq_ok.1 h
  obtain ⟨_, -, h⟩ := bind_eq_ok.1 h
  obtain ⟨-, h⟩ := require_bind_eq_ok.1 h
  obtain ⟨s, hs, h⟩ := bind_eq_ok.1 h
  obtain ⟨hnone, h⟩ := require_bind_eq_ok.1 h
  exact ⟨(Except.ok.inj h).symm, s, hs, Option.isNone_iff_eq_none.1 hnone⟩

theorem open_holds {input : OpenInput} (h : Kept w) :
    Holds Custody.note Kept (openStep input) (fun _ => Kept) w := by
  refine Holds.bind (Rules.liftM h fun _ _ => Holds.bind (Holds.read h (Holds.bind ?_)))
  refine Rules.liftM h fun record hrecord => ?_
  obtain ⟨rfl, s, hfold, hnone⟩ := openCampaign_eq_ok hrecord
  obtain ⟨u, hu, hcampaign⟩ := h.journal
  obtain rfl := Except.ok.inj (hu.fold_eq.symm.trans hfold)
  have hfirst : w.store.checkpoint = none := by
    cases hcheckpoint : w.store.checkpoint with
    | none => rfl
    | some checkpoint =>
      have hsome := hcampaign (by rw [hcheckpoint]; rfl)
      rw [hnone] at hsome
      cases hsome
  have hempty : w.store.harvest = [] := by
    rw [Disk.harvest, hfirst]
    rfl
  have hwrites : Writes .initial (w.store.journal ++ [.campaignOpened input.campaign])
      { u with campaign := some input.campaign } := hu.snoc trivial rfl
  have happended : Kept (w.write Custody.note (.append (.campaignOpened input.campaign))) := by
    refine ⟨⟨_, hwrites, fun _ => rfl⟩, h.lost, h.twice, fun _ finding hmem => ?_⟩
    rw [show (w.write Custody.note (.append (.campaignOpened input.campaign))).store.harvest =
      w.store.harvest from rfl, hempty] at hmem
    cases hmem
  refine Holds.bind (Holds.put h happended ?_)
  have hopened : Kept ((w.write Custody.note (.append (.campaignOpened input.campaign))).write
      Custody.note (.save ⟨.opened, { currentBaseCommit := input.campaign.baseCommit }⟩)) := by
    refine ⟨⟨_, hwrites, fun _ => rfl⟩, ?_, h.twice, fun _ finding hmem => nomatch hmem⟩
    change w.notes.lost ++ w.store.harvest.filter _ = []
    rw [hempty, List.filter_nil, h.lost]
    rfl
  exact Rules.save happended hopened hopened

/-! ## Runs -/

/-- The campaign before it is opened. -/
def Custody.start : Watched Disk Custody := ⟨{}, {}⟩

theorem kept_start : Kept Custody.start :=
  ⟨⟨.initial, .nil _, fun h => nomatch h⟩, rfl, rfl, fun h => absurd rfl h⟩

/-- **A careful step keeps the findings**, wherever it is cut off. -/
theorem step_holds {input : DriverInput} (h : Kept w) (hcareful : Careful w input) :
    Holds Custody.note Kept (input.script host) (fun _ => Kept) w := by
  cases input with
  | openCampaign input => exact open_holds h
  | ingest head input => exact ingest_holds h hcareful
  | close head input => exact close_holds h hcareful
  | evaluateTermination head input =>
    refine Rules.evaluateTermination h fun s before state report _ hcheckpoint _ _ => ?_
    have hnext : Holding { state with termination := some report }
        (w.write Custody.note (.save ⟨.succeeded, { state with termination := some report }⟩)) :=
      (h.loads before state hcheckpoint).save rfl rfl
    exact hnext.kept
  | measure | rule | plan | approvePrepare | approveIssue | runGraph =>
    exact quiet_holding.step h h.loads rfl

theorem kept_of_run
    (h : Inputs.RunsUnder (fun w i => Careful w i.1) (watch host fun _ => Custody.note)
      Custody.start w) : Kept w := by
  refine h.invariant (fun input a b hcareful hstep ha => ?_) kept_start
  cases hstep
  exact (step_holds ha hcareful).cut input.2

def plainHost : Host where
  maxRepairRounds := 3
  digest document := String.ofList (Json.dumps document)
  sanitizer _ text := .ok text
  recallThreshold _ := 0
  amendmentRatioThreshold _ := 1
  reportedRecall _ := 1

def exampleCampaign : Campaign where
  domain := "parity"
  target := .obj [("kind", .str "tree"), ("digest", .str "t1"), ("snapshot_path", .str "snapshot")]
  baseCommit := "c0"
  mergeBase := none
  predecessorGraphId := none
  seedAuditDigest := none
  repoIdentityBranch := none
  config := .obj []

/-- A record that waits in the ledger of a child. -/
def openRecord (evidenceRefs : List Json) : FeatureRun.FindingRecord where
  key := "k1"
  file := "a.py"
  anchorPath := "a.py"
  line := none
  endLine := none
  subject := "s"
  statement := ""
  category := ""
  severity := ""
  score := 0
  fixCost := ""
  protects := ""
  requiresDisposition := true
  contractViolation := false
  scopeExpanding := false
  evidenceRefs := evidenceRefs

/-- A graph whose one node was blocked with the record. -/
def blockedAttempt (r : FeatureRun.FindingRecord) : AttemptDir where
  escalation := some (.obj [("nodes", .arr [.obj [("node_id", .str "n1"),
    ("status", .str "blocked")]])])
  checkpoint := some (.obj [("state", .obj [("nodes", .obj [("n1", .obj [("run_dir",
    .str "runs/n1")])])])])
  reviewLedger _ := some (.obj [("findings", .obj [("k1", r.toJson)])])

def closeBlocked (r : FeatureRun.FindingRecord) : DriverInput :=
  .close none { runResult := .obj [("status", .str "blocked")], attemptDir := some (blockedAttempt r) }

def ingestEmpty (digest : String) : DriverInput :=
  .ingest none { auditResult := some (.obj [("digest", .str digest)]) }

end HarnessLabs.Campaign
