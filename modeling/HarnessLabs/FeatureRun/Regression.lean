import HarnessLabs.FeatureRun.Escalation

/-!
# The regression review

A verified fix awaits the next review, which undoes it where the review reports its key and closes it
where the review does not. The key of a report depends on the switches of the policy and on its place
in the batch, so a report of the same file and statement need not have the key of the record.

* `reopenedBy` — the record with the reports of its key merged, open again.
* `review_pending` — **what a review makes of a record that awaits it.**
* `regression_review_iff` — **a verified fix is held open by the next review exactly when the review
  reports its own key and no downstream node is given the record.**
* `fresh_key_closes` — without the ledger a fix is closed by the review that reports it again.
-/

namespace HarnessLabs.FeatureRun

open List
open Until (foldUntil visit)

/-! ## Merged reports -/

/-- The record with more reports merged into it. -/
def mergeReports (cycle : ℕ) (r : FindingRecord) (reports : List Report) : FindingRecord :=
  reports.foldl (fun r report => mergeOccurrence r report.finding cycle) r

/-- A record with the findings merged into it. -/
structure MergedInto (r : FindingRecord) (merged : List Finding) (s : FindingRecord) : Prop where
  fields : ∃ occurrences cyclesSeen sourceFindingIds evidenceRefs requiredPaths score, s =
    { r with
      occurrences := occurrences
      cyclesSeen := cyclesSeen
      sourceFindingIds := sourceFindingIds
      evidenceRefs := evidenceRefs
      requiredPaths := requiredPaths
      score := score }
  score : ∀ n, n ≤ s.score ↔ n ≤ r.score ∨ ∃ f ∈ merged, ∃ m, f.score? = some m ∧ n ≤ m
  requiredPaths : ∀ path, path ∈ s.requiredPaths ↔
    path ∈ r.requiredPaths ∨ ∃ f ∈ merged, path ∈ f.requiredPaths

theorem mergedInto_mergeOccurrence (r : FindingRecord) (f : Finding) (cycle : ℕ) :
    MergedInto r [f] (mergeOccurrence r f cycle) := by
  refine ⟨⟨_, _, _, _, _, _, rfl⟩, fun n => ?_, fun path => ?_⟩
  · show n ≤ f.score?.elim r.score (max r.score) ↔ _
    cases hscore : f.score? with
    | none => simp [hscore]
    | some m => simp [hscore]
  · simp [mergeOccurrence, mem_appendNew]

theorem MergedInto.trans {r s t : FindingRecord} {first second : List Finding}
    (h : MergedInto r first s) (h' : MergedInto s second t) : MergedInto r (first ++ second) t := by
  obtain ⟨o, c, i, e, paths, score, rfl⟩ := h.fields
  obtain ⟨o', c', i', e', paths', score', rfl⟩ := h'.fields
  refine ⟨⟨o', c', i', e', paths', score', rfl⟩, fun n => ?_, fun path => ?_⟩
  · rw [h'.score, h.score, or_assoc]
    simp only [mem_append, or_and_right, exists_or]
  · rw [h'.requiredPaths, h.requiredPaths, or_assoc]
    simp only [mem_append, or_and_right, exists_or]

theorem mergedInto_mergeReports (r : FindingRecord) (reports : List Report) (cycle : ℕ) :
    MergedInto r (reports.map Report.finding) (mergeReports cycle r reports) := by
  induction reports generalizing r with
  | nil =>
    refine ⟨⟨_, _, _, _, _, _, rfl⟩, fun n => ?_, fun path => ?_⟩ <;> simp [mergeReports]
  | cons report rest ih =>
    exact (mergedInto_mergeOccurrence r report.finding cycle).trans (ih _)

/-! ## Pending records -/

/-- The record with the reports merged into it, open again. -/
def reopenedBy (cycle : ℕ) (r : FindingRecord) (reports : List Report) : FindingRecord :=
  { mergeReports cycle r reports with
    outcome := .opened
    reopenedCount := r.reopenedCount + 1 }

section Pending

variable {loop : ReviewFixLoop} {l l' : ReviewLedger} {policy : ReviewFixPolicy} {frozen : Bool}
  {cycle : ℕ} {findings after : Dict String FindingRecord} {r : FindingRecord} {key : String}

theorem reconsider_pending (h : r.outcome = .pendingReview) (f : Finding) :
    reconsider policy r f = r := by
  simp [reconsider, h]

/-- A report merges into a record that awaits its review. -/
theorem ingestReport_pending {report : Report} (hget : findings.get? report.key = some r)
    (hpending : r.outcome = .pendingReview) :
    ingestReport policy frozen cycle findings report =
      .ok (findings.set report.key (mergeOccurrence r report.finding cycle)) := by
  rw [ingestReport]
  by_cases hdup : report.duplicate = true
  · rw [if_pos hdup, updateKey, hget]
  · rw [if_neg hdup, hget]
    have hmerged : (mergeOccurrence r report.finding cycle).outcome = .pendingReview := hpending
    dsimp only
    rw [reconsider_pending hmerged]

/-- **A batch merges its reports of the key into a record that awaits its review.** -/
theorem get?_batch_pending {reports : List Report}
    (h : foldUntil (ingestReport policy frozen cycle) findings reports = (after, none))
    (hget : findings.get? key = some r) (hpending : r.outcome = .pendingReview) :
    after.get? key = some (mergeReports cycle r (reports.filter (·.key = key))) := by
  induction reports generalizing findings r with
  | nil =>
    obtain ⟨rfl, -⟩ := Prod.mk.inj h
    exact hget
  | cons report rest ih =>
    rw [foldUntil] at h
    cases hok : ingestReport policy frozen cycle findings report with
    | error message =>
      rw [hok] at h
      cases h
    | ok next =>
      rw [hok] at h
      by_cases hkey : report.key = key
      · subst hkey
        rw [ingestReport_pending hget hpending] at hok
        cases hok
        rw [List.filter_cons_of_pos (by simp)]
        exact ih h (Dict.get?_set_self _ _ _) hpending
      · obtain ⟨written, rfl⟩ := ingestReport_sets hok
        rw [List.filter_cons_of_neg (by simpa using hkey)]
        exact ih h ((Dict.get?_set_ne _ _ (Ne.symm hkey)).trans hget) hpending

theorem outcome_mergeReports (cycle : ℕ) (r : FindingRecord) (reports : List Report) :
    (mergeReports cycle r reports).outcome = r.outcome ∧
      (mergeReports cycle r reports).reopenedCount = r.reopenedCount ∧
      (mergeReports cycle r reports).required = r.required ∧
      (mergeReports cycle r reports).file = r.file ∧
      (mergeReports cycle r reports).statement = r.statement := by
  obtain ⟨o, c, i, e, paths, score, hfields⟩ := (mergedInto_mergeReports r reports cycle).fields
  rw [hfields]
  exact ⟨rfl, rfl, rfl, rfl, rfl⟩

/-- What the regression check makes of the record. -/
theorem resolveAbsence_pending (hregression : policy.regressionReviewEnabled = true)
    (hpending : r.outcome = .pendingReview) (reports : List Report) (current : List String) :
    resolveAbsence policy current key (mergeReports cycle r reports) =
      if key ∈ current then reopenedBy cycle r reports
      else { mergeReports cycle r reports with outcome := .fixed } := by
  obtain ⟨houtcome, hreopened, -⟩ := outcome_mergeReports cycle r reports
  rw [resolveAbsence, if_pos ⟨hregression, houtcome.trans hpending⟩]
  by_cases hkey : key ∈ current
  · rw [if_pos hkey, if_pos hkey, reopenedBy, hreopened]
  · rw [if_neg hkey, if_neg hkey]

/-- A required record passes the screens. -/
theorem screenRecord_required {allowed : List String} {r' : FindingRecord}
    (hrequired : r.required = true) (h : screenRecord policy allowed r = .ok r') :
    ∃ outside, r' = { r with anchorOutOfGrant := outside } := by
  unfold screenRecord at h
  split_ifs at h
  · cases h
    exact ⟨r.anchorOutOfGrant, rfl⟩
  · cases h
    exact ⟨false, rfl⟩
  · obtain ⟨outside, -, h⟩ := Audit.bind_eq_ok.1 h
    obtain ⟨fixable, -, h⟩ := Audit.bind_eq_ok.1 h
    cases h
    have hkept : FindingRecord.required { r with anchorOutOfGrant := outside && !fixable } = true :=
      hrequired
    rw [FindingRecord.screened]
    simp [hkept]

/-- What a batch that goes through leaves of a record that awaits its review. -/
theorem ingest_pending (hregression : l.policy.regressionReviewEnabled = true)
    (hget : l.findings.get? key = some r) (hpending : r.outcome = .pendingReview)
    {batch : List Finding} {result : List String × ℕ}
    (h : l.ingest batch cycle = (l', .ok result)) :
    ∃ r₁, l'.findings.get? key = some r₁ ∧ screenRecord l.policy l.allowedPaths
      (if key ∈ (keyed l.policy cycle 1 [] batch).map Report.key then
        reopenedBy cycle r ((keyed l.policy cycle 1 [] batch).filter (·.key = key))
      else { mergeReports cycle r ((keyed l.policy cycle 1 [] batch).filter (·.key = key)) with
        outcome := .fixed }) = .ok r₁ := by
  rw [ReviewLedger.ingest] at h
  rcases hfold : foldUntil (ingestReport l.policy l.discoveryFrozen cycle) l.findings
    (keyed l.policy cycle 1 [] batch) with ⟨ingested, _ | message⟩
  · rw [hfold] at h
    dsimp only at h
    rcases hscreen : visit (screenRecord l.policy l.allowedPaths) (ingested.mapValues
      (resolveAbsence l.policy ((keyed l.policy cycle 1 [] batch).map Report.key).dedup)) with
      ⟨screened, _ | message⟩
    · rw [hscreen] at h
      obtain ⟨rfl, -⟩ := Prod.mk.inj h
      have hbefore : (ingested.mapValues (resolveAbsence l.policy
          ((keyed l.policy cycle 1 [] batch).map Report.key).dedup)).get? key =
          some (resolveAbsence l.policy ((keyed l.policy cycle 1 [] batch).map Report.key).dedup key
            (mergeReports cycle r ((keyed l.policy cycle 1 [] batch).filter (·.key = key)))) := by
        rw [Dict.get?_mapValues, get?_batch_pending hfold hget hpending]
        rfl
      have hvisited := @Until.get?_visit_of_none _ _ _ _ (screenRecord l.policy l.allowedPaths)
        (ingested.mapValues (resolveAbsence l.policy
          ((keyed l.policy cycle 1 [] batch).map Report.key).dedup)) (by rw [hscreen]) _ _ hbefore
      obtain ⟨r₁, hr₁, hleft⟩ := hvisited
      rw [hscreen] at hleft
      rw [resolveAbsence_pending hregression hpending] at hr₁
      simp only [List.mem_dedup] at hr₁
      exact ⟨r₁, hleft, hr₁⟩
    · rw [hscreen] at h
      cases (Prod.mk.inj h).2
  · rw [hfold] at h
    cases (Prod.mk.inj h).2

/-- A transfer names the owner and leaves what the reviewer has said. -/
theorem transfer_fields (r : FindingRecord) (targets : Dict String String) (origin : String)
    (paths : List String) :
    (r.transferTarget targets paths ≠ none →
      (r.transfer targets origin paths).outcome = .transferred) ∧
    (r.transfer targets origin paths).file = r.file ∧
      (r.transfer targets origin paths).statement = r.statement ∧
      (r.transfer targets origin paths).required = r.required := by
  rw [FindingRecord.transfer]
  cases r.transferTarget targets paths with
  | none => exact ⟨fun h => absurd rfl h, rfl, rfl, rfl⟩
  | some target => exact ⟨fun _ => rfl, rfl, rfl, rfl⟩

theorem get?_escalateOutOfGrant (h : loop.escalateOutOfGrant l = (l', none))
    (hget : l.findings.get? key = some r) :
    ∃ r', l'.findings.get? key = some r' ∧
      (r' = r ∨ r.outcome = .opened ∧ r' = r.escalate "required_paths_outside_grant") := by
  rw [ReviewFixLoop.escalateOutOfGrant] at h
  by_cases hoff : ¬ loop.policy.escalationEnabled = true
  · rw [if_pos hoff] at h
    obtain ⟨rfl, -⟩ := Prod.mk.inj h
    exact ⟨r, hget, .inl rfl⟩
  · rw [if_neg hoff] at h
    obtain ⟨hledger, hnone⟩ := Prod.mk.inj h
    obtain ⟨r', hr', hleft⟩ := Until.get?_visit_of_none hnone hget
    rw [← hledger]
    refine ⟨r', hleft, ?_⟩
    rw [escalateRecord] at hr'
    split_ifs at hr' with hout
    · obtain ⟨outside, -, rfl⟩ := Audit.map_eq_ok.1 hr'
      split_ifs
      · exact .inl rfl
      · exact .inr ⟨hout.1, rfl⟩
    · exact .inl (Except.ok.inj hr').symm

/-- **What a review makes of a required record that awaits it**: it closes the record when it does not
report its key, and otherwise opens it again, to be escalated or given to its downstream owner. -/
theorem review_pending (hregression : l.policy.regressionReviewEnabled = true)
    (hget : l.findings.get? key = some r) (hrequired : r.required = true)
    (hpending : r.outcome = .pendingReview) {reply : Except StageFailure (List Json)}
    {fixKeys : List String} {distinct : ℕ}
    (h : loop.reviewPhase l cycle reply = (l', .ok (fixKeys, distinct))) :
    ∃ values batch r', reply = .ok values ∧
      values.mapM (scopeFinding loop.allowedPaths) = .ok batch ∧
      l'.findings.get? key = some r' ∧ r'.file = r.file ∧ r'.statement = r.statement ∧
      r'.required = true ∧
      (key ∉ (keyed l.policy cycle 1 [] batch).map Report.key → r'.outcome = .fixed) ∧
      (key ∈ (keyed l.policy cycle 1 [] batch).map Report.key → ∃ r₁,
        screenRecord l.policy l.allowedPaths
          (reopenedBy cycle r ((keyed l.policy cycle 1 [] batch).filter (·.key = key))) = .ok r₁ ∧
        (r₁.transferTarget loop.findingTransferTargets loop.allowedPaths = none →
          r'.outcome = .opened ∨ r'.outcome = .escalated) ∧
        (r₁.transferTarget loop.findingTransferTargets loop.allowedPaths ≠ none →
          r'.outcome = .transferred)) := by
  unfold ReviewFixLoop.reviewPhase at h
  cases reply with
  | error failure => cases (Prod.mk.inj h).2
  | ok values =>
  dsimp only at h
  cases hscope : values.mapM (scopeFinding loop.allowedPaths) with
  | error message =>
    rw [hscope] at h
    cases (Prod.mk.inj h).2
  | ok batch =>
  rw [hscope] at h
  dsimp only at h
  rcases hingest : l.ingest batch cycle with ⟨ingested, message | ⟨reported, count⟩⟩
  · rw [hingest] at h
    cases (Prod.mk.inj h).2
  rw [hingest] at h
  dsimp only at h
  obtain ⟨r₁, hr₁, hscreen⟩ := ingest_pending hregression hget hpending hingest
  rcases hescalate : loop.escalateOutOfGrant (ingested.transferScopeExpanding
    loop.findingTransferTargets loop.originNodeId loop.allowedPaths).1 with ⟨escalated, _ | message⟩
  · rw [hescalate] at h
    obtain ⟨hl', -⟩ := Prod.mk.inj h
    have htransfer : (ingested.transferScopeExpanding loop.findingTransferTargets loop.originNodeId
        loop.allowedPaths).1.findings.get? key =
        some (r₁.transfer loop.findingTransferTargets loop.originNodeId loop.allowedPaths) := by
      show (ingested.findings.mapValues _).get? key = _
      rw [Dict.get?_mapValues, hr₁]
      rfl
    obtain ⟨r', hr', hcases⟩ := get?_escalateOutOfGrant hescalate htransfer
    obtain ⟨houtcome, -, hmerged, hfile, hstatement⟩ := outcome_mergeReports cycle r
      ((keyed l.policy cycle 1 [] batch).filter (·.key = key))
    have hbefore : (if key ∈ (keyed l.policy cycle 1 [] batch).map Report.key then
        reopenedBy cycle r ((keyed l.policy cycle 1 [] batch).filter (·.key = key))
      else { mergeReports cycle r ((keyed l.policy cycle 1 [] batch).filter (·.key = key)) with
        outcome := .fixed }).required = true := by
      split_ifs
      · exact hmerged.trans hrequired
      · exact hmerged.trans hrequired
    obtain ⟨outside, hscreened⟩ := screenRecord_required hbefore hscreen
    have hsame : r₁.file = r.file ∧ r₁.statement = r.statement ∧ r₁.required = true := by
      rw [hscreened]
      refine ⟨?_, ?_, hbefore⟩
      · split_ifs
        · exact hfile
        · exact hfile
      · split_ifs
        · exact hstatement
        · exact hstatement
    have hout : r₁.outcome =
        if key ∈ (keyed l.policy cycle 1 [] batch).map Report.key then .opened else .fixed := by
      rw [hscreened]
      split_ifs
      · rfl
      · rfl
    obtain ⟨hmoved, hthere⟩ := transfer_fields r₁ loop.findingTransferTargets loop.originNodeId
      loop.allowedPaths
    obtain ⟨hfile', hstatement', hrequired'⟩ := hthere
    have hleft : r'.file = r.file ∧ r'.statement = r.statement ∧ r'.required = true := by
      obtain rfl | ⟨-, rfl⟩ := hcases
      · exact ⟨hfile'.trans hsame.1, hstatement'.trans hsame.2.1, hrequired'.trans hsame.2.2⟩
      · exact ⟨hfile'.trans hsame.1, hstatement'.trans hsame.2.1, hrequired'.trans hsame.2.2⟩
    refine ⟨values, batch, r', rfl, hscope, hl' ▸ hr', hleft.1, hleft.2.1, hleft.2.2, fun hkey => ?_,
      fun hkey => ⟨r₁, ?_, fun hnone => ?_, fun hsome => ?_⟩⟩
    · rw [if_neg hkey] at hout
      have hnone : r₁.transferTarget loop.findingTransferTargets loop.allowedPaths = none := by
        rw [FindingRecord.transferTarget, if_neg]
        intro hopen
        rw [hout] at hopen
        obtain hbad | ⟨-, hbad⟩ := hopen.1
        · cases hbad
        · cases hbad
      rw [FindingRecord.transfer, hnone] at hcases
      obtain rfl | ⟨hopened, -⟩ := hcases
      · exact hout
      · rw [hout] at hopened
        cases hopened
    · rwa [if_pos hkey] at hscreen
    · rw [if_pos hkey] at hout
      rw [FindingRecord.transfer, hnone] at hcases
      obtain rfl | ⟨-, rfl⟩ := hcases
      · exact .inl hout
      · exact .inr rfl
    · have htransferred := hmoved hsome
      obtain rfl | ⟨hopened, -⟩ := hcases
      · exact htransferred
      · rw [htransferred] at hopened
        cases hopened
  · rw [hescalate] at h
    cases (Prod.mk.inj h).2

end Pending

/-! ## The review behind a fix -/

section Reviews

variable {loop : ReviewFixLoop} {s s' : ReviewState} {l l' : ReviewLedger} {replies : CycleReplies}
  {cycle distinct : ℕ} {fixKeys : List String} {r : FindingRecord} {key : String}

/-- What a review hands to the fixer is open. -/
theorem reviewPhase_opened {reply : Except StageFailure (List Json)}
    (h : loop.reviewPhase l cycle reply = (l', .ok (fixKeys, distinct))) :
    ∀ k ∈ fixKeys, ∃ r, l'.findings.get? k = some r ∧ r.outcome = .opened := by
  unfold ReviewFixLoop.reviewPhase at h
  cases reply with
  | error failure => cases (Prod.mk.inj h).2
  | ok values =>
  dsimp only at h
  cases hscope : values.mapM (scopeFinding loop.allowedPaths) with
  | error message =>
    rw [hscope] at h
    cases (Prod.mk.inj h).2
  | ok batch =>
  rw [hscope] at h
  dsimp only at h
  rcases hingest : l.ingest batch cycle with ⟨ingested, message | ⟨reported, count⟩⟩
  · rw [hingest] at h
    cases (Prod.mk.inj h).2
  rw [hingest] at h
  dsimp only at h
  rcases hescalate : loop.escalateOutOfGrant (ingested.transferScopeExpanding
    loop.findingTransferTargets loop.originNodeId loop.allowedPaths).1 with ⟨escalated, _ | message⟩
  · rw [hescalate] at h
    obtain ⟨rfl, hok⟩ := Prod.mk.inj h
    obtain ⟨rfl, -⟩ := Prod.mk.inj (Except.ok.inj hok)
    exact fun k hk => mem_keysToFix.1 hk
  · rw [hescalate] at h
    cases (Prod.mk.inj h).2

/-- **A cycle does not succeed while a required record is escalated behind its review.** -/
theorem escalated_blocks
    (hreview : loop.reviewPhase l cycle replies.review = (l', .ok (fixKeys, distinct)))
    (hkeys : ∀ k ∈ fixKeys, ∃ r, l'.findings.get? k = some r ∧ r.outcome = .opened)
    (hget : l'.findings.get? key = some r) (hescalated : r.outcome = .escalated)
    (hrequired : r.required = true) (streak : ℕ) {result : ReviewFixResult}
    (hresult : (loop.cycleStep l cycle streak replies).result = some result) :
    result.status ≠ .succeeded := by
  have hall : l'.findings.All fun k r' => (k = key → r'.outcome = .escalated) ∧
      (k = key → HasFlags r.requiresDisposition r.contractViolation r') := by
    intro k r' hr'
    refine ⟨fun hk => ?_, fun hk => ?_⟩
    · subst hk
      cases hget.symm.trans hr'
      exact hescalated
    · subst hk
      cases hget.symm.trans hr'
      exact ⟨rfl, rfl⟩
  have hother : ∀ k ∈ fixKeys, k ≠ key := by
    intro k hk heq
    obtain ⟨r', hr', hopened⟩ := hkeys k hk
    rw [(hall k r' hr').1 heq] at hopened
    cases hopened
  have hconcluded := cycleStep_reviewed ((keeps_escalated loop l'.policy l'.allowedPaths).and
    (keeps_flags l'.policy l'.allowedPaths _)) hreview hall hother streak
  intro hsucceeded
  obtain ⟨-, hnone⟩ := hconcluded.sealed.cleared result hresult hsucceeded
  rw [ReviewLedger.escalatedRequired, ReviewLedger.keysWhere_eq_nil] at hnone
  have hkept : key ∈ (loop.cycleStep l cycle streak replies).ledger.findings.keys := by
    refine cycleStep_reviewed_keys loop hreview streak key (Dict.mem_keys_iff.2 ⟨r, hget⟩)
  obtain ⟨r', hr'⟩ := Dict.mem_keys_iff.1 hkept
  obtain ⟨hout, hflags⟩ := hconcluded.follows.findings key r' hr'
  have hrequired' : r'.required = r.required := by
    rw [FindingRecord.required, FindingRecord.required, (hflags rfl).1, (hflags rfl).2]
  have hbad := hnone key r' hr'
  rw [hrequired', hrequired, hout rfl] at hbad
  simp at hbad

/-- Behind the review a record of the finding is open, or escalated in a cycle that does not
succeed. -/
def HeldOpen (l' : ReviewLedger) (s' : ReviewState) (r : FindingRecord) : Prop :=
  ∃ key r', l'.findings.get? key = some r' ∧ r'.file = r.file ∧ r'.statement = r.statement ∧
    (r'.outcome = .opened ∨ r'.outcome = .escalated ∧
      ∀ result, s'.result = some result → result.status ≠ .succeeded)

/-- The review gives the record, with the reports of its key merged, to no downstream node. -/
def Stays (loop : ReviewFixLoop) (s : ReviewState) (replies : CycleReplies) (key : String)
    (r : FindingRecord) : Prop :=
  ∀ values batch r₁, replies.review = .ok values →
    values.mapM (scopeFinding loop.allowedPaths) = .ok batch →
    screenRecord s.ledger.policy s.ledger.allowedPaths (reopenedBy (s.cycle + 1) r
      ((keyed s.ledger.policy (s.cycle + 1) 1 [] batch).filter (·.key = key))) = .ok r₁ →
    r₁.transferTarget loop.findingTransferTargets loop.allowedPaths = none

/-- **A verified fix is held open by the next review when the review reports its own key and no
downstream node is given the record; and the record itself is held open in this case only.** -/
theorem regression_review_iff (hcyclic : loop.boundedFixOnly = false)
    (hregression : s.ledger.policy.regressionReviewEnabled = true)
    (hget : s.ledger.findings.get? key = some r) (hrequired : r.required = true)
    (hpending : r.outcome = .pendingReview) (hstep : loop.step replies s = some s')
    (hreview : loop.reviewPhase s.ledger (s.cycle + 1) replies.review =
      (l', .ok (fixKeys, distinct))) :
    (Rereports loop s replies key ∧ Stays loop s replies key r → HeldOpen l' s' r) ∧
    (l'.hasOutcome .opened key = true ∨ l'.hasOutcome .escalated key = true ↔
      Rereports loop s replies key ∧ Stays loop s replies key r) := by
  obtain ⟨values, batch, r', hvalues, hscope, hr', hfile, hstatement, hrequired', hfixed, hopened⟩ :=
    review_pending hregression hget hrequired hpending hreview
  have hreports : Rereports loop s replies key ↔
      key ∈ (keyed s.ledger.policy (s.cycle + 1) 1 [] batch).map Report.key := by
    constructor
    · rintro ⟨_, values', batch', hvalues', hscope', hkey⟩
      cases hvalues.symm.trans hvalues'
      cases hscope.symm.trans hscope'
      exact hkey
    · exact fun hkey => ⟨hcyclic, values, batch, hvalues, hscope, hkey⟩
  have hrecord : l'.hasOutcome .opened key = true ∨ l'.hasOutcome .escalated key = true ↔
      r'.outcome = .opened ∨ r'.outcome = .escalated := by
    simp only [ReviewLedger.hasOutcome_iff, hr', Option.some_inj, exists_eq_left']
  have hiff : (r'.outcome = .opened ∨ r'.outcome = .escalated) ↔
      Rereports loop s replies key ∧ Stays loop s replies key r := by
    rw [hreports]
    constructor
    · intro hout
      have hkey : key ∈ (keyed s.ledger.policy (s.cycle + 1) 1 [] batch).map Report.key := by
        by_contra hkey
        rw [hfixed hkey] at hout
        simp at hout
      obtain ⟨r₁, hr₁, -, htransferred⟩ := hopened hkey
      refine ⟨hkey, fun values' batch' r₂ hvalues' hscope' hr₂ => ?_⟩
      cases hvalues.symm.trans hvalues'
      cases hscope.symm.trans hscope'
      cases hr₁.symm.trans hr₂
      by_contra htarget
      rw [htransferred htarget] at hout
      simp at hout
    · rintro ⟨hkey, hstays⟩
      obtain ⟨r₁, hr₁, hnone, -⟩ := hopened hkey
      exact hnone (hstays values batch r₁ hvalues hscope hr₁)
  refine ⟨fun hheld => ⟨key, r', hr', hfile, hstatement, ?_⟩, hrecord.trans hiff⟩
  refine (hiff.2 hheld).imp_right fun hescalated => ⟨hescalated, fun result hresult => ?_⟩
  rw [ReviewFixLoop.step, hcyclic] at hstep
  simp only [Bool.false_eq_true, if_false] at hstep
  split_ifs at hstep
  cases hstep
  exact escalated_blocks hreview (reviewPhase_opened hreview) hr' hescalated hrequired'
    s.lowYieldStreak hresult

end Reviews

/-- The crash is fixed, and reported again. -/
theorem regression_review_crash : ∃ s s' l' r,
    stateAfter plainLoop [repliesOf [crashOnEmptyInput true] ["src/app.py:crash"]
      ["src/app.py:crash"]] = some s ∧
    plainLoop.step (repliesOf [crashOnEmptyInput true] [] []) s = some s' ∧
    s.ledger.findings.get? "src/app.py:crash" = some r ∧ r.outcome = .pendingReview ∧
    HeldOpen l' s' r := by
  let fixed := repliesOf [crashOnEmptyInput true] ["src/app.py:crash"] ["src/app.py:crash"]
  let again := repliesOf [crashOnEmptyInput true] [] []
  have hrun : ((stateAfter plainLoop [fixed]).bind fun s =>
      (s.ledger.findings.get? "src/app.py:crash").map fun r =>
        (r.required, r.outcome, (plainLoop.step again s).isSome,
          s.ledger.policy.regressionReviewEnabled)) = some (true, .pendingReview, true, true) := by
    decide +kernel
  have hreviewed : ((stateAfter plainLoop [fixed]).bind fun s =>
      match plainLoop.reviewPhase s.ledger (s.cycle + 1) again.review with
      | (l', .ok _) => some (l'.hasOutcome .opened "src/app.py:crash")
      | (_, .error _) => none) = some true := by
    decide +kernel
  obtain ⟨s, hs, hrecord⟩ := Option.bind_eq_some_iff.1 hrun
  obtain ⟨r, hr, hfields⟩ := Option.map_eq_some_iff.1 hrecord
  simp only [Prod.mk.injEq] at hfields
  obtain ⟨hrequired, hpending, hsteps, hregression⟩ := hfields
  obtain ⟨s', hstep⟩ := Option.isSome_iff_exists.1 hsteps
  rw [hs, Option.bind_some] at hreviewed
  rcases hreview : plainLoop.reviewPhase s.ledger (s.cycle + 1) again.review with
    ⟨l', failure | ⟨fixKeys, distinct⟩⟩
  · rw [hreview] at hreviewed
    cases hreviewed
  rw [hreview] at hreviewed
  have hheld := regression_review_iff rfl hregression hr hrequired hpending hstep hreview
  exact ⟨s, s', l', r, hs, hstep, hr, hpending, hheld.1 (hheld.2.1 (.inl (Option.some.inj hreviewed)))⟩

/-- A loop without a ledger of findings. -/
def ledgerlessLoop : ReviewFixLoop :=
  { plainLoop with policy := { ReviewFixPolicy.standard with ledgerEnabled := false } }

/-- The crash under another subject, in the same file and with the same statement. -/
def renamedCrash : Json :=
  Json.ofMembers [("id", .str "F2"), ("file", .str "src/app.py"), ("subject", .str "empty input"),
    ("statement", .str "crash on empty input"), ("severity", .str "major"),
    ("protects", .str "AC1"), ("requires_disposition", .bool true)]

/-- **A required finding that the next review reports again is closed: without the ledger its report
has a fresh key, and with it a report under another subject has. Both runs succeed.** -/
theorem fresh_key_closes :
    outcomesAfter ledgerlessLoop [repliesOf [crashOnEmptyInput true]
      ["cycle-1/1/src/app.py:crash"] ["cycle-1/1/src/app.py:crash"],
      repliesOf [crashOnEmptyInput true] [] []] =
      some (some .succeeded, [("cycle-1/1/src/app.py:crash", .fixed),
        ("cycle-2/1/src/app.py:crash", .deferred)]) ∧
    outcomesAfter plainLoop [repliesOf [crashOnEmptyInput true] ["src/app.py:crash"]
      ["src/app.py:crash"], repliesOf [renamedCrash] [] []] =
      some (some .succeeded, [("src/app.py:crash", .fixed), ("src/app.py:empty-input", .deferred)]) := by
  decide +kernel

end HarnessLabs.FeatureRun
