import HarnessLabs.PlanGraph.ConvergenceRetry

/-!
# The answer of an ingest

What the ledger answers an ingest with, read off the records that the ingest appends.

* `State.ingest_cases` — **an ingest repeats a digest and appends nothing, or it records the digest
  behind its loops** and answers with the keys that the loops opened.
* `known_of_ingested` — behind it the key of every finding is known, and a key stays known.
-/

namespace HarnessLabs.PlanGraph.Convergence

open List Option
open Audit (bind_eq_ok)

/-! ## Valid audits -/

/-- What an audit result that passes its validation has to say. -/
structure ValidAudit (auditResult : Json) (a : AuditResult) : Prop where
  mapping : auditResult.asMembers?.isSome
  digest : requireText (field auditResult "digest") "audit_result is missing a non-empty 'digest'" =
    .ok a.digest
  findings : ∃ items, listOf auditResult "findings" = .ok items ∧
    items.mapM validateFinding = .ok a.findings
  verdicts : ∃ items, listOf auditResult "verdicts" = .ok items ∧
    items.mapM validateVerdict = .ok a.verdicts
  confirmedGood : ∃ items, listOf auditResult "confirmed_good" = .ok items ∧
    items.mapM validateConfirmedGood = .ok a.confirmedGood
  captureCoverage : ∃ members, membersOf auditResult "capture_coverage" = .ok members ∧
    validateCoverage ∅ members = .ok a.captureCoverage

variable {a : AuditResult} {s t : State} {record : Record}

theorem validateAudit_eq_ok_iff {auditResult : Json} :
    validateAudit auditResult = .ok a ↔ ValidAudit auditResult a := by
  constructor
  · intro h
    obtain ⟨⟨⟩, hmapping, h⟩ := bind_eq_ok.1 h
    obtain ⟨digest, hdigest, h⟩ := bind_eq_ok.1 h
    obtain ⟨items, hitems, h⟩ := bind_eq_ok.1 h
    obtain ⟨findings, hfindings, h⟩ := bind_eq_ok.1 h
    obtain ⟨cited, hcited, h⟩ := bind_eq_ok.1 h
    obtain ⟨verdicts, hverdicts, h⟩ := bind_eq_ok.1 h
    obtain ⟨entries, hentries, h⟩ := bind_eq_ok.1 h
    obtain ⟨confirmed, hconfirmed, h⟩ := bind_eq_ok.1 h
    obtain ⟨members, hmembers, h⟩ := bind_eq_ok.1 h
    obtain ⟨coverage, hcoverage, h⟩ := bind_eq_ok.1 h
    cases h
    refine ⟨?_, hdigest, ⟨items, hitems, hfindings⟩, ⟨cited, hcited, hverdicts⟩,
      ⟨entries, hentries, hconfirmed⟩, ⟨members, hmembers, hcoverage⟩⟩
    rw [requireMapping, Audit.require] at hmapping
    split_ifs at hmapping with hsome
    exact hsome
  · intro h
    obtain ⟨items, hitems, hfindings⟩ := h.findings
    obtain ⟨cited, hcited, hverdicts⟩ := h.verdicts
    obtain ⟨entries, hentries, hconfirmed⟩ := h.confirmedGood
    obtain ⟨members, hmembers, hcoverage⟩ := h.captureCoverage
    have hmapping : requireMapping auditResult "audit_result must be an object" = .ok () :=
      if_pos h.mapping
    rw [validateAudit, bind_eq_ok]
    refine ⟨(), hmapping, bind_eq_ok.2 ⟨_, h.digest, bind_eq_ok.2 ⟨_, hitems, ?_⟩⟩⟩
    refine bind_eq_ok.2 ⟨_, hfindings, bind_eq_ok.2 ⟨_, hcited, bind_eq_ok.2 ⟨_, hverdicts, ?_⟩⟩⟩
    refine bind_eq_ok.2 ⟨_, hentries, bind_eq_ok.2 ⟨_, hconfirmed, ?_⟩⟩
    exact bind_eq_ok.2 ⟨_, hmembers, bind_eq_ok.2 ⟨_, hcoverage, rfl⟩⟩

/-! ## Known keys -/

theorem isSome_setInfo {key other : Key} {info : KeyInfo} (h : (s.keys.get? other).isSome) :
    ((s.setInfo key info).keys.get? other).isSome := by
  by_cases heq : other = key <;> simp [heq, h]

/-- A key stays known. -/
theorem Written.keeps_known (hwritten : Written s record) (hfold : foldOne s record = some t)
    {key : Key} (h : (s.keys.get? key).isSome) :
    (t.keys.get? key).isSome := by
  cases record with
  | campaignOpened | captureCoverage | targetAmended | auditIngested =>
    cases hfold
    exact h
  | findingOpened | findingFixClaimed =>
    cases hfold
    exact isSome_setInfo h
  | findingFixed | findingInvalidated | findingReopened | findingRuled =>
    obtain ⟨info, -, rfl⟩ := map_eq_some_iff.1 hfold
    exact isSome_setInfo h
  | baseRebase keys note =>
    obtain ⟨e, he, rfl⟩ := map_eq_some_iff.1 hfold
    rw [show e.get? key = _ from get?_demoteAll he hwritten.1 key]
    by_cases hkey : key ∈ keys <;> simp [hkey, h]
  | confirmedGood other assertion =>
    by_cases hassertion : assertion.isSome
    · rw [foldOne, if_pos hassertion] at hfold
      cases hfold
      exact isSome_setInfo h
    · rw [foldOne, if_neg hassertion] at hfold
      cases hfold
      exact h

theorem observed?_emitted (t : Option Track) : (observed? t .emitted).isSome := by
  cases t <;> rfl

theorem observeAll_of_emitted {observations : List Observation} (h : .emitted ∈ observations)
    (t : Option Track) : (observeAll observations t).isSome := by
  induction observations generalizing t with
  | nil => cases h
  | cons o rest ih =>
    obtain heq | hrest := mem_cons.1 h
    · subst heq
      exact observeAll_isSome (observed?_emitted t) rest
    · exact ih hrest _

/-- Behind an ingest the ledger knows the key of every finding in it. -/
theorem known_of_ingested (s : State) {finding : Finding} (h : finding ∈ a.findings) :
    ((s.ingested a).keys.get? finding.key).isSome := by
  have hobserved : .emitted ∈ a.observations s finding.key := by
    refine mem_filterMap.2 ⟨.finding finding, ?_, if_pos rfl⟩
    exact mem_cons_of_mem _ (mem_append_left _
      (mem_append_right _ (mem_map_of_mem h)))
  have htrack := track_ingested s a finding.key
  have hsome := observeAll_of_emitted hobserved (s.track finding.key)
  rwa [← htrack, State.track, isSome_map] at hsome

/-! ## Digests -/

def Record.ingested? : Record → Option String
  | .auditIngested digest _ => some digest
  | _ => none

theorem ingestedDigests_foldOne (hfold : foldOne s record = some t) :
    t.ingestedDigests = s.ingestedDigests ++ record.ingested?.toList := by
  cases record with
  | auditIngested =>
    cases hfold
    rfl
  | campaignOpened | captureCoverage | targetAmended | findingOpened | findingFixClaimed =>
    cases hfold
    exact (append_nil _).symm
  | findingFixed | findingInvalidated | findingReopened | findingRuled =>
    obtain ⟨info, -, rfl⟩ := map_eq_some_iff.1 hfold
    exact (append_nil _).symm
  | baseRebase =>
    obtain ⟨e, -, rfl⟩ := map_eq_some_iff.1 hfold
    exact (append_nil _).symm
  | confirmedGood other assertion =>
    rw [foldOne] at hfold
    split_ifs at hfold <;> obtain rfl := Option.some.inj hfold <;>
      exact (append_nil _).symm

theorem ingestedDigests_writes {records : List Record} (h : Writes s records t) :
    t.ingestedDigests = s.ingestedDigests ++ records.filterMap Record.ingested? := by
  induction h with
  | nil => exact (append_nil _).symm
  | @cons s t u record rest _ hfold _ ih =>
    rw [ih, ingestedDigests_foldOne hfold, append_assoc, filterMap_cons]
    cases record.ingested? <;> rfl

/-- The loops of an ingest record no digest. -/
theorem ingested?_of_appended (h : record ∈ (s.ingestLoops a).appended) :
    record.ingested? = none := by
  have hdigests : (s.ingestLoops a).state.ingestedDigests = s.ingestedDigests := by
    rw [ingestLoops_eq]
    exact Ingest.ingestedDigests_foldl a.items
  have hwrites := ingestedDigests_writes (s.ingestLoops_agrees a)
  rw [hdigests, self_eq_append_right, filterMap_eq_nil_iff] at hwrites
  exact hwrites record h

/-! ## The summary -/

/-- The key that a record opens. -/
def Record.opened? : Record → Option Key
  | .findingOpened _ finding => some finding.key
  | _ => none

/-- The summary of an ingest lists the keys that its records open. -/
structure Ingest.Summarized (a : AuditResult) (i : Ingest) : Prop where
  digest : i.summary.digest = a.digest
  fresh : i.summary.idempotent = false
  opened : i.summary.opened = i.appended.filterMap Record.opened?

namespace Ingest.Summarized

variable {a : AuditResult} {i j : Ingest}

/-- A record that opens no key. -/
theorem snoc (h : Summarized a i) {record : Record} (hrecord : record.opened? = none)
    (happended : j.appended = i.appended ++ [record])
    (hdigest : j.summary.digest = i.summary.digest)
    (hfresh : j.summary.idempotent = i.summary.idempotent)
    (hopened : j.summary.opened = i.summary.opened) : Summarized a j := by
  refine ⟨hdigest.trans h.digest, hfresh.trans h.fresh, ?_⟩
  rw [hopened, h.opened, happended, filterMap_append]
  simp [hrecord]

theorem same (h : Summarized a i) (happended : j.appended = i.appended)
    (hdigest : j.summary.digest = i.summary.digest)
    (hfresh : j.summary.idempotent = i.summary.idempotent)
    (hopened : j.summary.opened = i.summary.opened) : Summarized a j :=
  ⟨hdigest.trans h.digest, hfresh.trans h.fresh, by rw [hopened, h.opened, happended]⟩

theorem reopen (h : Summarized a i) (key : Key) (info : KeyInfo) (reason : ReopenReason) :
    Summarized a (i.reopen key info reason a.digest) :=
  h.snoc (show Record.opened? (.findingReopened key reason a.digest) = none from rfl) rfl rfl rfl
    rfl

theorem fix (h : Summarized a i) (key : Key) (info : KeyInfo) (cell assertion : String) :
    Summarized a (Ingest.fix a i key info cell assertion) := by
  unfold Ingest.fix
  split_ifs
  · exact h.snoc (show Record.opened? (.findingFixed key cell assertion a.digest) = none from rfl)
      rfl rfl rfl rfl
  · exact h

theorem verdictStep (h : Summarized a i) (v : Verdict) :
    Summarized a (Ingest.verdictStep a i v) := by
  have hmention : Summarized a (i.mention v) := by
    unfold Ingest.mention
    split_ifs
    · exact h
    · exact h.same rfl rfl rfl rfl
  unfold Ingest.verdictStep Ingest.observe
  cases (i.mention v).state.keys.get? v.key with
  | none => exact hmention
  | some info =>
    cases v.kind with
    | observedFixed cell assertion =>
      simp only [Ingest.observedFixed]
      split
      · exact hmention.same rfl rfl rfl rfl
      · exact hmention.same rfl rfl rfl rfl
      · exact hmention.fix v.key info cell assertion
      · exact hmention.fix v.key info cell assertion
    | reopened =>
      simp only [Ingest.observedReopened]
      split_ifs
      · exact hmention.reopen v.key info _
      · exact hmention.reopen v.key info _
      · exact hmention
    | invalidated =>
      simp only [Ingest.observedInvalidated]
      split_ifs
      · exact hmention.snoc (show Record.opened? (.findingInvalidated v.key a.digest) = none
          from rfl) rfl rfl rfl rfl
      · exact hmention
    | unobserved => exact hmention

theorem findingStep (h : Summarized a i) (finding : Finding) :
    Summarized a (Ingest.findingStep a i finding) := by
  unfold Ingest.findingStep
  cases i.state.keys.get? finding.key with
  | none =>
    refine ⟨h.digest, h.fresh, ?_⟩
    change i.summary.opened ++ [finding.key] =
      (i.appended ++ [Record.findingOpened a.digest finding]).filterMap Record.opened?
    rw [h.opened, filterMap_append]
    rfl
  | some info =>
    simp only
    split_ifs
    · exact h.reopen finding.key info _
    · exact h.reopen finding.key info _
    · exact h

theorem confirmedStep (h : Summarized a i) (entry : ConfirmedGood) :
    Summarized a (Ingest.confirmedStep a i entry) := by
  have hrecord : Record.opened? (.confirmedGood entry.key entry.assertion entry.reason a.digest) =
      none := rfl
  unfold Ingest.confirmedStep
  split_ifs
  · exact h.snoc hrecord rfl rfl rfl rfl
  · exact h.snoc hrecord rfl rfl rfl rfl

end Ingest.Summarized

theorem summarized_ingest (s : State) (a : AuditResult) :
    Ingest.Summarized a (s.ingestLoops a) := by
  have hstart : Ingest.Summarized a (Ingest.coverageStep a
      { state := s, summary := { digest := a.digest } }) := by
    unfold Ingest.coverageStep
    split_ifs
    · exact ⟨rfl, rfl, rfl⟩
    · exact ⟨rfl, rfl, rfl⟩
  refine List.foldlRecOn _ _ (List.foldlRecOn _ _ (List.foldlRecOn _ _ hstart ?_) ?_) ?_
  · exact fun i h v _ => h.verdictStep v
  · exact fun i h finding _ => h.findingStep finding
  · exact fun i h entry _ => h.confirmedStep entry

/-- What an ingest that does not raise appends, and what it answers. -/
theorem State.ingest_cases {records : List Record} {summary : Summary}
    (h : s.ingest a = .ok (records, summary)) :
    a.digest ∈ s.ingestedDigests ∧ records = [] ∧
        summary = { digest := a.digest, idempotent := true } ∨
      a.digest ∉ s.ingestedDigests ∧ (∀ v ∈ a.verdicts, (s.keys.get? v.key).isSome) ∧
        records = (s.ingestLoops a).appended ++ [.auditIngested a.digest
          (sortKeys (s.activeKeys.filter (· ∉ a.mentioned)))] ∧
        summary.digest = a.digest ∧ summary.idempotent = false ∧
        summary.opened = (s.ingestLoops a).appended.filterMap Record.opened? := by
  obtain ⟨hdigest, hrecords⟩ | ⟨hdigest, hknown, hrecords⟩ := State.ingest_eq_ok h
  · rw [State.ingest, if_pos hdigest] at h
    exact .inl ⟨hdigest, hrecords, (Prod.mk.inj (Except.ok.inj h)).2.symm⟩
  · have hsummarized := summarized_ingest s a
    have hsummary : summary = { (s.ingestLoops a).summary with
        unobserved := sortKeys (s.activeKeys.filter (· ∉ (s.ingestLoops a).mentioned)) } := by
      have hfind : (a.verdicts.find? fun v => (s.keys.get? v.key).isNone) = none := by
        rw [List.find?_eq_none]
        intro v hv
        simp [isSome_iff_ne_none.1 (hknown v hv)]
      rw [State.ingest, if_neg hdigest, hfind] at h
      exact (Prod.mk.inj (Except.ok.inj h)).2.symm
    rw [mentioned_ingest] at hrecords
    refine .inr ⟨hdigest, hknown, hrecords, ?_, ?_, ?_⟩
    · rw [hsummary]
      exact hsummarized.digest
    · rw [hsummary]
      exact hsummarized.fresh
    · rw [hsummary]
      exact hsummarized.opened

end HarnessLabs.PlanGraph.Convergence
