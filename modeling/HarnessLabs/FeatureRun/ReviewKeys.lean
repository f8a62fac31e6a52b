import HarnessLabs.Core.AuditJournal
import HarnessLabs.FeatureRun.ReviewSound

/-!
# What a cycle leaves of a record

No operation of the ledger takes a record away or changes what the reviewer has said of a finding.

* `KeysKept` — a ledger that still has every key.
* `step_keys` — **a cycle keeps every key.**
* `get?_foldUntil_updateKey_of_mem` — what a loop over keys leaves of each of them.
* `run_continues` — **a record is found again in every later state of a run**, and its history is
  only added to.
-/

namespace HarnessLabs.FeatureRun

open List
open Inputs (Runs)
open Until (foldUntil visit)

/-! ## Histories -/

/-- The record has these flags. -/
def HasFlags (requires violates : Bool) (r : FindingRecord) : Prop :=
  r.requiresDisposition = requires ∧ r.contractViolation = violates

/-- What the reviewer has said of the finding. -/
def FindingRecord.said (r : FindingRecord) : List String :=
  [r.key, r.file, r.subject, r.statement, r.category, r.severity, r.protects]

/-- What was said of a finding stays, and what was seen of it is only added to. -/
structure Continues (r r' : FindingRecord) : Prop where
  said : r'.said = r.said
  flags : HasFlags r.requiresDisposition r.contractViolation r'
  score : r.score ≤ r'.score
  occurrences : r.occurrences ≤ r'.occurrences
  reopened : r.reopenedCount ≤ r'.reopenedCount
  cycles : r.cyclesSeen <+: r'.cyclesSeen
  sources : r.sourceFindingIds <+: r'.sourceFindingIds
  evidence : r.evidenceRefs <+: r'.evidenceRefs

theorem prefix_appendNew {α : Type} [DecidableEq α] (xs more : List α) :
    xs <+: appendNew xs more := by
  induction more generalizing xs with
  | nil => exact prefix_rfl
  | cons x more ih =>
    rw [appendNew, foldl_cons]
    split_ifs
    · exact ih xs
    · exact (prefix_append xs [x]).trans (ih _)

section Histories

variable {policy : ReviewFixPolicy} {allowed : List String} {r r' r₀ : FindingRecord}

theorem Continues.refl (r : FindingRecord) : Continues r r :=
  ⟨rfl, ⟨rfl, rfl⟩, le_rfl, le_rfl, le_rfl, prefix_rfl, prefix_rfl, prefix_rfl⟩

theorem Continues.trans (h : Continues r₀ r) (h' : Continues r r') : Continues r₀ r' where
  said := h'.said.trans h.said
  flags := ⟨h'.flags.1.trans h.flags.1, h'.flags.2.trans h.flags.2⟩
  score := h.score.trans h'.score
  occurrences := h.occurrences.trans h'.occurrences
  reopened := h.reopened.trans h'.reopened
  cycles := h.cycles.trans h'.cycles
  sources := h.sources.trans h'.sources
  evidence := h.evidence.trans h'.evidence

theorem Continues.merged (r : FindingRecord) (f : Finding) (cycle : ℕ) :
    Continues r (mergeOccurrence r f cycle) := by
  have hscore : r.score ≤ f.score?.elim r.score (max r.score) := by
    cases f.score? with
    | none => exact le_rfl
    | some score => exact le_max_left _ _
  exact { Continues.refl r with
    score := hscore
    occurrences := Nat.le_succ _
    cycles := prefix_appendNew _ _
    sources := prefix_appendNew _ _
    evidence := prefix_appendNew _ _ }

theorem Continues.screened (h : screenRecord policy allowed r = .ok r') : Continues r r' := by
  unfold screenRecord at h
  split_ifs at h
  · cases h
    exact .refl r
  · cases h
    exact { Continues.refl r with }
  · obtain ⟨outside, -, h⟩ := Audit.bind_eq_ok.1 h
    obtain ⟨fixable, -, h⟩ := Audit.bind_eq_ok.1 h
    cases h
    unfold FindingRecord.screened
    split_ifs <;> exact { Continues.refl r with }

end Histories

/-! ## Keys -/

/-- The ledger has the keys of the one before. -/
def KeysKept (l l' : ReviewLedger) : Prop := ∀ key ∈ l.findings.keys, key ∈ l'.findings.keys

section Keys

variable (loop : ReviewFixLoop) {l l₁ l₂ : ReviewLedger}

theorem KeysKept.refl (l : ReviewLedger) : KeysKept l l := fun _ => id

theorem KeysKept.trans (h : KeysKept l l₁) (h' : KeysKept l₁ l₂) : KeysKept l l₂ :=
  fun key hkey => h' key (h key hkey)

variable {findings : Dict String FindingRecord} {cycle : ℕ}

theorem mem_keys_mapValues {f : String → FindingRecord → FindingRecord} {key : String} :
    key ∈ (findings.mapValues f).keys ↔ key ∈ findings.keys := by
  rw [Dict.mem_keys_iff, Dict.mem_keys_iff]
  simp

theorem mem_keys_visit (body : FindingRecord → Except String FindingRecord) {key : String}
    (h : key ∈ findings.keys) : key ∈ (visit body findings).1.keys := by
  obtain ⟨r, hr⟩ := Dict.mem_keys_iff.1 h
  rw [Dict.mem_keys_iff]
  rcases Until.get?_visit body findings key with hkept | ⟨-, r', -, -, hr'⟩
  · exact ⟨r, hkept.trans hr⟩
  · exact ⟨r', hr'⟩

section

variable {policy : ReviewFixPolicy} {frozen : Bool} {after : Dict String FindingRecord}
  {report : Report} (h : ingestReport policy frozen cycle findings report = .ok after)

include h

/-- A report writes the record of its key, which goes on where it was. -/
theorem ingestReport_writes : ∃ r, after = findings.set report.key r ∧
    ∀ r₀, findings.get? report.key = some r₀ → Continues r₀ r := by
  rw [ingestReport] at h
  by_cases hdup : report.duplicate = true
  · rw [if_pos hdup, updateKey] at h
    cases hget : findings.get? report.key with
    | none =>
      rw [hget] at h
      cases h
    | some r =>
      rw [hget] at h
      refine ⟨_, (Except.ok.inj h).symm, fun r₀ hr₀ => ?_⟩
      cases hr₀
      exact .merged _ _ _
  · rw [if_neg hdup] at h
    cases hget : findings.get? report.key with
    | none =>
      rw [hget] at h
      obtain ⟨r, -, hafter⟩ := Audit.map_eq_ok.1 h
      exact ⟨_, hafter.symm, by simp⟩
    | some r =>
      rw [hget] at h
      refine ⟨_, (Except.ok.inj h).symm, fun r₀ hr₀ => ?_⟩
      cases hr₀
      unfold reconsider
      split_ifs <;> exact { Continues.merged r report.finding cycle with }

theorem ingestReport_sets : ∃ r, after = findings.set report.key r := by
  obtain ⟨r, hafter, -⟩ := ingestReport_writes h
  exact ⟨r, hafter⟩

theorem ingestReport_keys :
    ∀ key ∈ findings.keys, key ∈ after.keys := by
  obtain ⟨r, rfl⟩ := ingestReport_sets h
  exact fun key hkey => Dict.mem_keys_set.2 (.inr hkey)

end

theorem ingest_keys (findings : List Finding) (cycle : ℕ) :
    KeysKept l (l.ingest findings cycle).1 := by
  have hfold : ∀ key ∈ l.findings.keys,
      key ∈ (foldUntil (ingestReport l.policy l.discoveryFrozen cycle) l.findings
        (keyed l.policy cycle 1 [] findings)).1.keys :=
    Until.foldUntil_invariant (P := fun d => ∀ key ∈ l.findings.keys, key ∈ d.keys) (fun _ => id)
      fun _ _ _ _ hall hok key hkey => ingestReport_keys hok key (hall key hkey)
  intro key hkey
  have hin := hfold key hkey
  rw [ReviewLedger.ingest]
  rcases hbatch : foldUntil (ingestReport l.policy l.discoveryFrozen cycle) l.findings
    (keyed l.policy cycle 1 [] findings) with ⟨ingested, _ | message⟩
  · rw [hbatch] at hin
    dsimp only at hin ⊢
    have hvisited := mem_keys_visit (screenRecord l.policy l.allowedPaths)
      (mem_keys_mapValues (f := resolveAbsence l.policy
        ((keyed l.policy cycle 1 [] findings).map Report.key).dedup).2 hin)
    rcases hscreen : visit (screenRecord l.policy l.allowedPaths) (ingested.mapValues
      (resolveAbsence l.policy ((keyed l.policy cycle 1 [] findings).map Report.key).dedup)) with
      ⟨screened, _ | message⟩
    · rw [hscreen] at hvisited
      exact hvisited
    · rw [hscreen] at hvisited
      exact hvisited
  · rw [hbatch] at hin
    exact hin

theorem escalateOutOfGrant_keys : KeysKept l (loop.escalateOutOfGrant l).1 := by
  intro key hkey
  rw [ReviewFixLoop.escalateOutOfGrant]
  split_ifs
  · exact mem_keys_visit _ hkey
  · exact hkey

theorem markFixAttempt_keys (requested addressed : List String) (cycle : ℕ) :
    KeysKept l (l.markFixAttempt requested addressed cycle).1 := by
  rw [ReviewLedger.markFixAttempt]
  split
  · exact (mem_keys_foldUntil requested).1
  · exact .refl l

theorem reviewPhase_keys (cycle : ℕ) (reply : Except StageFailure (List Json)) :
    KeysKept l (loop.reviewPhase l cycle reply).1 := by
  unfold ReviewFixLoop.reviewPhase
  cases reply with
  | error failure => exact .refl l
  | ok values =>
    dsimp only
    cases values.mapM (scopeFinding loop.allowedPaths) with
    | error message => exact .refl l
    | ok findings =>
      dsimp only
      have hingest := ingest_keys (l := l) findings cycle
      rcases hbatch : l.ingest findings cycle with ⟨ingested, message | ⟨reported, distinct⟩⟩
      · rw [hbatch] at hingest
        exact hingest
      · rw [hbatch] at hingest
        dsimp only at hingest ⊢
        have htransfer : KeysKept ingested (ingested.transferScopeExpanding
            loop.findingTransferTargets loop.originNodeId loop.allowedPaths).1 :=
          fun key hkey => mem_keys_mapValues.2 hkey
        have hescalate := escalateOutOfGrant_keys loop
          (l := (ingested.transferScopeExpanding
            loop.findingTransferTargets loop.originNodeId loop.allowedPaths).1)
        split
        · next escalated message hout =>
          rw [hout] at hescalate
          exact (hingest.trans htransfer).trans hescalate
        · next escalated hout =>
          rw [hout] at hescalate
          exact (hingest.trans htransfer).trans hescalate

theorem fixPhase_keys (cycle : ℕ) (fixKeys : List String) (replies : CycleReplies) :
    KeysKept l (loop.fixPhase l cycle fixKeys replies).1 := by
  rw [ReviewFixLoop.fixPhase]
  cases ReviewFixLoop.executeFix replies with
  | error failure => exact .refl l
  | ok details =>
    dsimp only
    cases detailKeys details "addressed_finding_keys" with
    | error message => exact .refl l
    | ok addressed =>
      dsimp only
      have hattempt := markFixAttempt_keys (l := l) fixKeys addressed cycle
      rcases hmark : l.markFixAttempt fixKeys addressed cycle with ⟨attempted, _ | message⟩
      · rw [hmark] at hattempt
        rw [raising_fst, ReviewFixLoop.applyFixerEscalations]
        split_ifs
        · cases detailKeysOptional details "unresolvable_finding_keys" with
          | error message => exact hattempt
          | ok unresolvable =>
            exact hattempt.trans (keys_markUnresolvable fixKeys unresolvable)
        · exact hattempt
      · rw [hmark] at hattempt
        exact hattempt

theorem limitExit_keys (cycle : ℕ) (reason : String) (stop : StopReason) :
    KeysKept l (loop.limitExit l cycle reason stop).ledger := by
  rw [ledger_limitExit]
  split_ifs
  · exact fun key hkey => mem_keys_mapValues.2 hkey
  · exact .refl l

theorem closeCycle_keys (cycle streak addressed distinct : ℕ) :
    KeysKept l (loop.closeCycle l cycle streak addressed distinct).ledger := by
  rw [ReviewFixLoop.closeCycle]
  by_cases hoff : ¬ loop.policy.regressionReviewEnabled
  · rw [if_pos hoff, ledger_cleared]
    exact .refl l
  · rw [if_neg hoff]
    dsimp only
    split_ifs
    · exact limitExit_keys loop _ _ _
    · exact .refl l
    · exact limitExit_keys loop _ _ _
    · exact .refl l

/-- Behind its review a cycle keeps every key. -/
theorem cycleStep_reviewed_keys {reviewed : ReviewLedger} {distinct : ℕ} {fixKeys : List String}
    {replies : CycleReplies}
    (hr : loop.reviewPhase reviewed cycle replies.review = (l, .ok (fixKeys, distinct)))
    (streak : ℕ) : KeysKept l (loop.cycleStep reviewed cycle streak replies).ledger := by
  rw [ReviewFixLoop.cycleStep, hr]
  dsimp only
  by_cases hnone : fixKeys = []
  · rw [if_pos hnone, ledger_cleared]
    exact .refl l
  rw [if_neg hnone]
  by_cases hlimit : loop.policy.cycleLimitEnabled ∧ loop.cycleBudget l.riskTier ≤ cycle
  · rw [if_pos hlimit]
    exact limitExit_keys loop _ _ _
  rw [if_neg hlimit]
  have hfix := fixPhase_keys loop (l := l) cycle fixKeys replies
  rcases hf : loop.fixPhase l cycle fixKeys replies with ⟨fixed, failure | addressed⟩
  · rw [hf] at hfix
    rw [ledger_abort]
    exact hfix
  rw [hf] at hfix
  dsimp only at hfix ⊢
  by_cases hprogress : loop.policy.noProgressStopEnabled ∧ addressed = []
  · rw [if_pos hprogress]
    exact hfix.trans (limitExit_keys loop _ _ _)
  rw [if_neg hprogress]
  have hverify := hfix.trans (keys_verifyPhase addressed loop.policy.targetedVerificationEnabled
    false replies.verify)
  rcases hv : ReviewFixLoop.verifyPhase fixed addressed loop.policy.targetedVerificationEnabled
    false replies.verify with ⟨marked, failure | verified⟩
  · rw [hv] at hverify
    rw [ledger_abort]
    exact hverify
  · rw [hv] at hverify
    exact hverify.trans (closeCycle_keys loop (l := ReviewFixLoop.recordFix marked addressed verified)
      cycle streak addressed.length distinct)

theorem cycleStep_keys (cycle streak : ℕ) (replies : CycleReplies) :
    KeysKept l (loop.cycleStep l cycle streak replies).ledger := by
  have hreview := reviewPhase_keys loop (l := l) cycle replies.review
  rcases hr : loop.reviewPhase l cycle replies.review with ⟨reviewed, failure | ⟨fixKeys, distinct⟩⟩
  · rw [hr] at hreview
    rw [ReviewFixLoop.cycleStep, hr]
    rw [ledger_abort]
    exact hreview
  · rw [hr] at hreview
    exact hreview.trans (cycleStep_reviewed_keys loop hr streak)

theorem boundedStep_keys (cycle : ℕ) (replies : CycleReplies) :
    KeysKept l (loop.boundedStep l cycle replies).ledger := by
  have hfix := fixPhase_keys loop (l := l) cycle (sortKeys loop.seededFixKeys) replies
  rw [ReviewFixLoop.boundedStep]
  rcases hf : loop.fixPhase l cycle (sortKeys loop.seededFixKeys) replies with
    ⟨fixed, failure | addressed⟩
  · rw [hf] at hfix
    rw [ledger_abort]
    exact hfix
  rw [hf] at hfix
  dsimp only at hfix ⊢
  have hverify := hfix.trans (keys_verifyPhase addressed true true replies.verify)
  rcases hv : ReviewFixLoop.verifyPhase fixed addressed true true replies.verify with
    ⟨marked, failure | verified⟩
  · rw [hv] at hverify
    rw [ledger_abort]
    exact hverify
  · rw [hv] at hverify
    rw [ledger_cleared]
    exact hverify

/-- **A cycle keeps every key.** -/
theorem step_keys {loop : ReviewFixLoop} {s s' : ReviewState} {replies : CycleReplies}
    (h : loop.step replies s = some s') : KeysKept s.ledger s'.ledger := by
  rw [ReviewFixLoop.step] at h
  split_ifs at h
  · cases h
    exact boundedStep_keys loop _ _
  · cases h
    exact cycleStep_keys loop _ _ _

end Keys

/-! ## Bounded loops -/

section Bounded

variable {loop : ReviewFixLoop} {s₀ s : ReviewState}

/-- A bounded loop begins with open records only. -/
theorem opened_of_bounded (hbounded : loop.boundedFixOnly = true) (hstart : loop.start = .ok s₀)
    (run : Runs loop.step s₀ s) :
    s.result = none → s.ledger.findings.All fun _ r => r.isOpen = true := by
  refine run.invariant
    (P := fun s => s.result = none → s.ledger.findings.All fun _ r => r.isOpen = true) ?_ ?_
  · intro replies x y hstep _ hnone
    rw [ReviewFixLoop.step] at hstep
    split_ifs at hstep
    cases hstep
    exact absurd hnone (result_boundedStep _ _ _)
  · intro _
    have hinitial := ledger_start hstart
    rw [ReviewFixLoop.initialLedger, if_pos hbounded] at hinitial
    exact (seededLedger_all hinitial
      (fun r _ _ => by simp [FindingRecord.reopen, FindingRecord.isOpen]) (by simp)).2.2

end Bounded

/-! ## Marks -/

section Marks

variable {f : String → FindingRecord → FindingRecord} {findings : Dict String FindingRecord}
  {key : String} {keys : List String}

/-- A loop over keys leaves the other records alone. -/
theorem get?_foldUntil_updateKey_of_notMem (h : key ∉ keys) :
    (foldUntil (fun d k => updateKey d k (f k)) findings keys).1.get? key = findings.get? key := by
  induction keys generalizing findings with
  | nil => rfl
  | cons k rest ih =>
    obtain ⟨hne, hrest⟩ := ne_and_not_mem_of_not_mem_cons h
    rw [foldUntil]
    cases hok : updateKey findings k (f k) with
    | error message => rfl
    | ok after =>
      rw [ih hrest]
      rw [updateKey] at hok
      cases hget : findings.get? k with
      | none =>
        rw [hget] at hok
        cases hok
      | some r =>
        rw [hget] at hok
        cases hok
        exact Dict.get?_set_ne _ _ hne

theorem foldUntil_updateKey_of_subset (h : ∀ k ∈ keys, k ∈ findings.keys) :
    (foldUntil (fun d k => updateKey d k (f k)) findings keys).2 = none := by
  induction keys generalizing findings with
  | nil => rfl
  | cons k rest ih =>
    obtain ⟨r, hr⟩ := Dict.mem_keys_iff.1 (h k mem_cons_self)
    have hok : updateKey findings k (f k) = .ok (findings.set k (f k r)) := by
      rw [updateKey, hr]
    rw [foldUntil, hok]
    exact ih fun j hj => Dict.mem_keys_set.2 (.inr (h j (mem_cons_of_mem _ hj)))

/-- A loop over keys that goes through has changed the record of each of them. -/
theorem get?_foldUntil_updateKey_of_mem
    (h : (foldUntil (fun d k => updateKey d k (f k)) findings keys).2 = none) (hkey : key ∈ keys) :
    ∃ r, (foldUntil (fun d k => updateKey d k (f k)) findings keys).1.get? key =
      some (f key r) := by
  induction keys generalizing findings with
  | nil => cases hkey
  | cons k rest ih =>
    rw [foldUntil] at h ⊢
    cases hok : updateKey findings k (f k) with
    | error message =>
      rw [hok] at h
      cases h
    | ok after =>
      rw [hok] at h
      by_cases hrest : key ∈ rest
      · exact ih h hrest
      · obtain rfl := (mem_cons.1 hkey).resolve_right hrest
        rw [get?_foldUntil_updateKey_of_notMem hrest]
        rw [updateKey] at hok
        cases hget : findings.get? key with
        | none =>
          rw [hget] at hok
          cases hok
        | some r =>
          rw [hget] at hok
          cases hok
          exact ⟨r, Dict.get?_set_self _ _ _⟩

end Marks

/-! ## Flags -/

section Continued

variable {loop : ReviewFixLoop} {key : String} {r r₀ : FindingRecord}

section

variable {P : FindingRecord → Prop} (hP : ∀ {r r'}, P r → Continues r r' → P r')

include hP

theorem keepsFix_of_continues (handed : String → Prop) :
    KeepsFix handed fun k r => k = key → P r where
  escalated _ r _ h hk := hP (h hk) { Continues.refl r with }
  attempted _ r _ h hk := hP (h hk) { Continues.refl r with }
  verified _ r _ _ _ h hk := hP (h hk) { Continues.refl r with }

/-- Beside the batch, every operation keeps what the history of a record keeps. -/
theorem keeps_of_continues (policy : ReviewFixPolicy) (allowed : List String)
    (handed : String → Prop) : Keeps loop policy allowed handed fun k r => k = key → P r where
  toKeepsFix := keepsFix_of_continues hP handed
  resolved current k r h hk := by
    refine hP (h hk) ?_
    unfold resolveAbsence
    split_ifs
    · exact { Continues.refl r with reopened := Nat.le_succ _ }
    · exact { Continues.refl r with }
    · exact .refl r
  screened _ _ _ h hscreen hk := hP (h hk) (.screened hscreen)
  transferred k r h hk := by
    refine hP (h hk) ?_
    unfold FindingRecord.transfer
    split
    · exact .refl r
    · exact { Continues.refl r with }
  sunk k r h hk := by
    refine hP (h hk) ?_
    unfold ReviewLedger.sink
    split_ifs <;> exact { Continues.refl r with }

end

theorem keeps_flags {requires violates : Bool} (policy : ReviewFixPolicy) (allowed : List String)
    (handed : String → Prop) :
    Keeps loop policy allowed handed fun k r => k = key → HasFlags requires violates r :=
  keeps_of_continues (fun h hc => ⟨hc.flags.1.trans h.1, hc.flags.2.trans h.2⟩) policy allowed
    handed

theorem ingestReport_continues {policy : ReviewFixPolicy} {frozen : Bool} {cycle : ℕ}
    {findings after : Dict String FindingRecord} {report : Report} (hkey : key ∈ findings.keys)
    (hall : findings.All fun k r => k = key → Continues r₀ r)
    (h : ingestReport policy frozen cycle findings report = .ok after) :
    after.All fun k r => k = key → Continues r₀ r := by
  obtain ⟨r', rfl, hcontinues⟩ := ingestReport_writes h
  refine hall.set fun heq => ?_
  obtain ⟨r, hr⟩ := Dict.mem_keys_iff.1 (heq ▸ hkey)
  exact (hall _ r hr heq).trans (hcontinues r hr)

/-- **A record is found again in every later state of a run**, with what was said of the finding,
and with all that was seen of it before. -/
theorem run_continues {s s' : ReviewState} (run : Runs loop.step s s')
    (h : s.ledger.findings.get? key = some r) :
    ∃ r', s'.ledger.findings.get? key = some r' ∧ Continues r r' := by
  have hboth : key ∈ s'.ledger.findings.keys ∧
      s'.ledger.findings.All fun k r' => k = key → Continues r r' := by
    refine run.invariant (P := fun s => key ∈ s.ledger.findings.keys ∧
      s.ledger.findings.All fun k r' => k = key → Continues r r') ?_ ?_
    · intro replies x y hstep hx
      obtain ⟨hin, hall⟩ := hx
      refine ⟨step_keys hstep key hin, ?_⟩
      rw [ReviewFixLoop.step] at hstep
      split_ifs at hstep
      · cases hstep
        exact (boundedStep_concluded loop (keepsFix_of_continues .trans fun _ => True) hall
          (fun _ _ => trivial) (x.cycle + 1) replies).follows.findings
      · cases hstep
        refine (cycleStep_concluded (keeps_of_continues .trans x.ledger.policy x.ledger.allowedPaths
          fun _ => True) hall (x.cycle + 1) x.lowYieldStreak replies ?_
          fun _ _ _ _ => trivial).follows.findings
        intro values findings _ _
        exact (Until.foldUntil_invariant (P := fun d => key ∈ d.keys ∧
            d.All fun k r' => k = key → Continues r r') ⟨hin, hall⟩
          fun d report _ d' hd hok => ⟨ingestReport_keys hok key hd.1,
            ingestReport_continues hd.1 hd.2 hok⟩).2
    · refine ⟨Dict.mem_keys_iff.2 ⟨r, h⟩, fun k r' hr' hk => ?_⟩
      subst hk
      cases h.symm.trans hr'
      exact .refl r
  obtain ⟨r', hr'⟩ := Dict.mem_keys_iff.1 hboth.1
  exact ⟨r', hr', hboth.2 key r' hr' rfl⟩

/-- A required finding, fixed, and a review that does not repeat it. -/
theorem run_continues_crash : ∃ s s' r', Runs plainLoop.step s s' ∧
    s'.ledger.findings.get? "src/app.py:crash" = some r' ∧ r'.requiresDisposition = true := by
  have hflags : ((stateAfter plainLoop [repliesOf [crashOnEmptyInput true] ["src/app.py:crash"]
      ["src/app.py:crash"]]).bind fun s => (plainLoop.step (repliesOf [] [] []) s).bind fun _ =>
        (s.ledger.findings.get? "src/app.py:crash").map (·.requiresDisposition)) = some true := by
    decide +kernel
  obtain ⟨s, -, hflags⟩ := Option.bind_eq_some_iff.1 hflags
  obtain ⟨s', hstep, hflags⟩ := Option.bind_eq_some_iff.1 hflags
  obtain ⟨r, hr, hrequires⟩ := Option.map_eq_some_iff.1 hflags
  have run := (Runs.refl s).tail hstep
  obtain ⟨r', hr', hsame⟩ := run_continues run hr
  exact ⟨s, s', r', run, hr', hsame.flags.1.trans hrequires⟩

end Continued

end HarnessLabs.FeatureRun
