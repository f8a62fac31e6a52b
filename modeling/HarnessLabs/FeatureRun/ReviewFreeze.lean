import HarnessLabs.FeatureRun.ReviewKeys

/-!
# Discovery freezes

Behind the first cycle, or where its ledger was frozen, a loop discovers nothing: what a later batch
reports for the first time is deferred, and what has an outcome keeps it unless the batch brings new
evidence. The argument follows one key. A batch reports it once, apart from duplicates that are
merged, and no other operation opens a record that is not open.

* `keyed_pairwise` — a batch reports every key once.
* `Reopens` — the reports that open a record again.
* `discovery_freeze` — **a key that is not open at the freeze stays so and is not handed to a fixer,
  in every run without such a report.**
* `reopened_by_report` — the reports that do open such a key.
-/

namespace HarnessLabs.FeatureRun

open List
open Inputs (Runs RunsUnder)
open Until (foldUntil)

/-! ## The keys of a batch -/

variable {c : Char}

theorem isKeyChar_of_mem_hyphenate : ∀ {cs : List Char}, c ∈ hyphenate cs → isKeyChar c
  | [], h => by simp [hyphenate] at h
  | d :: rest, h => by
    rw [hyphenate] at h
    split_ifs at h with hkey hnext
    · rcases mem_cons.1 h with rfl | h
      · exact hkey
      · exact isKeyChar_of_mem_hyphenate h
    · exact isKeyChar_of_mem_hyphenate h
    · rcases mem_cons.1 h with rfl | h
      · rfl
      · exact isKeyChar_of_mem_hyphenate h

theorem mem_of_mem_stripChars {p : Char → Bool} {cs : List Char} (h : c ∈ stripChars p cs) :
    c ∈ cs := by
  rw [stripChars, mem_reverse] at h
  have hfront := (dropWhile_sublist p).mem h
  rw [mem_reverse] at hfront
  exact (dropWhile_sublist p).mem hfront

theorem isKeyChar_of_mem_normalized {named : List Char}
    (h : c ∈ (if (stripChars (· = '-') (hyphenate named)).take 120 = [] then "finding"
      else String.ofList ((stripChars (· = '-') (hyphenate named)).take 120)).toList) :
    isKeyChar c = true := by
  split_ifs at h
  · exact all_eq_true.1 (show "finding".toList.all isKeyChar = true by decide) c h
  · rw [String.toList_ofList] at h
    exact isKeyChar_of_mem_hyphenate (mem_of_mem_stripChars (mem_of_mem_take h))

/-- Behind its last colon a key has key characters only. -/
theorem toList_findingKey (value : Json) : ∃ path name : List Char,
    (findingKey value).toList = path ++ ':' :: name ∧ ∀ c ∈ name, isKeyChar c = true := by
  unfold findingKey
  rw [String.toList_append, String.toList_append]
  exact ⟨_, _, (append_cons _ ':' _).symm, fun _ => isKeyChar_of_mem_normalized⟩

/-- The key of a repeated finding, where duplicates are kept apart. -/
def occurrenceKey (cycle ordinal : ℕ) (value : Json) : String :=
  s!"{findingKey value}#cycle-{cycle}-occurrence-{ordinal}"

/-- What follows the name of a repeated finding. -/
def occurrenceSuffix (cycle ordinal : ℕ) : List Char :=
  "cycle-".toList ++ (Nat.toDigits 10 cycle ++ ("-occurrence-".toList ++ Nat.toDigits 10 ordinal))

theorem toList_occurrenceKey (cycle ordinal : ℕ) (value : Json) : ∃ path name : List Char,
    (occurrenceKey cycle ordinal value).toList =
      path ++ ':' :: (name ++ '#' :: occurrenceSuffix cycle ordinal) ∧
    ∀ c ∈ name, isKeyChar c = true := by
  obtain ⟨path, name, hkey, hname⟩ := toList_findingKey value
  refine ⟨path, name, ?_, hname⟩
  have hkeyed : occurrenceKey cycle ordinal value = findingKey value ++ "#cycle-" ++
      toString cycle ++ "-occurrence-" ++ toString ordinal := rfl
  have hhash : "#cycle-".toList = '#' :: "cycle-".toList := rfl
  rw [hkeyed]
  simp only [String.toList_append, hkey, Text.toList_toString, hhash, occurrenceSuffix,
    append_assoc, cons_append]

theorem notMem_of_isKeyChar {name : List Char} (hname : ∀ c ∈ name, isKeyChar c = true)
    (hc : isKeyChar c = false) : c ∉ name := by
  intro h
  simp [hname c h] at hc

theorem colon_notMem_occurrence {name : List Char} (hname : ∀ c ∈ name, isKeyChar c = true)
    (cycle ordinal : ℕ) : ':' ∉ name ++ '#' :: occurrenceSuffix cycle ordinal := by
  have hcolon : ':' ∉ name := notMem_of_isKeyChar hname (by decide)
  have hdigits : ∀ n, ':' ∉ Nat.toDigits 10 n := Text.notMem_toDigits rfl
  simp [occurrenceSuffix, hcolon, hdigits]

/-- A repeated finding has a key that no finding has by itself. -/
theorem occurrenceKey_ne_findingKey (cycle ordinal : ℕ) (value other : Json) :
    occurrenceKey cycle ordinal value ≠ findingKey other := by
  intro h
  obtain ⟨path, name, hkey, hname⟩ := toList_occurrenceKey cycle ordinal value
  obtain ⟨path', name', hkey', hname'⟩ := toList_findingKey other
  obtain ⟨-, htail⟩ := Text.split_at_last (colon_notMem_occurrence hname cycle ordinal)
    (notMem_of_isKeyChar hname' (by decide)) (hkey.symm.trans ((congrArg String.toList h).trans hkey'))
  have hhash : '#' ∈ name' := by
    rw [← htail]
    simp
  exact notMem_of_isKeyChar hname' (by decide) hhash

/-- The key of a repeated finding determines its place in the batch. -/
theorem occurrenceKey_inj {cycle ordinal ordinal' : ℕ} {value other : Json}
    (h : occurrenceKey cycle ordinal value = occurrenceKey cycle ordinal' other) :
    ordinal = ordinal' := by
  obtain ⟨path, name, hkey, hname⟩ := toList_occurrenceKey cycle ordinal value
  obtain ⟨path', name', hkey', hname'⟩ := toList_occurrenceKey cycle ordinal' other
  obtain ⟨-, htail⟩ := Text.split_at_last (colon_notMem_occurrence hname cycle ordinal)
    (colon_notMem_occurrence hname' cycle ordinal') (hkey.symm.trans ((congrArg String.toList h).trans hkey'))
  obtain ⟨-, hsuffix⟩ := Text.split_at_first (notMem_of_isKeyChar hname (by decide))
    (notMem_of_isKeyChar hname' (by decide)) htail
  simp only [occurrenceSuffix, append_cancel_left_eq] at hsuffix
  exact Text.toDigits_inj hsuffix

/-- The keys that the batch has used before the finding with this ordinal. -/
def Used (cycle ordinal : ℕ) (current : List String) : Prop :=
  ∀ key ∈ current, (∃ value, key = findingKey value) ∨
    ∃ value before, before < ordinal ∧ key = occurrenceKey cycle before value

theorem used_nil (cycle : ℕ) : Used cycle 1 [] := by
  intro key hkey
  cases hkey

section Keyed

variable {policy : ReviewFixPolicy} {cycle ordinal : ℕ} {current : List String}

/-- With a ledger the key is that of the finding, or of its occurrence. -/
theorem batchKey_cases (hledger : policy.ledgerEnabled = true) (f : Finding) :
    (batchKey policy cycle ordinal current f = findingKey f.value ∧
      (findingKey f.value ∈ current → policy.deduplicationEnabled = true)) ∨
    batchKey policy cycle ordinal current f = occurrenceKey cycle ordinal f.value := by
  simp only [batchKey, hledger, not_true_eq_false, if_false]
  split_ifs with hrepeated
  · exact .inr rfl
  · exact .inl ⟨rfl, fun h => by simpa [h] using hrepeated⟩

/-- A key that is not a duplicate is new in its batch. -/
theorem batchKey_notMem (hledger : policy.ledgerEnabled = true) (hused : Used cycle ordinal current)
    {f : Finding}
    (h : (decide (batchKey policy cycle ordinal current f ∈ current) &&
      policy.deduplicationEnabled) = false) :
    batchKey policy cycle ordinal current f ∉ current := by
  intro hmem
  rcases batchKey_cases hledger f with ⟨hkey, hdedup⟩ | hkey
  · rw [hkey] at hmem h
    simp [hmem, hdedup hmem] at h
  · rw [hkey] at hmem
    rcases hused _ hmem with ⟨value, hvalue⟩ | ⟨value, before, hbefore, hvalue⟩
    · exact occurrenceKey_ne_findingKey _ _ _ _ hvalue
    · exact absurd (occurrenceKey_inj hvalue) (by omega)

theorem Used.next (hledger : policy.ledgerEnabled = true) (hused : Used cycle ordinal current)
    (f : Finding) :
    Used cycle (ordinal + 1) (batchKey policy cycle ordinal current f :: current) := by
  intro key hkey
  rcases mem_cons.1 hkey with rfl | hkey
  · rcases batchKey_cases hledger f with ⟨h, -⟩ | h
    · exact .inl ⟨f.value, h⟩
    · exact .inr ⟨f.value, ordinal, by omega, h⟩
  · rcases hused key hkey with hvalue | ⟨value, before, hbefore, hvalue⟩
    · exact .inl hvalue
    · exact .inr ⟨value, before, by omega, hvalue⟩

/-- **A batch reports every key once, apart from duplicates.** -/
theorem keyed_pairwise (hledger : policy.ledgerEnabled = true) (findings : List Finding) :
    ∀ {ordinal : ℕ} {current : List String}, Used cycle ordinal current →
      (∀ report ∈ keyed policy cycle ordinal current findings, report.duplicate = false →
        report.key ∉ current) ∧
      (keyed policy cycle ordinal current findings).Pairwise fun a b =>
        a.duplicate = false → b.duplicate = false → a.key ≠ b.key := by
  induction findings with
  | nil => simp [keyed]
  | cons f rest ih =>
    intro ordinal current hused
    have hnext := hused.next hledger f
    rw [keyed]
    cases hduplicate : decide (batchKey policy cycle ordinal current f ∈ current) &&
      policy.deduplicationEnabled with
    | true =>
      have hsame : Used cycle (ordinal + 1) current := fun key hkey =>
        hnext key (mem_cons_of_mem _ hkey)
      obtain ⟨hnew, hpairwise⟩ := ih hsame
      refine ⟨?_, pairwise_cons.2 ⟨by simp, hpairwise⟩⟩
      intro report hreport hfresh
      rcases mem_cons.1 hreport with rfl | hreport
      · simp at hfresh
      · exact hnew report hreport hfresh
    | false =>
      obtain ⟨hnew, hpairwise⟩ := ih hnext
      refine ⟨?_, pairwise_cons.2 ⟨?_, hpairwise⟩⟩
      · intro report hreport hfresh
        rcases mem_cons.1 hreport with rfl | hreport
        · exact batchKey_notMem hledger hused hduplicate
        · exact fun hmem => hnew report hreport hfresh (mem_cons_of_mem _ hmem)
      · intro report hreport _ hfresh heq
        exact hnew report hreport hfresh (heq ▸ mem_cons_self)

end Keyed

/-! ## One key -/

/-- The record of this key is not open. -/
def ClosedAt (key : String) (k : String) (r : FindingRecord) : Prop := k = key → r.isOpen = false

/-- The report opens a record that is not open: it brings new evidence on a discharged finding, or
nothing guards the discharged findings, or the finding is deferred or escalated. -/
def Reopens (policy : ReviewFixPolicy) (r : FindingRecord) (f : Finding) : Prop :=
  r.outcome ∈ [.fixed, .note, .scopeScreened, .debt] ∧
      (policy.reraiseGuardEnabled = false ∨ f.flag "new_evidence" = true) ∨
    r.outcome ∈ [.deferred, .escalated]

section OneKey

variable {key : String} {policy : ReviewFixPolicy} {frozen : Bool} {cycle : ℕ}
  {findings after : Dict String FindingRecord}

theorem isOpen_eq_false {r : FindingRecord} :
    r.isOpen = false ↔ r.outcome ≠ .opened ∧ r.outcome ≠ .pendingReview := by
  cases h : r.outcome <;> simp [FindingRecord.isOpen, h]

theorem keeps_closedAt (loop : ReviewFixLoop) (policy : ReviewFixPolicy)
    (allowedPaths : List String) :
    Keeps loop policy allowedPaths (fun k => k ≠ key) (ClosedAt key) where
  resolved current k r h hk := by
    have hclosed := isOpen_eq_false.1 (h hk)
    rw [resolveAbsence, if_neg (by simp [hclosed.2])]
    exact h hk
  screened k r r' h hscreen hk := by
    have hclosed := isOpen_eq_false.1 (h hk)
    rw [screenRecord, if_pos hclosed.1] at hscreen
    cases hscreen
    exact h hk
  transferred k r h hk := by
    rw [FindingRecord.transfer]
    split
    · exact h hk
    · rfl
  escalated k r reason h hk := rfl
  attempted k r attempts h hk := h hk
  verified k r outcome hhanded houtcome h hk := absurd hk hhanded
  sunk k r h hk := by
    rw [ReviewLedger.sink, if_pos (by simp [h hk])]
    exact h hk

theorem outcome_reconsider {r : FindingRecord} {f : Finding} (hclosed : r.isOpen = false)
    (hquiet : ¬ Reopens policy r f) : (reconsider policy r f).isOpen = false := by
  rw [reconsider]
  split_ifs with htransferred hguarded hopened
  · exact hclosed
  · exact hclosed
  · refine absurd ?_ hquiet
    obtain ⟨hopen, hpending⟩ := isOpen_eq_false.1 hclosed
    by_cases hdone : r.outcome ∈ [.fixed, .note, .scopeScreened, .debt]
    · refine .inl ⟨hdone, ?_⟩
      by_contra hnot
      rw [not_or, Bool.not_eq_false] at hnot
      exact hguarded ⟨hnot.1, hdone, hnot.2⟩
    · refine .inr ?_
      cases houtcome : r.outcome <;> simp_all
  · exact hclosed

/-- A report of another key changes nothing, a duplicate keeps the outcome, and any other report
keeps the record closed. -/
theorem ingestReport_closed (hfrozen : 1 < cycle ∨ frozen = true) {report : Report}
    (hquiet : report.key = key → report.duplicate = false → ∀ r, findings.get? key = some r →
      ¬ Reopens policy r report.finding)
    (h : findings.All (ClosedAt key))
    (hok : ingestReport policy frozen cycle findings report = .ok after) :
    after.All (ClosedAt key) ∧
      (report.key ≠ key ∨ report.duplicate = true → ∀ r', after.get? key = some r' →
        ∃ r, findings.get? key = some r ∧ r'.outcome = r.outcome) := by
  rw [ingestReport] at hok
  by_cases hduplicate : report.duplicate = true
  · rw [if_pos hduplicate, updateKey] at hok
    cases hget : findings.get? report.key with
    | none => simp [hget] at hok
    | some r =>
      simp only [hget, Except.ok.injEq] at hok
      subst hok
      refine ⟨h.set fun hk => h report.key r hget hk, fun _ r' hr' => ?_⟩
      by_cases hk : key = report.key
      · subst hk
        rw [Dict.get?_set_self] at hr'
        exact ⟨r, hget, by rw [← Option.some.inj hr']; rfl⟩
      · rw [Dict.get?_set_ne _ _ hk] at hr'
        exact ⟨r', hr', rfl⟩
  · rw [if_neg hduplicate] at hok
    have hother : ∀ {v : FindingRecord}, (report.key ≠ key ∨ report.duplicate = true →
        ∀ r', (findings.set report.key v).get? key = some r' →
          ∃ r, findings.get? key = some r ∧ r'.outcome = r.outcome) := by
      intro v hne r' hr'
      rw [Dict.get?_set_ne _ _ (hne.resolve_right hduplicate).symm] at hr'
      exact ⟨r', hr', rfl⟩
    cases hget : findings.get? report.key with
    | none =>
      cases hnew : newRecord report.key report.finding cycle with
      | error message => simp [hget, hnew, Except.map] at hok
      | ok r =>
        simp only [hget, hnew, Except.map, Except.ok.injEq] at hok
        subst hok
        refine ⟨h.set fun _ => ?_, hother⟩
        rw [if_pos hfrozen]
        rfl
    | some r =>
      simp only [hget, Except.ok.injEq] at hok
      subst hok
      refine ⟨h.set fun hk => ?_, hother⟩
      have hclosed : (mergeOccurrence r report.finding cycle).isOpen = false := h report.key r hget hk
      exact outcome_reconsider hclosed (hquiet hk (by simpa using hduplicate) r (hk ▸ hget))

/-- **A frozen batch without a report that opens the key leaves it closed.** -/
theorem batch_closed (hfrozen : 1 < cycle ∨ frozen = true) :
    ∀ {reports : List Report} {findings : Dict String FindingRecord},
      reports.Pairwise (fun a b => a.duplicate = false → b.duplicate = false → a.key ≠ b.key) →
      (∀ report ∈ reports, report.key = key → report.duplicate = false →
        ∀ r, findings.get? key = some r → ¬ Reopens policy r report.finding) →
      findings.All (ClosedAt key) →
      (foldUntil (ingestReport policy frozen cycle) findings reports).1.All (ClosedAt key)
  | [], _, _, _, h => h
  | report :: rest, findings, hpairwise, hquiet, h => by
    obtain ⟨hhead, hrest⟩ := pairwise_cons.1 hpairwise
    rw [foldUntil]
    cases hok : ingestReport policy frozen cycle findings report with
    | error message => exact h
    | ok after =>
      obtain ⟨hafter, hsame⟩ :=
        ingestReport_closed hfrozen (hquiet report mem_cons_self) h hok
      refine batch_closed hfrozen hrest ?_ hafter
      intro other hother hkey hfresh r' hr'
      -- The report before is of another key or a duplicate, as the key is reported once.
      have hbefore : report.key ≠ key ∨ report.duplicate = true := by
        by_contra hnot
        rw [not_or, not_not, Bool.not_eq_true] at hnot
        exact hhead other hother hnot.2 hfresh (hnot.1.trans hkey.symm)
      obtain ⟨r, hr, houtcome⟩ := hsame hbefore r' hr'
      have hr_quiet := hquiet other (mem_cons_of_mem _ hother) hkey hfresh r hr
      rwa [Reopens, houtcome]

end OneKey

/-! ## Runs -/

/-- The batch of the cycle has no report that opens the key again. -/
def Quiet (loop : ReviewFixLoop) (key : String) (s : ReviewState) (replies : CycleReplies) : Prop :=
  ∀ values findings, replies.review = .ok values →
    values.mapM (scopeFinding loop.allowedPaths) = .ok findings →
    ∀ report ∈ keyed s.ledger.policy (s.cycle + 1) 1 [] findings,
      report.key = key → report.duplicate = false →
      ∀ r, s.ledger.findings.get? key = some r → ¬ Reopens s.ledger.policy r report.finding

section Runs

variable {loop : ReviewFixLoop} {key : String} {s₀ s s' : ReviewState}

variable {l : ReviewLedger}

theorem closedAt_iff : l.findings.All (ClosedAt key) ↔ key ∉ l.openAll := by
  rw [ReviewLedger.openAll, ReviewLedger.mem_keysWhere, not_exists]
  constructor
  · rintro h r ⟨hr, hopen⟩
    simp [h key r hr rfl] at hopen
  · intro h k r hr hk
    subst hk
    simpa using fun hopen => h r ⟨hr, hopen⟩

/-- What holds of a loop from the freeze on: nothing is discovered, and the key is not open. -/
structure Frozen (key : String) (l : ReviewLedger) (s : ReviewState) : Prop where
  ledgerEnabled : s.ledger.policy.ledgerEnabled = true
  frozen : 1 < s.cycle + 1 ∨ s.ledger.discoveryFrozen = true
  closed : s.ledger.findings.All (ClosedAt key)
  handed : ∃ handed, s.ledger.handedKeys = l.handedKeys ++ handed ∧ ∀ keys ∈ handed, key ∉ keys

theorem Frozen.conclude (h : Frozen key l s)
    (hconcluded : Concluded (fun k => k ≠ key) (ClosedAt key) s.ledger (s.cycle + 1) s') :
    Frozen key l s' := by
  obtain ⟨hfollows, -, hcycle⟩ := hconcluded
  obtain ⟨handed, hkeys, hnot⟩ := h.handed
  obtain ⟨more, hmore, hhanded⟩ := hfollows.handedKeys
  refine ⟨hfollows.policy ▸ h.ledgerEnabled, .inl (by omega), hfollows.findings, handed ++ more, ?_,
    ?_⟩
  · rw [hmore, hkeys, append_assoc]
  · intro keys hmem hkey
    rcases mem_append.1 hmem with hmem | hmem
    · exact hnot keys hmem hkey
    · exact hhanded keys hmem key hkey rfl

/-- A cycle behind the freeze leaves the key closed. -/
theorem Frozen.cycleStep (h : Frozen key l s) {replies : CycleReplies}
    (hquiet : Quiet loop key s replies) :
    Frozen key l (loop.cycleStep s.ledger (s.cycle + 1) s.lowYieldStreak replies) := by
  refine h.conclude (cycleStep_concluded
    (keeps_closedAt loop s.ledger.policy s.ledger.allowedPaths) h.closed _ _ _ ?_ ?_)
  · intro values findings hvalues hscope
    have hpairwise := (keyed_pairwise h.ledgerEnabled findings (used_nil (s.cycle + 1))).2
    exact batch_closed h.frozen hpairwise (hquiet values findings hvalues hscope) h.closed
  · intro k r hr hopened hk
    exact (isOpen_eq_false.1 (hr hk)).1 hopened

/-- A bounded loop cannot fix a key of which its ledger has no record. -/
theorem Frozen.boundedStep (h : Frozen key l s) (hnone : key ∉ s.ledger.findings.keys)
    (replies : CycleReplies) :
    Frozen key l (loop.boundedStep s.ledger (s.cycle + 1) replies) := by
  have keeps : KeepsFix (fun k => k ≠ key) (ClosedAt key) :=
    (keeps_closedAt loop s.ledger.policy s.ledger.allowedPaths).toKeepsFix
  by_cases hseeded : key ∈ loop.seededFixKeys
  · have hfollows := (fixPhase_follows loop keeps h.closed (s.cycle + 1)
      (sortKeys loop.seededFixKeys) replies).1
    have habsent : s.ledger.findings.All fun k _ => k ≠ key := by
      intro k r hr hk
      exact hnone (hk ▸ Dict.mem_keys_iff.2 ⟨r, hr⟩)
    have keepsAbsent : KeepsFix (fun _ => True) (fun k _ => k ≠ key) :=
      ⟨fun _ _ _ => id, fun _ _ _ => id, fun _ _ _ _ _ => id⟩
    have hleft := (fixPhase_follows loop keepsAbsent habsent (s.cycle + 1)
      (sortKeys loop.seededFixKeys) replies).1.findings
    rw [ReviewFixLoop.boundedStep]
    rcases hfix : loop.fixPhase s.ledger (s.cycle + 1) (sortKeys loop.seededFixKeys) replies with
      ⟨fixed, failure | addressed⟩
    · rw [hfix] at hfollows
      exact h.conclude (hfollows.abort _ failure)
    · rw [hfix] at hleft
      obtain ⟨r, hr⟩ := Dict.mem_keys_iff.1 (keys_of_fixPhase hfix key (mem_sortKeys.2 hseeded))
      exact absurd rfl (hleft key r hr)
  · refine h.conclude (boundedStep_concluded loop keeps h.closed ?_ _ replies)
    intro k hk heq
    exact hseeded (heq ▸ hk)

/-- **Behind the freeze a key that is not open stays so and is not handed to a fixer, in every run
whose batches have no report that opens it.** -/
theorem discovery_freeze {s₁ s₂ : ReviewState} (hstart : loop.start = .ok s₀)
    (run : Runs loop.step s₀ s₁) (hledger : s₁.ledger.policy.ledgerEnabled = true)
    (hfrozen : s₁.ledger.discoveryFrozen = true ∨ 1 ≤ s₁.cycle) (hclosed : key ∉ s₁.ledger.openAll)
    (later : RunsUnder (Quiet loop key) loop.step s₁ s₂) :
    key ∉ s₂.ledger.openAll ∧ ∃ handed, s₂.ledger.handedKeys = s₁.ledger.handedKeys ++ handed ∧
      ∀ keys ∈ handed, key ∉ keys := by
  have hstartFrozen : Frozen key s₁.ledger s₁ :=
    ⟨hledger, hfrozen.symm.imp_left (by omega), closedAt_iff.2 hclosed, [], by simp⟩
  have hboth : Frozen key s₁.ledger s₂ ∧
      (loop.boundedFixOnly = true → s₂.result = none → key ∉ s₂.ledger.findings.keys) := by
    refine later.invariant (P := fun s => Frozen key s₁.ledger s ∧
      (loop.boundedFixOnly = true → s.result = none → key ∉ s.ledger.findings.keys)) ?_
      ⟨hstartFrozen, ?_⟩
    · intro replies x y hquiet hstep hx
      obtain ⟨hx, habsent⟩ := hx
      rw [ReviewFixLoop.step] at hstep
      split_ifs at hstep with hended hbounded
      · cases hstep
        refine ⟨hx.boundedStep (habsent hbounded (by simpa using hended)) replies, ?_⟩
        intro _ hnone
        exact absurd hnone (result_boundedStep _ _ _)
      · cases hstep
        exact ⟨hx.cycleStep hquiet, fun h => absurd h hbounded⟩
    · intro hbounded hnone hmem
      obtain ⟨r, hr⟩ := Dict.mem_keys_iff.1 hmem
      have hopen := opened_of_bounded hbounded hstart run hnone key r hr
      exact hclosed (ReviewLedger.mem_keysWhere.2 ⟨r, hr, hopen⟩)
  exact ⟨closedAt_iff.1 hboth.1.closed, hboth.1.handed⟩

end Runs

/-- A finding of the tests, with its subject, its score and what it brings as new evidence. -/
def reported (subject : String) (score : ℤ) (evidence : String) : Json :=
  Json.ofMembers [("id", .str subject), ("file", .str "src/app.py"), ("subject", .str subject),
    ("statement", .str subject), ("severity", .str "major"), ("protects", .str "AC1"),
    ("score", .int score), ("new_evidence", .str evidence)]

/-- A cycle that reviews these findings and fixes nothing of what it addresses. -/
def unfixed (findings : List Json) : CycleReplies := repliesOf findings ["src/app.py:crash"] []

/-- A finding that the second review reports for the first time is not handed to the fixer. -/
theorem discovery_freeze_late : ∃ s₁ s₂, stateAfter plainLoop [unfixed [reported "crash" 90 ""]] =
    some s₁ ∧ plainLoop.step (unfixed [reported "crash" 90 "", reported "leak" 90 ""]) s₁ = some s₂ ∧
    ∃ handed, s₂.ledger.handedKeys = s₁.ledger.handedKeys ++ handed ∧
      ∀ keys ∈ handed, "src/app.py:leak" ∉ keys := by
  have hfirst : (stateAfter plainLoop [unfixed [reported "crash" 90 ""]]).map (fun s =>
      (s.ledger.policy.ledgerEnabled, decide (1 ≤ s.cycle), s.ledger.openAll,
        (s.ledger.findings.get? "src/app.py:leak").isNone)) =
      some (true, true, ["src/app.py:crash"], true) := by
    decide +kernel
  have hsecond : ((stateAfter plainLoop [unfixed [reported "crash" 90 ""]]).bind
      (plainLoop.step (unfixed [reported "crash" 90 "", reported "leak" 90 ""]))).isSome = true := by
    decide +kernel
  obtain ⟨s₂, hs₂⟩ := Option.isSome_iff_exists.1 hsecond
  obtain ⟨s₁, hs₁, hstep⟩ := Option.bind_eq_some_iff.1 hs₂
  obtain ⟨s₀, hstart, run⟩ := run_of_stateAfter hs₁
  rw [hs₁, Option.map_some, Option.some.injEq, Prod.mk.injEq, Prod.mk.injEq, Prod.mk.injEq] at hfirst
  obtain ⟨hledger, hcycle, hopen, hnone⟩ := hfirst
  have hquiet : Quiet plainLoop "src/app.py:leak" s₁
      (unfixed [reported "crash" 90 "", reported "leak" 90 ""]) := by
    intro values findings _ _ report _ _ _ r hr
    simp [hr] at hnone
  exact ⟨s₁, s₂, hs₁, hstep, (discovery_freeze hstart run hledger (.inr (by simpa using hcycle))
    (by simp [hopen]) (.single ⟨_, hquiet, hstep⟩)).2⟩

/-- **A noted finding that is reported again with new evidence is handed to the fixer, and so is a
deferred finding that is reported again without any.** -/
theorem reopened_by_report :
    (stateAfter plainLoop [unfixed [reported "crash" 90 "", reported "leak" 60 ""]]).map
      (·.ledger.openAll) = some ["src/app.py:crash"] ∧
    (stateAfter plainLoop [unfixed [reported "crash" 90 "", reported "leak" 60 ""],
      unfixed [reported "crash" 90 "", reported "leak" 90 "heap profile"]]).map
      (·.ledger.handedKeys) = some [["src/app.py:crash"], ["src/app.py:crash", "src/app.py:leak"]] ∧
    (stateAfter plainLoop [unfixed [reported "crash" 90 ""],
      unfixed [reported "crash" 90 "", reported "leak" 90 ""],
      unfixed [reported "crash" 90 "", reported "leak" 90 ""]]).map (·.ledger.handedKeys) =
      some [["src/app.py:crash"], ["src/app.py:crash"], ["src/app.py:crash", "src/app.py:leak"]] := by
  decide +kernel

end HarnessLabs.FeatureRun
