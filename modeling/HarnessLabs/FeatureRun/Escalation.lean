import HarnessLabs.FeatureRun.ReviewKeys

/-!
# A fixer's escalation

A fixer may declare a key unresolvable, which escalates its record. The verification behind it marks
the keys that the same fixer has listed as addressed, and so undoes the escalation of a key on both
lists.

* `declared?` — what an accepted fix result lists as addressed and as unresolvable.
* `Sticks` — the keys that it declares are escalated when the cycle ends.
* `verifyPhase_escalated_iff` — **a verification leaves a key escalated when it does not mark it.**
* `escalation_sticks_iff` — **an escalation sticks exactly when no marked key is declared, and a record
  leaves it only by a report.**
* `addressed_escalation_lost` — a key on both lists is closed as fixed.
-/

namespace HarnessLabs.FeatureRun

open Inputs (Runs RunsUnder)
open Until (foldUntil)

/-! ## Fix results -/

section Results

variable (loop : ReviewFixLoop) (s : ReviewState) (replies : CycleReplies)

/-- What a cycle hands to its fixer, where it comes to one: the ledger and the keys. -/
def handedOver : Option (ReviewLedger × List String) :=
  if loop.boundedFixOnly then some (s.ledger, sortKeys loop.seededFixKeys)
  else
    match loop.reviewPhase s.ledger (s.cycle + 1) replies.review with
    | (_, .error _) => none
    | (l, .ok (fixKeys, _)) =>
      if fixKeys = [] ∨ (loop.policy.cycleLimitEnabled = true ∧
          loop.cycleBudget l.riskTier ≤ s.cycle + 1) then none
      else some (l, fixKeys)

/-- The keys that a fix result which the loop accepts lists as addressed and as unresolvable. -/
def declared? : Option (List String × List String) :=
  match handedOver loop s replies with
  | none => none
  | some (l, fixKeys) =>
    match ReviewFixLoop.executeFix replies, (loop.fixPhase l (s.cycle + 1) fixKeys replies).2 with
    | .ok details, .ok addressed =>
      (detailKeysOptional details "unresolvable_finding_keys").toOption.map fun unresolvable =>
        (addressed, unresolvable)
    | _, _ => none

/-- The cycle comes to mark what was addressed: no verification is asked for, or it replies. -/
def Verifies : Prop :=
  (loop.boundedFixOnly = true ∨ loop.policy.targetedVerificationEnabled = true) →
    ∃ details verified, replies.verify = .ok details ∧
      detailKeys details "verified_finding_keys" = .ok verified

/-- The keys that the fixer declares unresolvable are escalated behind the cycle. -/
def Sticks (s' : ReviewState) : Prop :=
  ∀ addressed unresolvable, declared? loop s replies = some (addressed, unresolvable) →
    ∀ key ∈ unresolvable, s'.ledger.hasOutcome .escalated key = true

/-- No key is declared unresolvable and marked as addressed. -/
def Apart : Prop :=
  ∀ addressed unresolvable, declared? loop s replies = some (addressed, unresolvable) →
    Verifies loop replies → ∀ key ∈ unresolvable, key ∉ addressed

/-- The review of the cycle reports the key. -/
def Rereports (key : String) : Prop :=
  loop.boundedFixOnly = false ∧ ∃ values findings, replies.review = .ok values ∧
    values.mapM (scopeFinding loop.allowedPaths) = .ok findings ∧
    key ∈ (keyed s.ledger.policy (s.cycle + 1) 1 [] findings).map Report.key

end Results

/-! ## Fix and verification -/

section Stages

variable {loop : ReviewFixLoop} {l l₁ l₂ : ReviewLedger} {key : String}

/-- **An accepted fix result escalates what it declares.** -/
theorem fixPhase_escalates (hescalation : loop.policy.escalationEnabled = true) {cycle : ℕ}
    {fixKeys addressed : List String} {replies : CycleReplies} {details : Json}
    (h : loop.fixPhase l cycle fixKeys replies = (l₁, .ok addressed))
    (hfix : ReviewFixLoop.executeFix replies = .ok details) :
    ∃ unresolvable, detailKeysOptional details "unresolvable_finding_keys" = .ok unresolvable ∧
      ∀ key ∈ unresolvable, l₁.hasOutcome .escalated key = true := by
  rw [ReviewFixLoop.fixPhase, hfix] at h
  dsimp only at h
  cases hlist : detailKeys details "addressed_finding_keys" with
  | error message =>
    rw [hlist] at h
    cases h
  | ok claimed =>
    rw [hlist] at h
    dsimp only at h
    rcases hmark : l.markFixAttempt fixKeys claimed cycle with ⟨attempted, _ | message⟩
    · rw [hmark] at h
      dsimp only at h
      rw [ReviewFixLoop.applyFixerEscalations, if_neg (not_not.2 hescalation)] at h
      cases hdeclared : detailKeysOptional details "unresolvable_finding_keys" with
      | error message =>
        rw [hdeclared] at h
        cases h
      | ok unresolvable =>
        rw [hdeclared] at h
        dsimp only at h
        refine ⟨unresolvable, rfl, fun key hkey => ?_⟩
        obtain ⟨hraised, -⟩ := raising_eq_ok (congrArg Prod.snd h)
        have hledger : (attempted.markUnresolvable fixKeys unresolvable).1 = l₁ := by
          rw [← raising_fst, h]
        rw [ReviewLedger.markUnresolvable] at hraised hledger
        split at hraised
        · next hnil =>
          rw [hnil] at hledger
          obtain ⟨r, hr⟩ := get?_foldUntil_updateKey_of_mem hraised hkey
          rw [ReviewLedger.hasOutcome_iff, ← hledger]
          exact ⟨_, hr, rfl⟩
        · cases hraised
    · rw [hmark] at h
      cases h

/-- **A verification leaves a key escalated when it does not mark it.** -/
theorem verifyPhase_escalated_iff {addressed : List String} {targeted close : Bool}
    {reply : Except StageFailure Json} (hkeys : ∀ k ∈ addressed, k ∈ l.findings.keys)
    (hbefore : l.hasOutcome .escalated key = true) :
    (ReviewFixLoop.verifyPhase l addressed targeted close reply).1.hasOutcome .escalated key = true ↔
      ((targeted = true → ∃ details verified, reply = .ok details ∧
        detailKeys details "verified_finding_keys" = .ok verified) → key ∉ addressed) := by
  have hmarked : ∀ verified, (l.markVerified addressed verified close).1.hasOutcome .escalated key =
      true ↔ key ∉ addressed := by
    intro verified
    constructor
    · intro hafter hkey
      obtain ⟨r, hr⟩ := get?_foldUntil_updateKey_of_mem
        (foldUntil_updateKey_of_subset hkeys) hkey
      obtain ⟨r', hr', houtcome⟩ := ReviewLedger.hasOutcome_iff.1 hafter
      cases hr'.symm.trans hr
      split_ifs at houtcome
    · intro hkey
      obtain ⟨r, hr, houtcome⟩ := ReviewLedger.hasOutcome_iff.1 hbefore
      exact ReviewLedger.hasOutcome_iff.2
        ⟨r, (get?_foldUntil_updateKey_of_notMem hkey).trans hr, houtcome⟩
  unfold ReviewFixLoop.verifyPhase
  cases targeted with
  | false =>
    rw [if_neg (by simp), raising_fst, hmarked]
    exact ⟨fun hnot _ => hnot, fun h => h (fun hfalse => absurd hfalse (by simp))⟩
  | true =>
    rw [if_pos rfl]
    cases reply with
    | error failure =>
      refine iff_of_true hbefore fun hreply => ?_
      obtain ⟨details, verified, hreply, -⟩ := hreply rfl
      cases hreply
    | ok details =>
      dsimp only
      cases hlist : detailKeys details "verified_finding_keys" with
      | error message =>
        refine iff_of_true hbefore fun hreply => ?_
        obtain ⟨details', verified, hreply, hverified⟩ := hreply rfl
        cases hreply
        rw [hlist] at hverified
        cases hverified
      | ok verified =>
        rw [raising_fst, hmarked]
        exact ⟨fun hnot _ => hnot, fun h => h fun _ => ⟨details, verified, rfl, hlist⟩⟩

theorem applyDebtSink_escalated :
    l.applyDebtSink.hasOutcome .escalated key = l.hasOutcome .escalated key := by
  rw [Bool.eq_iff_iff, ReviewLedger.hasOutcome_iff, ReviewLedger.hasOutcome_iff]
  show (∃ r, (l.findings.mapValues fun _ r => ReviewLedger.sink l.policy r).get? key = some r ∧ _) ↔ _
  rw [Dict.get?_mapValues]
  cases l.findings.get? key with
  | none => simp
  | some r =>
    have hsink : (ReviewLedger.sink l.policy r).outcome = .escalated ↔ r.outcome = .escalated := by
      rw [ReviewLedger.sink]
      unfold FindingRecord.isOpen
      cases houtcome : r.outcome <;> simp [houtcome] <;> split_ifs <;> simp [houtcome]
    simp [hsink]

theorem limitExit_escalated (cycle : ℕ) (reason : String) (stop : StopReason) :
    (loop.limitExit l cycle reason stop).ledger.hasOutcome .escalated key =
      l.hasOutcome .escalated key := by
  rw [ledger_limitExit]
  split_ifs
  · exact applyDebtSink_escalated
  · rfl

theorem closeCycle_escalated (cycle streak addressed distinct : ℕ) :
    (loop.closeCycle l cycle streak addressed distinct).ledger.hasOutcome .escalated key =
      l.hasOutcome .escalated key := by
  rw [ReviewFixLoop.closeCycle]
  by_cases hoff : ¬ loop.policy.regressionReviewEnabled
  · rw [if_pos hoff, ledger_cleared]
  · rw [if_neg hoff]
    dsimp only
    split_ifs
    · exact limitExit_escalated _ _ _
    · rfl
    · exact limitExit_escalated _ _ _
    · rfl

end Stages

/-! ## A cycle -/

section Cycles

variable {loop : ReviewFixLoop} {s s' : ReviewState} {replies : CycleReplies} {l l₁ : ReviewLedger}
  {fixKeys addressed unresolvable : List String} {key : String}

theorem declared_cases (h : declared? loop s replies = some (addressed, unresolvable)) :
    ∃ l fixKeys l₁ details, handedOver loop s replies = some (l, fixKeys) ∧
      loop.fixPhase l (s.cycle + 1) fixKeys replies = (l₁, .ok addressed) ∧
      ReviewFixLoop.executeFix replies = .ok details ∧
      detailKeysOptional details "unresolvable_finding_keys" = .ok unresolvable := by
  rw [declared?] at h
  cases hhanded : handedOver loop s replies with
  | none =>
    rw [hhanded] at h
    cases h
  | some handed =>
    obtain ⟨l, fixKeys⟩ := handed
    rw [hhanded] at h
    dsimp only at h
    cases hfix : ReviewFixLoop.executeFix replies with
    | error failure =>
      rw [hfix] at h
      cases h
    | ok details =>
      rcases hphase : loop.fixPhase l (s.cycle + 1) fixKeys replies with ⟨l₁, failure | claimed⟩
      · rw [hfix, hphase] at h
        cases h
      · rw [hfix, hphase] at h
        dsimp only at h
        cases hlist : detailKeysOptional details "unresolvable_finding_keys" with
        | error message =>
          rw [hlist] at h
          cases h
        | ok declared =>
          rw [hlist] at h
          cases h
          exact ⟨l, fixKeys, l₁, details, rfl, hphase, rfl, hlist⟩

/-- What the loop accepts as addressed has a record. -/
theorem addressed_known {cycle : ℕ}
    (h : loop.fixPhase l cycle fixKeys replies = (l₁, .ok addressed)) :
    ∀ k ∈ addressed, k ∈ l₁.findings.keys := by
  have keeps : KeepsFix (fun _ => True) (fun _ _ => True) :=
    ⟨fun _ _ _ => id, fun _ _ _ => id, fun _ _ _ _ _ => id⟩
  have hsub := (fixPhase_follows loop keeps (fun _ _ _ => trivial : l.findings.All _) cycle fixKeys
    replies).2 addressed (by rw [h])
  exact fun k hk => keys_of_fixPhase h k (hsub k hk)

/-- **The rest of a cycle leaves a key escalated when it does not mark it.** -/
theorem step_escalated_iff (hstep : loop.step replies s = some s')
    (hhanded : handedOver loop s replies = some (l, fixKeys))
    (hfix : loop.fixPhase l (s.cycle + 1) fixKeys replies = (l₁, .ok addressed))
    (hbefore : l₁.hasOutcome .escalated key = true) :
    s'.ledger.hasOutcome .escalated key = true ↔ (Verifies loop replies → key ∉ addressed) := by
  have hkeys := addressed_known hfix
  rw [ReviewFixLoop.step] at hstep
  rw [handedOver] at hhanded
  unfold Verifies
  cases hbounded : loop.boundedFixOnly with
  | true =>
    rw [hbounded] at hstep hhanded
    cases hhanded
    simp only [if_true] at hstep
    split_ifs at hstep
    cases hstep
    have hverify := @verifyPhase_escalated_iff l₁ key addressed true true replies.verify hkeys
      hbefore
    simp only [true_or, true_imp_iff] at hverify ⊢
    rw [← hverify, ReviewFixLoop.boundedStep, hfix]
    dsimp only
    rcases hphase : ReviewFixLoop.verifyPhase l₁ addressed true true replies.verify with
      ⟨l₂, failure | verified⟩
    · dsimp only
      rw [ledger_abort]
    · dsimp only
      rw [ledger_cleared]
      rfl
  | false =>
    rw [hbounded] at hstep hhanded
    simp only [Bool.false_eq_true, if_false] at hhanded hstep
    split_ifs at hstep
    cases hstep
    rcases hreview : loop.reviewPhase s.ledger (s.cycle + 1) replies.review with
      ⟨reviewed, failure | ⟨keys, distinct⟩⟩
    · rw [hreview] at hhanded
      cases hhanded
    rw [hreview] at hhanded
    dsimp only at hhanded
    split_ifs at hhanded with hstop
    cases hhanded
    obtain ⟨hsome, hlimit⟩ := not_or.1 hstop
    rw [ReviewFixLoop.cycleStep, hreview]
    dsimp only
    rw [if_neg hsome, if_neg hlimit, hfix]
    dsimp only
    by_cases hprogress : loop.policy.noProgressStopEnabled = true ∧ addressed = []
    · rw [if_pos hprogress, limitExit_escalated, hprogress.2]
      exact iff_of_true hbefore fun _ => List.not_mem_nil
    rw [if_neg hprogress]
    have hverify := @verifyPhase_escalated_iff l₁ key addressed
      loop.policy.targetedVerificationEnabled false replies.verify hkeys hbefore
    simp only [Bool.false_eq_true, false_or]
    rw [← hverify]
    rcases hphase : ReviewFixLoop.verifyPhase l₁ addressed loop.policy.targetedVerificationEnabled
      false replies.verify with ⟨l₂, failure | verified⟩
    · dsimp only
      rw [ledger_abort]
    · dsimp only
      rw [closeCycle_escalated]
      rfl

/-- **A cycle keeps the declared escalations exactly when it marks none of them.** -/
theorem sticks_iff_apart (hescalation : loop.policy.escalationEnabled = true)
    (hstep : loop.step replies s = some s') :
    Sticks loop s replies s' ↔ Apart loop s replies := by
  have hiff : ∀ addressed unresolvable, declared? loop s replies = some (addressed, unresolvable) →
      ∀ key ∈ unresolvable,
        (s'.ledger.hasOutcome .escalated key = true ↔ (Verifies loop replies → key ∉ addressed)) := by
    intro addressed unresolvable hdeclared key hkey
    obtain ⟨l, fixKeys, l₁, details, hhanded, hfix, hdetails, hlist⟩ := declared_cases hdeclared
    obtain ⟨declared, hdeclaredList, hescalated⟩ := fixPhase_escalates hescalation hfix hdetails
    cases hlist.symm.trans hdeclaredList
    exact step_escalated_iff hstep hhanded hfix (hescalated key hkey)
  constructor
  · intro h addressed unresolvable hdeclared hverifies key hkey
    exact (hiff _ _ hdeclared key hkey).1 (h _ _ hdeclared key hkey) hverifies
  · intro h addressed unresolvable hdeclared key hkey
    exact (hiff _ _ hdeclared key hkey).2 fun hverifies => h _ _ hdeclared hverifies key hkey

end Cycles

/-! ## Runs -/

section Runs

variable {loop : ReviewFixLoop} {s₀ s s' : ReviewState} {replies : CycleReplies} {key : String}

/-- An escalated record stays escalated where the key is not handed to a fixer. -/
theorem keeps_escalated (loop : ReviewFixLoop) (policy : ReviewFixPolicy) (allowed : List String) :
    Keeps loop policy allowed (· ≠ key) fun k r => k = key → r.outcome = .escalated where
  escalated _ _ _ _ _ := rfl
  attempted _ _ _ h := h
  verified _ _ _ hother _ _ hk := absurd hk hother
  resolved current k r h hk := by
    rw [resolveAbsence, if_neg (by simp [h hk])]
    exact h hk
  screened k r r' h hscreen hk := by
    rw [screenRecord, if_pos (by simp [h hk])] at hscreen
    cases hscreen
    exact h hk
  transferred k r h hk := by
    have hnone : r.transferTarget loop.findingTransferTargets loop.allowedPaths = none := by
      rw [FindingRecord.transferTarget, if_neg]
      intro hopen
      rw [h hk] at hopen
      obtain hout | ⟨-, hout⟩ := hopen.1
      · cases hout
      · cases hout
    rw [FindingRecord.transfer, hnone]
    exact h hk
  sunk k r h hk := by
    rw [ReviewLedger.sink, if_pos (by simp [FindingRecord.isOpen, h hk])]
    exact h hk

/-- A cycle keeps an escalated record that it does not report. -/
theorem cycleStep_keeps_escalated (hbounded : loop.boundedFixOnly = false)
    (hnot : ¬ Rereports loop s replies key) (h : s.ledger.hasOutcome .escalated key = true) :
    (loop.cycleStep s.ledger (s.cycle + 1) s.lowYieldStreak replies).ledger.hasOutcome
      .escalated key = true := by
  obtain ⟨r, hr, houtcome⟩ := ReviewLedger.hasOutcome_iff.1 h
  have hall : s.ledger.findings.All fun k r => k = key → r.outcome = .escalated := by
    intro k r' hr' hk
    subst hk
    cases hr.symm.trans hr'
    exact houtcome
  have hbatch : ∀ values findings, replies.review = .ok values →
      values.mapM (scopeFinding loop.allowedPaths) = .ok findings →
      (foldUntil (ingestReport s.ledger.policy s.ledger.discoveryFrozen (s.cycle + 1))
        s.ledger.findings (keyed s.ledger.policy (s.cycle + 1) 1 [] findings)).1.All
          fun k r => k = key → r.outcome = .escalated := by
    intro values findings hreview hscope
    refine Until.foldUntil_invariant hall fun d report hreport after hd hok => ?_
    obtain ⟨written, rfl⟩ := ingestReport_sets hok
    refine hd.set fun hk => ?_
    exact absurd ⟨hbounded, values, findings, hreview, hscope,
      List.mem_map.2 ⟨report, hreport, hk⟩⟩ hnot
  have hopen : ∀ k (r : FindingRecord), (k = key → r.outcome = .escalated) →
      r.outcome = .opened → k ≠ key := by
    intro k r' hP hopened hk
    rw [hP hk] at hopened
    cases hopened
  have hkept := cycleStep_concluded (keeps_escalated loop s.ledger.policy s.ledger.allowedPaths)
    hall (s.cycle + 1) s.lowYieldStreak replies hbatch hopen
  obtain ⟨r', hr'⟩ := Dict.mem_keys_iff.1 (cycleStep_keys loop (s.cycle + 1) s.lowYieldStreak
    replies key (Dict.mem_keys_iff.2 ⟨r, hr⟩))
  exact ReviewLedger.hasOutcome_iff.2 ⟨r', hr', hkept.follows.findings key r' hr' rfl⟩

/-- **A record stays escalated until a review reports it.** -/
theorem escalated_until_reported (hstart : loop.start = .ok s₀) (run : Runs loop.step s₀ s)
    (later : RunsUnder (fun x replies => ¬ Rereports loop x replies key) loop.step s s')
    (h : s.ledger.hasOutcome .escalated key = true) :
    s'.ledger.hasOutcome .escalated key = true := by
  have hboth : Runs loop.step s₀ s' ∧ s'.ledger.hasOutcome .escalated key = true := by
    refine later.invariant (P := fun x => Runs loop.step s₀ x ∧
      x.ledger.hasOutcome .escalated key = true) ?_ ⟨run, h⟩
    intro replies x y hnot hstep hx
    obtain ⟨hreached, hescalated⟩ := hx
    refine ⟨hreached.tail hstep, ?_⟩
    rw [ReviewFixLoop.step] at hstep
    cases hbounded : loop.boundedFixOnly with
    | true =>
      split_ifs at hstep with hended
      obtain ⟨r, hr, houtcome⟩ := ReviewLedger.hasOutcome_iff.1 hescalated
      have hopen := opened_of_bounded hbounded hstart hreached (by simpa using hended) key r hr
      simp [FindingRecord.isOpen, houtcome] at hopen
    | false =>
      rw [hbounded] at hstep
      simp only [Bool.false_eq_true, if_false] at hstep
      split_ifs at hstep
      cases hstep
      exact cycleStep_keeps_escalated hbounded hnot hescalated
  exact hboth.2

/-- **An escalation sticks exactly when no key that the fixer declares unresolvable is marked as
addressed; and a record is escalated until a review reports it.** -/
theorem escalation_sticks_iff (hescalation : loop.policy.escalationEnabled = true)
    (hstart : loop.start = .ok s₀) (run : Runs loop.step s₀ s)
    (hstep : loop.step replies s = some s') :
    (Sticks loop s replies s' ↔ Apart loop s replies) ∧
    ∀ key, s'.ledger.hasOutcome .escalated key = true →
      ∀ t, RunsUnder (fun x replies => ¬ Rereports loop x replies key) loop.step s' t →
        t.ledger.hasOutcome .escalated key = true := by
  refine ⟨sticks_iff_apart hescalation hstep, fun key hkey t later => ?_⟩
  exact escalated_until_reported hstart (run.tail hstep) later hkey

end Runs

/-- A loop whose fixer may escalate. -/
def escalatingLoop : ReviewFixLoop :=
  { plainLoop with policy := { ReviewFixPolicy.standard with escalationEnabled := true } }

/-- A required crash, and a fixer that lists it. -/
def crashReplies (addressed unresolvable : List String) : CycleReplies where
  review := .ok [crashOnEmptyInput true]
  fix := .ok (Json.ofMembers [("addressed_finding_keys", .arr (addressed.map .str)),
    ("unresolvable_finding_keys", .arr (unresolvable.map .str))])
  recoveredFix := .error (.failed "no recovery" false)
  verify := .ok (Json.ofMembers [("verified_finding_keys", .arr (addressed.map .str))])

/-- The fixer gives the crash up. -/
theorem escalation_sticks_crash : ∃ s s', escalatingLoop.start = .ok s ∧
    escalatingLoop.step (crashReplies [] ["src/app.py:crash"]) s = some s' ∧
    Sticks escalatingLoop s (crashReplies [] ["src/app.py:crash"]) s' := by
  have hlists : (escalatingLoop.start.toOption.bind fun s =>
      declared? escalatingLoop s (crashReplies [] ["src/app.py:crash"])) =
        some ([], ["src/app.py:crash"]) := by
    decide +kernel
  have hsteps : (escalatingLoop.start.toOption.bind
      (escalatingLoop.step (crashReplies [] ["src/app.py:crash"]))).isSome = true := by
    decide +kernel
  cases hstart : escalatingLoop.start with
  | error message =>
    rw [hstart] at hlists
    cases hlists
  | ok s =>
    rw [hstart] at hlists hsteps
    obtain ⟨s', hstep⟩ := Option.isSome_iff_exists.1 hsteps
    refine ⟨s, s', rfl, hstep, ?_⟩
    refine (escalation_sticks_iff rfl hstart (.refl s) hstep).1.2 ?_
    intro addressed unresolvable hdeclared _ key _
    obtain ⟨rfl, -⟩ := Prod.mk.inj (Option.some.inj (hlists.symm.trans hdeclared))
    exact List.not_mem_nil

/-- **The fixer lists the crash as addressed and as unresolvable: the verification undoes the
escalation, and the next review closes the required finding as fixed.** -/
theorem addressed_escalation_lost :
    (escalatingLoop.start.toOption.bind fun s => declared? escalatingLoop s
      (crashReplies ["src/app.py:crash"] ["src/app.py:crash"])) =
        some (["src/app.py:crash"], ["src/app.py:crash"]) ∧
    outcomesAfter escalatingLoop [crashReplies ["src/app.py:crash"] ["src/app.py:crash"]] =
      some (none, [("src/app.py:crash", .pendingReview)]) ∧
    outcomesAfter escalatingLoop [crashReplies ["src/app.py:crash"] ["src/app.py:crash"],
      repliesOf [] [] []] = some (some .succeeded, [("src/app.py:crash", .fixed)]) := by
  decide +kernel

end HarnessLabs.FeatureRun
