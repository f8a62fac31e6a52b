import HarnessLabs.FeatureRun.ReviewLoop
import Mathlib.Data.List.ModifyLast

/-!
# What a cycle preserves

A cycle takes every record through a fixed series of operations: the batch, the regression check, the
screens, the transfer, the escalation, the fix attempt, the verification and the debt sink. What each
of them preserves, the cycle preserves.

* `Keeps` — a property of a record that every operation beside the batch preserves. A verification
  changes only the records of keys that were *handed* to the fixer.
* `Follows` — a ledger in which the property holds, left by a ledger of the same terms.
* `Sealed` — an end of the loop that says what its ledger says.
* `cycleStep_concluded`, `boundedStep_concluded` — **a cycle leaves such a ledger, at such an end.**
-/

namespace HarnessLabs.FeatureRun

open Until (foldUntil)

/-! ## Keys and records -/

variable {key : String} {P : String → FindingRecord → Prop}
  {findings after : Dict String FindingRecord}

@[simp] theorem mem_sortKeys {keys : List String} :
    key ∈ sortKeys keys ↔ key ∈ keys := by
  simp [sortKeys]

namespace ReviewLedger

variable {l : ReviewLedger} {p : FindingRecord → Bool} {key : String}

theorem mem_keysWhere : key ∈ l.keysWhere p ↔ ∃ r, l.findings.get? key = some r ∧ p r = true := by
  simp only [keysWhere, mem_sortKeys, List.mem_map, List.mem_filter, Prod.exists, exists_and_right,
    exists_eq_right, Dict.get?_eq_some_iff]

theorem keysWhere_eq_nil :
    l.keysWhere p = [] ↔ ∀ key r, l.findings.get? key = some r → p r = false := by
  simp only [List.eq_nil_iff_forall_not_mem, mem_keysWhere, not_exists, not_and, Bool.not_eq_true]

theorem mem_recordsWhere {r : FindingRecord} :
    r ∈ l.recordsWhere p ↔ ∃ key, l.findings.get? key = some r ∧ p r = true := by
  simp only [recordsWhere, List.mem_filterMap, mem_keysWhere]
  constructor
  · rintro ⟨key, ⟨r', hr', hp⟩, hr⟩
    cases hr'.symm.trans hr
    exact ⟨key, hr, hp⟩
  · rintro ⟨key, hr, hp⟩
    exact ⟨key, ⟨r, hr, hp⟩, hr⟩

theorem hasOutcome_iff {outcome : Disposition} :
    l.hasOutcome outcome key = true ↔
      ∃ r, l.findings.get? key = some r ∧ r.outcome = outcome := by
  simp [hasOutcome, Option.any_eq_true]

/-- The keys that the cycles have handed to the fixer. -/
def handedKeys (l : ReviewLedger) : List (List String) := l.cycles.map CycleEntry.fixKeys

end ReviewLedger

/-- What a cycle hands to its fixer is open. -/
theorem mem_keysToFix {l : ReviewLedger} {reported : List String} :
    key ∈ ReviewFixLoop.keysToFix l reported ↔
      ∃ r, l.findings.get? key = some r ∧ r.outcome = .opened := by
  simp only [ReviewFixLoop.keysToFix, mem_sortKeys, List.mem_filter, List.mem_dedup,
    List.mem_append, ReviewLedger.hasOutcome_iff, and_iff_right_iff_imp]
  rintro ⟨r, hr, hopened⟩
  exact .inr (ReviewLedger.mem_keysWhere.2 ⟨r, hr, by simp [FindingRecord.isOpen, hopened]⟩)

theorem all_updateKey {f : FindingRecord → FindingRecord} (h : findings.All P)
    (hf : ∀ r, P key r → P key (f r)) (hok : updateKey findings key f = .ok after) :
    after.All P := by
  rw [updateKey] at hok
  cases hget : findings.get? key with
  | none => simp [hget] at hok
  | some r =>
    simp only [hget, Except.ok.injEq] at hok
    subst hok
    exact h.set (hf r (h key r hget))

/-! ## Operations -/

/-- A property of a record that fixing and verifying preserve. -/
structure KeepsFix (handed : String → Prop) (P : String → FindingRecord → Prop) : Prop where
  escalated : ∀ key r reason, P key r → P key (r.escalate reason)
  attempted : ∀ key r attempts, P key r → P key { r with fixAttempts := attempts }
  verified : ∀ key r outcome, handed key → outcome ∈ [.fixed, .pendingReview, .opened] →
    P key r → P key { r with outcome := outcome }

/-- A property of a record that every operation beside the batch preserves. -/
structure Keeps (loop : ReviewFixLoop) (policy : ReviewFixPolicy) (allowedPaths : List String)
    (handed : String → Prop) (P : String → FindingRecord → Prop) : Prop
    extends KeepsFix handed P where
  resolved : ∀ current key r, P key r → P key (resolveAbsence policy current key r)
  screened : ∀ key r r', P key r → screenRecord policy allowedPaths r = .ok r' → P key r'
  transferred : ∀ key r, P key r →
    P key (r.transfer loop.findingTransferTargets loop.originNodeId loop.allowedPaths)
  sunk : ∀ key r, P key r → P key (ReviewLedger.sink policy r)

theorem Keeps.and {loop : ReviewFixLoop} {policy : ReviewFixPolicy} {allowedPaths : List String}
    {handed : String → Prop} {Q : String → FindingRecord → Prop}
    (h : Keeps loop policy allowedPaths handed P) (h' : Keeps loop policy allowedPaths handed Q) :
    Keeps loop policy allowedPaths handed fun key r => P key r ∧ Q key r where
  escalated key r reason hr := ⟨h.escalated key r reason hr.1, h'.escalated key r reason hr.2⟩
  attempted key r attempts hr := ⟨h.attempted key r attempts hr.1, h'.attempted key r attempts hr.2⟩
  verified key r outcome hk ho hr :=
    ⟨h.verified key r outcome hk ho hr.1, h'.verified key r outcome hk ho hr.2⟩
  resolved current key r hr := ⟨h.resolved current key r hr.1, h'.resolved current key r hr.2⟩
  screened key r r' hr hok := ⟨h.screened key r r' hr.1 hok, h'.screened key r r' hr.2 hok⟩
  transferred key r hr := ⟨h.transferred key r hr.1, h'.transferred key r hr.2⟩
  sunk key r hr := ⟨h.sunk key r hr.1, h'.sunk key r hr.2⟩

/-- A ledger in which the property holds, left by a ledger of the same terms. -/
structure Follows (handed : String → Prop) (P : String → FindingRecord → Prop)
    (l l' : ReviewLedger) : Prop where
  policy : l'.policy = l.policy
  riskTier : l'.riskTier = l.riskTier
  allowedPaths : l'.allowedPaths = l.allowedPaths
  discoveryFrozen : l'.discoveryFrozen = l.discoveryFrozen
  findings : l'.findings.All P
  handedKeys : ∃ keys, l'.handedKeys = l.handedKeys ++ keys ∧ ∀ ks ∈ keys, ∀ k ∈ ks, handed k

section Operations

variable {loop : ReviewFixLoop} {handed : String → Prop} {P : String → FindingRecord → Prop}
  {l l₁ l₂ : ReviewLedger}

theorem Follows.refl (h : l.findings.All P) : Follows handed P l l :=
  ⟨rfl, rfl, rfl, rfl, h, [], by simp⟩

theorem Follows.trans (h : Follows handed P l l₁) (h' : Follows handed P l₁ l₂) :
    Follows handed P l l₂ := by
  obtain ⟨keys, hkeys, hhanded⟩ := h.handedKeys
  obtain ⟨keys', hkeys', hhanded'⟩ := h'.handedKeys
  refine ⟨h'.policy.trans h.policy, h'.riskTier.trans h.riskTier,
    h'.allowedPaths.trans h.allowedPaths, h'.discoveryFrozen.trans h.discoveryFrozen,
    h'.findings, keys ++ keys', ?_, ?_⟩
  · rw [hkeys', hkeys, List.append_assoc]
  · intro ks hks
    rcases List.mem_append.1 hks with hks | hks
    · exact hhanded ks hks
    · exact hhanded' ks hks

theorem Follows.withFindings {findings : Dict String FindingRecord} (h : findings.All P) :
    Follows handed P l (l.withFindings findings) :=
  ⟨rfl, rfl, rfl, rfl, h, [], by simp [ReviewLedger.handedKeys, ReviewLedger.withFindings]⟩

/-- A ledger without its cycles is left by any ledger that leaves it with other fixes. -/
theorem Follows.recordFix (h : Follows handed P l l₁) (addressed verified : List String) :
    Follows handed P l (ReviewFixLoop.recordFix l₁ addressed verified) := by
  refine ⟨h.policy, h.riskTier, h.allowedPaths, h.discoveryFrozen, h.findings, ?_⟩
  have hkeys : (ReviewFixLoop.recordFix l₁ addressed verified).handedKeys = l₁.handedKeys := by
    simp only [ReviewFixLoop.recordFix, ReviewLedger.handedKeys]
    induction l₁.cycles using List.reverseRecOn with
    | nil => rfl
    | append_singleton cycles entry => simp [List.modifyLast_concat]
  rw [hkeys]
  exact h.handedKeys

theorem Follows.appendCycle (h : l.findings.All P) {entry : CycleEntry}
    (hentry : ∀ k ∈ entry.fixKeys, handed k) :
    Follows handed P l { l with cycles := l.cycles ++ [entry] } := by
  refine ⟨rfl, rfl, rfl, rfl, h, [entry.fixKeys], by simp [ReviewLedger.handedKeys], ?_⟩
  simpa using hentry

theorem escalateOutOfGrant_follows (loop : ReviewFixLoop) (keeps : KeepsFix handed P)
    (h : l.findings.All P) :
    Follows handed P l (loop.escalateOutOfGrant l).1 := by
  rw [ReviewFixLoop.escalateOutOfGrant]
  by_cases hoff : ¬ loop.policy.escalationEnabled
  · rw [if_pos hoff]
    exact .refl h
  · rw [if_neg hoff]
    refine .withFindings (Until.all_visit h fun key r r' hr hbody => ?_)
    rw [escalateRecord] at hbody
    split_ifs at hbody
    · cases houtside : pathsOutsideScope r.requiredPaths loop.allowedPaths with
      | error message => simp [houtside, Except.map] at hbody
      | ok outside =>
        simp only [houtside, Except.map, Except.ok.injEq] at hbody
        subst hbody
        split_ifs
        · exact hr
        · exact keeps.escalated key r _ hr
    · simp only [Except.ok.injEq] at hbody
      exact hbody ▸ hr

theorem markFixAttempt_follows (keeps : KeepsFix handed P) (h : l.findings.All P)
    (requested addressed : List String) (cycle : ℕ) :
    Follows handed P l (l.markFixAttempt requested addressed cycle).1 := by
  rw [ReviewLedger.markFixAttempt]
  split
  · refine .withFindings (Until.foldUntil_invariant h fun findings key _ after hall hok => ?_)
    exact all_updateKey hall (fun r hr => keeps.attempted key r _ hr) hok
  · exact .refl h

theorem markUnresolvable_follows (keeps : KeepsFix handed P) (h : l.findings.All P)
    (requested unresolvable : List String) :
    Follows handed P l (l.markUnresolvable requested unresolvable).1 := by
  rw [ReviewLedger.markUnresolvable]
  split
  · refine .withFindings (Until.foldUntil_invariant h fun findings key _ after hall hok => ?_)
    exact all_updateKey hall (fun r hr => keeps.escalated key r _ hr) hok
  · exact .refl h

theorem markVerified_follows (keeps : KeepsFix handed P) (h : l.findings.All P)
    {addressed : List String} (haddressed : ∀ key ∈ addressed, handed key) (verified : List String)
    (close : Bool) : Follows handed P l (l.markVerified addressed verified close).1 := by
  refine .withFindings (Until.foldUntil_invariant h fun findings key hkey after hall hok => ?_)
  refine all_updateKey hall (fun r hr => ?_) hok
  refine keeps.verified key r _ (haddressed key hkey) ?_ hr
  split_ifs <;> simp

variable (keeps : Keeps loop l.policy l.allowedPaths handed P)
include keeps

theorem ingest_follows (findings : List Finding) (cycle : ℕ)
    (hbatch : (foldUntil (ingestReport l.policy l.discoveryFrozen cycle) l.findings
      (keyed l.policy cycle 1 [] findings)).1.All P) :
    Follows handed P l (l.ingest findings cycle).1 := by
  rw [ReviewLedger.ingest]
  rcases hfold : foldUntil (ingestReport l.policy l.discoveryFrozen cycle) l.findings
    (keyed l.policy cycle 1 [] findings) with ⟨ingested, _ | message⟩
  · rw [hfold] at hbatch
    have hscreened := Until.all_visit
      (hbatch.mapValues
        (keeps.resolved ((keyed l.policy cycle 1 [] findings).map Report.key).dedup))
      keeps.screened
    dsimp only
    split
    · next hvisit =>
      rw [hvisit] at hscreened
      exact .withFindings hscreened
    · next hvisit =>
      rw [hvisit] at hscreened
      exact .withFindings hscreened
  · rw [hfold] at hbatch
    exact .withFindings hbatch

theorem transfer_follows (h : l.findings.All P) :
    Follows handed P l (l.transferScopeExpanding loop.findingTransferTargets loop.originNodeId
      loop.allowedPaths).1 :=
  .withFindings (h.mapValues keeps.transferred)

theorem applyDebtSink_follows (h : l.findings.All P) : Follows handed P l l.applyDebtSink :=
  .withFindings (h.mapValues keeps.sunk)

end Operations

/-! ## Stages -/

section Stages

variable {loop : ReviewFixLoop} {handed : String → Prop} {P : String → FindingRecord → Prop}
  {l l₁ : ReviewLedger}

/-- The terms that a property is kept under pass to the ledgers that follow. -/
theorem Follows.keeps (h : Follows handed P l l₁)
    (keeps : Keeps loop l.policy l.allowedPaths handed P) :
    Keeps loop l₁.policy l₁.allowedPaths handed P := by
  rw [h.policy, h.allowedPaths]
  exact keeps

/-- What the fixer claims, it was handed. -/
theorem subset_of_markFixAttempt {requested addressed : List String} {cycle : ℕ}
    (h : l.markFixAttempt requested addressed cycle = (l₁, none)) :
    ∀ key ∈ addressed, key ∈ requested := by
  intro key hkey
  rw [ReviewLedger.markFixAttempt] at h
  split at h
  · next hnil =>
    by_contra hout
    have hmem : key ∈ sortKeys (addressed.filter (· ∉ requested)).dedup := by
      simp [hkey, hout]
    rw [hnil] at hmem
    cases hmem
  · cases h

theorem raising_fst {α : Type} (marked : ReviewLedger × Option String) (a : α) :
    (raising marked a).1 = marked.1 := by
  rcases marked with ⟨l, _ | message⟩ <;> rfl

theorem raising_eq_ok {α : Type} {marked : ReviewLedger × Option String} {a b : α}
    (h : (raising marked a).2 = .ok b) : marked.2 = none ∧ a = b := by
  rcases marked with ⟨l, _ | message⟩
  · exact ⟨rfl, Except.ok.inj h⟩
  · cases h

theorem reviewPhase_follows (keeps : Keeps loop l.policy l.allowedPaths handed P)
    (hl : l.findings.All P) (cycle : ℕ) (reply : Except StageFailure (List Json))
    (hbatch : ∀ values findings, reply = .ok values →
      values.mapM (scopeFinding loop.allowedPaths) = .ok findings →
      (foldUntil (ingestReport l.policy l.discoveryFrozen cycle) l.findings
        (keyed l.policy cycle 1 [] findings)).1.All P)
    (hopen : ∀ key r, P key r → r.outcome = .opened → handed key) :
    Follows handed P l (loop.reviewPhase l cycle reply).1 ∧
      ∀ fixKeys distinct, (loop.reviewPhase l cycle reply).2 = .ok (fixKeys, distinct) →
        ∀ key ∈ fixKeys, handed key := by
  unfold ReviewFixLoop.reviewPhase
  cases reply with
  | error failure => exact ⟨.refl hl, by simp⟩
  | ok values =>
    dsimp only
    cases hscope : values.mapM (scopeFinding loop.allowedPaths) with
    | error message => exact ⟨.refl hl, by simp⟩
    | ok findings =>
      dsimp only
      have hingest := ingest_follows keeps findings cycle (hbatch values findings rfl hscope)
      rcases hingested : l.ingest findings cycle with ⟨ingested, message | ⟨reported, distinct⟩⟩
      · rw [hingested] at hingest
        exact ⟨hingest, by simp⟩
      · rw [hingested] at hingest
        dsimp only
        have htransfer := transfer_follows (hingest.keeps keeps) hingest.findings
        have hescalate := escalateOutOfGrant_follows loop keeps.toKeepsFix
          htransfer.findings
        have hfollows := (hingest.trans htransfer).trans hescalate
        split
        · next escalated message hout =>
          rw [hout] at hfollows
          exact ⟨hfollows, by simp⟩
        · next escalated hout =>
          rw [hout] at hfollows
          have hfix : ∀ key ∈ ReviewFixLoop.keysToFix escalated reported, handed key := by
            intro key hkey
            obtain ⟨r, hr, hopened⟩ := mem_keysToFix.1 hkey
            exact hopen key r (hfollows.findings key r hr) hopened
          refine ⟨hfollows.trans (.appendCycle hfollows.findings hfix), ?_⟩
          intro fixKeys count hok
          simp only [Except.ok.injEq, Prod.mk.injEq] at hok
          exact hok.1 ▸ hfix

theorem fixPhase_follows (loop : ReviewFixLoop) (keeps : KeepsFix handed P)
    (hl : l.findings.All P) (cycle : ℕ) (fixKeys : List String)
    (replies : CycleReplies) :
    Follows handed P l (loop.fixPhase l cycle fixKeys replies).1 ∧
      ∀ addressed, (loop.fixPhase l cycle fixKeys replies).2 = .ok addressed →
        ∀ key ∈ addressed, key ∈ fixKeys := by
  rw [ReviewFixLoop.fixPhase]
  cases ReviewFixLoop.executeFix replies with
  | error failure => exact ⟨.refl hl, by simp⟩
  | ok details =>
    dsimp only
    cases detailKeys details "addressed_finding_keys" with
    | error message => exact ⟨.refl hl, by simp⟩
    | ok addressed =>
      dsimp only
      have hattempt := markFixAttempt_follows keeps hl fixKeys addressed cycle
      rcases hmark : l.markFixAttempt fixKeys addressed cycle with ⟨attempted, _ | message⟩
      · rw [hmark] at hattempt
        constructor
        · rw [raising_fst, ReviewFixLoop.applyFixerEscalations]
          by_cases hoff : ¬ loop.policy.escalationEnabled
          · rw [if_pos hoff]
            exact hattempt
          · rw [if_neg hoff]
            cases detailKeysOptional details "unresolvable_finding_keys" with
            | error message => exact hattempt
            | ok unresolvable =>
              exact hattempt.trans
                (markUnresolvable_follows keeps hattempt.findings fixKeys _)
        · intro claimed hok
          obtain ⟨-, rfl⟩ := raising_eq_ok hok
          exact subset_of_markFixAttempt hmark
      · rw [hmark] at hattempt
        exact ⟨hattempt, by simp⟩

theorem verifyPhase_follows (keeps : KeepsFix handed P) (hl : l.findings.All P)
    {addressed : List String} (haddressed : ∀ key ∈ addressed, handed key)
    (targeted close : Bool) (reply : Except StageFailure Json) :
    Follows handed P l (ReviewFixLoop.verifyPhase l addressed targeted close reply).1 := by
  unfold ReviewFixLoop.verifyPhase
  cases targeted with
  | false =>
    rw [if_neg (by simp), raising_fst]
    exact markVerified_follows keeps hl haddressed addressed close
  | true =>
    rw [if_pos rfl]
    cases reply with
    | error failure => exact .refl hl
    | ok details =>
      dsimp only
      cases detailKeys details "verified_finding_keys" with
      | error message => exact .refl hl
      | ok verified =>
        rw [raising_fst]
        exact markVerified_follows keeps hl haddressed verified close

end Stages

/-! ## Ends -/

/-- An end of the loop that says what its state says: a success leaves nothing required open or
escalated. -/
structure Sealed (s : ReviewState) : Prop where
  counted : ∀ result, s.result = some result → result.cycles = s.cycle
  exported : ∀ result, s.result = some result →
    result.transferredFindings = s.ledger.transferred
  cleared : ∀ result, s.result = some result → result.status = .succeeded →
    s.ledger.openRequired = [] ∧ s.ledger.escalatedRequired = []

section Ends

variable {loop : ReviewFixLoop} {handed : String → Prop} {P : String → FindingRecord → Prop}
  {l l₁ : ReviewLedger}

theorem sealed_of_result_none {s : ReviewState} (h : s.result = none) : Sealed s := by
  constructor <;> simp [h]

theorem sealed_finish {status : LoopStatus} (h : status ≠ .succeeded) (reason : String) (cycle : ℕ)
    (stop : StopReason) : Sealed (finish l status reason cycle stop) := by
  constructor <;> simp [finish, h]

theorem sealed_finish_succeeded (hopen : l.openRequired = []) (hescalated : l.escalatedRequired = [])
    (reason : String) (cycle : ℕ) (stop : StopReason) :
    Sealed (finish l .succeeded reason cycle stop) := by
  constructor <;> simp [finish, hopen, hescalated]

theorem sealed_abort (cycle : ℕ) (failure : StageFailure) : Sealed (abort l cycle failure) := by
  cases failure with
  | interrupted message => exact sealed_finish (by decide) _ _ _
  | failed message unchanged => exact sealed_finish (by decide) _ _ _

theorem ledger_abort (cycle : ℕ) (failure : StageFailure) : (abort l cycle failure).ledger = l := by
  cases failure <;> rfl

theorem sealed_cleared (cycle : ℕ) (reason : String) :
    Sealed (ReviewFixLoop.cleared l cycle reason) := by
  rw [ReviewFixLoop.cleared]
  by_cases hopen : l.openRequired = []
  · by_cases hescalated : l.escalatedRequired = []
    · rw [if_neg (by simp [hopen]), if_neg (by simp [hescalated])]
      exact sealed_finish_succeeded hopen hescalated _ _ _
    · rw [if_neg (by simp [hopen]), if_pos hescalated]
      exact sealed_finish (by decide) _ _ _
  · rw [if_pos hopen]
    exact sealed_finish (by decide) _ _ _

theorem ledger_cleared (cycle : ℕ) (reason : String) :
    (ReviewFixLoop.cleared l cycle reason).ledger = l := by
  rw [ReviewFixLoop.cleared]
  split_ifs <;> rfl

theorem openRequired_of_openAll (h : l.openAll = []) : l.openRequired = [] := by
  rw [ReviewLedger.openAll, ReviewLedger.keysWhere_eq_nil] at h
  rw [ReviewLedger.openRequired, ReviewLedger.keysWhere_eq_nil]
  intro key r hr
  simp [h key r hr]

theorem sealed_limitExit (cycle : ℕ) (reason : String) (stop : StopReason) :
    Sealed (loop.limitExit l cycle reason stop) := by
  rw [ReviewFixLoop.limitExit]
  generalize (if loop.policy.technicalDebtSinkEnabled then l.applyDebtSink else l) = left
  by_cases hopen : left.openAll = []
  · by_cases hescalated : left.escalatedRequired = []
    · simp only [hopen, hescalated, ne_eq, not_true_eq_false, if_false]
      exact sealed_finish_succeeded (openRequired_of_openAll hopen) hescalated _ _ _
    · simp only [hopen, hescalated, ne_eq, not_true_eq_false, not_false_eq_true, if_false, if_true]
      exact sealed_finish (by decide) _ _ _
  · simp only [hopen, ne_eq, not_false_eq_true, if_true]
    exact sealed_finish (by decide) _ _ _

theorem ledger_limitExit (cycle : ℕ) (reason : String) (stop : StopReason) :
    (loop.limitExit l cycle reason stop).ledger =
      if loop.policy.technicalDebtSinkEnabled then l.applyDebtSink else l := by
  rw [ReviewFixLoop.limitExit]
  split_ifs <;> rfl

end Ends

/-! ## Cycles -/

/-- The end of a cycle, or the state before the next. -/
structure Concluded (handed : String → Prop) (P : String → FindingRecord → Prop)
    (l : ReviewLedger) (cycle : ℕ) (s : ReviewState) : Prop where
  follows : Follows handed P l s.ledger
  sealed : Sealed s
  cycle : s.cycle = cycle

section Cycles

variable {loop : ReviewFixLoop} {handed : String → Prop} {P : String → FindingRecord → Prop}
  {l l₁ : ReviewLedger}

theorem Follows.abort (h : Follows handed P l l₁) (cycle : ℕ) (failure : StageFailure) :
    Concluded handed P l cycle (FeatureRun.abort l₁ cycle failure) :=
  ⟨by rw [ledger_abort]; exact h, sealed_abort cycle failure, by cases failure <;> rfl⟩

theorem Follows.cleared (h : Follows handed P l l₁) (cycle : ℕ) (reason : String) :
    Concluded handed P l cycle (ReviewFixLoop.cleared l₁ cycle reason) :=
  ⟨by rw [ledger_cleared]; exact h, sealed_cleared cycle reason,
    by rw [ReviewFixLoop.cleared]; split_ifs <;> rfl⟩

/-- **The cycle of the bounded loop preserves what its operations preserve.** -/
theorem boundedStep_concluded (loop : ReviewFixLoop) (keeps : KeepsFix handed P)
    (hl : l.findings.All P)
    (hseeded : ∀ key ∈ loop.seededFixKeys, handed key) (cycle : ℕ) (replies : CycleReplies) :
    Concluded handed P l cycle (loop.boundedStep l cycle replies) := by
  have hfixKeys : ∀ key ∈ sortKeys loop.seededFixKeys, handed key := by simpa using hseeded
  obtain ⟨hfix, haddressed⟩ :=
    fixPhase_follows loop keeps hl cycle (sortKeys loop.seededFixKeys) replies
  rw [ReviewFixLoop.boundedStep]
  rcases hf : loop.fixPhase l cycle (sortKeys loop.seededFixKeys) replies with
    ⟨fixed, failure | addressed⟩
  · rw [hf] at hfix
    exact hfix.abort cycle failure
  rw [hf] at hfix haddressed
  dsimp only at hfix haddressed ⊢
  have hverify := verifyPhase_follows keeps hfix.findings
    (fun key hkey => hfixKeys key (haddressed addressed rfl key hkey)) true true replies.verify
  rcases hv : ReviewFixLoop.verifyPhase fixed addressed true true replies.verify with
    ⟨marked, failure | verified⟩
  · rw [hv] at hverify
    exact (hfix.trans hverify).abort cycle failure
  rw [hv] at hverify
  have hmarked := hfix.trans hverify
  exact (hmarked.trans (.appendCycle hmarked.findings hfixKeys)).cleared cycle _

variable (keeps : Keeps loop l.policy l.allowedPaths handed P)
include keeps

theorem Follows.limitExit (h : Follows handed P l l₁) (cycle : ℕ) (reason : String)
    (stop : StopReason) : Concluded handed P l cycle (loop.limitExit l₁ cycle reason stop) := by
  refine ⟨?_, sealed_limitExit cycle reason stop, by rw [ReviewFixLoop.limitExit]; split_ifs <;> rfl⟩
  rw [ledger_limitExit]
  split_ifs
  · exact h.trans (applyDebtSink_follows (h.keeps keeps) h.findings)
  · exact h

theorem Follows.closeCycle (h : Follows handed P l l₁) (cycle streak addressed distinct : ℕ) :
    Concluded handed P l cycle (loop.closeCycle l₁ cycle streak addressed distinct) := by
  rw [ReviewFixLoop.closeCycle]
  by_cases hoff : ¬ loop.policy.regressionReviewEnabled
  · rw [if_pos hoff]
    exact h.cleared cycle _
  · rw [if_neg hoff]
    dsimp only
    split_ifs
    · exact h.limitExit keeps cycle _ _
    · exact ⟨h, sealed_of_result_none rfl, rfl⟩
    · exact h.limitExit keeps cycle _ _
    · exact ⟨h, sealed_of_result_none rfl, rfl⟩

omit keeps in
theorem Concluded.of_follows {cycle : ℕ} {s : ReviewState} (h : Follows handed P l l₁)
    (h' : Concluded handed P l₁ cycle s) : Concluded handed P l cycle s :=
  ⟨h.trans h'.follows, h'.sealed, h'.cycle⟩

/-- Behind its review a cycle preserves what its operations preserve. -/
theorem cycleStep_reviewed {reviewed : ReviewLedger} {cycle distinct : ℕ} {fixKeys : List String}
    {replies : CycleReplies}
    (hr : loop.reviewPhase reviewed cycle replies.review = (l, .ok (fixKeys, distinct)))
    (hl : l.findings.All P) (hfixKeys : ∀ key ∈ fixKeys, handed key) (streak : ℕ) :
    Concluded handed P l cycle (loop.cycleStep reviewed cycle streak replies) := by
  rw [ReviewFixLoop.cycleStep, hr]
  dsimp only
  by_cases hnone : fixKeys = []
  · rw [if_pos hnone]
    exact (Follows.refl hl).cleared cycle _
  rw [if_neg hnone]
  by_cases hlimit : loop.policy.cycleLimitEnabled ∧ loop.cycleBudget l.riskTier ≤ cycle
  · rw [if_pos hlimit]
    exact (Follows.refl hl).limitExit keeps cycle _ _
  rw [if_neg hlimit]
  obtain ⟨hfix, haddressed⟩ := fixPhase_follows loop keeps.toKeepsFix hl cycle fixKeys replies
  rcases hf : loop.fixPhase l cycle fixKeys replies with ⟨fixed, failure | addressed⟩
  · rw [hf] at hfix
    exact hfix.abort cycle failure
  rw [hf] at hfix haddressed
  dsimp only at hfix haddressed ⊢
  by_cases hprogress : loop.policy.noProgressStopEnabled ∧ addressed = []
  · rw [if_pos hprogress]
    exact hfix.limitExit keeps cycle _ _
  rw [if_neg hprogress]
  have hverify := verifyPhase_follows keeps.toKeepsFix hfix.findings
    (fun key hkey => hfixKeys key (haddressed addressed rfl key hkey))
    loop.policy.targetedVerificationEnabled false replies.verify
  rcases hv : ReviewFixLoop.verifyPhase fixed addressed loop.policy.targetedVerificationEnabled
    false replies.verify with ⟨marked, failure | verified⟩
  · rw [hv] at hverify
    exact (hfix.trans hverify).abort cycle failure
  rw [hv] at hverify
  exact ((hfix.trans hverify).recordFix addressed verified).closeCycle keeps cycle streak _ _

/-- **A cycle preserves what its batch and its operations preserve.** -/
theorem cycleStep_concluded (hl : l.findings.All P) (cycle streak : ℕ) (replies : CycleReplies)
    (hbatch : ∀ values findings, replies.review = .ok values →
      values.mapM (scopeFinding loop.allowedPaths) = .ok findings →
      (foldUntil (ingestReport l.policy l.discoveryFrozen cycle) l.findings
        (keyed l.policy cycle 1 [] findings)).1.All P)
    (hopen : ∀ key r, P key r → r.outcome = .opened → handed key) :
    Concluded handed P l cycle (loop.cycleStep l cycle streak replies) := by
  obtain ⟨hreview, hfixKeys⟩ := reviewPhase_follows keeps hl cycle replies.review hbatch hopen
  rcases hr : loop.reviewPhase l cycle replies.review with ⟨reviewed, failure | ⟨fixKeys, distinct⟩⟩
  · rw [ReviewFixLoop.cycleStep, hr]
    rw [hr] at hreview
    exact hreview.abort cycle failure
  · rw [hr] at hreview hfixKeys
    exact .of_follows hreview (cycleStep_reviewed (hreview.keeps keeps) hr hreview.findings
      (hfixKeys fixKeys distinct rfl) streak)

end Cycles

/-! ## Seeds -/

theorem seedTransferred_all {r : FindingRecord} (h : findings.All P)
    (hr : r.key ≠ "" → P r.key r.reopen) (hok : seedTransferred findings r = .ok after) :
    after.All P := by
  rw [seedTransferred] at hok
  split_ifs at hok with hbad
  cases hok
  exact h.set (hr fun hkey => hbad (.inl hkey))

theorem seedRetainedTransfer_all {r : FindingRecord} (h : findings.All P)
    (hr : r.key ≠ "" → P r.key { r with outcome := .transferred, inherited := true })
    (hok : seedRetainedTransfer findings r = .ok after) : after.All P := by
  rw [seedRetainedTransfer] at hok
  split_ifs at hok with hbad
  cases hok
  exact h.set (hr fun hkey => hbad (.inl hkey))

/-- A ledger that is not resumed holds the seeds. -/
theorem seededLedger_all {loop : ReviewFixLoop} {retained : List FindingRecord} {frozen : Bool}
    {l : ReviewLedger} (h : loop.seededLedger retained frozen = .ok l)
    (hinherited : ∀ r ∈ loop.inheritedFindings, r.key ≠ "" → P r.key r.reopen)
    (hretained : ∀ r ∈ retained, r.key ≠ "" →
      P r.key { r with outcome := .transferred, inherited := true }) :
    l.policy = loop.policy ∧ l.discoveryFrozen = frozen ∧ l.findings.All P := by
  rw [ReviewFixLoop.seededLedger] at h
  cases hfirst : loop.inheritedFindings.foldlM seedTransferred ∅ with
  | error message => simp [hfirst] at h
  | ok inherited =>
    cases hsecond : retained.foldlM seedRetainedTransfer inherited with
    | error message => simp [hfirst, hsecond] at h
    | ok findings =>
      simp only [hfirst, hsecond, Except.ok.injEq] at h
      subst h
      refine ⟨rfl, rfl, ?_⟩
      have hseeded : inherited.All P :=
        Until.foldlM_invariant hfirst (Dict.All.empty P) fun _ r hr _ hall hok =>
          seedTransferred_all hall (hinherited r hr) hok
      exact Until.foldlM_invariant hsecond hseeded fun _ r hr _ hall hok =>
        seedRetainedTransfer_all hall (hretained r hr) hok

end HarnessLabs.FeatureRun
