import HarnessLabs.FeatureRun.ReviewInvariant
import HarnessLabs.Lib.Runs

/-!
# A successful review discharges what is required

A record of a required finding never becomes a note and is never screened, it becomes debt only where
the policy allows it, and it is deferred only when discovery was frozen at its first report. A loop
that succeeds leaves no required record open or escalated. What is left is a fix or a transfer.

* `Sound` — the invariant of a record.
* `LeftBy` — the ledgers that loops of one policy have left, each one continuing the one before.
* `succeeded_discharged` — **a success discharges every required finding that is inherited or from
  the first review of a ledger that was not frozen.**
* `succeeded_with_deferred` — a frozen ledger defers the findings of its first review.
-/

namespace HarnessLabs.FeatureRun

open Inputs (Runs)
open Until (foldUntil)

/-! ## Records -/

/-- Where the record of a required finding cannot be. -/
structure Sound (policy : ReviewFixPolicy) (frozen : Bool) (r : FindingRecord) : Prop where
  kept : r.required = true → r.outcome ≠ .note ∧ r.outcome ≠ .scopeScreened
  sunk : r.required = true → r.outcome = .debt → policy.allowRequiredTechnicalDebt = true
  deferred : r.outcome = .deferred → r.inherited = false ∧
    (frozen = true ∨ ∃ cycle, r.cyclesSeen.head? = some cycle ∧ cycle ≠ 1)

namespace Sound

variable {policy : ReviewFixPolicy} {frozen : Bool} {r : FindingRecord}

/-- An outcome of which nothing is required. -/
theorem of_outcome (h : r.outcome ∈ [.opened, .pendingReview, .fixed, .transferred, .escalated]) :
    Sound policy frozen r := by
  have hne : r.outcome ≠ .note ∧ r.outcome ≠ .scopeScreened ∧ r.outcome ≠ .debt ∧
      r.outcome ≠ .deferred := by
    cases houtcome : r.outcome <;> simp_all
  obtain ⟨hnote, hscreened, hdebt, hdeferred⟩ := hne
  exact ⟨fun _ => ⟨hnote, hscreened⟩, fun _ h => absurd h hdebt, fun h => absurd h hdeferred⟩

/-- The invariant reads the flags, the outcome and the first cycle. -/
theorem congr {r' : FindingRecord} (h : Sound policy frozen r) (hrequired : r'.required = r.required)
    (houtcome : r'.outcome = r.outcome) (hinherited : r'.inherited = r.inherited)
    (hseen : ∀ cycle, r.cyclesSeen.head? = some cycle → r'.cyclesSeen.head? = some cycle) :
    Sound policy frozen r' where
  kept hr := by rw [houtcome]; exact h.kept (hrequired ▸ hr)
  sunk hr hdebt := h.sunk (hrequired ▸ hr) (houtcome ▸ hdebt)
  deferred hdeferred := by
    obtain ⟨hlocal, hfrozen⟩ := h.deferred (houtcome ▸ hdeferred)
    refine ⟨hinherited.trans hlocal, hfrozen.imp_right ?_⟩
    intro ⟨cycle, hhead, hne⟩
    exact ⟨cycle, hseen cycle hhead, hne⟩

theorem merge (h : Sound policy frozen r) (f : Finding) (cycle : ℕ) :
    Sound policy frozen (mergeOccurrence r f cycle) := by
  refine h.congr rfl rfl rfl ?_
  intro c hc
  cases hseen : r.cyclesSeen with
  | nil => simp [hseen] at hc
  | cons d rest =>
    rw [hseen] at hc
    simp only [mergeOccurrence, appendNew, hseen, List.foldl_cons, List.foldl_nil]
    split_ifs
    · exact hc
    · exact hc

theorem reconsider (h : Sound policy frozen r) (f : Finding) :
    Sound policy frozen (FeatureRun.reconsider policy r f) := by
  rw [FeatureRun.reconsider]
  split_ifs
  · exact h
  · exact h
  · exact of_outcome (by simp)
  · exact h

theorem resolve (h : Sound policy frozen r) (current : List String) (key : String) :
    Sound policy frozen (resolveAbsence policy current key r) := by
  rw [resolveAbsence]
  split_ifs
  · exact of_outcome (by simp)
  · exact of_outcome (by simp)
  · exact h

theorem screen_pure (h : Sound policy frozen r) : Sound policy frozen (r.screened policy) := by
  rw [FindingRecord.screened]
  split_ifs with hanchor hexpanding hcited hscored
  · exact ⟨fun hr => absurd hr hanchor.2.2, fun hr => absurd hr hanchor.2.2, by simp⟩
  · exact ⟨fun hr => absurd hr hexpanding.2.2, fun hr => absurd hr hexpanding.2.2, by simp⟩
  · exact ⟨fun hr => absurd hr hcited.2.2.2, fun hr => absurd hr hcited.2.2.2, by simp⟩
  · exact ⟨fun hr => absurd hr hscored.2, fun hr => absurd hr hscored.2, by simp⟩
  · exact h

theorem screen {allowedPaths : List String} {r' : FindingRecord} (h : Sound policy frozen r)
    (hscreen : screenRecord policy allowedPaths r = .ok r') : Sound policy frozen r' := by
  rw [screenRecord] at hscreen
  split_ifs at hscreen
  · cases hscreen
    exact h
  · cases hscreen
    exact h.congr rfl rfl rfl fun _ => id
  · cases houtside : r.anchorOutside allowedPaths with
    | error message => simp [houtside, bind, Except.bind] at hscreen
    | ok outside =>
      cases hfixable : r.fixableInGrant allowedPaths with
      | error message => simp [houtside, hfixable, bind, Except.bind] at hscreen
      | ok fixable =>
        simp only [houtside, hfixable, bind, Except.bind, Except.ok.injEq] at hscreen
        subst hscreen
        have hanchored : Sound policy frozen { r with anchorOutOfGrant := outside && !fixable } :=
          h.congr rfl rfl rfl fun _ => id
        exact hanchored.screen_pure

theorem transfer (h : Sound policy frozen r) (targets : Dict String String) (origin : String)
    (currentPaths : List String) : Sound policy frozen (r.transfer targets origin currentPaths) := by
  rw [FindingRecord.transfer]
  split
  · exact h
  · exact of_outcome (by simp)

theorem sink (h : Sound policy frozen r) : Sound policy frozen (ReviewLedger.sink policy r) := by
  rw [ReviewLedger.sink]
  split_ifs with hopen hrequired
  · exact h
  · refine ⟨by simp, ?_, by simp⟩
    intro hr _
    by_contra hallow
    exact hrequired ⟨hr, by simpa using hallow⟩
  · exact h

end Sound

/-- Every operation beside the batch preserves the invariant. -/
theorem keeps_sound (loop : ReviewFixLoop) (policy : ReviewFixPolicy) (allowedPaths : List String)
    (frozen : Bool) :
    Keeps loop policy allowedPaths (fun _ => True) (fun _ r => Sound policy frozen r) where
  resolved current key _ h := h.resolve current key
  screened _ _ _ h hscreen := h.screen hscreen
  transferred _ _ h := h.transfer _ _ _
  escalated _ _ _ _ := .of_outcome (by simp [FindingRecord.escalate])
  attempted _ _ _ h := h.congr rfl rfl rfl fun _ => id
  verified _ _ outcome _ houtcome _ := by
    refine .of_outcome ?_
    simp only [List.mem_cons, List.not_mem_nil, or_false] at houtcome ⊢
    tauto
  sunk _ _ h := h.sink

/-- A new record is deferred only behind the first cycle, or in a frozen ledger. -/
theorem sound_minted {policy : ReviewFixPolicy} {frozen : Bool} {key : String} {f : Finding}
    {cycle : ℕ} {r : FindingRecord} (h : newRecord key f cycle = .ok r) :
    Sound policy frozen
      (if 1 < cycle ∨ frozen = true then
        { r with
          outcome := .deferred
          outcomeReason := "discovery frozen after the first review" }
      else r) := by
  obtain ⟨-, hopened, hlocal, hseen⟩ := newRecord_eq_ok h
  split_ifs with hlate
  · refine ⟨by simp, by simp, fun _ => ⟨hlocal, ?_⟩⟩
    rcases hlate with hlate | hfrozen
    · refine .inr ⟨cycle, ?_, by omega⟩
      simp [hseen]
    · exact .inl hfrozen
  · exact .of_outcome (by simp [hopened])

theorem ingestReport_sound {policy : ReviewFixPolicy} {frozen : Bool} {cycle : ℕ}
    {findings after : Dict String FindingRecord} {report : Report}
    (h : findings.All fun _ r => Sound policy frozen r)
    (hok : ingestReport policy frozen cycle findings report = .ok after) :
    after.All fun _ r => Sound policy frozen r := by
  rw [ingestReport] at hok
  by_cases hduplicate : report.duplicate
  · rw [if_pos hduplicate] at hok
    exact all_updateKey h (fun r hr => hr.merge report.finding cycle) hok
  · rw [if_neg hduplicate] at hok
    cases hget : findings.get? report.key with
    | none =>
      cases hnew : newRecord report.key report.finding cycle with
      | error message => simp [hget, hnew, Except.map] at hok
      | ok r =>
        simp only [hget, hnew, Except.map, Except.ok.injEq] at hok
        subst hok
        exact h.set (sound_minted hnew)
    | some r =>
      simp only [hget, Except.ok.injEq] at hok
      subst hok
      exact h.set (((h report.key r hget).merge report.finding cycle).reconsider report.finding)

/-! ## Runs -/

/-- A ledger of the policy whose records are sound. -/
def SoundLedger (policy : ReviewFixPolicy) (l : ReviewLedger) : Prop :=
  l.policy = policy ∧ l.findings.All fun _ r => Sound policy l.discoveryFrozen r

/-- A ledger that loops of one policy have left, each one continuing the one before. -/
inductive LeftBy (policy : ReviewFixPolicy) : ReviewLedger → Prop where
  | left {loop : ReviewFixLoop} {s₀ s : ReviewState} (hpolicy : loop.policy = policy)
      (hcontinued : ∀ l, loop.resumedLedger = some l → LeftBy policy l)
      (hstart : loop.start = .ok s₀) (run : Runs loop.step s₀ s) : LeftBy policy s.ledger

section Runs

variable {loop : ReviewFixLoop} {s₀ s s' : ReviewState} {l : ReviewLedger}

/-- The ledger of the first state is the initial one. -/
theorem ledger_start (h : loop.start = .ok s₀) : loop.initialLedger = .ok s₀.ledger := by
  rw [ReviewFixLoop.start] at h
  cases hinitial : loop.initialLedger with
  | error message => simp [hinitial, Except.map] at h
  | ok l =>
    simp only [hinitial, Except.map, Except.ok.injEq] at h
    subst h
    split_ifs <;> rfl

/-- A loop that is not disabled has not ended before its first cycle. -/
theorem result_start (h : loop.start = .ok s₀)
    (hruns : loop.boundedFixOnly = true ∨ loop.policy.enabled = true) : s₀.result = none := by
  have hinitial := ledger_start h
  rw [ReviewFixLoop.start, hinitial, Except.map, if_neg (by tauto)] at h
  rw [← Except.ok.inj h]

theorem soundLedger_start (h : loop.start = .ok s₀)
    (hresumed : ∀ l, loop.resumedLedger = some l → SoundLedger loop.policy l) :
    SoundLedger loop.policy s₀.ledger := by
  have hseeded : ∀ {retained frozen l}, loop.seededLedger retained frozen = .ok l →
      SoundLedger loop.policy l := by
    intro retained frozen l hl
    obtain ⟨hpolicy, -, hall⟩ :=
      seededLedger_all (P := fun _ r => Sound loop.policy l.discoveryFrozen r) hl
        (fun r _ _ => .of_outcome (by simp [FindingRecord.reopen]))
        (fun r _ _ => .of_outcome (by simp))
    exact ⟨hpolicy, hall⟩
  have hinitial := ledger_start h
  rw [ReviewFixLoop.initialLedger] at hinitial
  split_ifs at hinitial
  · exact hseeded hinitial
  · cases hl : loop.resumedLedger with
    | none =>
      rw [hl] at hinitial
      exact hseeded hinitial
    | some l =>
      simp only [hl, Except.ok.injEq] at hinitial
      rw [← hinitial]
      exact hresumed l hl

/-- A step that starts from a sound ledger ends in one, at a sealed end. -/
theorem step_concluded {replies : CycleReplies} (h : SoundLedger loop.policy s.ledger)
    (hstep : loop.step replies s = some s') :
    Concluded (fun _ => True) (fun _ r => Sound loop.policy s.ledger.discoveryFrozen r) s.ledger
      (s.cycle + 1) s' := by
  obtain ⟨hpolicy, hsound⟩ := h
  have keeps := keeps_sound loop s.ledger.policy s.ledger.allowedPaths s.ledger.discoveryFrozen
  rw [ReviewFixLoop.step] at hstep
  rw [← hpolicy] at hsound ⊢
  split_ifs at hstep
  · cases hstep
    exact boundedStep_concluded loop keeps.toKeepsFix hsound (fun _ _ => trivial) _ replies
  · cases hstep
    refine cycleStep_concluded keeps hsound _ _ replies ?_ fun _ _ _ _ => trivial
    intro values findings _ _
    exact Until.foldUntil_invariant hsound fun _ report _ _ hall hok => ingestReport_sound hall hok

theorem soundLedger_run (h : SoundLedger loop.policy s₀.ledger) (run : Runs loop.step s₀ s) :
    SoundLedger loop.policy s.ledger := by
  refine run.invariant (P := fun s => SoundLedger loop.policy s.ledger) ?_ h
  intro replies x y hstep hx
  have hfollows := (step_concluded hx hstep).follows
  refine ⟨hfollows.policy.trans hx.1, ?_⟩
  rw [hfollows.discoveryFrozen]
  exact hfollows.findings

/-- **Ledgers that loops have left are sound.** -/
theorem LeftBy.sound {policy : ReviewFixPolicy} (h : LeftBy policy l) : SoundLedger policy l := by
  induction h with
  | left hpolicy _ hstart run ih =>
    subst hpolicy
    exact soundLedger_run (soundLedger_start hstart ih) run

theorem sealed_run (h : SoundLedger loop.policy s₀.ledger) (hs₀ : Sealed s₀)
    (run : Runs loop.step s₀ s) : Sealed s := by
  have hboth : SoundLedger loop.policy s.ledger ∧ Sealed s := by
    refine run.invariant (P := fun s => SoundLedger loop.policy s.ledger ∧ Sealed s) ?_ ⟨h, hs₀⟩
    intro replies x y hstep hx
    exact ⟨soundLedger_run hx.1 (.tail (.refl x) hstep), (step_concluded hx.1 hstep).sealed⟩
  exact hboth.2

end Runs

/-! ## The bounded loop -/

section Bounded

variable {loop : ReviewFixLoop} {s₀ s : ReviewState} {l l₁ : ReviewLedger}
  {findings after : Dict String FindingRecord}

theorem result_boundedStep (l : ReviewLedger) (cycle : ℕ) (replies : CycleReplies) :
    (loop.boundedStep l cycle replies).result ≠ none := by
  have habort : ∀ l failure, (abort l cycle failure).result ≠ none := by
    intro l failure
    cases failure <;> simp [abort, finish]
  rw [ReviewFixLoop.boundedStep]
  split
  · exact habort _ _
  · split
    · exact habort _ _
    · rw [ReviewFixLoop.cleared]
      split_ifs <;> simp [finish]

theorem mem_keys_updateKey {key : String} {f : FindingRecord → FindingRecord}
    (h : updateKey findings key f = .ok after) :
    key ∈ after.keys ∧ ∀ k ∈ findings.keys, k ∈ after.keys := by
  rw [updateKey] at h
  cases hget : findings.get? key with
  | none => simp [hget] at h
  | some r =>
    simp only [hget, Except.ok.injEq] at h
    subst h
    exact ⟨Dict.mem_keys_set.2 (.inl rfl), fun k hk => Dict.mem_keys_set.2 (.inr hk)⟩

/-- A loop over keys keeps the keys of the ledger, and ends only where it has all of its own. -/
theorem mem_keys_foldUntil {f : String → FindingRecord → FindingRecord} (keys : List String) :
    (∀ k ∈ findings.keys,
      k ∈ (foldUntil (fun d key => updateKey d key (f key)) findings keys).1.keys) ∧
    ((foldUntil (fun d key => updateKey d key (f key)) findings keys).2 = none → ∀ k ∈ keys,
      k ∈ (foldUntil (fun d key => updateKey d key (f key)) findings keys).1.keys) := by
  induction keys generalizing findings with
  | nil => simp [foldUntil]
  | cons key rest ih =>
    simp only [foldUntil]
    cases hok : updateKey findings key (f key) with
    | error message => simp
    | ok after =>
      obtain ⟨hkey, hkept⟩ := mem_keys_updateKey hok
      obtain ⟨hold, hrest⟩ := @ih after
      refine ⟨fun k hk => hold k (hkept k hk), fun hnone k hk => ?_⟩
      rcases List.mem_cons.1 hk with rfl | hk
      · exact hold k hkey
      · exact hrest hnone k hk

theorem keys_of_markFixAttempt {requested addressed : List String} {cycle : ℕ}
    (h : l.markFixAttempt requested addressed cycle = (l₁, none)) :
    ∀ key ∈ requested, key ∈ l₁.findings.keys := by
  rw [ReviewLedger.markFixAttempt] at h
  split at h
  · obtain ⟨rfl, hnone⟩ := Prod.mk.inj h
    exact (mem_keys_foldUntil requested).2 hnone
  · cases h

theorem keys_markUnresolvable (requested unresolvable : List String) :
    ∀ key ∈ l.findings.keys, key ∈ (l.markUnresolvable requested unresolvable).1.findings.keys := by
  rw [ReviewLedger.markUnresolvable]
  split
  · exact (mem_keys_foldUntil unresolvable).1
  · exact fun _ => id

theorem keys_markVerified (addressed verified : List String) (close : Bool) :
    ∀ key ∈ l.findings.keys, key ∈ (l.markVerified addressed verified close).1.findings.keys :=
  (mem_keys_foldUntil addressed).1

theorem keys_of_fixPhase {cycle : ℕ} {fixKeys addressed : List String} {replies : CycleReplies}
    (h : loop.fixPhase l cycle fixKeys replies = (l₁, .ok addressed)) :
    ∀ key ∈ fixKeys, key ∈ l₁.findings.keys := by
  rw [ReviewFixLoop.fixPhase] at h
  cases hfix : ReviewFixLoop.executeFix replies with
  | error failure => simp [hfix] at h
  | ok details =>
    cases hdetails : detailKeys details "addressed_finding_keys" with
    | error message => simp [hfix, hdetails] at h
    | ok claimed =>
      rcases hmark : l.markFixAttempt fixKeys claimed cycle with ⟨attempted, _ | message⟩
      · simp only [hfix, hdetails, hmark] at h
        have hfirst := congrArg Prod.fst h
        rw [raising_fst] at hfirst
        subst hfirst
        intro key hkey
        have hattempted := keys_of_markFixAttempt hmark key hkey
        rw [ReviewFixLoop.applyFixerEscalations]
        split_ifs
        · cases detailKeysOptional details "unresolvable_finding_keys" with
          | error message => exact hattempted
          | ok unresolvable => exact keys_markUnresolvable _ _ key hattempted
        · exact hattempted
      · simp [hfix, hdetails, hmark] at h

theorem keys_verifyPhase (addressed : List String) (targeted close : Bool)
    (reply : Except StageFailure Json) : ∀ key ∈ l.findings.keys,
      key ∈ (ReviewFixLoop.verifyPhase l addressed targeted close reply).1.findings.keys := by
  unfold ReviewFixLoop.verifyPhase
  split_ifs
  · cases reply with
    | error failure => exact fun _ => id
    | ok details =>
      dsimp only
      cases detailKeys details "verified_finding_keys" with
      | error message => exact fun _ => id
      | ok verified =>
        rw [raising_fst]
        exact keys_markVerified addressed verified close
  · rw [raising_fst]
    exact keys_markVerified addressed addressed close

theorem status_abort {cycle : ℕ} {failure : StageFailure} {result : ReviewFixResult}
    (h : (abort l cycle failure).result = some result) : result.status ≠ .succeeded := by
  cases failure <;>
  · simp only [abort, finish, Option.some.injEq] at h
    subst h
    simp

/-- A bounded loop that succeeds has a record of every key it was given. -/
theorem keys_boundedStep {cycle : ℕ} {replies : CycleReplies} {result : ReviewFixResult}
    (h : (loop.boundedStep l cycle replies).result = some result)
    (hsucceeded : result.status = .succeeded) :
    ∀ key ∈ loop.seededFixKeys, key ∈ (loop.boundedStep l cycle replies).ledger.findings.keys := by
  intro key hkey
  rw [ReviewFixLoop.boundedStep] at h ⊢
  rcases hfix : loop.fixPhase l cycle (sortKeys loop.seededFixKeys) replies with
    ⟨fixed, failure | addressed⟩
  · rw [hfix] at h
    exact absurd hsucceeded (status_abort h)
  rw [hfix] at h
  dsimp only at h ⊢
  have hfixed : key ∈ fixed.findings.keys :=
    keys_of_fixPhase hfix key (mem_sortKeys.2 hkey)
  have hverified := keys_verifyPhase addressed true true replies.verify key hfixed
  rcases hverify : ReviewFixLoop.verifyPhase fixed addressed true true replies.verify with
    ⟨marked, failure | verified⟩
  · rw [hverify] at h
    exact absurd hsucceeded (status_abort h)
  rw [hverify] at hverified
  rw [ledger_cleared]
  exact hverified

/-- The outcomes of a bounded loop. -/
def boundedOutcomes : List Disposition := [.opened, .pendingReview, .fixed, .escalated]

theorem keepsFix_bounded :
    KeepsFix (fun _ => True) (fun _ r => r.outcome ∈ boundedOutcomes) where
  escalated _ _ _ _ := by simp [FindingRecord.escalate, boundedOutcomes]
  attempted _ _ _ h := h
  verified _ _ outcome _ houtcome _ := by
    simp only [List.mem_cons, List.not_mem_nil, or_false, boundedOutcomes] at houtcome ⊢
    tauto

/-- **What a bounded loop leaves when it succeeds.** -/
theorem bounded_run (hbounded : loop.boundedFixOnly = true) (hstart : loop.start = .ok s₀)
    (run : Runs loop.step s₀ s) :
    s.ledger.findings.All (fun _ r => r.outcome ∈ boundedOutcomes) ∧
      ∀ result, s.result = some result → result.status = .succeeded →
        ∀ key ∈ loop.seededFixKeys, key ∈ s.ledger.findings.keys := by
  refine run.invariant (P := fun s => s.ledger.findings.All (fun _ r => r.outcome ∈ boundedOutcomes) ∧
      ∀ result, s.result = some result → result.status = .succeeded →
        ∀ key ∈ loop.seededFixKeys, key ∈ s.ledger.findings.keys) ?_ ?_
  · intro replies x y hstep hx
    obtain ⟨hall, -⟩ := hx
    rw [ReviewFixLoop.step] at hstep
    split_ifs at hstep
    cases hstep
    have hconcluded := boundedStep_concluded loop keepsFix_bounded hall
      (fun _ _ => trivial) (x.cycle + 1) replies
    exact ⟨hconcluded.follows.findings, fun result => keys_boundedStep⟩
  · have hinitial := ledger_start hstart
    rw [ReviewFixLoop.initialLedger, if_pos hbounded] at hinitial
    obtain ⟨-, -, hall⟩ := seededLedger_all hinitial
      (P := fun _ r => r.outcome ∈ boundedOutcomes)
      (fun r _ _ => by simp [FindingRecord.reopen, boundedOutcomes]) (by simp)
    refine ⟨hall, ?_⟩
    intro result hresult
    simp [result_start hstart (.inl hbounded)] at hresult

end Bounded

/-! ## Success -/

/-- **A success discharges every required finding that is inherited or from the first review of a
ledger that was not frozen, and a bounded loop every required finding that it was given.** -/
theorem succeeded_discharged {loop : ReviewFixLoop} (henabled : loop.policy.enabled = true)
    (hcontinued : ∀ l, loop.resumedLedger = some l → LeftBy loop.policy l) {s₀ s : ReviewState}
    (hstart : loop.start = .ok s₀) (run : Runs loop.step s₀ s) {result : ReviewFixResult}
    (hresult : s.result = some result) (hsucceeded : result.status = .succeeded) :
    (∀ key r, s.ledger.findings.get? key = some r → r.required = true →
      (r.inherited = true ∨
        r.cyclesSeen.head? = some 1 ∧ s.ledger.discoveryFrozen = false) →
      r.outcome = .fixed ∨ r.outcome = .transferred ∨
        r.outcome = .debt ∧ loop.policy.allowRequiredTechnicalDebt = true) ∧
    (loop.boundedFixOnly = true → ∀ key ∈ loop.seededFixKeys,
      ∃ r, s.ledger.findings.get? key = some r ∧ (r.required = true → r.outcome = .fixed)) := by
  have hsound₀ := soundLedger_start hstart fun l hl => (hcontinued l hl).sound
  have hsealed₀ : Sealed s₀ := sealed_of_result_none (result_start hstart (.inr henabled))
  obtain ⟨-, hsound⟩ := soundLedger_run hsound₀ run
  obtain ⟨hopen, hescalated⟩ := (sealed_run hsound₀ hsealed₀ run).cleared result hresult hsucceeded
  rw [ReviewLedger.openRequired, ReviewLedger.keysWhere_eq_nil] at hopen
  rw [ReviewLedger.escalatedRequired, ReviewLedger.keysWhere_eq_nil] at hescalated
  constructor
  · intro key r hr hrequired horigin
    have hclosed := hopen key r hr
    have hkept := hescalated key r hr
    obtain ⟨hnoted, hsunk, hdeferred⟩ := hsound key r hr
    simp only [hrequired, Bool.and_true, decide_eq_false_iff_not] at hclosed hkept
    cases houtcome : r.outcome with
    | opened => simp [FindingRecord.isOpen, houtcome] at hclosed
    | pendingReview => simp [FindingRecord.isOpen, houtcome] at hclosed
    | fixed => exact .inl rfl
    | note => exact absurd houtcome (hnoted hrequired).1
    | scopeScreened => exact absurd houtcome (hnoted hrequired).2
    | debt => exact .inr (.inr ⟨rfl, hsunk hrequired houtcome⟩)
    | transferred => exact .inr (.inl rfl)
    | escalated => exact absurd houtcome hkept
    | deferred =>
      obtain ⟨hlocal, hlate⟩ := hdeferred houtcome
      rcases horigin with hinherited | ⟨hfirst, hunfrozen⟩
      · simp [hlocal] at hinherited
      · rcases hlate with hfrozen | ⟨cycle, hcycle, hne⟩
        · simp [hunfrozen] at hfrozen
        · rw [hfirst] at hcycle
          exact absurd (Option.some.inj hcycle).symm hne
  · intro hbounded key hkey
    obtain ⟨houtcomes, hkeys⟩ := bounded_run hbounded hstart run
    obtain ⟨r, hr⟩ := Dict.mem_keys_iff.1 (hkeys result hresult hsucceeded key hkey)
    have hclosed := hopen key r hr
    have hkept := hescalated key r hr
    have hmember := houtcomes key r hr
    cases houtcome : r.outcome <;>
      simp_all [FindingRecord.isOpen, boundedOutcomes]

/-- A finding that the tests report. -/
def crashOnEmptyInput (required : Bool) : Json :=
  Json.ofMembers [("id", .str "F1"), ("file", .str "src/app.py"), ("subject", .str "crash"),
    ("statement", .str "crash on empty input"), ("severity", .str "major"),
    ("protects", .str "AC1"), ("requires_disposition", .bool required)]

/-- The replies of a cycle whose fixer addresses, and whose verifier verifies, these keys. -/
def repliesOf (findings : List Json) (addressed verified : List String) : CycleReplies where
  review := .ok findings
  fix := .ok (Json.ofMembers [("addressed_finding_keys", .arr (addressed.map .str))])
  recoveredFix := .error (.failed "no recovery" false)
  verify := .ok (Json.ofMembers [("verified_finding_keys", .arr (verified.map .str))])

def plainLoop : ReviewFixLoop where
  allowedPaths := ["src"]
  originNodeId := "node"

/-- The state that a loop reaches on these replies. -/
def stateAfter (loop : ReviewFixLoop) (inputs : List CycleReplies) : Option ReviewState :=
  loop.start.toOption.bind fun s => Inputs.runInputs loop.step s inputs

theorem run_of_stateAfter {loop : ReviewFixLoop} {inputs : List CycleReplies} {s : ReviewState}
    (h : stateAfter loop inputs = some s) : ∃ s₀, loop.start = .ok s₀ ∧ Runs loop.step s₀ s := by
  rw [stateAfter] at h
  cases hstart : loop.start with
  | error message => simp [hstart, Except.toOption] at h
  | ok s₀ =>
    simp only [hstart, Except.toOption, Option.bind_some] at h
    exact ⟨s₀, rfl, Inputs.runs_of_runInputs h⟩

/-- How a run has ended, with the records of its ledger. -/
def outcomesAfter (loop : ReviewFixLoop) (inputs : List CycleReplies) :
    Option (Option LoopStatus × List (String × Disposition)) :=
  (stateAfter loop inputs).map fun s =>
    (s.result.map (·.status), s.ledger.findings.items.map fun item => (item.1, item.2.outcome))

/-- A required finding that is fixed in its first cycle and missing from the second review. -/
theorem succeeded_discharged_fixed : ∃ s result,
    stateAfter plainLoop [repliesOf [crashOnEmptyInput true] ["src/app.py:crash"]
      ["src/app.py:crash"], repliesOf [] [] []] = some s ∧ s.result = some result ∧
    ∀ key r, s.ledger.findings.get? key = some r → r.required = true →
      (r.inherited = true ∨ r.cyclesSeen.head? = some 1 ∧ s.ledger.discoveryFrozen = false) →
      r.outcome = .fixed ∨ r.outcome = .transferred ∨
        r.outcome = .debt ∧ plainLoop.policy.allowRequiredTechnicalDebt = true := by
  have hended : ((stateAfter plainLoop [repliesOf [crashOnEmptyInput true] ["src/app.py:crash"]
      ["src/app.py:crash"], repliesOf [] [] []]).bind (·.result)).map (·.status) =
      some .succeeded := by
    decide +kernel
  obtain ⟨result, hresult, hsucceeded⟩ := Option.map_eq_some_iff.1 hended
  obtain ⟨s, hs, hresult⟩ := Option.bind_eq_some_iff.1 hresult
  obtain ⟨s₀, hstart, run⟩ := run_of_stateAfter hs
  exact ⟨s, result, hs, hresult,
    (succeeded_discharged rfl (by simp [plainLoop]) hstart run hresult hsucceeded).1⟩

/-- A loop that inherits a frozen ledger. -/
def frozenLoop : ReviewFixLoop := { plainLoop with inheritedLedgerFrozen := true }

/-- An obligation of another node that nothing requires. -/
def inheritedObligation : FindingRecord where
  key := "src/app.py:crash"
  file := "src/app.py"
  anchorPath := "src/app.py"
  line := none
  endLine := none
  subject := "crash"
  statement := "crash on empty input"
  category := "review"
  severity := "major"
  score := 85
  fixCost := "local"
  protects := "AC1"
  requiresDisposition := false
  contractViolation := false
  scopeExpanding := false

/-- A bounded loop that is to fix the obligation. -/
def boundedLoop : ReviewFixLoop where
  allowedPaths := ["src"]
  originNodeId := "node"
  inheritedFindings := [inheritedObligation]
  boundedFixOnly := true
  seededFixKeys := ["src/app.py:crash"]

/-- **A frozen ledger defers a required finding of its first review, and the loop succeeds; and a
bounded loop succeeds with the obligation that it was to fix still open.** -/
theorem succeeded_with_deferred :
    (crashOnEmptyInput true).get? "requires_disposition" = some (.bool true) ∧
    outcomesAfter frozenLoop [repliesOf [crashOnEmptyInput true] [] []] =
      some (some .succeeded, [("src/app.py:crash", .deferred)]) ∧
    outcomesAfter boundedLoop [repliesOf [] ["src/app.py:crash"] []] =
      some (some .succeeded, [("src/app.py:crash", .opened)]) := by
  decide +kernel

end HarnessLabs.FeatureRun
