import HarnessLabs.FeatureQueue.Turns

/-!
# Acknowledgments that are retried

An acknowledgment writes the queue and then the transaction. It may be cut between the two, and it
may be called again any number of times with the same result and the revisions that are there.

* `CrashSafe` — what is claimed of one acknowledgment.
* `Settles` — the results of the run, and the entries of the transaction, before it.
* `crashSafe_iff` — **an acknowledgment is crash safe exactly when it settles.**

**Argument.** What the checks read is not what an acknowledgment writes, so a call behind it passes
them again (`Accepted.settled`, `Accepted.acked`). It writes the queue as it is when the run has one
result (`acknowledgeQueue_again`), and the transaction as it is when it is acknowledged.
-/

namespace HarnessLabs.FeatureQueue

open List
open Audit (require_eq_ok require_bind_eq_ok unit_bind_eq_ok map_eq_ok)

/-! ## Retries -/

/-- A later call with the revisions that it reads. -/
def AckCall.again (call : AckCall) (now : String) (q : Queue) (t : FeatureTransaction) : AckCall :=
  { call with
    now := now
    expectedQueueRevision := some q.stateRevision
    expectedTransactionRevision := some t.stateRevision }

/-- Later calls, one at each of the times. -/
def retries (files : LocalFiles) (call : AckCall) (result : FeatureResult) :
    List String → Queue × FeatureTransaction → Except String (Queue × FeatureTransaction)
  | [], s => .ok s
  | now :: rest, s => do
    let next ← acknowledge files (call.again now s.1 s.2) result s.1 s.2
    retries files call result rest next

def AckEvidence.untimed (evidence : AckEvidence) : AckEvidence :=
  { evidence with acknowledgedAt := "" }

def HistoryEntry.untimed (entry : HistoryEntry) : HistoryEntry where
  state := entry.state
  time := ""
  evidence :=
    match entry.evidence with
    | .ack evidence => .ack evidence.untimed
    | .other document => .other document

/-- A transaction without its timestamps. -/
def FeatureTransaction.untimed (t : FeatureTransaction) : FeatureTransaction :=
  { t with
    history := t.history.map (·.untimed)
    dispatcherAck := t.dispatcherAck.map (·.untimed) }

/-- The revision of the queue that an entry names. -/
def HistoryEntry.queueRevision? (entry : HistoryEntry) : Option ℕ :=
  match entry.evidence with
  | .ack evidence => some evidence.queueStateRevision
  | .other _ => none

/-- The revisions that the acknowledgment entries of a transaction name. -/
def FeatureTransaction.acks (t : FeatureTransaction) : List (Option ℕ) :=
  (t.history.filter fun entry => entry.state = transactionAcked).map (·.queueRevision?)

/-! ## What is claimed -/

/-- The feature of a result is done, with one result and one acknowledgment entry. -/
structure Acknowledged (result : FeatureResult) (doneAt : ℕ) (q : Queue) (t : FeatureTransaction) :
    Prop where
  done : ∃ f ∈ q.features, f.index = featureIndex result ∧ f.status = .done
  once : (q.results.filter (ofRun (result.text? "feature_run_id"))).length = 1
  acked : t.state = transactionAcked
  named : t.acks = [some doneAt]

/-- The call acknowledges, whether or not it is cut between its writes, and later calls change
nothing. -/
def CrashSafe (files : LocalFiles) (call : AckCall) (result : FeatureResult) (doneAt : ℕ)
    (q : Queue) (t : FeatureTransaction) : Prop :=
  ∃ q' t', acknowledge files call result q t = .ok (q', t') ∧
    Acknowledged result doneAt q' t' ∧
    (∀ times, retries files call result times (q', t') = .ok (q', t')) ∧
    ∀ now times, ∃ t'', retries files call result (now :: times) (q', t) = .ok (q', t'') ∧
      t''.untimed = t'.untimed

/-- The documents that a call is accepted on, with the feature of its result. -/
structure Accepted (files : LocalFiles) (call : AckCall) (result : FeatureResult) (q : Queue)
    (t : FeatureTransaction) (before : List Feature) (f : Feature) (behind : List Feature) :
    Prop where
  found : q.findFeature (featureIndex result) = .ok (before, f, behind)
  checked : checkAck files call q t result f = .ok ()

/-- The revisions of the documents are the expected ones. -/
def AckCall.Current (call : AckCall) (q : Queue) (t : FeatureTransaction) : Prop :=
  (∀ r ∈ call.expectedQueueRevision, q.stateRevision = r) ∧
    ∀ r ∈ call.expectedTransactionRevision, t.stateRevision = r

/-- The revision of the queue behind an acknowledgment. -/
def settledRevision (q : Queue) (f : Feature) : ℕ :=
  if unsettled f then q.stateRevision + 1 else q.stateRevision

/-- The results of the run in the queue, before an acknowledgment that leaves it with one. -/
def OneResult (result : FeatureResult) (q : Queue) (f : Feature) : Prop :=
  if f.status = .done then
    q.results.filter (ofRun f.featureRunId) ≠ [] ∧
      agreesWith result (q.results.filter (ofRun f.featureRunId)) = true
  else q.results.filter (ofRun f.featureRunId) = []

/-- A run without a result whose feature is in progress, or with the one result and a feature that is
done; and a transaction without an acknowledgment, on a queue that has the revision at which the
feature is done, or with the one that names it. -/
structure Settles (result : FeatureResult) (doneAt : ℕ) (q : Queue) (f : Feature)
    (t : FeatureTransaction) : Prop where
  results : OneResult result q f
  entries : if t.state = transactionAcked then t.acks = [some doneAt]
    else t.acks = [] ∧ settledRevision q f = doneAt

/-! ## The checks behind an acknowledgment -/

theorem splitFirst_append {α : Type} {p : α → Bool} {before behind : List α} {a : α}
    (hbefore : ∀ b ∈ before, p b = false) (ha : p a = true) :
    splitFirst p (before ++ a :: behind) = some (before, a, behind) := by
  induction before with
  | nil => rw [nil_append, splitFirst, if_pos ha]
  | cons b rest ih =>
    obtain ⟨hb, hrest⟩ := forall_mem_cons.1 hbefore
    rw [cons_append, splitFirst, if_neg (by simp [hb]), ih hrest, Option.map_some]

variable {before behind : List Feature} {q q' : Queue}

theorem findFeature_replaced {index : Json} {f g : Feature}
    (h : q.findFeature index = .ok (before, f, behind)) (hindex : g.index = f.index)
    (hnow : q'.features = before ++ g :: behind) :
    q'.findFeature index = .ok (before, g, behind) := by
  obtain ⟨hone, hat⟩ := findFeature_ok.1 h
  obtain ⟨hwas, hf, hbefore⟩ := splitFirst_eq_some hat
  refine findFeature_ok.2 ⟨?_, ?_⟩
  · rw [hnow]
    rw [hwas] at hone
    simpa [countP_append, countP_cons, hindex] using hone
  · rw [Queue.atIndex, hnow]
    exact splitFirst_append hbefore (by simpa [hindex] using hf)

theorem validate_replaced {f g : Feature} (h : q.validate = .ok ())
    (hwas : q.features = before ++ f :: behind) (hnow : q'.features = before ++ g :: behind)
    (hindex : g.index = f.index) (hcontroller : g.controller = f.controller)
    (hdone : g.status = .done) (hbranch : q'.baseBranch = q.baseBranch)
    (hversion : q'.protocolVersion = q.protocolVersion)
    (hdispatcher : q'.dispatcher = q.dispatcher) (hrun : q'.queueRunId = q.queueRunId)
    (hidentity : q'.queueIdentity = q.queueIdentity) : q'.validate = .ok () := by
  simp only [Queue.validate, unit_bind_eq_ok, require_eq_ok, Audit.forM_eq_ok] at h ⊢
  rw [hbranch, hversion, hdispatcher, hrun, hidentity]
  obtain ⟨h₁, h₂, h₃, h₄, hnodup, hcontrollers, hone⟩ := h
  refine ⟨h₁, h₂, h₃, h₄, ?_, fun x hx => ?_, ?_⟩
  · rw [hwas] at hnodup
    simpa [hnow, hindex] using hnodup
  · rw [hnow, mem_append, mem_cons] at hx
    rw [hwas] at hcontrollers
    obtain hx | rfl | hx := hx
    · exact hcontrollers x (mem_append_left _ hx)
    · have hf := hcontrollers f (by simp)
      unfold Feature.validateController at hf ⊢
      rwa [hcontroller]
    · exact hcontrollers x (by simp [hx])
  · rw [hwas, countP_append, countP_cons] at hone
    rw [hnow, countP_append, countP_cons, if_neg (by simp [hdone])]
    omega

/-- What the checks read of a transaction. -/
structure SameProofs (t t' : FeatureTransaction) : Prop where
  protocol : t'.protocol = t.protocol
  queueRunId : t'.queueRunId = t.queueRunId
  featureRunId : t'.featureRunId = t.featureRunId
  featureIndex : t'.featureIndex = t.featureIndex
  baseBranch : t'.baseBranch = t.baseBranch
  baseHead : t'.baseHead = t.baseHead
  resultSha256 : t'.featureResultSha256 = t.featureResultSha256
  proofs : t'.proofs = t.proofs
  state : t'.state = t.state ∨ t'.state = transactionAcked
  history : ∃ entries, t'.history = t.history ++ entries

theorem SameProofs.refl (t : FeatureTransaction) : SameProofs t t :=
  ⟨rfl, rfl, rfl, rfl, rfl, rfl, rfl, rfl, .inl rfl, [], (append_nil _).symm⟩

theorem sameProofs_acknowledgeTransaction (call : AckCall) (t : FeatureTransaction) (revision : ℕ) :
    SameProofs t (acknowledgeTransaction call t revision) := by
  unfold acknowledgeTransaction
  split
  · exact .refl t
  · exact ⟨rfl, rfl, rfl, rfl, rfl, rfl, rfl, rfl, .inr rfl, _, rfl⟩

theorem take_append_of_take {α : Type} {required l : List α} (h : l.take required.length = required)
    (entries : List α) : (l ++ entries).take required.length = required := by
  have hlength : required.length ≤ l.length := by
    have := congrArg List.length h
    rw [length_take] at this
    omega
  rw [take_append_of_le_length hlength, h]

/-- What the checks read of a queue. -/
structure SameEnvelope (q q' : Queue) : Prop where
  valid : q.validate = .ok () → q'.validate = .ok ()
  paused : q'.paused = q.paused
  queueRunId : q'.queueRunId = q.queueRunId
  baseBranch : q'.baseBranch = q.baseBranch

/-- What the checks read of a feature. -/
structure SameRun (f f' : Feature) : Prop where
  index : f'.index = f.index
  featureRunId : f'.featureRunId = f.featureRunId
  paths : f'.paths = f.paths
  status : f.status = .inProgress ∨ f.status = .done → f'.status = .inProgress ∨ f'.status = .done

variable {result : FeatureResult}

/-- **The checks read nothing that an acknowledgment writes.** -/
theorem checkAck_congr {files : LocalFiles} {call call' : AckCall} {t t' : FeatureTransaction}
    {f f' : Feature} (h : checkAck files call q t result f = .ok ())
    (htransaction : call'.transactionPath = call.transactionPath)
    (hresult : call'.resultPath = call.resultPath)
    (hdigest : call'.resultSha256 = call.resultSha256) (hq : SameEnvelope q q')
    (ht : SameProofs t t') (hf : SameRun f f') :
    checkAck files call' q' t' result f' = .ok () := by
  obtain ⟨hpath, hresultPath, hack, hsha⟩ := checkAck_ok.1 h
  refine checkAck_ok.2 ⟨?_, ?_, ?_, ?_⟩
  · rw [hf.paths, htransaction, hpath]
  · rw [hf.paths, hresult, hresultPath]
  · have hproofs : validateLocalProofs files f' t' result = validateLocalProofs files f t result := by
      unfold validateLocalProofs
      rw [hf.paths, ht.proofs]
    simp only [validateAck, unit_bind_eq_ok, Queue.assertNotPaused, require_eq_ok] at hack ⊢
    obtain ⟨hvalid, hpaused, h₁, h₂, h₃, h₄, h₅, h₆, hstatus, hstate, hhistory, h₇, hhead, hlocal⟩ :=
      hack
    obtain ⟨entries, hentries⟩ := ht.history
    rw [hproofs, hq.paused, hq.queueRunId, hq.baseBranch, hf.index, hf.featureRunId, ht.protocol,
      ht.queueRunId, ht.featureRunId, ht.featureIndex, ht.baseBranch, ht.baseHead]
    refine ⟨hq.valid hvalid, hpaused, h₁, h₂, h₃, h₄, h₅, h₆, hf.status hstatus, ?_, ?_, h₇, hhead,
      hlocal⟩
    · cases ht.state with
      | inl hsame => rwa [hsame]
      | inr hacked => exact .inr hacked
    · rw [hentries, map_append]
      exact take_append_of_take hhistory _
  · rw [ht.resultSha256, hdigest]
    exact hsha

/-! ## The call again -/

/-- What an acknowledgment makes of the queue. -/
def settledQueue (q : Queue) (result : FeatureResult) (before : List Feature) (f : Feature)
    (behind : List Feature) : Queue :=
  { q.withFeature before (settleFeature result f) behind with
    results := if f.status = .done then q.results else q.results ++ [queueResult result]
    stateRevision := settledRevision q f }

theorem acknowledgeQueue_ok {f : Feature} :
    acknowledgeQueue q result before f behind = .ok q' ↔
      (f.status = .done → q.results.filter (ofRun f.featureRunId) ≠ []) ∧
      agreesWith result (q.results.filter (ofRun f.featureRunId)) = true ∧
      q' = settledQueue q result before f behind := by
  simp only [acknowledgeQueue, require_bind_eq_ok]
  refine and_congr_right fun _ => and_congr_right fun _ => ?_
  exact ⟨fun h => (Except.ok.inj h).symm, fun h => congrArg Except.ok h.symm⟩

theorem unsettled_settleFeature (result : FeatureResult) (f : Feature) :
    ¬ unsettled (settleFeature result f) := by
  intro h
  cases h with
  | inl hstatus => exact hstatus rfl
  | inr hlease =>
    obtain ⟨lease, hmem, hstate⟩ := hlease
    obtain ⟨old, -, rfl⟩ := Option.map_eq_some_iff.1 hmem
    unfold completeLease at hstate
    split at hstate
    case isTrue h => exact hstate h
    case isFalse => exact hstate rfl

theorem completeLease_completeLease (result : FeatureResult) (lease : DispatchLease) :
    completeLease result (completeLease result lease) = completeLease result lease := by
  by_cases h : lease.state = .complete
  · simp [completeLease, h]
  · simp [completeLease, h]

theorem settleFeature_settleFeature (result : FeatureResult) (f : Feature) :
    settleFeature result (settleFeature result f) = settleFeature result f := by
  have hlease : (f.dispatchLease.map (completeLease result)).map (completeLease result) =
      f.dispatchLease.map (completeLease result) := by
    rw [Option.map_map]
    exact congrArg (f.dispatchLease.map ·) (funext (completeLease_completeLease result))
  unfold settleFeature
  simp only [if_true, hlease]

theorem text?_queueResult (result : FeatureResult) :
    (queueResult result).text? "feature_run_id" = result.text? "feature_run_id" := by
  unfold FeatureResult.text? queueResult
  rw [Dict.get?_set_ne _ _ (by decide)]

theorem agreesWith_queueResult (result : FeatureResult) :
    agreesWith result [queueResult result] = true := by
  refine all_eq_true.2 fun p hp => decide_eq_true ?_
  rw [Dict.get?_eq_some_iff.2 hp]
  rfl

section

variable {q : Queue} {result : FeatureResult} {before behind : List Feature} {f : Feature}
  (hrun : result.text? "feature_run_id" = f.featureRunId)

include hrun

theorem filter_settledQueue :
    (settledQueue q result before f behind).results.filter (ofRun f.featureRunId) =
      q.results.filter (ofRun f.featureRunId) ++
        if f.status = .done then [] else [queueResult result] := by
  unfold settledQueue
  have hown : ofRun f.featureRunId (queueResult result) = true :=
    decide_eq_true ((text?_queueResult result).trans hrun)
  split
  · rw [append_nil]
  · rw [filter_append, filter_cons_of_pos hown, filter_nil]

theorem results_settledQueue (hresults : OneResult result q f) :
    (settledQueue q result before f behind).results.filter (ofRun f.featureRunId) ≠ [] ∧
      agreesWith result ((settledQueue q result before f behind).results.filter
        (ofRun f.featureRunId)) = true := by
  rw [filter_settledQueue hrun]
  unfold OneResult at hresults
  by_cases hdone : f.status = .done
  · rw [if_pos hdone] at hresults ⊢
    rwa [append_nil]
  · rw [if_neg hdone] at hresults ⊢
    rw [hresults, nil_append]
    exact ⟨cons_ne_nil _ _, agreesWith_queueResult result⟩

end

theorem length_of_agreesWith {found : List FeatureResult} (h : agreesWith result found = true)
    (hne : found ≠ []) : found.length = 1 := by
  match found with
  | [] => exact absurd rfl hne
  | [_] => rfl
  | _ :: _ :: _ => exact nomatch h

/-- **With one result of its run, the queue is written as it is.** -/
theorem acknowledgeQueue_again {q : Queue} {f : Feature}
    (hrun : result.text? "feature_run_id" = f.featureRunId) (hresults : OneResult result q f) :
    acknowledgeQueue (settledQueue q result before f behind) result before (settleFeature result f)
      behind = .ok (settledQueue q result before f behind) := by
  obtain ⟨hne, hagrees⟩ := @results_settledQueue q result before behind f hrun hresults
  refine acknowledgeQueue_ok.2 ⟨fun _ => hne, hagrees, ?_⟩
  have hrevision : settledRevision (settledQueue q result before f behind) (settleFeature result f) =
      (settledQueue q result before f behind).stateRevision :=
    if_neg (unsettled_settleFeature result f)
  conv_rhs => rw [settledQueue, hrevision, settleFeature_settleFeature]
  rfl

namespace Accepted

variable {files : LocalFiles} {call call' : AckCall} {result : FeatureResult} {q : Queue}
  {t : FeatureTransaction} {before behind : List Feature} {f : Feature}

theorem sameRun (result : FeatureResult) (f : Feature) : SameRun f (settleFeature result f) :=
  ⟨rfl, rfl, rfl, fun _ => .inr rfl⟩

section

variable (h : Accepted files call result q t before f behind)

include h

theorem was :
    q.features = before ++ f :: behind :=
  (Queue.atIndex_eq_some (findFeature_ok.1 h.found).2).1

theorem runId :
    result.text? "feature_run_id" = f.featureRunId := by
  have hack := (checkAck_ok.1 h.checked).2.2.1
  simp only [validateAck, unit_bind_eq_ok, require_eq_ok] at hack
  exact hack.2.2.2.2.2.1.2.2

/-- The queue is written, and the call is made again. -/
theorem settled (now : String) (q₀ : Queue) (t₀ : FeatureTransaction) :
    Accepted files (call.again now q₀ t₀) result (settledQueue q result before f behind) t before
      (settleFeature result f) behind where
  found := findFeature_replaced h.found rfl rfl
  checked := by
    refine checkAck_congr h.checked rfl rfl rfl ⟨fun hvalid => ?_, rfl, rfl, rfl⟩ (.refl t)
      (sameRun result f)
    exact validate_replaced hvalid h.was rfl rfl rfl rfl rfl rfl rfl rfl rfl

/-- The transaction is written, and the call is made again. -/
theorem acked (now : String) (q₀ : Queue) (t₀ : FeatureTransaction) (call' : AckCall)
    (revision : ℕ) :
    Accepted files (call.again now q₀ t₀) result q (acknowledgeTransaction call' t revision) before f
      behind where
  found := h.found
  checked := checkAck_congr h.checked rfl rfl rfl ⟨id, rfl, rfl, rfl⟩
    (sameProofs_acknowledgeTransaction call' t revision) ⟨rfl, rfl, rfl, id⟩

theorem acknowledge_eq (hcall : call.Current q t) :
    acknowledge files call result q t = (acknowledgeQueue q result before f behind).map fun q' =>
      (q', acknowledgeTransaction call t q'.stateRevision) := by
  have hq : checkRevision q.stateRevision call.expectedQueueRevision = .ok () :=
    require_eq_ok.2 hcall.1
  have ht : checkRevision t.stateRevision call.expectedTransactionRevision = .ok () :=
    require_eq_ok.2 hcall.2
  simp only [acknowledge, hq, ht, h.found, h.checked, bind, Except.bind]
  cases acknowledgeQueue q result before f behind <;> rfl

end

end Accepted

theorem AckCall.current_again (call : AckCall) (now : String) (q : Queue) (t : FeatureTransaction) :
    (call.again now q t).Current q t :=
  ⟨fun _ hr => Option.some.inj hr, fun _ hr => Option.some.inj hr⟩

/-! ## Transactions -/

theorem acknowledgeTransaction_of_acked {call : AckCall} {t : FeatureTransaction} {revision : ℕ}
    (h : t.state = transactionAcked) : acknowledgeTransaction call t revision = t :=
  if_pos h

theorem state_acknowledgeTransaction (call : AckCall) (t : FeatureTransaction) (revision : ℕ) :
    (acknowledgeTransaction call t revision).state = transactionAcked := by
  unfold acknowledgeTransaction
  split
  case isTrue h => exact h
  case isFalse => rfl

theorem acks_acknowledgeTransaction {call : AckCall} {t : FeatureTransaction} {revision : ℕ}
    (h : t.state ≠ transactionAcked) :
    (acknowledgeTransaction call t revision).acks = t.acks ++ [some revision] := by
  simp [acknowledgeTransaction, FeatureTransaction.acks, HistoryEntry.queueRevision?, h]

theorem untimed_acknowledgeTransaction (call : AckCall) (now : String) (q₀ : Queue)
    (t₀ t : FeatureTransaction) (revision : ℕ) :
    (acknowledgeTransaction (call.again now q₀ t₀) t revision).untimed =
      (acknowledgeTransaction call t revision).untimed := by
  by_cases h : t.state = transactionAcked
  · rw [acknowledgeTransaction_of_acked h, acknowledgeTransaction_of_acked h]
  · simp [acknowledgeTransaction, FeatureTransaction.untimed, HistoryEntry.untimed,
      AckEvidence.untimed, AckCall.again, h]

/-! ## Crashes -/

section

variable {files : LocalFiles} {call : AckCall} {result : FeatureResult} {q : Queue}
  {t : FeatureTransaction} {before behind : List Feature} {f : Feature} {doneAt : ℕ}

/-- Documents that a call leaves as they are are left as they are by any number of calls. -/
theorem retries_fixed (haccepted : ∀ now, Accepted files (call.again now q t) result q t before f behind)
    (hq : acknowledgeQueue q result before f behind = .ok q) (ht : t.state = transactionAcked)
    (times : List String) : retries files call result times (q, t) = .ok (q, t) := by
  induction times with
  | nil => rfl
  | cons now rest ih =>
    have hcall : acknowledge files (call.again now q t) result q t = .ok (q, t) := by
      rw [(haccepted now).acknowledge_eq (call.current_again now q t), hq, Except.map,
        acknowledgeTransaction_of_acked ht]
    rw [retries, hcall]
    exact ih

section

variable (h : Accepted files call result q t before f behind)

include h

theorem Accepted.acknowledged (hsettles : Settles result doneAt q f t) :
    Acknowledged result doneAt (settledQueue q result before f behind)
      (acknowledgeTransaction call t (settledRevision q f)) where
  done := by
    refine ⟨settleFeature result f, mem_append_right _ (mem_cons_self ..), ?_, rfl⟩
    exact (Queue.atIndex_eq_some (findFeature_ok.1 h.found).2).2
  once := by
    obtain ⟨hne, hagrees⟩ := @results_settledQueue q result before behind f h.runId hsettles.results
    rw [h.runId]
    exact length_of_agreesWith hagrees hne
  acked := state_acknowledgeTransaction call t _
  named := by
    have hentries := hsettles.entries
    by_cases hacked : t.state = transactionAcked
    · rw [if_pos hacked] at hentries
      rwa [acknowledgeTransaction_of_acked hacked]
    · rw [if_neg hacked] at hentries
      rw [acks_acknowledgeTransaction hacked, hentries.1, hentries.2, nil_append]

/-- A call behind an acknowledgment, of the transaction before it or behind it. -/
theorem Accepted.acknowledge_again (hresults : OneResult result q f) (now : String) :
    acknowledge files (call.again now (settledQueue q result before f behind) t) result
      (settledQueue q result before f behind) t = .ok (settledQueue q result before f behind,
        acknowledgeTransaction (call.again now (settledQueue q result before f behind) t) t
          (settledRevision q f)) := by
  rw [(h.settled now _ t).acknowledge_eq (call.current_again now _ t),
    acknowledgeQueue_again h.runId hresults]
  rfl

theorem Accepted.retries_acknowledged (hresults : OneResult result q f) (call' : AckCall)
    (times : List String) :
    retries files call result times (settledQueue q result before f behind,
        acknowledgeTransaction call' t (settledRevision q f)) =
      .ok (settledQueue q result before f behind,
        acknowledgeTransaction call' t (settledRevision q f)) := by
  refine retries_fixed (fun now => ?_) (acknowledgeQueue_again h.runId hresults)
    (state_acknowledgeTransaction call' t _) times
  exact (h.settled now q t).acked now _ _ call' _

end

/-- **An acknowledgment is crash safe exactly when it settles.** -/
theorem crashSafe_iff (h : Accepted files call result q t before f behind)
    (hcall : call.Current q t) :
    CrashSafe files call result doneAt q t ↔ Settles result doneAt q f t := by
  constructor
  · rintro ⟨q', t', hack, hacknowledged, -, -⟩
    rw [h.acknowledge_eq hcall] at hack
    obtain ⟨updated, hupdated, hsame⟩ := map_eq_ok.1 hack
    obtain ⟨rfl, rfl⟩ := Prod.mk.inj hsame
    obtain ⟨hne, hagrees, rfl⟩ := acknowledgeQueue_ok.1 hupdated
    refine ⟨?_, ?_⟩
    · unfold OneResult
      by_cases hdone : f.status = .done
      · rw [if_pos hdone]
        exact ⟨hne hdone, hagrees⟩
      · have hone := hacknowledged.once
        rw [h.runId, filter_settledQueue h.runId, if_neg hdone, length_append] at hone
        rw [if_neg hdone]
        exact eq_nil_of_length_eq_zero (by simpa using hone)
    · have hnamed := hacknowledged.named
      by_cases hacked : t.state = transactionAcked
      · rw [if_pos hacked]
        rwa [acknowledgeTransaction_of_acked hacked] at hnamed
      · rw [if_neg hacked]
        rw [acks_acknowledgeTransaction hacked] at hnamed
        obtain ⟨hnil, hlast⟩ := append_inj' (hnamed.trans (nil_append _).symm) rfl
        exact ⟨hnil, Option.some.inj (List.cons.inj hlast).1⟩
  · intro hsettles
    have hresults := hsettles.results
    have hqueue : acknowledgeQueue q result before f behind =
        .ok (settledQueue q result before f behind) := by
      unfold OneResult at hresults
      refine acknowledgeQueue_ok.2 ⟨fun hdone => ?_, ?_, rfl⟩
      · rw [if_pos hdone] at hresults
        exact hresults.1
      · by_cases hdone : f.status = .done
        · rw [if_pos hdone] at hresults
          exact hresults.2
        · rw [if_neg hdone] at hresults
          rw [hresults]
          rfl
    refine ⟨settledQueue q result before f behind,
      acknowledgeTransaction call t (settledRevision q f), ?_, h.acknowledged hsettles,
      h.retries_acknowledged hresults call, fun now times => ?_⟩
    · rw [h.acknowledge_eq hcall, hqueue]
      rfl
    · refine ⟨_, ?_, untimed_acknowledgeTransaction call now (settledQueue q result before f behind)
        t t _⟩
      rw [retries, h.acknowledge_again hresults now]
      exact h.retries_acknowledged hresults _ times

end

/-! ### A run with a result -/

def ackedRunPaths : Dict String String :=
  Dict.ofList [("transaction_path", "handoff/t.json"), ("feature_result_path", "handoff/r.json"),
    ("merge_receipt", "handoff/m.json"), ("clearance_report", "handoff/c.md"),
    ("cleanup_proof", "handoff/p.json")]

def activeFeature : Feature where
  index := .int 0
  description := "first feature"
  status := .inProgress
  featureRunId := some "fr-1"
  dispatchLease := some ⟨"coordinator-1", "lease-1", .active, "t0", false, false, none, none, none, none⟩
  paths := ackedRunPaths

def doneResult : FeatureResult :=
  Dict.ofList [("protocol", .str "implement-v13-codex/feature-result/1"), ("status", .str "done"),
    ("queue_run_id", .str "qr-1"), ("feature_run_id", .str "fr-1"), ("feature_index", .int 0),
    ("completed_at", .str "t1"), ("manifest", .str "docs/development/runs/fr-1.md"),
    ("merge_receipt", .str "handoff/m.json"), ("clearance_report", .str "handoff/c.md"),
    ("base_head", .str "b1"), ("cleanup_proof", .str "handoff/p.json")]

def activeQueue (results : List FeatureResult) : Queue where
  features := [activeFeature]
  results := results
  baseBranch := some "main"
  queueRunId := some "qr-1"
  stateRevision := 4

def readyTransaction : FeatureTransaction where
  protocol := "implement-v13-codex/feature-transaction/1"
  queueRunId := some "qr-1"
  featureRunId := some "fr-1"
  featureIndex := .int 0
  baseBranch := some "main"
  state := transactionReady
  history := requiredStates.map fun state => ⟨state, "t0", .other .null⟩

def mergedFiles : LocalFiles := fun path =>
  if path = "handoff/m.json" then
    some ⟨"m", .ok (.obj [("protocol", .str "implement-v13-codex/merge-receipt/1"),
      ("queue_run_id", .str "qr-1"), ("feature_run_id", .str "fr-1"), ("base_head_after", .str "b1"),
      ("manifest", .str "docs/development/runs/fr-1.md"), ("ancestry_verified", .bool true),
      ("manifest_sha256", .str "d"), ("cleanup", .obj []), ("guards", .obj [])])⟩
  else some ⟨"d", .error "not JSON"⟩

def ackCall : AckCall where
  transactionPath := "handoff/t.json"
  resultPath := "handoff/r.json"
  resultSha256 := "r"
  now := "t2"

theorem crashSafe_iff_first :
    CrashSafe mergedFiles ackCall doneResult 5 (activeQueue []) readyTransaction := by
  have hfound : (activeQueue []).findFeature (featureIndex doneResult) = .ok ([], activeFeature, []) :=
    by rfl
  have hchecked : checkAck mergedFiles ackCall (activeQueue []) readyTransaction doneResult
      activeFeature = .ok () := by
    decide +kernel
  have hentries : readyTransaction.acks = [] := by decide +kernel
  exact (crashSafe_iff ⟨hfound, hchecked⟩ ⟨nofun, nofun⟩).2 ⟨rfl, hentries, rfl⟩

/-- A feature in progress whose run has its result in the queue already gets it a second time. -/
theorem result_appended_twice :
    ¬ ∀ (files : LocalFiles) (call : AckCall) (result : FeatureResult) (q : Queue)
        (t : FeatureTransaction) (before behind : List Feature) (f : Feature),
      Accepted files call result q t before f behind → call.Current q t →
        ∃ doneAt, CrashSafe files call result doneAt q t := by
  intro hclaim
  have hfound : (activeQueue [doneResult]).findFeature (featureIndex doneResult) =
      .ok ([], activeFeature, []) := by
    rfl
  have hchecked : checkAck mergedFiles ackCall (activeQueue [doneResult]) readyTransaction doneResult
      activeFeature = .ok () := by
    decide +kernel
  obtain ⟨doneAt, q', t', hack, hacknowledged, -⟩ := hclaim mergedFiles ackCall doneResult _
    readyTransaction [] [] activeFeature ⟨hfound, hchecked⟩ ⟨nofun, nofun⟩
  have htwice : ((acknowledge mergedFiles ackCall doneResult (activeQueue [doneResult])
      readyTransaction).toOption.map fun out =>
        (out.1.results.filter (ofRun (doneResult.text? "feature_run_id"))).length) = some 2 := by
    decide +kernel
  rw [hack] at htwice
  have hlength := hacknowledged.once.symm.trans (Option.some.inj htwice)
  exact absurd hlength (by decide)

end HarnessLabs.FeatureQueue
