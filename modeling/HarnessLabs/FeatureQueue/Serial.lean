import HarnessLabs.FeatureQueue.Turns
import HarnessLabs.Lib.Runs
import HarnessLabs.Lib.Until

/-!
# Features one after the other

Any sequence of operations on a queue whose features are all pending. Next to the queue stand the
pairs of a coordinator and a lease id that blocks have released, that dispatches have launched, and
whose resumed launch was consumed.

* `Serialized` — what holds between two operations.
* `Guarded` — what holds of every operation.
* `serialized_iff_fresh` — **the queue stays serialized exactly as long as no operation that is
  accepted puts a released pair on a lease again.**

**Argument** (`Sound`). At most one feature is neither pending nor done, all before it are done and
all behind it pending. If it is blocked its pair is released; if it is in progress its pair is not
released, not launched while a launch is authorised, and not consumed while the lease is not. A pair
that is in one of the lists is released or on the lease of a feature that has left pending, so that
a pair which is issued, and is neither released nor on the lease of another feature, is in none.
-/

namespace HarnessLabs.FeatureQueue

open List Option
open Audit (bind_eq_ok map_eq_ok)
open Inputs (AllStates AllInputs AllSteps allStates_iff_allInputs runInputs)
open Until (forall₂_mem_left forall₂_mem_right)

/-! ## Operations -/

abbrev Pair := String × String

inductive Op where
  | dispatch (call : DispatchCall)
  | adopt (fromEngine token now newId : String)
  | addInput (input : PlanningInput) (featureIndex : Option Json)
  | block (call : BlockCall)
  | resume (call : ResumeCall)
  | consume (call : ConsumeCall)
  | migrate (call : MigrateCall)
  | acknowledge (call : AckCall) (result : FeatureResult) (t : FeatureTransaction)

/-- One call on the file of the queue, with what it finds in the other files. -/
structure Request where
  host : QueueHost
  files : LocalFiles
  expectedRevision : Option ℕ
  op : Op

/-- `atomic_mutate`. -/
def atomicMutate {α : Type} (expectedRevision : Option ℕ)
    (mutator : Queue → Except String (Queue × α)) (q : Queue) : Except String (Queue × α) := do
  checkRevision q.stateRevision expectedRevision
  let (updated, out) ← mutator q
  return ({ updated with stateRevision := q.stateRevision + 1 }, out)

/-- What a request writes, with the payload of a dispatch. -/
def Request.perform (r : Request) (q : Queue) : Except String (Queue × Option DispatchPayload) :=
  match r.op with
  | .dispatch call =>
    mutate fun q => (prepareDispatch r.host call q).map fun out => (out.1, some out.2)
  | .adopt fromEngine token now newId =>
    mutate (silent fun q => adoptPendingEngine q fromEngine token now newId)
  | .addInput input featureIndex => mutate (silent fun q => addPlanningInput q input featureIndex)
  | .block call => mutate (silent (blockFeature call))
  | .resume call => mutate (silent (resumeBlockedFeature r.host call))
  | .consume call => mutate (silent (consumeResumedLaunch call))
  | .migrate call => mutate (silent (migrateFeature call))
  | .acknowledge call result t =>
    (acknowledge r.files call result q t).map fun out => (out.1, none)
where
  mutate (mutator : Queue → Except String (Queue × Option DispatchPayload)) :=
    atomicMutate r.expectedRevision mutator q
  silent (mutator : Queue → Except String Queue) (q : Queue) :
      Except String (Queue × Option DispatchPayload) :=
    (mutator q).map fun updated => (updated, none)

namespace Op

/-- The pair that an operation puts on a lease. -/
def issues (q : Queue) : Op → Option Pair
  | .dispatch call =>
    match q.unfinished with
    | none => none
    | some (_, f, _) =>
      if f.status = .pending then some (call.coordinatorId, call.issuedLeaseId) else none
  | .resume call => some (call.coordinatorId, call.leaseId)
  | _ => none

/-- The coordinator and the lease id with which an operation acts on an active feature. -/
def presents (q : Queue) : Op → Option (String × Option String)
  | .dispatch call =>
    match q.unfinished with
    | none => none
    | some (_, f, _) =>
      if f.status = .pending then none else some (call.coordinatorId, call.leaseId)
  | .block call => some (call.coordinatorId, some call.leaseId)
  | .consume call => some (call.coordinatorId, some call.leaseId)
  | _ => none

def releases : Op → List Pair
  | .block call => [(call.coordinatorId, call.leaseId)]
  | _ => []

def consumes : Op → List Pair
  | .consume call => [(call.coordinatorId, call.leaseId)]
  | _ => []

end Op

/-- The pair of a payload that tells to launch the run or to resume it. -/
def launchOf (payload : DispatchPayload) : List Pair :=
  if payload.dispatchAction = .reattach then [] else [(payload.coordinatorId, payload.leaseId)]

/-! ## The system -/

structure Serial where
  queue : Queue
  released : List Pair := []
  launched : List Pair := []
  consumed : List Pair := []

namespace Serial

variable (s : Serial)

/-- What an operation leaves behind. -/
def after (op : Op) (out : Queue × Option DispatchPayload) : Serial where
  queue := out.1
  released := s.released ++ op.releases
  launched := s.launched ++ out.2.toList.flatMap launchOf
  consumed := s.consumed ++ op.consumes

/-- A request that is refused writes nothing. -/
def step (r : Request) : Option Serial :=
  match r.perform s.queue with
  | .error _ => some s
  | .ok out => some (s.after r.op out)

end Serial

/-! ## What is claimed -/

/-- Between two operations: features leave pending in the order of the queue, one at a time, no
feature answers to a released pair, and no pair is launched or consumed twice. -/
structure Serialized (s : Serial) : Prop where
  ordered : s.queue.features.Pairwise fun f g => g.status ≠ .pending → f.status = .done
  single : s.queue.features.countP (fun f => f.status = .inProgress ∨ f.status = .blocked) ≤ 1
  spent : ∀ pair ∈ s.released, ∀ f ∈ s.queue.features, f.status = .inProgress →
    ∀ lease, requireLease f pair.1 (some pair.2) ≠ .ok lease
  launchedOnce : s.launched.Nodup
  consumedOnce : s.consumed.Nodup

/-- Of one operation: the identities and the paths that are set stay, and an active feature is acted
on with the coordinator and the lease id of its active lease. -/
structure Guarded (s : Serial) (r : Request) (s' : Serial) : Prop where
  identity : s.queue.KeepsIdentity s'.queue
  features : List.Forall₂ Feature.Keeps s.queue.features s'.queue.features
  leased : ∀ out, r.perform s.queue = .ok out → ∀ pair ∈ r.op.presents s.queue,
    ∃ f ∈ s.queue.features, f.status = .inProgress ∧ ∃ lease ∈ f.dispatchLease,
      lease.state = .active ∧ lease.coordinatorId = pair.1 ∧ some lease.leaseId = pair.2

/-- No pair that was released is put on a lease by a request that is accepted. -/
def IssuesFresh (s : Serial) (r : Request) : Prop :=
  ∀ out, r.perform s.queue = .ok out → ∀ pair ∈ r.op.issues s.queue, pair ∉ s.released

/-! ## What a request changes -/

/-- What comes to the lists. -/
structure Books (s s' : Serial) (released launched consumed : List Pair) : Prop where
  released : s'.released = s.released ++ released
  launched : s'.launched = s.launched ++ launched
  consumed : s'.consumed = s.consumed ++ consumed

/-- What an accepted request changes, with the pair that it issues and the one that it presents. -/
inductive Change (s s' : Serial) : Option Pair → Option (String × Option String) → Prop
  | rests (h : s.queue.Rests s'.queue) (hbooks : Books s s' [] [] []) : Change s s' none none
  | launches {before behind : List Feature} {f g : Feature} {lease : DispatchLease} {pair : Pair}
      (h : s.queue.Replaces s'.queue before f g behind) (hpending : f.status = .pending)
      (hdone : ∀ b ∈ before, b.status = .done) (hactive : g.status = .inProgress)
      (hlease : g.dispatchLease = some lease) (hfresh : lease.Fresh pair.1 pair.2)
      (hspent : lease.launchAuthorized = false)
      (hfree : ∀ other ∈ before ++ behind, ∀ held ∈ other.dispatchLease, held.leaseId ≠ pair.2)
      (hbooks : Books s s' [] [pair] []) : Change s s' (some pair) none
  | resumes {before behind : List Feature} {f g : Feature} {lease : DispatchLease} {pair : Pair}
      (h : s.queue.Replaces s'.queue before f g behind) (hblocked : f.status = .blocked)
      (hactive : g.status = .inProgress) (hlease : g.dispatchLease = some lease)
      (hfresh : lease.Fresh pair.1 pair.2)
      (hfree : ∀ other ∈ before ++ behind, ∀ held ∈ other.dispatchLease, held.leaseId ≠ pair.2)
      (hbooks : Books s s' [] [] []) : Change s s' (some pair) none
  | reattaches {before behind : List Feature} {f g : Feature} {old lease : DispatchLease}
      {coordinatorId : String} {leaseId : Option String} {launched : List Pair}
      (h : s.queue.Replaces s'.queue before f g behind) (hwas : f.status = .inProgress)
      (hold : requireLease f coordinatorId leaseId = .ok old) (hactive : g.status = .inProgress)
      (hlease : g.dispatchLease = some lease) (hholder : lease.holder = old.holder)
      (hconsumed : lease.launchConsumedAt = old.launchConsumedAt)
      (hspent : lease.launchAuthorized = false)
      (hlaunched : launched = [] ∨ launched = [old.holder] ∧ old.launchAuthorized = true)
      (hbooks : Books s s' [] launched []) : Change s s' none (some (coordinatorId, leaseId))
  | blocks {before behind : List Feature} {f g : Feature} {old : DispatchLease} {pair : Pair}
      (h : s.queue.Replaces s'.queue before f g behind) (hwas : f.status = .inProgress)
      (hold : requireLease f pair.1 (some pair.2) = .ok old) (hblocked : g.status = .blocked)
      (hheld : ∀ held ∈ g.dispatchLease, held.holder = pair)
      (hbooks : Books s s' [pair] [] []) : Change s s' none (some (pair.1, some pair.2))
  | consumes {before behind : List Feature} {f g : Feature} {old lease : DispatchLease}
      {pair : Pair} (h : s.queue.Replaces s'.queue before f g behind)
      (hwas : f.status = .inProgress) (hold : requireLease f pair.1 (some pair.2) = .ok old)
      (hunused : old.launchConsumedAt = none) (hactive : g.status = .inProgress)
      (hlease : g.dispatchLease = some lease) (hholder : lease.holder = old.holder)
      (hauthorized : lease.launchAuthorized = old.launchAuthorized)
      (hused : lease.launchConsumedAt ≠ none)
      (hbooks : Books s s' [] [] [pair]) : Change s s' none (some (pair.1, some pair.2))
  | finishes {before behind : List Feature} {f g : Feature}
      (h : s.queue.Replaces s'.queue before f g behind) (hwas : f.status = .inProgress)
      (hdone : g.status = .done)
      (hheld : ∀ old ∈ f.dispatchLease, ∃ lease ∈ g.dispatchLease, lease.holder = old.holder)
      (hbooks : Books s s' [] [] []) : Change s s' none none

theorem atomicMutate_ok {α : Type} {expected : Option ℕ}
    {mutator : Queue → Except String (Queue × α)} {q q' : Queue} {out : α}
    (h : atomicMutate expected mutator q = .ok (q', out)) :
    ∃ updated, mutator q = .ok (updated, out) ∧ q'.features = updated.features ∧
      q'.queueIdentity = updated.queueIdentity := by
  simp only [atomicMutate, bind_eq_ok] at h
  obtain ⟨-, -, ⟨updated, found⟩, hupdated, hok⟩ := h
  cases hok
  exact ⟨updated, hupdated, rfl, rfl⟩

theorem mutate_silent_ok {r : Request} {mutator : Queue → Except String Queue} {q q' : Queue}
    {payload : Option DispatchPayload}
    (h : Request.perform.mutate r q (Request.perform.silent mutator) = .ok (q', payload)) :
    payload = none ∧ ∃ updated, mutator q = .ok updated ∧ q'.features = updated.features ∧
      q'.queueIdentity = updated.queueIdentity := by
  obtain ⟨updated, hmutator, hsame⟩ := atomicMutate_ok h
  obtain ⟨found, hfound, hok⟩ := map_eq_ok.1 hmutator
  obtain ⟨rfl, rfl⟩ := Prod.mk.inj hok
  exact ⟨rfl, found, hfound, hsame⟩

variable {f : Feature}

theorem Queue.Replaces.congr {q q' q'' : Queue} {before behind : List Feature} {g : Feature}
    (h : q.Replaces q' before f g behind) (hfeatures : q''.features = q'.features)
    (hidentity : q''.queueIdentity = q'.queueIdentity) : q.Replaces q'' before f g behind :=
  ⟨h.was, hfeatures.trans h.now, h.keeps, fun i hi => hidentity.trans (h.identity i hi)⟩

theorem Queue.Rests.congr {q q' q'' : Queue} (h : q.Rests q')
    (hfeatures : q''.features = q'.features) (hidentity : q''.queueIdentity = q'.queueIdentity) :
    q.Rests q'' :=
  ⟨hfeatures ▸ h.1, fun i hi => hidentity.trans (h.2 i hi)⟩

theorem books_silent {s : Serial} {q' : Queue} {payload : Option DispatchPayload} (op : Op)
    (hpayload : payload = none) :
    Books s (s.after op (q', payload)) op.releases [] op.consumes := by
  subst hpayload
  exact ⟨rfl, rfl, rfl⟩

theorem same_settleFeature (result : FeatureResult) (hdone : f.status = .done) :
    f.Same (settleFeature result f) where
  toKeeps := .of_eq rfl rfl rfl
  status := hdone.symm
  lease lease hlease := by
    obtain ⟨old, hold, rfl⟩ := map_eq_some_iff.1 hlease
    exact ⟨old, hold, holder_completeLease result old, fun h => by simp [hdone] at h⟩
  held old hold := ⟨completeLease result old, map_eq_some_iff.2 ⟨old, hold, rfl⟩,
    holder_completeLease result old⟩

/-- **What an accepted request changes.** -/
theorem Request.perform_change {r : Request} {s : Serial} {out : Queue × Option DispatchPayload}
    (h : r.perform s.queue = .ok out) :
    Change s (s.after r.op out) (r.op.issues s.queue) (r.op.presents s.queue) := by
  obtain ⟨host, files, expected, op⟩ := r
  obtain ⟨q', payload⟩ := out
  cases op with
  | dispatch call =>
    have hmutate : atomicMutate expected (fun q => (prepareDispatch host call q).map fun out =>
      (out.1, some out.2)) s.queue = .ok (q', payload) := h
    obtain ⟨updated, hmutator, hfeatures, hidentity⟩ := atomicMutate_ok hmutate
    obtain ⟨⟨found, sent⟩, hdispatch, hok⟩ := map_eq_ok.1 hmutator
    obtain ⟨rfl, rfl⟩ := Prod.mk.inj hok
    obtain ⟨before, f, g, behind, lease, hfirst, hreplaces, hactive, hlease, hholder, hleased⟩ :=
      prepareDispatch_ok hdispatch
    have hreplaces := hreplaces.congr hfeatures hidentity
    have hbooks : Books s (s.after (.dispatch call) (q', some sent)) [] (launchOf sent) [] :=
      ⟨rfl, by simp [Serial.after], rfl⟩
    simp only [Op.issues, Op.presents, hfirst]
    unfold launchOf at hbooks
    rw [hholder] at hbooks
    generalize sent.dispatchAction = action at hleased hbooks
    cases hleased with
    | launched hpending hfresh hspent hfree =>
      rw [if_pos hpending, if_pos hpending]
      rw [if_neg nofun, hfresh.holder] at hbooks
      have hid : lease.leaseId = call.issuedLeaseId := congrArg Prod.snd hfresh.holder
      rw [hid] at hfree
      exact .launches hreplaces hpending (Queue.unfinished_eq_some hfirst).2.2 hactive hlease hfresh
        hspent hfree hbooks
    | reattached hwas old action hold hsame hstate hconsumed hspent haction =>
      have hpending : f.status ≠ .pending := by simp [hwas]
      rw [if_neg hpending, if_neg hpending]
      refine .reattaches hreplaces hwas hold hactive hlease hsame hconsumed hspent ?_ hbooks
      by_cases hreattach : action = .reattach
      · exact .inl (if_pos hreattach)
      · exact .inr ⟨by rw [if_neg hreattach, hsame], haction hreattach⟩
  | adopt fromEngine token now newId =>
    obtain ⟨hnone, updated, hupdated, hfeatures, hidentity⟩ := mutate_silent_ok h
    exact .rests ((adoptPendingEngine_ok hupdated).congr hfeatures hidentity) (books_silent _ hnone)
  | addInput input featureIndex =>
    obtain ⟨hnone, updated, hupdated, hfeatures, hidentity⟩ := mutate_silent_ok h
    exact .rests ((addPlanningInput_ok hupdated).congr hfeatures hidentity) (books_silent _ hnone)
  | block call =>
    obtain ⟨hnone, updated, hupdated, hfeatures, hidentity⟩ := mutate_silent_ok h
    obtain ⟨before, f, g, behind, old, hreplaces, hwas, hold, hblocked, hheld⟩ :=
      blockFeature_ok hupdated
    exact .blocks (hreplaces.congr hfeatures hidentity) hwas hold hblocked hheld (books_silent _ hnone)
  | resume call =>
    obtain ⟨hnone, updated, hupdated, hfeatures, hidentity⟩ := mutate_silent_ok h
    obtain ⟨before, f, g, behind, lease, hreplaces, hwas, hactive, hlease, hfresh, hfree⟩ :=
      resumeBlockedFeature_ok hupdated
    exact .resumes (hreplaces.congr hfeatures hidentity) hwas hactive hlease hfresh hfree
      (books_silent _ hnone)
  | consume call =>
    obtain ⟨hnone, updated, hupdated, hfeatures, hidentity⟩ := mutate_silent_ok h
    obtain ⟨before, f, g, behind, old, hreplaces, hwas, hold, hunused, hactive, hlease⟩ :=
      consumeResumedLaunch_ok hupdated
    exact .consumes (hreplaces.congr hfeatures hidentity) hwas hold hunused hactive hlease rfl rfl
      nofun (books_silent (.consume call) hnone)
  | migrate call =>
    obtain ⟨hnone, updated, hupdated, hfeatures, hidentity⟩ := mutate_silent_ok h
    exact .rests ((migrateFeature_ok hupdated).congr hfeatures hidentity) (books_silent _ hnone)
  | acknowledge call result t =>
    obtain ⟨⟨updated, t'⟩, hack, hok⟩ := map_eq_ok.1 h
    obtain ⟨rfl, rfl⟩ := Prod.mk.inj hok
    obtain ⟨before, f, behind, hreplaces, hstatus⟩ := acknowledge_ok hack
    cases hstatus with
    | inl hactive =>
      refine .finishes hreplaces hactive rfl (fun old hold => ?_) (books_silent _ rfl)
      exact ⟨completeLease result old, map_eq_some_iff.2 ⟨old, hold, rfl⟩,
        holder_completeLease result old⟩
    | inr hdone =>
      refine .rests ⟨?_, hreplaces.identity⟩ (books_silent _ rfl)
      show List.Forall₂ Feature.Same s.queue.features updated.features
      rw [hreplaces.was, hreplaces.now]
      exact same_replaced (same_settleFeature result hdone)

theorem forall₂_replaced {before behind : List Feature} {g : Feature} (h : f.Keeps g) :
    List.Forall₂ Feature.Keeps (before ++ f :: behind) (before ++ g :: behind) :=
  rel_append (List.forall₂_same.2 fun b _ => .refl b)
    (.cons h (List.forall₂_same.2 fun b _ => .refl b))

theorem Queue.Replaces.forall₂ {q q' : Queue} {before behind : List Feature} {g : Feature}
    (h : q.Replaces q' before f g behind) :
    List.Forall₂ Feature.Keeps q.features q'.features := by
  rw [h.was, h.now]
  exact forall₂_replaced h.keeps

theorem Queue.Replaces.mem {q q' : Queue} {before behind : List Feature} {g : Feature}
    (h : q.Replaces q' before f g behind) : f ∈ q.features ∧ g ∈ q'.features := by
  rw [h.was, h.now]
  exact ⟨by simp, by simp⟩

namespace Change

variable {s s' : Serial} {issued : Option Pair} {presented : Option (String × Option String)}

theorem identity (h : Change s s' issued presented) : s.queue.KeepsIdentity s'.queue := by
  cases h with
  | rests h => exact h.2
  | launches h | resumes h | reattaches h | blocks h | consumes h | finishes h => exact h.identity

theorem features (h : Change s s' issued presented) :
    List.Forall₂ Feature.Keeps s.queue.features s'.queue.features := by
  cases h with
  | rests h => exact h.1.imp fun _ _ hsame => hsame.toKeeps
  | launches h | resumes h | reattaches h | blocks h | consumes h | finishes h => exact h.forall₂

theorem leased {pair : String × Option String} (h : Change s s' issued (some pair)) :
    ∃ f ∈ s.queue.features, f.status = .inProgress ∧ ∃ lease ∈ f.dispatchLease,
      lease.state = .active ∧ lease.coordinatorId = pair.1 ∧ some lease.leaseId = pair.2 := by
  cases h with
  | reattaches h hwas hold | blocks h hwas hold | consumes h hwas hold =>
    obtain ⟨hlease, hactive, -, hcoordinator, hid⟩ := requireLease_ok.1 hold
    exact ⟨_, h.mem.1, hwas, _, hlease, hactive, hcoordinator, hid⟩

/-- The pair that is issued is on an active lease from then on. -/
theorem issued_answers {pair : Pair} (h : Change s s' (some pair) presented) :
    ∃ f ∈ s'.queue.features, f.status = .inProgress ∧
      ∃ lease, requireLease f pair.1 (some pair.2) = .ok lease := by
  cases h with
  | launches h hpending hdone hactive hlease hfresh
  | resumes h hblocked hactive hlease hfresh =>
    refine ⟨_, h.mem.2, hactive, _, requireLease_ok.2 ⟨hlease, hfresh.active, hfresh.named, ?_, ?_⟩⟩
    · exact congrArg Prod.fst hfresh.holder
    · exact congrArg some (congrArg Prod.snd hfresh.holder)

theorem released (h : Change s s' issued presented) : s.released ⊆ s'.released := by
  cases h with
  | rests h hb | launches h hpending hdone hactive hlease hfresh hspent hfree hb
  | resumes h hblocked hactive hlease hfresh hfree hb
  | reattaches h hwas hold hactive hlease hholder hconsumed hspent hlaunched hb
  | blocks h hwas hold hblocked hheld hb
  | consumes h hwas hold hunused hactive hlease hholder hauthorized hused hb
  | finishes h hwas hdone hheld hb =>
    rw [hb.released]
    exact subset_append_left _ _

end Change

/-- **Every request that is taken is guarded.** -/
theorem Serial.step_guarded {s s' : Serial} {r : Request} (h : s.step r = some s') :
    Guarded s r s' := by
  unfold Serial.step at h
  split at h
  case h_1 e herror =>
    cases h
    refine ⟨fun _ hi => hi, List.forall₂_same.2 fun f _ => .refl f, fun out hout => ?_⟩
    exact nomatch herror.symm.trans hout
  case h_2 out hperform =>
    cases h
    have hchange := Request.perform_change hperform
    refine ⟨hchange.identity, hchange.features, fun _ _ pair hpair => ?_⟩
    rw [mem_def.1 hpair] at hchange
    exact hchange.leased

/-! ## The invariant -/

/-- What the lists say about the lease of a feature. -/
structure Settled (s : Serial) (f : Feature) : Prop where
  blocked : f.status = .blocked → ∀ lease ∈ f.dispatchLease, lease.holder ∈ s.released
  held : f.status = .inProgress → ∀ lease ∈ f.dispatchLease, lease.holder ∉ s.released
  authorized : f.status = .inProgress → ∀ lease ∈ f.dispatchLease,
    lease.launchAuthorized = true → lease.holder ∉ s.launched
  unconsumed : f.status = .inProgress → ∀ lease ∈ f.dispatchLease,
    lease.launchConsumedAt = none → lease.holder ∉ s.consumed

/-- A pair that is released or on the lease of a feature that has left pending. -/
def Serial.Known (s : Serial) (pair : Pair) : Prop :=
  pair ∈ s.released ∨ ∃ f ∈ s.queue.features, f.status ≠ .pending ∧
    ∃ lease ∈ f.dispatchLease, lease.holder = pair

structure Sound (s : Serial) : Prop where
  ordered : s.queue.features.Pairwise fun f g => g.status ≠ .pending → f.status = .done
  settled : ∀ f ∈ s.queue.features, Settled s f
  known : ∀ pair, pair ∈ s.launched ∨ pair ∈ s.consumed → s.Known pair
  launchedOnce : s.launched.Nodup
  consumedOnce : s.consumed.Nodup

theorem Settled.of_rest {s : Serial} (h : f.status = .done ∨ f.status = .pending) :
    Settled s f := by
  constructor <;> intro hf <;> simp [hf] at h

theorem Settled.of_active {s : Serial} {lease : DispatchLease} (hactive : f.status = .inProgress)
    (hlease : f.dispatchLease = some lease) (hheld : lease.holder ∉ s.released)
    (hauthorized : lease.launchAuthorized = true → lease.holder ∉ s.launched)
    (hunconsumed : lease.launchConsumedAt = none → lease.holder ∉ s.consumed) : Settled s f := by
  constructor <;> intro hstatus held hmem <;> rw [hlease] at hmem <;>
    cases hmem
  · simp [hactive] at hstatus
  · exact hheld
  · exact hauthorized
  · exact hunconsumed

/-- Earlier features are done when a later one has left pending. -/
abbrev InOrder (fs : List Feature) : Prop :=
  fs.Pairwise fun f g => g.status ≠ .pending → f.status = .done

theorem InOrder.before {before behind : List Feature} (h : InOrder (before ++ f :: behind))
    (hf : f.status ≠ .pending) :
    ∀ b ∈ before, b.status = .done :=
  fun b hb => (pairwise_append.1 h).2.2 b hb f (mem_cons_self ..) hf

theorem InOrder.behind {before behind : List Feature} (h : InOrder (before ++ f :: behind))
    (hf : f.status ≠ .done) :
    ∀ x ∈ behind, x.status = .pending := by
  intro x hx
  by_contra hne
  exact hf ((pairwise_cons.1 (pairwise_append.1 h).2.1).1 x hx hne)

theorem InOrder.replaced {before behind : List Feature} {g : Feature}
    (h : InOrder (before ++ f :: behind)) (hbefore : ∀ b ∈ before, b.status = .done)
    (hbehind : ∀ x ∈ behind, x.status = .pending) : InOrder (before ++ g :: behind) := by
  obtain ⟨hfront, hback, -⟩ := pairwise_append.1 h
  refine pairwise_append.2 ⟨hfront, pairwise_cons.2 ⟨?_, hback.of_cons⟩, ?_⟩
  · exact fun x hx hne => absurd (hbehind x hx) hne
  · exact fun b hb _ _ _ => hbefore b hb

theorem InOrder.same {fs gs : List Feature} (h : InOrder fs)
    (hsame : List.Forall₂ Feature.Same fs gs) : InOrder gs := by
  have hstatus : gs.map (·.status) = fs.map (·.status) := by
    clear h
    induction hsame with
    | nil => rfl
    | cons hfg _ ih => rw [map_cons, map_cons, hfg.status, ih]
  have hmap : (fs.map (·.status)).Pairwise fun a b => b ≠ .pending → a = .done :=
    pairwise_map.2 h
  rw [← hstatus] at hmap
  exact pairwise_map.1 hmap

theorem InOrder.countP_le {fs : List Feature} (h : InOrder fs) :
    fs.countP (fun f => f.status = .inProgress ∨ f.status = .blocked) ≤ 1 := by
  induction fs with
  | nil => exact Nat.zero_le 1
  | cons f rest ih =>
    by_cases hf : f.status = .done
    · rw [countP_cons_of_neg (by simp [hf])]
      exact ih h.of_cons
    · have hrest : rest.countP (fun f => f.status = .inProgress ∨ f.status = .blocked) = 0 := by
        refine countP_eq_zero.2 fun x hx => ?_
        have hpending := InOrder.behind (show InOrder ([] ++ f :: rest) from h) hf x hx
        simp [hpending]
      rw [countP_cons, hrest]
      split <;> omega

namespace Sound

variable {s s' : Serial}

theorem rests (h : Sound s) (hrests : s.queue.Rests s'.queue) (hbooks : Books s s' [] [] []) :
    Sound s' := by
  have hreleased : s'.released = s.released := by rw [hbooks.released, append_nil]
  have hlaunched : s'.launched = s.launched := by rw [hbooks.launched, append_nil]
  have hconsumed : s'.consumed = s.consumed := by rw [hbooks.consumed, append_nil]
  refine ⟨InOrder.same h.ordered hrests.1, fun g hg => ?_, fun pair hpair => ?_, ?_, ?_⟩
  · obtain ⟨f, hf, hsame⟩ := forall₂_mem_right hrests.1 hg
    have hsettled := h.settled f hf
    constructor <;> intro hstatus lease hlease <;> rw [hsame.status] at hstatus <;>
      obtain ⟨old, hold, hholder, hactive⟩ := hsame.lease lease hlease
    · rw [hreleased, hholder]
      exact hsettled.blocked hstatus old hold
    · rw [hreleased, hholder]
      exact hsettled.held hstatus old hold
    · rw [hlaunched, hactive hstatus]
      exact hsettled.authorized hstatus old hold
    · rw [hconsumed, hactive hstatus]
      exact hsettled.unconsumed hstatus old hold
  · rw [hlaunched, hconsumed] at hpair
    cases h.known pair hpair with
    | inl hspent => exact .inl (hreleased ▸ hspent)
    | inr hheld =>
      obtain ⟨f, hf, hstatus, old, hold, rfl⟩ := hheld
      obtain ⟨g, hg, hsame⟩ := forall₂_mem_left hrests.1 hf
      obtain ⟨lease, hlease, hholder⟩ := hsame.held old hold
      exact .inr ⟨g, hg, hsame.status ▸ hstatus, lease, hlease, hholder⟩
  · rw [hlaunched]
    exact h.launchedOnce
  · rw [hconsumed]
    exact h.consumedOnce

/-- One feature is replaced, and the others are done or pending. -/
theorem turns {before behind : List Feature} {f g : Feature} {released launched consumed : List Pair}
    (h : Sound s) (hreplaces : s.queue.Replaces s'.queue before f g behind)
    (hbooks : Books s s' released launched consumed) (hf : f.status ≠ .done)
    (hbefore : ∀ b ∈ before, b.status = .done) (hg : g.status ≠ .pending) (hsettled : Settled s' g)
    (hkept : f.status ≠ .pending → ∀ old ∈ f.dispatchLease,
      old.holder ∈ s'.released ∨ ∃ lease ∈ g.dispatchLease, lease.holder = old.holder)
    (hnew : ∀ pair, pair ∈ launched ∨ pair ∈ consumed → ∃ lease ∈ g.dispatchLease, lease.holder = pair)
    (hlaunched : ∀ pair ∈ launched, pair ∉ s.launched) (hconsumed : ∀ pair ∈ consumed, pair ∉ s.consumed)
    (hone : launched.Nodup ∧ consumed.Nodup) : Sound s' := by
  have hordered : InOrder (before ++ f :: behind) := hreplaces.was ▸ h.ordered
  have hbehind := hordered.behind hf
  have hgmem := hreplaces.mem.2
  refine ⟨?_, fun x hx => ?_, fun pair hpair => ?_, ?_, ?_⟩
  · rw [hreplaces.now]
    exact hordered.replaced hbefore hbehind
  · rw [hreplaces.now, mem_append, mem_cons] at hx
    obtain hx | rfl | hx := hx
    · exact .of_rest (.inl (hbefore x hx))
    · exact hsettled
    · exact .of_rest (.inr (hbehind x hx))
  · rw [hbooks.launched, hbooks.consumed, mem_append, mem_append] at hpair
    have hcases : (pair ∈ s.launched ∨ pair ∈ s.consumed) ∨ pair ∈ launched ∨ pair ∈ consumed := by
      tauto
    cases hcases with
    | inr hpair =>
      obtain ⟨lease, hlease, hholder⟩ := hnew pair hpair
      exact .inr ⟨g, hgmem, hg, lease, hlease, hholder⟩
    | inl hpair =>
      cases h.known pair hpair with
      | inl hspent =>
        exact .inl (hbooks.released ▸ mem_append_left _ hspent)
      | inr hheld =>
        obtain ⟨x, hx, hstatus, old, hold, rfl⟩ := hheld
        rw [hreplaces.was, mem_append, mem_cons] at hx
        have hother : x ∈ before ++ g :: behind → s'.Known old.holder := fun hmem =>
          .inr ⟨x, hreplaces.now ▸ hmem, hstatus, old, hold, rfl⟩
        obtain hx | rfl | hx := hx
        · exact hother (mem_append_left _ hx)
        · cases hkept hstatus old hold with
          | inl hspent => exact .inl hspent
          | inr hheld =>
            obtain ⟨lease, hlease, hholder⟩ := hheld
            exact .inr ⟨g, hgmem, hg, lease, hlease, hholder⟩
        · exact absurd (hbehind x hx) hstatus
  · rw [hbooks.launched]
    exact h.launchedOnce.append hone.1 fun pair hold hnew => hlaunched pair hnew hold
  · rw [hbooks.consumed]
    exact h.consumedOnce.append hone.2 fun pair hold hnew => hconsumed pair hnew hold

/-- A pair that is issued, and not released, is in none of the lists. -/
theorem fresh {before behind : List Feature} {f : Feature} {pair : Pair} (h : Sound s)
    (hwas : s.queue.features = before ++ f :: behind)
    (hfree : ∀ other ∈ before ++ behind, ∀ held ∈ other.dispatchLease, held.leaseId ≠ pair.2)
    (hspent : f.status ≠ .pending → ∀ old ∈ f.dispatchLease, old.holder ∈ s.released)
    (hfresh : pair ∉ s.released) : pair ∉ s.launched ∧ pair ∉ s.consumed := by
  have hunknown : ¬ s.Known pair := by
    intro hknown
    cases hknown with
    | inl hreleased => exact hfresh hreleased
    | inr hheld =>
      obtain ⟨x, hx, hstatus, old, hold, rfl⟩ := hheld
      rw [hwas, mem_append, mem_cons] at hx
      obtain hx | rfl | hx := hx
      · exact hfree x (mem_append_left _ hx) old hold rfl
      · exact hfresh (hspent hstatus old hold)
      · exact hfree x (mem_append_right _ hx) old hold rfl
  exact ⟨fun hmem => hunknown (h.known pair (.inl hmem)),
    fun hmem => hunknown (h.known pair (.inr hmem))⟩

theorem before {before behind : List Feature} {f g : Feature} (h : Sound s)
    (hreplaces : s.queue.Replaces s'.queue before f g behind) (hf : f.status ≠ .pending) :
    ∀ b ∈ before, b.status = .done :=
  InOrder.before (hreplaces.was ▸ h.ordered) hf

/-- **A change keeps the invariant, unless it issues a released pair.** -/
theorem change {issued : Option Pair} {presented : Option (String × Option String)} (h : Sound s)
    (hchange : Change s s' issued presented) (hfresh : ∀ pair ∈ issued, pair ∉ s.released) :
    Sound s' := by
  cases hchange with
  | rests hrests hbooks => exact h.rests hrests hbooks
  | @launches before behind f g lease pair hreplaces hpending hdone hactive hlease hissued hspent
      hfree hbooks =>
    have hnew := hfresh pair rfl
    obtain ⟨hunlaunched, hunconsumed⟩ := h.fresh hreplaces.was hfree
      (fun hne => absurd hpending hne) hnew
    refine h.turns hreplaces hbooks (by simp [hpending]) hdone (by simp [hactive])
      (.of_active hactive hlease ?_ (by simp [hspent]) fun _ => ?_)
      (fun hne => absurd hpending hne) ?_ ?_ nofun ⟨nodup_singleton pair, nodup_nil⟩
    · rw [hissued.holder, hbooks.released, append_nil]
      exact hnew
    · rw [hissued.holder, hbooks.consumed, append_nil]
      exact hunconsumed
    · intro p hp
      have hp : p = pair := by simpa using hp
      exact ⟨lease, hlease, hp ▸ hissued.holder⟩
    · intro p hp
      rw [mem_singleton.1 hp]
      exact hunlaunched
  | @resumes before behind f g lease pair hreplaces hblocked hactive hlease hissued hfree hbooks =>
    have hnew := hfresh pair rfl
    have hf : f.status ≠ .pending := by simp [hblocked]
    have hspent := (h.settled f hreplaces.mem.1).blocked hblocked
    obtain ⟨hunlaunched, hunconsumed⟩ := h.fresh hreplaces.was hfree (fun _ => hspent) hnew
    refine h.turns hreplaces hbooks (by simp [hblocked]) (h.before hreplaces hf) (by simp [hactive])
      (.of_active hactive hlease ?_ (fun _ => ?_) fun _ => ?_) (fun _ old hold => .inl ?_)
      nofun nofun nofun ⟨nodup_nil, nodup_nil⟩
    · rw [hissued.holder, hbooks.released, append_nil]
      exact hnew
    · rw [hissued.holder, hbooks.launched, append_nil]
      exact hunlaunched
    · rw [hissued.holder, hbooks.consumed, append_nil]
      exact hunconsumed
    · rw [hbooks.released, append_nil]
      exact hspent old hold
  | @reattaches before behind f g old lease coordinatorId leaseId launched hreplaces hwas hold
      hactive hlease hholder hconsumed hspent hlaunched hbooks =>
    have hwasLease := (requireLease_ok.1 hold).1
    have hf : f.status ≠ .pending := by simp [hwas]
    have hsettled := h.settled f hreplaces.mem.1
    have hlaunch : ∀ pair ∈ launched, pair = old.holder ∧ old.launchAuthorized = true := by
      intro pair hpair
      obtain rfl | ⟨rfl, hauthorized⟩ := hlaunched
      · exact absurd hpair not_mem_nil
      · exact ⟨mem_singleton.1 hpair, hauthorized⟩
    refine h.turns hreplaces hbooks (by simp [hwas]) (h.before hreplaces hf) (by simp [hactive])
      (.of_active hactive hlease ?_ (by simp [hspent]) fun hunused => ?_)
      (fun _ held hheld => .inr ?_) (fun pair hpair => ?_) (fun pair hpair => ?_) nofun
      ⟨?_, nodup_nil⟩
    · rw [hholder, hbooks.released, append_nil]
      exact hsettled.held hwas old hwasLease
    · rw [hholder, hbooks.consumed, append_nil]
      exact hsettled.unconsumed hwas old hwasLease (hconsumed ▸ hunused)
    · rw [hwasLease] at hheld
      cases hheld
      exact ⟨lease, hlease, hholder⟩
    · have hpair : pair ∈ launched := by simpa using hpair
      exact ⟨lease, hlease, hholder.trans (hlaunch pair hpair).1.symm⟩
    · obtain ⟨rfl, hauthorized⟩ := hlaunch pair hpair
      exact hsettled.authorized hwas old hwasLease hauthorized
    · obtain rfl | ⟨rfl, -⟩ := hlaunched
      · exact nodup_nil
      · exact nodup_singleton _
  | @blocks before behind f g old pair hreplaces hwas hold hblocked hheld hbooks =>
    obtain ⟨hwasLease, -, -, hcoordinator, hid⟩ := requireLease_ok.1 hold
    have hpair : old.holder = pair := Prod.ext hcoordinator (Option.some.inj hid)
    have hmem : pair ∈ s'.released := by
      rw [hbooks.released]
      exact mem_append_right _ (mem_singleton_self pair)
    refine h.turns hreplaces hbooks (by simp [hwas]) (h.before hreplaces (by simp [hwas]))
      (by simp [hblocked]) ?_ (fun _ held hold => .inl ?_) nofun nofun nofun
      ⟨nodup_nil, nodup_nil⟩
    · constructor <;> intro hstatus
      · exact fun held hmem' => hheld held hmem' ▸ hmem
      all_goals simp [hblocked] at hstatus
    · rw [hwasLease] at hold
      cases hold
      exact hpair ▸ hmem
  | @consumes before behind f g old lease pair hreplaces hwas hold hunused hactive hlease hholder
      hauthorized hused hbooks =>
    obtain ⟨hwasLease, -, -, hcoordinator, hid⟩ := requireLease_ok.1 hold
    have hpair : old.holder = pair := Prod.ext hcoordinator (Option.some.inj hid)
    have hsettled := h.settled f hreplaces.mem.1
    refine h.turns hreplaces hbooks (by simp [hwas]) (h.before hreplaces (by simp [hwas]))
      (by simp [hactive]) (.of_active hactive hlease ?_ (fun hlaunch => ?_) fun hnone => ?_)
      (fun _ held hheld => .inr ?_) (fun p hp => ?_) nofun (fun p hp => ?_)
      ⟨nodup_nil, nodup_singleton pair⟩
    · rw [hholder, hbooks.released, append_nil]
      exact hsettled.held hwas old hwasLease
    · rw [hholder, hbooks.launched, append_nil]
      exact hsettled.authorized hwas old hwasLease (hauthorized ▸ hlaunch)
    · exact absurd hnone hused
    · rw [hwasLease] at hheld
      cases hheld
      exact ⟨lease, hlease, hholder⟩
    · have hp : p = pair := by simpa using hp
      exact ⟨lease, hlease, hholder.trans (hpair.trans hp.symm)⟩
    · rw [mem_singleton.1 hp, ← hpair]
      exact hsettled.unconsumed hwas old hwasLease hunused
  | finishes hreplaces hwas hdone hheld hbooks =>
    refine h.turns hreplaces hbooks (by simp [hwas]) (h.before hreplaces (by simp [hwas]))
      (by simp [hdone]) (.of_rest (.inl hdone)) (fun _ old hold => .inr (hheld old hold)) nofun
      nofun nofun ⟨nodup_nil, nodup_nil⟩

theorem serialized (h : Sound s) : Serialized s where
  ordered := h.ordered
  single := InOrder.countP_le h.ordered
  spent pair hpair f hf hactive lease hlease := by
    obtain ⟨hheld, -, -, hcoordinator, hid⟩ := requireLease_ok.1 hlease
    have hholder : lease.holder = pair := Prod.ext hcoordinator (Option.some.inj hid)
    exact (h.settled f hf).held hactive lease hheld (hholder ▸ hpair)
  launchedOnce := h.launchedOnce
  consumedOnce := h.consumedOnce

theorem start {q : Queue} (hpending : ∀ f ∈ q.features, f.status = .pending) :
    Sound ⟨q, [], [], []⟩ where
  ordered := pairwise_of_forall_mem_list fun _ _ g hg hne => absurd (hpending g hg) hne
  settled f hf := .of_rest (.inr (hpending f hf))
  known _ h := by simp at h
  launchedOnce := nodup_nil
  consumedOnce := nodup_nil

end Sound

/-- **The queue stays serialized exactly as long as no request that is accepted puts a released pair
on a lease again.** -/
theorem serialized_iff_fresh {q : Queue} (hpending : ∀ f ∈ q.features, f.status = .pending)
    (requests : List Request) :
    (AllStates (fun r s => s.step r) Serialized ⟨q, [], [], []⟩ requests ∧
      AllSteps (fun r s => s.step r) Guarded ⟨q, [], [], []⟩ requests) ↔
    AllInputs (fun r s => s.step r) IssuesFresh ⟨q, [], [], []⟩ requests := by
  have hguarded := AllSteps.of_forall (fun s r s' => @Serial.step_guarded s s' r)
    ⟨q, [], [], []⟩ requests
  rw [and_iff_left hguarded]
  refine allStates_iff_allInputs Sound (fun s => Sound.serialized) ?_ (Sound.start hpending) requests
  intro r s s' hstep hsound
  unfold Serial.step at hstep
  split at hstep
  case h_1 e herror =>
    cases hstep
    exact ⟨fun _ => hsound, fun _ out hout => nomatch herror.symm.trans hout⟩
  case h_2 out hperform =>
    cases hstep
    have hchange := Request.perform_change hperform
    refine ⟨fun hfresh => hsound.change hchange (hfresh out hperform), ?_⟩
    intro hserialized _ _ pair hissued hreleased
    rw [mem_def.1 hissued] at hchange
    obtain ⟨f, hf, hactive, lease, hlease⟩ := hchange.issued_answers
    exact hserialized.spent pair (hchange.released hreleased) f hf hactive lease hlease

/-! ### A pair that is issued again -/

/-- A host whose artifacts are all there, and which knows no migration. -/
def plainHost : QueueHost where
  freshPackage _ := .ok []
  committedMigration _ _ := .error "controller migration journal is missing"
  resumeArtifacts _ _ _ := .ok ()
  deltaScope _ _ := .ok ()

def plainRequest (op : Op) : Request := ⟨plainHost, fun _ => none, none, op⟩

def soleQueue : Queue where
  features := [{
    index := .int 0
    description := "first feature"
    status := .pending
    engine := engineName }]

def soleDispatch : DispatchCall where
  baseWorktreePath := "/base"
  coordinatorId := "coordinator-1"
  leaseId := some "lease-1"
  now := "2026-01-01T00:00:00Z"
  newQueueRunId := "qr-1"
  newFeatureRunId := "fr-1"
  newLeaseId := "lease-0"

def soleBlock : BlockCall where
  index := .int 0
  coordinatorId := "coordinator-1"
  leaseId := "lease-1"
  blockerClass := "operator"
  reason := "waits for a decision"
  resumeCondition := "the decision is recorded"
  document := .obj []
  resumeToken := "token"
  now := "2026-01-02T00:00:00Z"

/-- A resume with the pair that the block has released. -/
def soleResume : ResumeCall where
  index := .int 0
  token := "token"
  evidence := {
    identity := {
      queueRunId := some "qr-1"
      featureRunId := some "fr-1"
      featureIndex := .int 0
      baseBranch := some "main"
      worktreePath := some ".claude/worktrees/impl-codex-fr-1"
      checkpointPath := some (".claude/worktrees/impl-codex-fr-1" ++
        "/docs/development/current_implementation_checkpoint.json")
      transactionPath := some "handoff/serial-runs/qr-1/fr-1/feature-transaction.v1.json"
      controllerPackageDigest := none
      controllerMigrationId := none }
    artifacts := .obj []
    migration := none }
  coordinatorId := "coordinator-1"
  leaseId := "lease-1"
  now := "2026-01-03T00:00:00Z"
  newQueueRunId := "qr-2"

theorem serialized_iff_fresh_dispatched :
    (∀ f ∈ soleQueue.features, f.status = .pending) ∧
      AllStates (fun r s => s.step r) Serialized ⟨soleQueue, [], [], []⟩
        [plainRequest (.dispatch soleDispatch), plainRequest (.block soleBlock)] := by
  have hpending : ∀ f ∈ soleQueue.features, f.status = .pending := by simp [soleQueue]
  have hfresh : AllInputs (fun r s => s.step r) IssuesFresh ⟨soleQueue, [], [], []⟩
      [plainRequest (.dispatch soleDispatch), plainRequest (.block soleBlock)] := by
    intro s _
    refine ⟨fun _ _ _ _ => not_mem_nil, fun s' _ => ⟨fun _ _ _ hnone => ?_, True.intro⟩⟩
    exact nomatch hnone
  exact ⟨hpending, ((serialized_iff_fresh hpending _).2 hfresh).1⟩

/-- Whether a feature in progress answers to a pair that was released. -/
def Serial.answersSpent (s : Serial) : Bool :=
  s.released.any fun pair => s.queue.features.any fun f =>
    f.status = .inProgress && (requireLease f pair.1 (some pair.2)).isOk

/-- A resume may name the pair that the block has released, which then acts on the feature again. -/
theorem released_pair_reissued :
    ¬ ∀ (q : Queue) (requests : List Request), (∀ f ∈ q.features, f.status = .pending) →
      AllStates (fun r s => s.step r) Serialized ⟨q, [], [], []⟩ requests ∧
        AllSteps (fun r s => s.step r) Guarded ⟨q, [], [], []⟩ requests := by
  intro hclaim
  have hrun : (runInputs (fun r s => s.step r) (⟨soleQueue, [], [], []⟩ : Serial)
      [plainRequest (.dispatch soleDispatch), plainRequest (.block soleBlock),
        plainRequest (.resume soleResume)]).any Serial.answersSpent = true := by
    decide +kernel
  obtain ⟨s, hs, hanswers⟩ := (any_eq_true _ _).1 hrun
  have hserialized := (hclaim soleQueue _ (by simp [soleQueue])).1.of_runInputs hs
  obtain ⟨pair, hpair, hfeature⟩ := any_eq_true.1 hanswers
  obtain ⟨f, hf, hboth⟩ := any_eq_true.1 hfeature
  obtain ⟨hactive, hok⟩ := Bool.and_eq_true_iff.1 hboth
  cases hlease : requireLease f pair.1 (some pair.2) with
  | error e => simp [hlease, Except.isOk, Except.toBool] at hok
  | ok lease => exact hserialized.spent pair hpair f hf (of_decide_eq_true hactive) lease hlease

end HarnessLabs.FeatureQueue
