import HarnessLabs.FeatureQueue.Acknowledge

/-!
# What an accepted operation does

Every operation either leaves the statuses and the leases alone, or puts one feature in the place of
another. The lemmas here say for each operation which feature it is, what it was and what it becomes.

* `Feature.Keeps` — **the run id and the paths of a feature stay once they are set.**
* `Feature.Same` — the status and what a lease authorises stay as well.
* `prepareDispatch_ok`, `blockFeature_ok`, `resumeBlockedFeature_ok`, `consumeResumedLaunch_ok`,
  `acknowledge_ok` — one inversion lemma for each operation.
-/

namespace HarnessLabs.FeatureQueue

open Audit (require_eq_ok bind_eq_ok require_bind_eq_ok unit_bind_eq_ok map_eq_ok)

/-! ## What stays -/

namespace Feature

/-- What is set in a feature stays. -/
structure Keeps (f g : Feature) : Prop where
  index : g.index = f.index
  runId : ∀ r ∈ f.featureRunId, g.featureRunId = some r
  paths : ∀ name value, f.paths.get? name = some value → g.paths.get? name = some value

theorem Keeps.refl (f : Feature) : f.Keeps f := ⟨rfl, fun _ h => h, fun _ _ h => h⟩

variable {f g : Feature}

theorem Keeps.trans {h : Feature} (hfg : f.Keeps g) (hgh : g.Keeps h) : f.Keeps h where
  index := hgh.index.trans hfg.index
  runId r hr := hgh.runId r (hfg.runId r hr)
  paths name value hf := hgh.paths name value (hfg.paths name value hf)

theorem Keeps.of_eq (hindex : g.index = f.index) (hrun : g.featureRunId = f.featureRunId)
    (hpaths : g.paths = f.paths) : f.Keeps g :=
  ⟨hindex, fun _ hr => hrun.trans hr, fun _ _ h => by rwa [hpaths]⟩

/-- What the later guards read of a lease stays. -/
structure SameLease (f g : Feature) : Prop where
  status : g.status = f.status
  lease : ∀ lease ∈ g.dispatchLease, ∃ old ∈ f.dispatchLease, lease.holder = old.holder ∧
    (f.status = .inProgress → lease = old)
  held : ∀ old ∈ f.dispatchLease, ∃ lease ∈ g.dispatchLease, lease.holder = old.holder

structure Same (f g : Feature) : Prop extends f.Keeps g, f.SameLease g

theorem Same.of_eq (hkeeps : f.Keeps g) (hstatus : g.status = f.status)
    (hlease : g.dispatchLease = f.dispatchLease) : f.Same g where
  toKeeps := hkeeps
  status := hstatus
  lease l hl := ⟨l, hlease ▸ hl, rfl, fun _ => rfl⟩
  held l hl := ⟨l, hlease ▸ hl, rfl⟩

theorem Same.refl (f : Feature) : f.Same f := .of_eq (.refl f) rfl rfl

end Feature

namespace Queue

/-- The identity of a queue stays once it is set. -/
def KeepsIdentity (q q' : Queue) : Prop := ∀ i ∈ q.queueIdentity, q'.queueIdentity = some i

/-- One feature in the place of another. -/
structure Replaces (q q' : Queue) (before : List Feature) (f g : Feature)
    (behind : List Feature) : Prop where
  was : q.features = before ++ f :: behind
  now : q'.features = before ++ g :: behind
  keeps : f.Keeps g
  identity : q.KeepsIdentity q'

variable {q : Queue}

theorem keepsIdentity_of_eq {q' : Queue} (h : q'.queueIdentity = q.queueIdentity) :
    q.KeepsIdentity q' := fun _ hi => h.trans hi

theorem ensureIdentity_ok {q' : Queue} {newId : String} (h : q.ensureIdentity newId = .ok q') :
    q'.features = q.features ∧ q'.results = q.results ∧ q.KeepsIdentity q' := by
  simp only [ensureIdentity, require_bind_eq_ok] at h
  obtain ⟨-, hsame, hq⟩ := h
  cases hq
  exact ⟨rfl, rfl, fun i hi => congrArg some (hsame i hi).symm⟩

theorem unfinished_eq_some {before behind : List Feature} {f : Feature}
    (h : q.unfinished = some (before, f, behind)) :
    q.features = before ++ f :: behind ∧ f.status ≠ .done ∧ ∀ b ∈ before, b.status = .done := by
  obtain ⟨hsplit, hf, hbefore⟩ := splitFirst_eq_some h
  refine ⟨hsplit, by simpa using hf, fun b hb => ?_⟩
  have hb := hbefore b hb
  simpa using hb

theorem atIndex_eq_some {index : Json} {before behind : List Feature} {f : Feature}
    (h : q.atIndex index = some (before, f, behind)) :
    q.features = before ++ f :: behind ∧ f.index = index := by
  obtain ⟨hsplit, hf, -⟩ := splitFirst_eq_some h
  exact ⟨hsplit, by simpa using hf⟩

theorem nodup_of_validate (h : q.validate = .ok ()) :
    (q.features.map (·.index)).Nodup := by
  simp only [validate, require_bind_eq_ok] at h
  exact h.2.2.2.2.1

end Queue

theorem Feature.same_forall₂ (fs : List Feature) : List.Forall₂ Feature.Same fs fs :=
  List.forall₂_same.2 fun f _ => .refl f

variable {before behind others : List Feature} {f g : Feature} {lease : DispatchLease}
  {call : DispatchCall} {host : QueueHost} {action : DispatchAction} {q q' : Queue}
  {payload : DispatchPayload} {files : LocalFiles} {t : FeatureTransaction} {result : FeatureResult}

theorem same_replaced (h : f.Same g) :
    List.Forall₂ Feature.Same (before ++ f :: behind) (before ++ g :: behind) :=
  List.rel_append (Feature.same_forall₂ before) (.cons h (Feature.same_forall₂ behind))

/-! ## Leases -/

theorem requireLease_ok {coordinatorId : String} {leaseId : Option String} :
    requireLease f coordinatorId leaseId = .ok lease ↔ f.dispatchLease = some lease ∧
      lease.state = .active ∧ leaseId.getD "" ≠ "" ∧
      lease.coordinatorId = coordinatorId ∧ some lease.leaseId = leaseId := by
  unfold requireLease
  cases hlease : f.dispatchLease with
  | none => simp
  | some held =>
    simp only [require_bind_eq_ok, Option.some.injEq]
    constructor
    · rintro ⟨hactive, hid, hsame, hok⟩
      cases hok
      exact ⟨rfl, hactive, hid, hsame⟩
    · rintro ⟨rfl, hactive, hid, hsame⟩
      exact ⟨hactive, hid, hsame, rfl⟩

/-- A lease that was just issued. -/
structure DispatchLease.Fresh (lease : DispatchLease) (coordinatorId leaseId : String) : Prop where
  holder : lease.holder = (coordinatorId, leaseId)
  named : leaseId ≠ ""
  active : lease.state = .active
  unused : lease.launchConsumedAt = none

theorem newDispatchLease_ok {coordinatorId leaseId now : String} {resumed : Bool}
    (h : newDispatchLease coordinatorId leaseId now resumed = .ok lease) :
    lease.Fresh coordinatorId leaseId ∧ lease.launchAuthorized = false := by
  simp only [newDispatchLease, require_bind_eq_ok] at h
  obtain rfl := Except.ok.inj h.2
  exact ⟨⟨rfl, h.1.2, rfl, rfl⟩, rfl⟩

theorem assertLeaseAvailable_ok {leaseId : String}
    (h : assertLeaseAvailable others leaseId = .ok ()) :
    ∀ f ∈ others, ∀ lease ∈ f.dispatchLease, lease.leaseId ≠ leaseId :=
  require_eq_ok.1 h

/-! ## Dispatch -/

theorem get?_of_applyFeaturePaths {expected : List (String × String)} {paths out : Dict String String}
    (h : applyFeaturePaths expected paths = .ok out) {name value : String}
    (hname : paths.get? name = some value) : out.get? name = some value := by
  induction expected generalizing paths with
  | nil =>
    cases h
    exact hname
  | cons first rest ih =>
    rw [applyFeaturePaths, require_bind_eq_ok] at h
    obtain ⟨hsame, hrest⟩ := h
    refine ih hrest ?_
    rw [Dict.get?_set]
    by_cases hkey : name = first.1
    · subst hkey
      rw [if_pos rfl, ← hsame value hname]
    · rw [if_neg hkey, hname]

theorem nameFeature_ok {queueRunId : String} (h : nameFeature call queueRunId f = .ok g) :
    f.Keeps g ∧ g.status = f.status ∧ g.dispatchLease = f.dispatchLease := by
  simp only [nameFeature, bind_eq_ok] at h
  obtain ⟨-, -, -, -, _, -, paths, hpaths, hg⟩ := h
  cases hg
  exact ⟨⟨rfl, fun _ hr => hr, fun _ _ hf => get?_of_applyFeaturePaths hpaths hf⟩, rfl, rfl⟩

theorem bindPackage_ok {wasPending : Bool} (h : bindPackage host call wasPending f = .ok g) :
    f.Keeps g ∧ g.status = f.status ∧ g.dispatchLease = f.dispatchLease := by
  unfold bindPackage at h
  split at h
  · obtain ⟨manifest, -, hg⟩ := bind_eq_ok.1 h
    cases hg
    exact ⟨.of_eq rfl rfl rfl, rfl, rfl⟩
  · cases h
    exact ⟨.refl f, rfl, rfl⟩

/-- What a dispatch does with the lease of its feature, and what it says about it. -/
inductive Leased (call : DispatchCall) (others : List Feature) (f : Feature)
    (lease : DispatchLease) : DispatchAction → Prop
  | launched (hpending : f.status = .pending)
      (hfresh : lease.Fresh call.coordinatorId call.issuedLeaseId)
      (hspent : lease.launchAuthorized = false)
      (hfree : ∀ other ∈ others, ∀ held ∈ other.dispatchLease, held.leaseId ≠ lease.leaseId) :
      Leased call others f lease .launch
  | reattached (hactive : f.status = .inProgress) (old : DispatchLease) (action : DispatchAction)
      (hold : requireLease f call.coordinatorId call.leaseId = .ok old)
      (hholder : lease.holder = old.holder) (hstate : lease.state = old.state)
      (hconsumed : lease.launchConsumedAt = old.launchConsumedAt)
      (hspent : lease.launchAuthorized = false)
      (haction : action ≠ .reattach → old.launchAuthorized = true) :
      Leased call others f lease action

theorem launchFeature_ok (hpending : f.status = .pending) (h : launchFeature call others f = .ok g)
    :
    f.Keeps g ∧ g.status = .inProgress ∧
      ∃ lease, g.dispatchLease = some lease ∧ Leased call others f lease .launch := by
  simp only [launchFeature, bind_eq_ok] at h
  obtain ⟨_, -, lease, hlease, hg⟩ := h
  cases hg
  simp only [launchLease, unit_bind_eq_ok] at hlease
  obtain ⟨hfree, hnew⟩ := hlease
  obtain ⟨hfresh, hspent⟩ := newDispatchLease_ok hnew
  refine ⟨⟨rfl, fun r hr => ?_, fun _ _ hf => hf⟩, rfl, lease, rfl, .launched hpending hfresh hspent ?_⟩
  · rw [Option.mem_def.1 hr]
    rfl
  · have hid : lease.leaseId = _ := congrArg Prod.snd hfresh.holder
    rw [hid]
    exact assertLeaseAvailable_ok hfree

theorem reattachLease_ok {old : DispatchLease} (h : reattachLease call f old = .ok (lease, action))
    :
    lease.holder = old.holder ∧ lease.state = old.state ∧
      lease.launchConsumedAt = old.launchConsumedAt ∧ lease.launchAuthorized = false ∧
      (action ≠ .reattach → old.launchAuthorized = true) := by
  unfold reattachLease at h
  split at h
  case isTrue hauthorized =>
    split at h
    · obtain ⟨-, hok⟩ := require_bind_eq_ok.1 h
      cases hok
      exact ⟨rfl, rfl, rfl, rfl, fun _ => hauthorized⟩
    · cases h
      exact ⟨rfl, rfl, rfl, rfl, fun _ => hauthorized⟩
  case isFalse =>
    cases h
    exact ⟨rfl, rfl, rfl, rfl, fun hne => absurd rfl hne⟩

theorem leaseFeature_ok (h : leaseFeature call others f = .ok (g, action)) :
    f.Keeps g ∧ g.status = .inProgress ∧
      ∃ lease, g.dispatchLease = some lease ∧ Leased call others f lease action := by
  unfold leaseFeature at h
  split at h
  case h_1 hpending =>
    obtain ⟨launched, hlaunched, hsame⟩ := map_eq_ok.1 h
    obtain ⟨rfl, rfl⟩ := Prod.mk.inj hsame
    exact launchFeature_ok hpending hlaunched
  case h_2 hactive =>
    simp only [bind_eq_ok] at h
    obtain ⟨old, hold, ⟨lease, act⟩, hlease, hok⟩ := h
    cases hok
    obtain ⟨hholder, hstate, hconsumed, hspent, haction⟩ := reattachLease_ok hlease
    exact ⟨.of_eq rfl rfl rfl, hactive, lease, rfl,
      .reattached hactive old act hold hholder hstate hconsumed hspent haction⟩
  case h_3 => exact nomatch h

theorem openForDispatch_ok (h : openForDispatch call q = .ok q') :
    q'.features = q.features ∧ q'.queueIdentity = q.queueIdentity := by
  unfold openForDispatch at h
  split at h
  · simp only [Queue.clearPauseForDispatch, require_bind_eq_ok] at h
    obtain ⟨-, h⟩ := h
    split at h
    · exact nomatch h
    · obtain ⟨-, hok⟩ := require_bind_eq_ok.1 h
      cases hok
      exact ⟨rfl, rfl⟩
  · obtain ⟨_, -, rfl⟩ := map_eq_ok.1 h
    exact ⟨rfl, rfl⟩

theorem dispatchPayload_ok (h : dispatchPayload call q f lease action = .ok payload) :
    (payload.coordinatorId, payload.leaseId) = lease.holder ∧ payload.dispatchAction = action := by
  simp only [dispatchPayload, bind_eq_ok] at h
  obtain ⟨_, -, _, -, hpayload⟩ := h
  cases hpayload
  exact ⟨rfl, rfl⟩

theorem dispatchFeature_ok (h : dispatchFeature host call q before f behind = .ok (q', payload)) :
    ∃ g lease, q'.features = before ++ g :: behind ∧ q'.queueIdentity = q.queueIdentity ∧
      f.Keeps g ∧ g.status = .inProgress ∧ g.dispatchLease = some lease ∧
      (payload.coordinatorId, payload.leaseId) = lease.holder ∧
      Leased call (before ++ behind) f lease payload.dispatchAction := by
  simp only [dispatchFeature, bind_eq_ok] at h
  obtain ⟨-, -, -, -, ⟨leased, action⟩, hleased, named, hnamed, bound, hbound, -, -, h⟩ := h
  obtain ⟨hkeeps, hstatus, lease, hlease, hturn⟩ := leaseFeature_ok hleased
  obtain ⟨hkeeps₁, hstatus₁, hlease₁⟩ := nameFeature_ok hnamed
  obtain ⟨hkeeps₂, hstatus₂, hlease₂⟩ := bindPackage_ok hbound
  have hheld : bound.dispatchLease = some lease := by rw [hlease₂, hlease₁, hlease]
  simp only [hheld, bind_eq_ok] at h
  obtain ⟨_, hpayload, hok⟩ := h
  cases hok
  obtain ⟨hholder, haction⟩ := dispatchPayload_ok hpayload
  exact ⟨bound, lease, rfl, rfl, (hkeeps.trans hkeeps₁).trans hkeeps₂,
    by rw [hstatus₂, hstatus₁, hstatus], hheld, hholder, by rwa [haction]⟩

/-- A dispatch that is accepted. -/
theorem prepareDispatch_ok (h : prepareDispatch host call q = .ok (q', payload)) :
    ∃ before f g behind lease, q.unfinished = some (before, f, behind) ∧
      q.Replaces q' before f g behind ∧
      g.status = .inProgress ∧ g.dispatchLease = some lease ∧
      (payload.coordinatorId, payload.leaseId) = lease.holder ∧
      Leased call (before ++ behind) f lease payload.dispatchAction := by
  simp only [prepareDispatch, bind_eq_ok] at h
  obtain ⟨-, -, -, -, opened, hopened, identified, hidentified, h⟩ := h
  obtain ⟨hfeatures, hidentity⟩ := openForDispatch_ok hopened
  obtain ⟨hfeatures₁, -, hidentity₁⟩ := Queue.ensureIdentity_ok hidentified
  split at h
  case h_1 => exact nomatch h
  case h_2 before f behind hfirst =>
    obtain ⟨g, lease, hnow, hidentity₂, hkeeps, hstatus, hlease, hholder, hturn⟩ :=
      dispatchFeature_ok h
    have hsame : identified.unfinished = q.unfinished :=
      by rw [Queue.unfinished, Queue.unfinished, hfeatures₁, hfeatures]
    rw [hsame] at hfirst
    refine ⟨before, f, g, behind, lease, hfirst, ⟨(Queue.unfinished_eq_some hfirst).1, hnow, hkeeps,
      fun i hi => ?_⟩, hstatus, hlease, hholder, hturn⟩
    rw [hidentity₂]
    exact hidentity₁ i (hidentity.trans hi)

/-! ## Blocks, resumes and resumed launches -/

theorem blockFeature_ok {call : BlockCall} (h : blockFeature call q = .ok q') :
    ∃ before f g behind lease, q.Replaces q' before f g behind ∧ f.status = .inProgress ∧
      requireLease f call.coordinatorId (some call.leaseId) = .ok lease ∧ g.status = .blocked ∧
      ∀ held ∈ g.dispatchLease, held.holder = (call.coordinatorId, call.leaseId) := by
  simp only [blockFeature, bind_eq_ok] at h
  obtain ⟨⟨⟩, hvalid, -, -, h⟩ := h
  split at h
  case h_1 => exact nomatch h
  case h_2 before₀ u behind₀ hfirst =>
    simp only [bind_eq_ok] at h
    obtain ⟨⟨⟩, hindex, ⟨⟩, hactive, lease, hlease, -, -, -, -, h⟩ := h
    split at h
    case h_1 => exact nomatch h
    case h_2 before f behind hat =>
      obtain ⟨hsplit, hf⟩ := Queue.atIndex_eq_some hat
      have hu : u ∈ q.features := by simp [(Queue.unfinished_eq_some hfirst).1]
      have hmem : f ∈ q.features := by simp [hsplit]
      obtain rfl : f = u := List.inj_on_of_nodup_map (Queue.nodup_of_validate hvalid) hmem hu
        (hf.trans (require_eq_ok.1 hindex).symm)
      obtain ⟨hheld, -, -, hcoordinator, hid⟩ := requireLease_ok.1 hlease
      cases h
      refine ⟨before, f, _, behind, lease, ⟨hsplit, rfl, .of_eq rfl rfl rfl,
        Queue.keepsIdentity_of_eq rfl⟩, require_eq_ok.1 hactive, hlease, rfl, fun held hmem => ?_⟩
      rw [hheld] at hmem
      cases hmem
      exact Prod.ext hcoordinator (Option.some.inj hid)

theorem resumeBlockedFeature_ok {call : ResumeCall} (h : resumeBlockedFeature host call q = .ok q')
    :
    ∃ before f g behind lease, q.Replaces q' before f g behind ∧ f.status = .blocked ∧
      g.status = .inProgress ∧ g.dispatchLease = some lease ∧
      lease.Fresh call.coordinatorId call.leaseId ∧
      ∀ other ∈ before ++ behind, ∀ held ∈ other.dispatchLease, held.leaseId ≠ call.leaseId := by
  simp only [resumeBlockedFeature, bind_eq_ok] at h
  obtain ⟨-, -, -, -, identified, hidentified, h⟩ := h
  obtain ⟨hfeatures, -, hidentity⟩ := Queue.ensureIdentity_ok hidentified
  split at h
  case h_1 => exact nomatch h
  case h_2 before f behind hat =>
    simp only [bind_eq_ok] at h
    obtain ⟨⟨⟩, hblocked, -, -, -, -, -, -, migration, -, ⟨⟩, hfree, lease, hlease, hok⟩ := h
    obtain ⟨hfresh, -⟩ := newDispatchLease_ok hlease
    cases hok
    refine ⟨before, f, _, behind, _, ⟨hfeatures ▸ (Queue.atIndex_eq_some hat).1, rfl,
      .of_eq rfl rfl rfl, hidentity⟩, require_eq_ok.1 hblocked, rfl, rfl,
      ⟨hfresh.holder, hfresh.named, hfresh.active, hfresh.unused⟩, assertLeaseAvailable_ok hfree⟩

theorem consumeResumedLaunch_ok {call : ConsumeCall} (h : consumeResumedLaunch call q = .ok q') :
    ∃ before f g behind lease, q.Replaces q' before f g behind ∧ f.status = .inProgress ∧
      requireLease f call.coordinatorId (some call.leaseId) = .ok lease ∧
      lease.launchConsumedAt = none ∧ g.status = .inProgress ∧
      g.dispatchLease = some { lease with launchConsumedAt := some call.now } := by
  simp only [consumeResumedLaunch, bind_eq_ok] at h
  obtain ⟨-, -, -, -, h⟩ := h
  split at h
  case h_1 => cases h
  case h_2 before f behind hfound =>
    simp only [bind_eq_ok] at h
    obtain ⟨⟨⟩, hactive, lease, hlease, ⟨⟩, hunused, -, -, hok⟩ := h
    cases hok
    exact ⟨before, f, _, behind, lease, ⟨(splitFirst_eq_some hfound).1, rfl, .of_eq rfl rfl rfl,
      Queue.keepsIdentity_of_eq rfl⟩, require_eq_ok.1 hactive, hlease,
      (require_eq_ok.1 hunused).2.2, require_eq_ok.1 hactive, rfl⟩

/-! ## Acknowledgments -/

theorem holder_completeLease (result : FeatureResult) (lease : DispatchLease) :
    (completeLease result lease).holder = lease.holder := by
  unfold completeLease
  split <;> rfl

theorem findFeature_ok {index : Json} {split : List Feature × Feature × List Feature} :
    q.findFeature index = .ok split ↔
      q.features.countP (·.index = index) = 1 ∧ q.atIndex index = some split := by
  simp only [Queue.findFeature, require_bind_eq_ok]
  cases q.atIndex index with
  | none => exact iff_of_false nofun nofun
  | some found => rw [Except.ok.injEq, Option.some.injEq]

theorem validateAck_ok (h : validateAck files q t result f = .ok ()) :
    f.status = .inProgress ∨ f.status = .done := by
  simp only [validateAck, bind_eq_ok] at h
  obtain ⟨-, -, -, -, -, -, -, -, -, -, -, -, -, -, -, -, ⟨⟩, hstatus, -⟩ := h
  exact require_eq_ok.1 hstatus

theorem checkAck_ok {call : AckCall} :
    checkAck files call q t result f = .ok () ↔
      f.paths.get? "transaction_path" = some call.transactionPath ∧
      f.paths.get? "feature_result_path" = some call.resultPath ∧
      validateAck files q t result f = .ok () ∧
      ∀ expected ∈ t.featureResultSha256, call.resultSha256 = expected := by
  simp only [checkAck, unit_bind_eq_ok, require_eq_ok]

theorem acknowledge_ok {call : AckCall} {t' : FeatureTransaction}
    (h : acknowledge files call result q t = .ok (q', t')) :
    ∃ before f behind, q.Replaces q' before f (settleFeature result f) behind ∧
      (f.status = .inProgress ∨ f.status = .done) := by
  simp only [acknowledge, bind_eq_ok] at h
  obtain ⟨-, -, -, -, ⟨before, f, behind⟩, hfind, ⟨⟩, hcheck, updated, hupdated, hok⟩ := h
  obtain ⟨rfl, -⟩ := Prod.mk.inj (Except.ok.inj hok)
  simp only [acknowledgeQueue, require_bind_eq_ok] at hupdated
  obtain ⟨-, -, hupdated⟩ := hupdated
  cases hupdated
  exact ⟨before, f, behind, ⟨(Queue.atIndex_eq_some (findFeature_ok.1 hfind).2).1, rfl,
    .of_eq rfl rfl rfl, Queue.keepsIdentity_of_eq rfl⟩, validateAck_ok (checkAck_ok.1 hcheck).2.2.1⟩

/-! ## Adoption, planning inputs and migration -/

/-- The features stay as they are, but for what no other operation reads. -/
def Queue.Rests (q q' : Queue) : Prop :=
  List.Forall₂ Feature.Same q.features q'.features ∧ q.KeepsIdentity q'

theorem rests_withFeature (hwas : q.features = before ++ f :: behind)
    (hnow : q'.features = before ++ g :: behind) (hsame : f.Same g)
    (hidentity : q'.queueIdentity = q.queueIdentity) : q.Rests q' := by
  refine ⟨?_, Queue.keepsIdentity_of_eq hidentity⟩
  rw [hwas, hnow]
  exact same_replaced hsame

theorem adoptPendingEngine_ok {fromEngine token now newId : String}
    (h : adoptPendingEngine q fromEngine token now newId = .ok q') : q.Rests q' := by
  simp only [adoptPendingEngine, bind_eq_ok] at h
  obtain ⟨-, -, -, -, -, -, -, -, -, -, identified, hidentified, -, -, hok⟩ := h
  cases hok
  obtain ⟨hfeatures, -, hidentity⟩ := Queue.ensureIdentity_ok hidentified
  refine ⟨?_, hidentity⟩
  rw [← hfeatures]
  refine List.forall₂_map_right_iff.2 (List.forall₂_same.2 fun f _ => ?_)
  split
  · exact .of_eq (.of_eq rfl rfl rfl) rfl rfl
  · exact .refl f

theorem addPlanningInput_ok {input : PlanningInput} {featureIndex : Option Json}
    (h : addPlanningInput q input featureIndex = .ok q') : q.Rests q' := by
  simp only [addPlanningInput, bind_eq_ok] at h
  obtain ⟨-, -, -, -, -, -, -, -, h⟩ := h
  split at h
  · obtain ⟨_, -, hok⟩ := bind_eq_ok.1 h
    cases hok
    exact ⟨Feature.same_forall₂ _, Queue.keepsIdentity_of_eq rfl⟩
  · split at h
    case h_1 => exact nomatch h
    case h_2 before f behind hat =>
      simp only [bind_eq_ok] at h
      obtain ⟨-, -, _, -, hok⟩ := h
      cases hok
      exact rests_withFeature (Queue.atIndex_eq_some hat).1 rfl
        (.of_eq (.of_eq rfl rfl rfl) rfl rfl) rfl

theorem migrateFeature_ok {call : MigrateCall} (h : migrateFeature call q = .ok q') :
    q.Rests q' := by
  simp only [migrateFeature, bind_eq_ok] at h
  obtain ⟨-, -, -, -, h⟩ := h
  split at h
  case h_1 => cases h
  case h_2 before f behind hat =>
    simp only [bind_eq_ok] at h
    obtain ⟨-, -, -, -, -, -, -, -, hok⟩ := h
    cases hok
    exact rests_withFeature (Queue.atIndex_eq_some hat).1 rfl
      (.of_eq (.of_eq rfl rfl rfl) rfl rfl) rfl

end HarnessLabs.FeatureQueue
