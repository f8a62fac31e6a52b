import HarnessLabs.Budget.Registration
import HarnessLabs.Lib.Until

/-!
# Writer and fold agree

Every operation decides on the folded state what it appends, and the fold checks again what it
reads. Here is what each operation appends and why the fold accepts it.

* `applyRecoveryDecision_cases`, `reserve_cases` — the accepted calls and what they checked.
* `replay_abandonEvents`, `replay_importEvents` — the operations that append a list: after any
  prefix, what is left to append is the rest of the list.
* `replays_of_run` — **the fold accepts everything that an operation appends.**
-/

namespace HarnessLabs.Budget

open EventLog List

namespace State

/-! ## Recovery decisions -/

/-- The second event of an accepted recovery decision. -/
def decisionEvent (s : State) (d : RecoveryDecision) : Option Event :=
  match d.payload with
  | .extendBudget launches => if d.target ∈ s.gates.keys then
      some (.extended d.target launches "registration-authorized recovery decision") else none
  | .resume => if d.target ∈ s.gates.keys then some (.resumed d.target) else none
  | .transferOwnership receiving =>
    if d.target ∈ s.gates.keys ∧ receiving ∈ s.gates.keys then
      some (.obligationTransferred d.target receiving) else none
  | .ratifyGateChange gate c => (s.gates.get? d.target).map fun known =>
      .gateLineage d.target known gate c
  | .revision _ => none

/-- What `apply_recovery_decision` checks before it appends. -/
structure Decides (s : State) (decision : Json) (priorDigest : String)
    (authority : AutomaticRecoveryAuthority) (d : RecoveryDecision) (e : Event) : Prop where
  registered : s.authority = some authority
  valid : validateRecoveryDecision decision authority false = .ok d
  prior : d.expectedPriorDigest = priorDigest
  extraLaunches : s.automaticRecoveryExtraLaunches + d.extraLaunches ≤
    authority.maxExtraNodeLaunches ∨ d.extraLaunches = 0
  structuralDecisions : s.automaticRecoveryStructuralDecisions + d.structuralDecisions ≤
    authority.maxStructuralDecisions ∨ d.structuralDecisions = 0
  event : s.decisionEvent d = some e

theorem applyRecoveryDecision_cases (s : State) (decision : Json) (priorDigest : String) :
    (∃ e, s.applyRecoveryDecision decision priorDigest = .refused e) ∨
      ∃ authority d e, Decides s decision priorDigest authority d e ∧
        s.applyRecoveryDecision decision priorDigest =
          .accepted [.recoveryDecision decision priorDigest, e] := by
  unfold applyRecoveryDecision
  cases ha : s.authority with
  | none => exact .inl ⟨_, rfl⟩
  | some authority =>
    cases hd : validateRecoveryDecision decision authority false with
    | error e => exact .inl ⟨e, by dsimp only; rw [hd]⟩
    | ok d =>
      dsimp only
      rw [hd]
      dsimp only
      by_cases hp : d.expectedPriorDigest = priorDigest
      swap
      · exact .inl ⟨_, if_pos hp⟩
      rw [if_neg (not_not.2 hp)]
      by_cases hs : d.action.IsStructural ∧
          authority.maxStructuralDecisions ≤ s.automaticRecoveryStructuralDecisions
      · exact .inl ⟨_, if_pos hs⟩
      rw [if_neg hs]
      by_cases hrev : d.action.IsRevision
      · exact .inl ⟨_, if_pos hrev⟩
      rw [if_neg hrev]
      by_cases ht : d.target ∈ s.gates.keys
      swap
      · exact .inl ⟨_, if_pos ht⟩
      rw [if_neg (not_not.2 ht)]
      have hstructural : s.automaticRecoveryStructuralDecisions + d.structuralDecisions ≤
          authority.maxStructuralDecisions ∨ d.structuralDecisions = 0 := by
        by_cases h : d.action.IsStructural = true
        · have hlt := not_le.1 fun hle => hs ⟨h, hle⟩
          simp only [RecoveryDecision.structuralDecisions, h, if_true]
          exact .inl hlt
        · exact .inr (if_neg h)
      have decides : ∀ e, (s.automaticRecoveryExtraLaunches + d.extraLaunches ≤
          authority.maxExtraNodeLaunches ∨ d.extraLaunches = 0) → s.decisionEvent d = some e →
          Decides s decision priorDigest authority d e := fun e hx he =>
        ⟨ha, hd, hp, hx, hstructural, he⟩
      cases hpay : d.payload with
      | resume =>
        refine .inr ⟨authority, d, _, decides _ (.inr ?_) ?_, rfl⟩
        · simp [RecoveryDecision.extraLaunches, hpay]
        · simp [decisionEvent, hpay, ht]
      | extendBudget launches =>
        by_cases hx : authority.maxExtraNodeLaunches < s.automaticRecoveryExtraLaunches + launches
        · exact .inl ⟨_, if_pos hx⟩
        refine .inr ⟨authority, d, _, decides _ (.inl ?_) ?_, if_neg hx⟩
        · simpa [RecoveryDecision.extraLaunches, hpay] using hx
        · simp [decisionEvent, hpay, ht]
      | transferOwnership receiving =>
        by_cases hx : receiving ∈ s.gates.keys
        swap
        · exact .inl ⟨_, if_pos hx⟩
        refine .inr ⟨authority, d, _, decides _ (.inr ?_) ?_, if_neg (not_not.2 hx)⟩
        · simp [RecoveryDecision.extraLaunches, hpay]
        · simp [decisionEvent, hpay, ht, hx]
      | ratifyGateChange gate c =>
        obtain ⟨known, hknown⟩ := Dict.mem_keys_iff.1 ht
        refine .inr ⟨authority, d, _, decides _ (.inr ?_) ?_, rfl⟩
        · simp [RecoveryDecision.extraLaunches, hpay]
        · simp [decisionEvent, hpay, hknown, Dict.getD]
      | revision a => exact .inl ⟨_, rfl⟩

/-- After the charge of a recovery decision. -/
def charged (s : State) (d : RecoveryDecision) : State :=
  { s with
    automaticRecoveryExtraLaunches := s.automaticRecoveryExtraLaunches + d.extraLaunches
    automaticRecoveryStructuralDecisions :=
      s.automaticRecoveryStructuralDecisions + d.structuralDecisions }

variable {s : State} {decision : Json} {priorDigest reason : String}
  {authority : AutomaticRecoveryAuthority} {d : RecoveryDecision} {e : Event} {keys : List String}

theorem Decides.allowance (hr : s.Ready) (h : Decides s decision priorDigest authority d e) :
    s.automaticRecoveryExtraLaunches + d.extraLaunches ≤ authority.maxExtraNodeLaunches ∧
      s.automaticRecoveryStructuralDecisions + d.structuralDecisions ≤
        authority.maxStructuralDecisions := by
  have hx : s.automaticRecoveryExtraLaunches ≤ _ := hr.extraLaunches
  have hs : s.automaticRecoveryStructuralDecisions ≤ _ := hr.structuralDecisions
  rw [show s.control.authority = some authority from h.registered, Option.getD_some] at hx hs
  refine ⟨?_, ?_⟩
  · rcases h.extraLaunches with hle | hz
    · exact hle
    · rw [hz]; exact hx
  · rcases h.structuralDecisions with hle | hz
    · exact hle
    · rw [hz]; exact hs

theorem Decides.apply_recoveryDecision (hr : s.Ready)
    (h : Decides s decision priorDigest authority d e) :
    s.apply (.recoveryDecision decision priorDigest) = some (s.charged d) ∧
      (s.charged d).Ready := by
  obtain ⟨hx, hs⟩ := h.allowance hr
  refine ⟨?_, ?_⟩
  · simp only [apply, recoveryDecision, h.registered, h.valid]
    rw [if_neg (not_not.2 h.prior), if_neg (by omega), charged, h.registered]
  · have ha : (s.charged d).control.authority = some authority := h.registered
    exact {
      noPending := hr.noPending
      authorized := hr.authorized
      extraLaunches := by rw [ha]; exact hx
      structuralDecisions := by rw [ha]; exact hs }

theorem apply_decisionEvent (he : s.decisionEvent d = some e) :
    ∃ t, (s.charged d).apply e = some t ∧ t.control = (s.charged d).control := by
  unfold decisionEvent at he
  have hgates : (s.charged d).gates = s.gates := rfl
  cases hpay : d.payload with
  | resume =>
    simp only [hpay] at he
    split_ifs at he with ht
    cases he
    exact ⟨_, if_pos ht, rfl⟩
  | extendBudget launches =>
    simp only [hpay] at he
    split_ifs at he with ht
    cases he
    exact ⟨_, rfl, rfl⟩
  | transferOwnership receiving =>
    simp only [hpay] at he
    split_ifs at he with ht
    cases he
    have hne := (d.distinct receiving hpay).symm
    exact ⟨_, if_pos ⟨ht.1, ht.2, hne⟩, rfl⟩
  | ratifyGateChange gate c =>
    simp only [hpay, Option.map_eq_some_iff] at he
    obtain ⟨known, hknown, rfl⟩ := he
    simp only [apply, gateLineage, hgates, hknown]
    rw [if_neg (by simpa using gate.2)]
    cases c with
    | full => exact ⟨_, rfl, rfl⟩
    | reset => exact ⟨_, rfl, rfl⟩
  | revision a =>
    simp only [hpay] at he
    cases he

theorem Decides.replays (hr : s.Ready) (h : Decides s decision priorDigest authority d e) :
    ∃ t, s.applyAll [.recoveryDecision decision priorDigest, e] = some t ∧
      t.control = (s.charged d).control ∧ t.Ready := by
  obtain ⟨hd, hready⟩ := h.apply_recoveryDecision hr
  obtain ⟨t, ht, hcontrol⟩ := apply_decisionEvent h.event
  refine ⟨t, (replay_cons_of hd _).trans (replay_cons_of ht []), hcontrol, ?_⟩
  exact hready.of_control hcontrol

/-! ## Launches -/

theorem nodup_failureKeys {keys' : List String} {reason : Option String}
    (h : failureKeys keys reason = .ok keys') : keys'.Nodup := by
  unfold failureKeys at h
  dsimp only at h
  split_ifs at h
  · cases h
    exact (perm_insertionSort (· ≤ ·) keys.dedup).nodup_iff.2 keys.nodup_dedup
  · split at h
    · cases h; exact nodup_nil
    · split_ifs at h
      cases h
      exact nodup_singleton _

/-- What `reserve` checks before it reserves. -/
structure Reserves (s : State) (config : BudgetConfig) (id gate : String) (keys : List String)
    (c : Classification) : Prop where
  known : id ∈ s.gates.keys
  authorized : s.gates.get? id = some gate ∨ (s.node id).acceptGateChange = true
  unblocked : (s.node id).blocked = false
  capacity : s.assertCapacity config id keys c = .ok ()

/-- The gate change that a launch of `id` needs. -/
def launchGate (s : State) (id gate : String) : List Event :=
  if s.gates.get? id = some gate then [] else [.gateChanged id gate]

def launchEvent (rid id gate : String) (keys : List String) (c : Classification)
    (attempt : Option String) : Event :=
  .reserved rid id gate keys c attempt (some (reservationAttemptCounters c))

/-- A gate change leaves the launch checks alone. -/
theorem reserveLaunch_gateChanged (s : State) (config : BudgetConfig) (id gate : String)
    (keys : List String) (c : Classification) (attempt : Option String) (rid : String) :
    (s.gateChanged id gate).reserveLaunch config id gate keys c attempt rid =
      s.reserveLaunch config id gate keys c attempt rid := by
  simp only [reserveLaunch, assertCapacity, node_gateChanged, if_true]
  rfl

theorem reserveLaunch_ok {config : BudgetConfig} {id : String} {c : Classification} (gate : String)
    (unblocked : (s.node id).blocked = false)
    (capacity : s.assertCapacity config id keys c = .ok ()) (attempt : Option String) (rid : String) :
    s.reserveLaunch config id gate keys c attempt rid =
      .accepted [launchEvent rid id gate keys c attempt] := by
  simp only [reserveLaunch, unblocked, capacity]
  rfl

theorem Reserves.reserve_eq {config : BudgetConfig} {id gate : String} {keys' : List String}
    {c : Classification} {reason attempt : Option String} (h : Reserves s config id gate keys' c)
    (hkeys : failureKeys keys reason = .ok keys') (ha : attempt ≠ some "") (rid : String) :
    s.reserve config id gate keys c reason attempt rid =
      .accepted (s.launchGate id gate ++ [launchEvent rid id gate keys' c attempt]) := by
  have hauth := assertGateChangeAuthorized_known.2 ⟨h.known, rfl, h.authorized⟩
  have hlaunch := reserveLaunch_ok gate h.unblocked h.capacity attempt rid
  by_cases hg : s.gates.get? id = some gate
  · simp only [hg, ne_eq, not_true_eq_false, decide_false] at hauth
    simp only [reserve, hkeys, if_neg ha, hauth, launchGate, if_pos hg]
    exact hlaunch
  · simp only [ne_eq, hg, not_false_eq_true, decide_true] at hauth
    simp only [reserve, hkeys, if_neg ha, hauth, launchGate, if_neg hg]
    rw [reserveLaunch_gateChanged, hlaunch]
    rfl

/-- **A reservation that fails a check appends at most its gate change; one that passes appends
the gate change and the launch.** -/
theorem reserve_cases (s : State) (config : BudgetConfig) (id gate : String) (keys : List String)
    (c : Classification) (reason attempt : Option String) (rid : String) :
    (∃ e, s.reserve config id gate keys c reason attempt rid = .refused e) ∨
    (∃ e, id ∈ s.gates.keys ∧ (s.node id).acceptGateChange = true ∧
      s.reserve config id gate keys c reason attempt rid =
        ⟨[.gateChanged id gate], .error e⟩) ∨
    ∃ keys', failureKeys keys reason = .ok keys' ∧ attempt ≠ some "" ∧
      Reserves s config id gate keys' c := by
  cases hk : failureKeys keys reason with
  | error e => exact .inl ⟨e, by simp only [reserve, hk]⟩
  | ok keys' =>
    by_cases ha : attempt = some ""
    · exact .inl ⟨_, by simp only [reserve, hk, if_pos ha]; rfl⟩
    cases hg : s.assertGateChangeAuthorized id gate false with
    | error e => exact .inl ⟨e, by simp only [reserve, hk, if_neg ha, hg]⟩
    | ok b =>
      obtain ⟨hknown, hb, hauth⟩ := assertGateChangeAuthorized_known.1 hg
      have hlaunch : (∃ e, s.reserveLaunch config id gate keys' c attempt rid = .refused e) ∨
          ((s.node id).blocked = false ∧ s.assertCapacity config id keys' c = .ok ()) := by
        cases hbl : (s.node id).blocked with
        | true => exact .inl ⟨_, by rw [reserveLaunch, if_pos hbl]⟩
        | false =>
          cases hcap : s.assertCapacity config id keys' c with
          | error e => exact .inl ⟨e, by simp only [reserveLaunch, hbl, hcap]; rfl⟩
          | ok _ => exact .inr ⟨rfl, rfl⟩
      rcases hlaunch with ⟨e, he⟩ | ⟨hbl, hcap⟩
      · by_cases hsame : s.gates.get? id = some gate
        · obtain rfl : b = false := by simpa [hsame] using hb
          exact .inl ⟨e, by simp only [reserve, hk, if_neg ha, hg, he]⟩
        · obtain rfl : b = true := by simpa [hsame] using hb
          refine .inr (.inl ⟨e, hknown, hauth.resolve_left hsame, ?_⟩)
          simp only [reserve, hk, if_neg ha, hg]
          rw [reserveLaunch_gateChanged, he]
          rfl
      · exact .inr (.inr ⟨keys', rfl, ha, hknown, hauth, hbl, hcap⟩)

theorem replay_launchGate (s : State) (id gate : String) :
    ∃ t, s.applyAll (s.launchGate id gate) = some t ∧ t.control = s.control := by
  rw [launchGate]
  split_ifs
  · exact ⟨s, rfl, rfl⟩
  · exact ⟨s.gateChanged id gate, rfl, rfl⟩

theorem apply_launchEvent (s : State) (rid id gate : String) (keys : List String)
    (c : Classification) (attempt : Option String) :
    ∃ t, s.apply (launchEvent rid id gate keys c attempt) = some t ∧ t.control = s.control :=
  ⟨_, if_neg (not_not.2 rfl), rfl⟩

/-! ## Abandoned reservations -/

/-- The reservation is not terminal and meets `p`. -/
def isLive (p : Reservation → Bool) (r : String × Reservation) : Bool :=
  decide (r.2.state = .reserved ∨ r.2.state = .started) && p r.2

/-- Only the reservations change. -/
def withReservations (s : State) (rs : Dict String Reservation) : State :=
  { s with reservations := rs }

/-- Abandoning the first live reservation leaves the others. -/
theorem apply_abandon_head {p : Reservation → Bool} {rid : String} {r : Reservation}
    {rest : List (String × Reservation)} (h : s.liveReservations p = (rid, r) :: rest)
    (hreason : reason ≠ "") (disposition : Disposition) :
    ∃ rs, s.apply (.abandoned rid r.nodeId disposition reason r.graphAttemptId) =
        some (s.withReservations rs) ∧ (s.withReservations rs).liveReservations p = rest := by
  have hfilter : s.reservations.items.filter (isLive p) = (rid, r) :: rest := h
  obtain ⟨hitem, hlive⟩ := mem_filter.1 (hfilter ▸ mem_cons_self)
  have hstate : r.state = .reserved ∨ r.state = .started := by
    simp only [isLive, Bool.and_eq_true, decide_eq_true_eq] at hlive
    exact hlive.1
  have hget : s.reservations.get? rid = some r := Dict.get?_eq_some_iff.2 hitem
  refine ⟨s.reservations.set rid { r with state := .abandoned }, ?_, ?_⟩
  · simp [apply, abandoned, moveReservation, hget, hreason, hstate, withReservations]
  · have hkey : rid ∈ s.reservations.items.map Prod.fst := mem_map.2 ⟨_, hitem, rfl⟩
    have hdead : isLive p (rid, { r with state := .abandoned }) = false := by simp [isLive]
    have hn : (((rid, r) :: rest).map Prod.fst).Nodup := by
      rw [← hfilter]
      exact (List.Sublist.map Prod.fst filter_sublist).nodup s.reservations.nodup
    refine (Dict.filter_setItems hdead s.reservations.nodup hkey).trans ?_
    rw [hfilter, filter_cons_of_neg (by simp)]
    refine filter_eq_self.2 fun q hq => decide_eq_true fun he => ?_
    exact (nodup_cons.1 hn).1 (mem_map.2 ⟨q, hq, he⟩)

/-- **After any prefix, what is left to abandon is the rest.** -/
theorem replay_abandonEvents {p : Reservation → Bool} (hreason : reason ≠ "")
    (disposition : Disposition) (k : ℕ) :
    ∃ rs, s.applyAll ((abandonEvents (s.liveReservations p) disposition reason).take k) =
        some (s.withReservations rs) ∧
      (s.withReservations rs).liveReservations p = (s.liveReservations p).drop k := by
  induction k generalizing s with
  | zero => exact ⟨s.reservations, rfl, rfl⟩
  | succ k ih =>
    cases hl : s.liveReservations p with
    | nil => exact ⟨s.reservations, rfl, hl⟩
    | cons r rest =>
      obtain ⟨rs, hm, hrest⟩ := apply_abandon_head hl hreason disposition
      obtain ⟨rs', ht, hdrop⟩ := ih (s := s.withReservations rs)
      rw [hrest] at ht hdrop
      exact ⟨rs', (replay_cons_of hm _).trans ht, hdrop⟩

theorem replay_abandonEvents_all (s : State) (p : Reservation → Bool) (hreason : reason ≠ "")
    (disposition : Disposition) :
    ∃ rs, s.applyAll (abandonEvents (s.liveReservations p) disposition reason) =
      some (s.withReservations rs) := by
  obtain ⟨rs, hrs, -⟩ := replay_abandonEvents (s := s) (p := p) hreason disposition
    (abandonEvents (s.liveReservations p) disposition reason).length
  rw [take_length] at hrs
  exact ⟨rs, hrs⟩

end State

/-! ## Imported evidence -/

theorem forall_of_forall₂ {α β : Type} {R : α → β → Prop} {P : β → Prop} {as : List α}
    {bs : List β} (h : List.Forall₂ R as bs) (hP : ∀ a b, R a b → P b) : ∀ b ∈ bs, P b := by
  induction h with
  | nil => exact forall_mem_nil _
  | cons hab _ ih => exact forall_mem_cons.2 ⟨hP _ _ hab, ih⟩

/-- A fact that the fold can read back. -/
structure Fact.Recordable (f : Fact) : Prop where
  named : f.invocationId ≠ ""
  classified : f.kind = .repairDispatch → f.classification ≠ none

theorem commandFact_recordable {c : CommandFact} {f : Fact} (h : commandFact c = .ok f) :
    f.Recordable := by
  unfold commandFact at h
  split at h
  · cases h
  · split_ifs at h with hid
    split at h
    · cases h; exact ⟨hid, nofun⟩
    · split at h
      · cases h; exact ⟨hid, nofun⟩
      · cases h

theorem repairFact_recordable {r : RepairFact} {f : Fact} (h : repairFact r = .ok f) :
    f.Recordable := by
  unfold repairFact at h
  split at h
  · split_ifs at h with hid
    cases hk : failureKeys r.failureKeys none with
    | error e => rw [hk] at h; cases h
    | ok keys =>
      rw [hk] at h
      cases h
      exact ⟨hid, fun _ => Option.some_ne_none _⟩
  · cases h

/-- What an accepted evidence batch holds. -/
theorem childFacts_ok {e : VerificationEvidence} {facts : List Fact}
    (h : childFacts e = .ok facts) : ∃ commands repairs, facts = commands ++ repairs ∧
      List.Forall₂ (fun c f => commandFact c = .ok f) e.commandAttempts commands ∧
      List.Forall₂ (fun r f => repairFact r = .ok f) e.repairInvocations repairs ∧
      e.repairInvocationIds = repairs.map Fact.invocationId := by
  unfold childFacts at h
  split_ifs at h with hids
  cases hc : e.commandAttempts.mapM commandFact with
  | error m => rw [hc] at h; cases h
  | ok commands =>
    cases hr : e.repairInvocations.mapM repairFact with
    | error m => rw [hc, hr] at h; cases h
    | ok repairs =>
      rw [hc, hr] at h
      change (if e.repairInvocationIds ≠ repairs.map Fact.invocationId then
        Except.error "structured child repair evidence ids do not match dispatches"
        else Except.ok (commands ++ repairs)) = Except.ok facts at h
      split_ifs at h with hmatch
      cases h
      exact ⟨commands, repairs, rfl, Until.mapM_ok_iff.1 hc, Until.mapM_ok_iff.1 hr, not_not.1 hmatch⟩

theorem childFacts_recordable {e : VerificationEvidence} {facts : List Fact}
    (h : childFacts e = .ok facts) : ∀ f ∈ facts, f.Recordable := by
  obtain ⟨commands, repairs, rfl, hc, hr, -⟩ := childFacts_ok h
  intro f hf
  rcases mem_append.1 hf with hf | hf
  · exact forall_of_forall₂ hc (fun _ _ => commandFact_recordable) f hf
  · exact forall_of_forall₂ hr (fun _ _ => repairFact_recordable) f hf

namespace State

variable {s : State}

theorem apply_evidenceImported {f : Fact} (hf : f.Recordable)
    (hnew : f.invocationId ∉ s.importedInvocations) (id : String) :
    ∃ t, s.apply (.evidenceImported id f.invocationId f.kind f.classification f.failureKeys) =
        some t ∧ t.control = s.control ∧ t.reservations = s.reservations ∧ t.gates = s.gates ∧
      t.importedInvocations = insert f.invocationId s.importedInvocations :=
  ⟨_, if_neg (by
    rintro (h | h | ⟨hk, hc⟩)
    · exact hf.named h
    · exact hnew h
    · exact hf.classified hk hc), rfl, rfl, rfl, rfl⟩

/-- **After any prefix, what is left to import is the rest.** -/
theorem replay_importEvents {facts : List Fact} (hf : ∀ f ∈ facts, f.Recordable) (id : String)
    (k : ℕ) :
    ∃ t, s.applyAll ((importEvents id s.importedInvocations facts).take k) = some t ∧
      t.control = s.control ∧ s.importedInvocations ⊆ t.importedInvocations ∧
      importEvents id t.importedInvocations facts =
        (importEvents id s.importedInvocations facts).drop k := by
  induction facts generalizing s k with
  | nil => exact ⟨s, by rw [importEvents, take_nil]; rfl, rfl, subset_rfl, by simp [importEvents]⟩
  | cons f facts ih =>
    obtain ⟨hf, hrest⟩ := forall_mem_cons.1 hf
    by_cases hnew : f.invocationId ∈ s.importedInvocations
    · rw [importEvents, if_pos hnew]
      obtain ⟨t, ht, hcontrol, hsub, hdrop⟩ := ih hrest k
      exact ⟨t, ht, hcontrol, hsub, by rw [importEvents, if_pos (hsub hnew)]; exact hdrop⟩
    · cases k with
      | zero => exact ⟨s, rfl, rfl, subset_rfl, rfl⟩
      | succ k =>
        rw [importEvents, if_neg hnew]
        obtain ⟨m, hm, hmc, -, -, himp⟩ := apply_evidenceImported hf hnew id
        obtain ⟨t, ht, hcontrol, hsub, hdrop⟩ := ih hrest (s := m) k
        rw [himp] at ht hsub hdrop
        refine ⟨t, (replay_cons_of hm _).trans ht, hcontrol.trans hmc, ?_, ?_⟩
        · exact (Finset.subset_insert _ _).trans hsub
        · rw [importEvents, if_pos (hsub (Finset.mem_insert_self _ _)), hdrop]
          rfl

/-! ## All operations -/

theorem transition_cases (s : State) (rid : String) (sources : List ReservationState)
    (message : String) (e : Event) :
    (∃ m, s.transition rid sources message e = .refused m) ∨
      ∃ r, s.reservations.get? rid = some r ∧ r.state ∈ sources ∧
        s.transition rid sources message e = .accepted [e] := by
  unfold transition
  cases hr : s.reservations.get? rid with
  | none => exact .inl ⟨_, rfl⟩
  | some r =>
    by_cases hs : r.state ∈ sources
    · exact .inr ⟨r, rfl, hs, if_pos hs⟩
    · exact .inl ⟨_, if_neg hs⟩

theorem apply_moveReservation {rid : String} {r : Reservation} {sources : List ReservationState}
    (hr : s.reservations.get? rid = some r) (hs : r.state ∈ sources) (target : ReservationState) :
    s.moveReservation rid sources target =
      some (s.withReservations (s.reservations.set rid { r with state := target })) := by
  simp only [moveReservation, hr, if_pos hs]
  rfl

/-- What an operation appends. -/
def appends (config : BudgetConfig) (s : State) (op : Operation) : List Event :=
  (s.run config op).appended

end State

/-- The kinds of events that a call may append. -/
def Operation.writes : Operation → Event → Bool
  | .register .. => fun
    | .gateChanged .. | .registered .. | .structuralDecision .. | .transitionCarryover .. => true
    | _ => false
  | .reserve .. => fun
    | .gateChanged .. | .reserved .. => true
    | _ => false
  | .started .. => fun
    | .started .. => true
    | _ => false
  | .completed .. => fun
    | .completed .. => true
    | _ => false
  | .abandon .. | .reconcileAttempt .. => fun
    | .abandoned .. => true
    | _ => false
  | .applyRecoveryDecision .. => fun
    | .recoveryDecision .. | .extended .. | .resumed .. | .obligationTransferred ..
    | .gateLineage .. => true
    | _ => false
  | .importChildEvidence .. => fun
    | .evidenceImported .. => true
    | _ => false
  | .extend .. => fun
    | .extended .. => true
    | _ => false
  | .reset .. => fun
    | .reset .. => true
    | _ => false

namespace State

variable {s : State}

theorem writes_registerEvents {authority : AutomaticRecoveryAuthority} {plan : String}
    {gates : Dict String String} {checked : Option PlanVersionTransition}
    (recovery transition : Option Json) :
    ∀ e ∈ s.registerEvents authority plan gates checked,
      Operation.writes (.register plan gates recovery transition) e = true := by
  intro e he
  simp only [registerEvents] at he
  split_ifs at he with hv
  · rw [mem_singleton.1 he]
    rfl
  · rcases mem_append.1 he with he | he
    · obtain ⟨p, -, rfl⟩ := mem_map.1 he
      rfl
    · cases checked with
      | some t =>
        rcases mem_cons.1 he with rfl | he
        · rfl
        · rcases mem_cons.1 he with rfl | he
          · rfl
          · obtain ⟨p, -, rfl⟩ := mem_map.1 he
            rfl
      | none =>
        simp only [registrationEvents] at he
        split_ifs at he
        · rw [mem_singleton.1 he]
          rfl
        · cases he

theorem writes_decisionEvent {d : RecoveryDecision} {e : Event} (h : s.decisionEvent d = some e)
    (decision : Json) (prior : String) :
    Operation.writes (.applyRecoveryDecision decision prior) e = true := by
  unfold decisionEvent at h
  split at h
  · split_ifs at h; cases h; rfl
  · split_ifs at h; cases h; rfl
  · split_ifs at h; cases h; rfl
  · obtain ⟨known, -, rfl⟩ := Option.map_eq_some_iff.1 h
    rfl
  · cases h

theorem writes_importEvents (id : String) (evidence : Option VerificationEvidence)
    (seen : Finset String) (facts : List Fact) : ∀ e ∈ importEvents id seen facts,
      Operation.writes (.importChildEvidence id evidence) e = true := by
  induction facts generalizing seen with
  | nil => exact forall_mem_nil _
  | cons f facts ih =>
    rw [importEvents]
    split_ifs with hf
    · exact ih seen
    · exact forall_mem_cons.2 ⟨rfl, ih _⟩

/-- **An operation appends events of its own kinds only.** -/
theorem writes_of_mem_appends (config : BudgetConfig) (s : State) (op : Operation) :
    ∀ e ∈ s.appends config op, op.writes e = true := by
  cases op with
  | register plan gates recovery transition =>
    rcases register_cases s plan gates recovery transition with ⟨e, he⟩ | ⟨a, checked, h⟩
    · rw [appends, run, he]; exact forall_mem_nil _
    · rw [appends, run, h.register_eq]; exact writes_registerEvents recovery transition
  | reserve id gate keys c reason attempt rid =>
    rcases reserve_cases s config id gate keys c reason attempt rid with
      ⟨e, he⟩ | ⟨e, -, -, he⟩ | ⟨keys', hkeys, ha, h⟩
    · rw [appends, run, he]; exact forall_mem_nil _
    · rw [appends, run, he]; exact forall_mem_singleton.2 rfl
    · rw [appends, run, h.reserve_eq hkeys ha]
      refine forall_mem_append.2 ⟨?_, forall_mem_singleton.2 rfl⟩
      rw [launchGate]
      split_ifs
      · exact forall_mem_nil _
      · exact forall_mem_singleton.2 rfl
  | started rid =>
    rcases transition_cases s rid [.reserved] "retry reservation is not reserved" (.started rid)
      with ⟨m, he⟩ | ⟨r, -, -, he⟩
    · rw [appends, run, started, he]; exact forall_mem_nil _
    · rw [appends, run, started, he]; exact forall_mem_singleton.2 rfl
  | completed rid status tokens =>
    rcases transition_cases s rid [.reserved, .started] "retry reservation is already terminal"
      (.completed rid status tokens) with ⟨m, he⟩ | ⟨r, -, -, he⟩
    · rw [appends, run, completed, he]; exact forall_mem_nil _
    · rw [appends, run, completed, he]; exact forall_mem_singleton.2 rfl
  | abandon id disposition reason attempt =>
    simp only [appends, run, abandon]
    split_ifs
    · exact forall_mem_nil _
    · exact forall_mem_map.2 fun _ _ => rfl
  | reconcileAttempt attempt disposition reason live =>
    simp only [appends, run, reconcileAttempt]
    split_ifs
    · exact forall_mem_nil _
    · exact forall_mem_nil _
    · exact forall_mem_nil _
    · exact forall_mem_map.2 fun _ _ => rfl
  | applyRecoveryDecision decision prior =>
    rcases applyRecoveryDecision_cases s decision prior with ⟨e, he⟩ | ⟨a, d, e, h, he⟩
    · rw [appends, run, he]; exact forall_mem_nil _
    · rw [appends, run, he]
      exact forall_mem_cons.2
        ⟨rfl, forall_mem_singleton.2 (writes_decisionEvent h.event decision prior)⟩
  | importChildEvidence id evidence =>
    cases evidence with
    | none => exact forall_mem_nil _
    | some e =>
      simp only [appends, run, importChildEvidence]
      split
      · exact forall_mem_nil _
      · exact writes_importEvents id _ _ _
  | extend id launches reason =>
    simp only [appends, run, State.extend]
    split_ifs
    · exact forall_mem_nil _
    · exact forall_mem_singleton.2 rfl
  | reset id reason acceptGate acceptPlan c =>
    simp only [appends, run, resetOp]
    split_ifs
    · exact forall_mem_nil _
    · exact forall_mem_singleton.2 rfl

/-- **The fold accepts everything that an operation appends**, and the next operation finds the
same invariant. -/
theorem replays_of_run (hr : s.Ready) (config : BudgetConfig) (op : Operation) :
    ∃ t, s.applyAll (s.run config op).appended = some t ∧ t.Ready := by
  cases op with
  | register plan gates recovery transition =>
    rcases register_cases s plan gates recovery transition with ⟨e, he⟩ | ⟨a, checked, h⟩
    · exact ⟨s, by rw [run, he]; rfl, hr⟩
    · exact ⟨_, by rw [run, h.register_eq]; exact (h.replays hr).1, (h.replays hr).2⟩
  | reserve id gate keys c reason attempt rid =>
    rcases reserve_cases s config id gate keys c reason attempt rid with
      ⟨e, he⟩ | ⟨e, -, -, he⟩ | ⟨keys', hkeys, ha, h⟩
    · exact ⟨s, by rw [run, he]; rfl, hr⟩
    · exact ⟨s.gateChanged id gate, by rw [run, he]; rfl, hr⟩
    · obtain ⟨m, hm, hmc⟩ := replay_launchGate s id gate
      obtain ⟨t, ht, htc⟩ := apply_launchEvent m rid id gate keys' c attempt
      refine ⟨t, ?_, hr.of_control (htc.trans hmc)⟩
      rw [run, h.reserve_eq hkeys ha]
      exact (replay_append_of hm _).trans (replay_cons_of ht [])
  | started rid =>
    rcases transition_cases s rid [.reserved] "retry reservation is not reserved" (.started rid)
      with ⟨m, he⟩ | ⟨r, hget, hstate, he⟩
    · exact ⟨s, by rw [run, started, he]; rfl, hr⟩
    · have hmove := apply_moveReservation hget hstate .started
      rw [run, started, he]
      exact ⟨_, replay_cons_of hmove [], hr.of_control (by rfl)⟩
  | completed rid status tokens =>
    rcases transition_cases s rid [.reserved, .started] "retry reservation is already terminal"
      (.completed rid status tokens) with ⟨m, he⟩ | ⟨r, hget, hstate, he⟩
    · exact ⟨s, by rw [run, completed, he]; rfl, hr⟩
    · have hmove := apply_moveReservation hget hstate .completed
      rw [run, completed, he]
      exact ⟨_, replay_cons_of hmove [], hr.of_control (by rfl)⟩
  | abandon id disposition reason attempt =>
    simp only [run, abandon]
    split_ifs with hreason
    · exact ⟨s, rfl, hr⟩
    · obtain ⟨rs, hrs⟩ := replay_abandonEvents_all s _ hreason disposition
      exact ⟨_, hrs, hr⟩
  | reconcileAttempt attempt disposition reason live =>
    simp only [run, reconcileAttempt]
    split_ifs with ha hreason hlive
    · exact ⟨s, rfl, hr⟩
    · exact ⟨s, rfl, hr⟩
    · exact ⟨s, rfl, hr⟩
    · obtain ⟨rs, hrs⟩ := replay_abandonEvents_all s _ hreason disposition
      exact ⟨_, hrs, hr⟩
  | applyRecoveryDecision decision prior =>
    rcases applyRecoveryDecision_cases s decision prior with ⟨e, he⟩ | ⟨a, d, e, h, he⟩
    · exact ⟨s, by rw [run, he]; rfl, hr⟩
    · obtain ⟨t, ht, -, hready⟩ := h.replays hr
      exact ⟨t, by rw [run, he]; exact ht, hready⟩
  | importChildEvidence id evidence =>
    cases evidence with
    | none => exact ⟨s, rfl, hr⟩
    | some e =>
      simp only [run, importChildEvidence]
      cases hfacts : childFacts e with
      | error m => exact ⟨s, rfl, hr⟩
      | ok facts =>
        obtain ⟨t, ht, hcontrol, -⟩ := replay_importEvents (childFacts_recordable hfacts) id
          (importEvents id s.importedInvocations facts).length
        rw [take_length] at ht
        exact ⟨t, ht, hr.of_control hcontrol⟩
  | extend id launches reason =>
    simp only [run, State.extend]
    split_ifs with hbad
    · exact ⟨s, rfl, hr⟩
    · exact ⟨_, rfl, hr⟩
  | reset id reason acceptGate acceptPlan c =>
    simp only [run, resetOp]
    split_ifs with hbad
    · exact ⟨s, rfl, hr⟩
    · simp only [not_or, not_not] at hbad
      obtain ⟨t, ht⟩ : ∃ t, s.apply (.reset id reason acceptGate acceptPlan c) = some t :=
        ⟨_, if_pos hbad.2⟩
      refine ⟨t, replay_cons_of ht [], ?_⟩
      simp only [apply, State.reset, if_pos hbad.2] at ht
      cases c with
      | full => cases ht; exact ⟨⟨hr.authorized, hr.extraLaunches, hr.structuralDecisions⟩, hr.noPending⟩
      | reset => cases ht; exact ⟨⟨hr.authorized, hr.extraLaunches, hr.structuralDecisions⟩, hr.noPending⟩

end State

end HarnessLabs.Budget
