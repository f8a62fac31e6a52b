import HarnessLabs.Budget.Activation

/-!
# The life of a reservation

Several controllers reserve, start, complete and abandon through one ledger. Each call takes the
lock, so the calls interleave as wholes, and a controller that dies leaves a part of its call.

* `Moves` — what one event may do to a reservation.
* `moves_of_apply` — **every event makes a legal move of its own reservation** and leaves the
  others alone, once the ids that reservations draw are new.
* `reservation_lifecycle` — **each reservation ends at most once and stays as it ended**; a
  reconciled attempt has no reservation left that is not ended, outside its live nodes.

The fold rejects a ledger with a second terminal event. No call appends one: each decides on the
folded state under the lock, and the reservations that it abandons are all different.
-/

namespace HarnessLabs.Budget

open EventLog

/-! ## Moves -/

def ReservationState.IsTerminal (state : ReservationState) : Prop :=
  state = .completed ∨ state = .abandoned

instance (state : ReservationState) : Decidable state.IsTerminal :=
  inferInstanceAs (Decidable (_ ∨ _))

/-- One event on one reservation, and whether it ends it. -/
inductive Moves : Bool → Option Reservation → Option Reservation → Prop where
  | stays (r : Option Reservation) : Moves false r r
  | reserve (r : Reservation) (h : r.state = .reserved) : Moves false none (some r)
  | start (r : Reservation) (h : r.state = .reserved) :
      Moves false (some r) (some { r with state := .started })
  | finish (r : Reservation) (target : ReservationState)
      (h : r.state = .reserved ∨ r.state = .started) (hterminal : target.IsTerminal) :
      Moves true (some r) (some { r with state := target })

/-- The reservation that the event ends. -/
def Event.ends? : Event → Option String
  | .completed rid _ _ | .abandoned rid _ _ _ _ => some rid
  | _ => none

/-- The id that a reservation draws is new. -/
def Event.DrawsNew (s : State) : Event → Prop
  | .reserved rid _ _ _ _ _ _ => rid ∉ s.reservations.keys
  | _ => True

namespace State

variable {s t : State} {e : Event} {rid : String} {ledger : Ledger} {config : BudgetConfig}

/-- The event leaves the reservations alone. -/
theorem reservations_of_apply (h : s.apply e = some t)
    (hreserved : ∀ rid id gate keys c attempt counters,
      e ≠ .reserved rid id gate keys c attempt counters) (hstarted : ∀ rid, e ≠ .started rid)
    (hends : e.ends? = none) :
    t.reservations = s.reservations := by
  cases e with
  | reserved rid id gate keys c attempt counters =>
    exact absurd rfl (hreserved rid id gate keys c attempt counters)
  | started rid => exact absurd rfl (hstarted rid)
  | completed | abandoned => cases hends
  | registered plan gates authority transition consumes =>
    obtain ⟨-, ⟨-, -, rfl⟩ | ⟨_, _, -, -, -, -, -, rfl⟩ | ⟨-, -, -, rfl⟩⟩ := registered_cases h
    all_goals rfl
  | recoveryDecision value prior =>
    obtain ⟨_, _, -, -, -, -, rfl⟩ := recoveryDecision_cases h
    rfl
  | structuralDecision value prior =>
    obtain ⟨_, _, -, -, -, -, rfl⟩ := structuralDecision_cases h
    rfl
  | gateChanged | blocked | extended =>
    cases h
    rfl
  | evidenceImported id invocation kind c keys =>
    simp only [apply, evidenceImported] at h
    split_ifs at h
    cases h
    rfl
  | resumed id =>
    simp only [apply] at h
    split_ifs at h
    cases h
    rfl
  | obligationTransferred source receiving =>
    simp only [apply] at h
    split_ifs at h
    cases h
    rfl
  | gateLineage id predecessor successor c =>
    simp only [apply, gateLineage] at h
    split_ifs at h
    cases h
    cases c <;> rfl
  | transitionCarryover id c plan =>
    simp only [apply, transitionCarryover] at h
    split_ifs at h
    cases h
    cases c <;> rfl
  | reset id reason acceptGate acceptPlan c =>
    simp only [apply, reset] at h
    split_ifs at h
    cases h
    cases c <;> rfl

/-- What a move to a target does to the reservations. -/
theorem get?_moved {sources : List ReservationState} {target : ReservationState}
    (h : s.moveReservation rid sources target = some t) :
    ∃ r, s.reservations.get? rid = some r ∧ r.state ∈ sources ∧
      ∀ other, t.reservations.get? other =
        if other = rid then some { r with state := target } else s.reservations.get? other := by
  obtain ⟨r, hr, hsource, rfl⟩ := moveReservation_cases h
  exact ⟨r, hr, hsource, fun other => Dict.get?_set s.reservations rid other _⟩

/-- An event that ends a reservation finds it open. -/
theorem ends_of_apply (h : s.apply e = some t) (he : e.ends? = some rid) :
    ∃ r target, s.reservations.get? rid = some r ∧
      (r.state = .reserved ∨ r.state = .started) ∧ target.IsTerminal ∧
      ∀ other, t.reservations.get? other =
        if other = rid then some { r with state := target } else s.reservations.get? other := by
  cases e with
  | completed id status tokens =>
    cases he
    obtain ⟨r, hr, hsource, hget⟩ := get?_moved h
    exact ⟨r, .completed, hr, by simpa using hsource, .inl rfl, hget⟩
  | abandoned id node disposition reason attempt =>
    cases he
    simp only [apply, abandoned] at h
    split at h
    · split_ifs at h
      obtain ⟨r, hr, hsource, hget⟩ := get?_moved h
      exact ⟨r, .abandoned, hr, by simpa using hsource, .inr rfl, hget⟩
    · cases h
  | _ => cases he

/-- **Every event makes a legal move.** -/
theorem moves_of_apply (hnew : e.DrawsNew s) (h : s.apply e = some t) (rid : String) :
    Moves (decide (e.ends? = some rid)) (s.reservations.get? rid)
      (t.reservations.get? rid) := by
  cases hends : e.ends? with
  | some id =>
    obtain ⟨r, target, hr, hopen, hterminal, hget⟩ := ends_of_apply h hends
    rw [hget rid]
    by_cases hid : rid = id
    · subst hid
      rw [hr, if_pos rfl, decide_eq_true rfl]
      exact .finish r target hopen hterminal
    · rw [if_neg hid, decide_eq_false fun heq => hid (Option.some.inj heq).symm]
      exact .stays _
  | none =>
    cases e with
    | reserved id node gate keys c attempt counters =>
      simp only [apply, reserved] at h
      split_ifs at h
      cases h
      rw [Dict.get?_set]
      split_ifs with hid
      · rw [hid, Dict.get?_eq_none_iff.2 hnew]
        exact .reserve _ rfl
      · exact .stays _
    | started id =>
      obtain ⟨r, hr, hsource, hget⟩ := get?_moved h
      rw [hget rid]
      split_ifs with hid
      · rw [hid, hr]
        exact .start r (List.mem_singleton.1 hsource)
      · exact .stays _
    | _ =>
      rw [reservations_of_apply h (by simp) (by simp) hends]
      exact .stays _

/-- The reservation has ended. -/
def ended (r : Option Reservation) : Bool := r.any fun r => r.state.IsTerminal

theorem ended_of_open {r : Reservation} (h : r.state = .reserved ∨ r.state = .started) :
    ended (some r) = false := by
  rcases h with h | h <;> simp [ended, ReservationState.IsTerminal, h]

/-- A reservation is ended by the move that ends it, once. -/
theorem ended_of_moves {ends : Bool} {before after : Option Reservation}
    (h : Moves ends before after) :
    ended after = (ended before || ends) ∧ (ends = true → ended before = false) := by
  cases h with
  | stays => exact ⟨(Bool.or_false _).symm, nofun⟩
  | reserve r h => exact ⟨ended_of_open (.inl h), nofun⟩
  | start r h =>
    refine ⟨?_, nofun⟩
    rw [ended_of_open (.inl h)]
    exact ended_of_open (.inr rfl)
  | finish r target h hterminal =>
    rw [ended_of_open h]
    exact ⟨by simpa [ended] using hterminal, fun _ => rfl⟩

/-- What is ended stays as it is. -/
theorem eq_of_moves {ends : Bool} {before after : Option Reservation} (h : Moves ends before after)
    (hended : ended before = true) : after = before := by
  cases h with
  | stays => rfl
  | reserve r h => cases hended
  | start r h => exact absurd hended (by rw [ended_of_open (.inl h)]; exact nofun)
  | finish r target h => exact absurd hended (by rw [ended_of_open h]; exact nofun)

/-! ## Ledgers -/

/-- The events of the ledger that end a reservation. -/
def endings (ledger : Ledger) (rid : String) : ℕ := ledger.countP fun e => e.ends? = some rid

theorem endings_concat (ledger : Ledger) (e : Event) (rid : String) :
    endings (ledger ++ [e]) rid = endings ledger rid + if e.ends? = some rid then 1 else 0 := by
  simp [endings]

/-- A reservation has ended where one event ended it. -/
def CountsEndings (s : State) (ledger : Ledger) : Prop :=
  ∀ rid, endings ledger rid = (ended (s.reservations.get? rid)).toNat

theorem CountsEndings.apply (hnew : e.DrawsNew s) (h : s.CountsEndings ledger)
    (ht : s.apply e = some t) : t.CountsEndings (ledger ++ [e]) := by
  intro rid
  obtain ⟨hended, honce⟩ := ended_of_moves (moves_of_apply hnew ht rid)
  rw [endings_concat, h rid, hended]
  by_cases hends : e.ends? = some rid
  · rw [honce (decide_eq_true hends), if_pos hends, decide_eq_true hends]
    rfl
  · rw [if_neg hends, decide_eq_false hends, Bool.or_false, Nat.add_zero]

/-- The ids that the reservations of a ledger draw are new. -/
abbrev Draws (s : State) (events : List Event) : Prop :=
  Along State.apply (fun s e => e.DrawsNew s) s events

theorem Draws.countsEndings (h : Draws {} ledger) (hs : fold ledger = some s) :
    s.CountsEndings ledger := by
  have hempty : CountsEndings {} [] := fun _ => rfl
  have hagrees := h.agrees (fun log e => log ++ [e]) CountsEndings
    (fun _ _ _ _ hnew hcounts happly => hcounts.apply hnew happly) hempty hs
  have hlog : ∀ (log events : Ledger), events.foldl (fun log e => log ++ [e]) log = log ++ events := by
    intro log events
    induction events generalizing log with
    | nil => exact (List.append_nil log).symm
    | cons e events ih => rw [List.foldl_cons, ih, List.append_assoc]; rfl
  rwa [hlog, List.nil_append] at hagrees

/-- A reservation that has ended never changes. -/
theorem Draws.stays {events : List Event} (h : Draws s events) (ht : s.applyAll events = some t)
    (hended : ended (s.reservations.get? rid) = true) :
    t.reservations.get? rid = s.reservations.get? rid := by
  refine h.keeps (fun m => m.reservations.get? rid = s.reservations.get? rid)
    (fun a e b hnew heq happly => ?_) rfl ht
  rw [← heq]
  exact eq_of_moves (moves_of_apply hnew happly rid) (heq ▸ hended)

/-! ## Runs -/

/-- The operation draws new ids, and a registration is not cut off. -/
def Whole (config : BudgetConfig) (s : State) (op : Operation) (k : ℕ) : Prop :=
  s.Fresh op ∧ ∀ plan gates recovery transition, op = .register plan gates recovery transition →
    (s.appends config op).length ≤ k

theorem ready_of_whole {op : Operation} {k : ℕ} (hr : s.Ready) (hcut : Whole config s op k) :
    ∃ t, s.applyAll ((s.appends config op).take k) = some t ∧ t.Ready := by
  cases op with
  | register plan gates recovery transition =>
    rw [List.take_of_length_le (hcut.2 plan gates recovery transition rfl)]
    exact replays_of_run hr config _
  | _ => exact ready_of_take hr (by exact nofun) k

/-- The id that a call draws is new where the call reserves it. -/
theorem draws_of_fresh {op : Operation} (h : s.Fresh op) :
    Draws s (s.appends config op) := by
  have hwrites := writes_of_mem_appends config s op
  cases op with
  | reserve id gate keys c reason attempt rid =>
    have hgates : Draws s (s.launchGate id gate) := by
      rw [launchGate]
      split_ifs
      · exact True.intro
      · exact ⟨True.intro, fun _ _ => True.intro⟩
    rcases reserve_cases s config id gate keys c reason attempt rid with
      ⟨e, he⟩ | ⟨e, -, -, he⟩ | ⟨keys', hkeys, ha, hreserves⟩
    · rw [appends, run, he]
      exact True.intro
    · rw [appends, run, he]
      exact ⟨True.intro, fun _ _ => True.intro⟩
    · rw [appends, run, hreserves.reserve_eq hkeys ha]
      refine hgates.append fun m hm => ⟨?_, fun _ _ => True.intro⟩
      have hsame : m.reservations = s.reservations := by
        rw [launchGate] at hm
        split_ifs at hm
        · cases hm
          rfl
        · cases hm
          rfl
      change rid ∉ m.reservations.keys
      rw [hsame]
      exact h rid rfl
  | _ =>
    refine along_of_forall (fun e he m => ?_) s
    have hwrite := hwrites e he
    cases e <;> first | exact True.intro | cases hwrite

theorem draws_of_reaches (h : Reaches State.apply {} (State.appends config) (Whole config) ledger) :
    Draws {} ledger := by
  induction h with
  | nil => exact True.intro
  | @append log m op k _ hm hcut ih =>
    refine ih.append fun t ht => ?_
    cases hm.symm.trans ht
    exact (draws_of_fresh hcut.1).take k

/-- Abandoning reservations leaves the others alone. -/
theorem get?_of_abandonEvents {rs : List (String × Reservation)} {disposition : Disposition}
    {reason : String} (h : s.applyAll (abandonEvents rs disposition reason) = some t)
    (hrid : rid ∉ rs.map Prod.fst) : t.reservations.get? rid = s.reservations.get? rid := by
  refine replay_induction (P := fun m => m.reservations.get? rid = s.reservations.get? rid)
    (fun a e b he heq happly => ?_) rfl h
  obtain ⟨r, hr, rfl⟩ := List.mem_map.1 he
  obtain ⟨_, _, -, -, -, hget⟩ := @ends_of_apply _ _ _ r.1 happly rfl
  rw [hget rid, if_neg, heq]
  exact fun hsame => hrid (List.mem_map.2 ⟨r, hr, hsame.symm⟩)

/-- **What a reconciliation leaves.** -/
theorem reconcileAttempt_settles {attempt reason : String} {disposition : Disposition}
    {live : List String}
    (hok : (s.reconcileAttempt attempt disposition reason live).result = .ok ()) :
    ∃ t, s.applyAll (s.reconcileAttempt attempt disposition reason live).appended = some t ∧
      (∀ rid r, t.reservations.get? rid = some r → r.graphAttemptId = some attempt →
        r.nodeId ∉ live → r.state.IsTerminal) ∧
      ∀ rid r, s.reservations.get? rid = some r →
        r.graphAttemptId ≠ some attempt ∨ r.nodeId ∈ live → t.reservations.get? rid = some r := by
  rw [reconcileAttempt] at hok ⊢
  split_ifs at hok ⊢ with hattempt hreason hlive
  · cases hok
  · cases hok
  · cases hok
  obtain ⟨rs, hrs, hrest⟩ := replay_abandonEvents (s := s) (p := fun r =>
    r.graphAttemptId = some attempt ∧ r.nodeId ∉ live) hreason disposition
    (s.liveReservations fun r => r.graphAttemptId = some attempt ∧ r.nodeId ∉ live).length
  rw [List.drop_length] at hrest
  rw [List.take_of_length_le (by rw [abandonEvents, List.length_map])] at hrs
  refine ⟨_, hrs, fun rid r hr hsame houtside => ?_, fun rid r hr hother => ?_⟩
  · by_contra hopen
    have hmem : (rid, r) ∈ (s.withReservations rs).liveReservations fun r =>
        r.graphAttemptId = some attempt ∧ r.nodeId ∉ live := by
      refine List.mem_filter.2 ⟨Dict.get?_eq_some_iff.1 hr, ?_⟩
      have hstate : r.state = .reserved ∨ r.state = .started := by
        cases hstate : r.state <;> simp_all [ReservationState.IsTerminal]
      simp [hstate, hsame, houtside]
    rw [hrest] at hmem
    cases hmem
  · rw [get?_of_abandonEvents hrs, hr]
    intro hmem
    obtain ⟨q, hq, rfl⟩ := List.mem_map.1 hmem
    obtain ⟨hitem, hlive⟩ := List.mem_filter.1 hq
    obtain rfl : q.2 = r := Option.some.inj ((Dict.get?_eq_some_iff.2 hitem).symm.trans hr)
    simp only [Bool.and_eq_true, decide_eq_true_eq] at hlive
    exact hother.elim (absurd hlive.2.1) hlive.2.2

/-- The reservations of a ledger that folds to `s`. -/
structure Lifecycle (ledger : Ledger) (s : State) : Prop where
  moves : ∀ events e rest, ledger = events ++ e :: rest → ∃ a b, fold events = some a ∧
    a.apply e = some b ∧ ∀ rid, Moves (decide (e.ends? = some rid)) (a.reservations.get? rid)
      (b.reservations.get? rid)
  once : ∀ rid, endings ledger rid ≤ 1
  final : ∀ events rest a rid, ledger = events ++ rest → fold events = some a →
    ended (a.reservations.get? rid) = true → s.reservations.get? rid = a.reservations.get? rid
  reconciled : ∀ attempt disposition reason live,
    (s.reconcileAttempt attempt disposition reason live).result = .ok () →
    ∃ t, fold (ledger ++ (s.reconcileAttempt attempt disposition reason live).appended) = some t ∧
      (∀ rid r, t.reservations.get? rid = some r → r.graphAttemptId = some attempt →
        r.nodeId ∉ live → r.state.IsTerminal) ∧
      ∀ rid r, s.reservations.get? rid = some r →
        r.graphAttemptId ≠ some attempt ∨ r.nodeId ∈ live → t.reservations.get? rid = some r

/-- **The life of a reservation.** Whatever calls any number of controllers make, in whatever order
and cut off wherever they are, every event makes a legal move of each reservation, no reservation is
ended twice or changes behind its end, and a reconciliation leaves no open reservation of its attempt
outside the live nodes and every other reservation as it is. -/
theorem reservation_lifecycle {config : BudgetConfig} {ledger : Ledger}
    (h : Reaches State.apply {} (State.appends config) (Whole config) ledger) :
    ∃ s, fold ledger = some s ∧ Lifecycle ledger s := by
  obtain ⟨s, hs, -⟩ := h.replays (P := Ready) ready_init
    fun s op k hr hcut => ready_of_whole hr hcut
  have hdraws := draws_of_reaches h
  refine ⟨s, hs, ?_, fun rid => ?_, fun events rest a rid hledger ha => ?_,
    fun attempt disposition reason live hok => ?_⟩
  · intro events e rest hledger
    subst hledger
    obtain ⟨a, ha, hrest⟩ := replay_split hs
    obtain ⟨b, hb, -⟩ := Option.bind_eq_some_iff.1 hrest
    exact ⟨a, b, ha, hb, moves_of_apply (hdraws.split ha) hb⟩
  · rw [hdraws.countsEndings hs rid]
    exact Bool.toNat_le _
  · subst hledger
    obtain ⟨m, hm, hrest⟩ := replay_split hs
    cases ha.symm.trans hm
    exact Draws.stays (hdraws.drop ha) hrest
  · obtain ⟨t, ht, hsettled, hothers⟩ := reconcileAttempt_settles hok
    exact ⟨t, (replay_append_of hs _).trans ht, hsettled, hothers⟩

/-- Two launches of one attempt, of which one is completed and the other reconciled; the controller
that abandons them again finds none. -/
theorem reservation_lifecycle_of_attempt : ∃ ledger s, fold ledger = some s ∧
    ledger.map Event.ends? = [none, none, none, none, some "r1", some "r2"] ∧
    Lifecycle ledger s := by
  have hregister : Reaches State.apply {} (State.appends {}) (Whole {}) _ :=
    .append twoNodes 1 .nil rfl ⟨nofun, fun _ _ _ _ _ => le_rfl⟩
  have hfirst : Reaches State.apply {} (State.appends {}) (Whole {}) _ :=
    .append (.reserve "node" "gate" [] .indeterminate none (some "a1") "r1") 1 hregister rfl
      (by exact ⟨fun rid hrid => Option.some.inj hrid ▸ (by decide), nofun⟩)
  have hsecond : Reaches State.apply {} (State.appends {}) (Whole {}) _ :=
    .append (.reserve "other" "gate" [] .indeterminate none (some "a1") "r2") 1 hfirst rfl
      (by exact ⟨fun rid hrid => Option.some.inj hrid ▸ (by decide), nofun⟩)
  have hstarted : Reaches State.apply {} (State.appends {}) (Whole {}) _ :=
    .append (.started "r2") 1 hsecond rfl ⟨nofun, nofun⟩
  have hcompleted : Reaches State.apply {} (State.appends {}) (Whole {}) _ :=
    .append (.completed "r1" .succeeded none) 1 hstarted rfl ⟨nofun, nofun⟩
  have hreconciled : Reaches State.apply {} (State.appends {}) (Whole {}) _ :=
    .append (.reconcileAttempt "a1" .blocked "dead" []) 1 hcompleted rfl ⟨nofun, nofun⟩
  have hagain : Reaches State.apply {} (State.appends {}) (Whole {}) _ :=
    .append (.abandon "other" .abandoned "again" none) 1 hreconciled rfl ⟨nofun, nofun⟩
  obtain ⟨s, hs, hlifecycle⟩ := reservation_lifecycle hagain
  exact ⟨_, s, hs, by decide, hlifecycle⟩

end State

end HarnessLabs.Budget
