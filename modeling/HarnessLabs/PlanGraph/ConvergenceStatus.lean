import HarnessLabs.PlanGraph.ConvergenceLedger

/-!
# The statuses of a finding

The operations decide on a copy of the state and the fold derives the statuses again, without their
guards. The records that are written are the ones that the fold makes the same of.

* `Writes` — records each of which its writer admits in the state folded from those before it.
* `reachable_writes` — **every journal is written so**, also one that a crash cut off. The fold
  accepts it, and an active key carries its finding.
* `moves_iff_guarded` — **the statuses move along the documented edges exactly when no ruling and no
  confirmed entry is about a closed key.** Neither `record_ruling` nor the loop over the confirmed
  entries looks at the status of the key.
-/

namespace HarnessLabs.PlanGraph.Convergence

open List Option
open Audit (bind_eq_ok require_bind_eq_ok)

/-! ## Small lemmas -/

@[simp] theorem keys_setInfo (s : State) (key : Key) (info : KeyInfo) :
    (s.setInfo key info).keys = s.keys.set key info := rfl

@[simp] theorem status_move (info : KeyInfo) (status : Status) (record : Record) :
    (info.move status record).status = status := rfl

@[simp] theorem finding_move (info : KeyInfo) (status : Status) (record : Record) :
    (info.move status record).finding = info.finding := rfl

@[simp] theorem history_move (info : KeyInfo) (status : Status) (record : Record) :
    (info.move status record).history = info.history ++ [record] := rfl

@[simp] theorem status_reopen (info : KeyInfo) (reason : ReopenReason) (record : Record) :
    (info.reopen reason record).status = .opened := by
  by_cases h : reason = .repairClaimFailed <;> simp [KeyInfo.reopen, h]

@[simp] theorem finding_reopen (info : KeyInfo) (reason : ReopenReason) (record : Record) :
    (info.reopen reason record).finding = info.finding := by
  by_cases h : reason = .repairClaimFailed <;> simp [KeyInfo.reopen, h]

@[simp] theorem status_demote (info : KeyInfo) (record : Record) :
    (info.demote record).status = .fixClaimed := rfl

@[simp] theorem finding_demote (info : KeyInfo) (record : Record) :
    (info.demote record).finding = info.finding := rfl

theorem keyStatus_setInfo (s : State) (key other : Key) (info : KeyInfo) :
    (s.setInfo key info).keyStatus other =
      if other = key then some info.status else s.keyStatus other := by
  unfold State.keyStatus
  by_cases h : other = key <;> simp [h]

variable {s : State} {key : Key} {status : Status} {keys : List Key} {record : Record}
  {records : List Record} {info : KeyInfo}

theorem keyStatus_eq_some :
    s.keyStatus key = some status ↔ ∃ info, s.keys.get? key = some info ∧ info.status = status :=
  map_eq_some_iff

theorem mem_sortKeys : key ∈ sortKeys keys ↔ key ∈ keys :=
  mem_insertionSort Key.le

theorem nodup_sortKeys (h : keys.Nodup) : (sortKeys keys).Nodup :=
  (perm_insertionSort Key.le keys).nodup_iff.2 h

/-! ## Keys with a property -/

theorem State.mem_keysWhere {p : KeyInfo → Bool} :
    key ∈ s.keysWhere p ↔ ∃ info, s.keys.get? key = some info ∧ p info := by
  rw [State.keysWhere, List.mem_toFinset, Dict.mem_map_filter_items]

theorem State.mem_fixedKeys :
    key ∈ s.fixedKeys ↔ ∃ info, s.keys.get? key = some info ∧ info.status = .fixed := by
  rw [State.fixedKeys, s.keys.mem_map_filter_items (p := fun info => info.status = .fixed)]
  simp only [decide_eq_true_eq]

theorem State.mem_openSet :
    key ∈ s.openSet ↔ ∃ status, s.keyStatus key = some status ∧ status.active := by
  rw [State.openSet, State.mem_keysWhere]
  constructor
  · intro ⟨info, hget, hactive⟩
    exact ⟨info.status, keyStatus_eq_some.2 ⟨info, hget, rfl⟩, hactive⟩
  · intro ⟨status, hstatus, hactive⟩
    obtain ⟨info, hget, rfl⟩ := keyStatus_eq_some.1 hstatus
    exact ⟨info, hget, hactive⟩

/-! ## What is written -/

/-- What the writer of a record knows of the state before it. -/
def Written (s : State) : Record → Prop
  | .findingOpened _ finding => s.keys.get? finding.key = none
  | .findingFixClaimed key _ _ | .findingFixed key _ _ _ | .findingInvalidated key _ =>
    ∃ info, s.keys.get? key = some info ∧ info.status.active
  | .findingReopened key reason _ =>
    ∃ info, s.keys.get? key = some info ∧
      (info.status = .fixClaimed ∧ reason = Ingest.claimReason info ∨
        info.status = .fixed ∧ (reason = .findingReemitted ∨ reason = .regressionReopened))
  | .baseRebase keys _ =>
    keys.Nodup ∧ ∀ key ∈ keys, ∃ info, s.keys.get? key = some info ∧ info.status = .fixed
  | .findingRuled key _ _ _ => ∃ info, s.keys.get? key = some info
  | .campaignOpened _ | .confirmedGood _ _ _ _ | .captureCoverage _ _ | .targetAmended _ _
  | .auditIngested _ _ => True

/-- The records take `s` to `t`, and each is admitted by its writer. -/
inductive Writes : State → List Record → State → Prop where
  | nil (s : State) : Writes s [] s
  | cons {s t u : State} {record : Record} {rest : List Record} :
      Written s record → foldOne s record = some t → Writes t rest u →
      Writes s (record :: rest) u

namespace Writes

variable {s t u : State} {front records : List Record}

theorem append {back : List Record} (h : Writes s front t) (hback : Writes t back u) :
    Writes s (front ++ back) u := by
  induction h with
  | nil => exact hback
  | cons hwritten hfold _ ih => exact cons hwritten hfold (ih hback)

theorem single {record : Record} (hwritten : Written s record) (hfold : foldOne s record = some t) :
    Writes s [record] t :=
  cons hwritten hfold (nil t)

theorem snoc {record : Record} (h : Writes s front t) (hwritten : Written t record)
    (hfold : foldOne t record = some u) :
    Writes s (front ++ [record]) u :=
  h.append (single hwritten hfold)

theorem split {back : List Record} (h : Writes s (front ++ back) u) :
    ∃ t, Writes s front t ∧ Writes t back u := by
  induction front generalizing s with
  | nil => exact ⟨s, nil s, h⟩
  | cons record front ih =>
    cases h with
    | cons hwritten hfold hrest =>
      obtain ⟨t, hfront, hback⟩ := ih hrest
      exact ⟨t, cons hwritten hfold hfront, hback⟩

/-- Every prefix of what is written is written. -/
theorem take (h : Writes s records u) (n : ℕ) :
    ∃ t, Writes s (records.take n) t := by
  rw [← take_append_drop n records] at h
  obtain ⟨t, ht, -⟩ := h.split
  exact ⟨t, ht⟩

/-- **The fold accepts what is written.** -/
theorem foldFrom_eq (h : Writes s records t) (line : ℕ) :
    foldFrom s line records = .ok t := by
  induction h generalizing line with
  | nil => rfl
  | cons _ hfold _ ih =>
    rw [foldFrom, hfold]
    exact ih (line + 1)

theorem fold_eq {journal : List Record} (h : Writes .initial journal s) :
    fold journal = .ok s := h.foldFrom_eq 1

/-- What every written record preserves holds behind all of them. -/
theorem invariant {P : State → Prop} (h : Writes s records t)
    (hstep : ∀ a record b, Written a record → foldOne a record = some b → P a → P b) (hs : P s) :
    P t := by
  induction h with
  | nil => exact hs
  | cons hwritten hfold _ ih => exact ih (hstep _ _ _ hwritten hfold hs)

end Writes

/-! ## Base rebase -/

theorem get?_demoteAll {d e : Dict Key KeyInfo} (h : demoteAll record d keys = some e)
    (hnodup : keys.Nodup) (key : Key) :
    e.get? key = if key ∈ keys then (d.get? key).map (·.demote record) else d.get? key := by
  induction keys generalizing d with
  | nil =>
    cases h
    simp
  | cons first rest ih =>
    rw [demoteAll, bind_eq_some_iff] at h
    obtain ⟨info, hget, h⟩ := h
    obtain ⟨hfirst, hrest⟩ := nodup_cons.1 hnodup
    rw [ih h hrest]
    by_cases hkey : key = first
    · subst hkey
      simp [hfirst, hget]
    · simp [hkey]

theorem demoteAll_isSome (record : Record) {d : Dict Key KeyInfo}
    (h : ∀ key ∈ keys, (d.get? key).isSome) : ∃ e, demoteAll record d keys = some e := by
  induction keys generalizing d with
  | nil => exact ⟨d, rfl⟩
  | cons first rest ih =>
    obtain ⟨info, hinfo⟩ := isSome_iff_exists.1 (h first mem_cons_self)
    obtain ⟨e, he⟩ := ih (d := d.set first (info.demote record)) fun key hkey => by
      by_cases heq : key = first
      · simp [heq]
      · rw [Dict.get?_set_ne d _ heq]
        exact h key (mem_cons_of_mem _ hkey)
    exact ⟨e, by rw [demoteAll, hinfo, bind_some, he]⟩

/-- The fold finds every key that a written record names. -/
theorem Written.foldOne_isSome (h : Written s record) :
    ∃ t, foldOne s record = some t := by
  cases record with
  | campaignOpened | findingOpened | findingFixClaimed | captureCoverage | targetAmended
  | auditIngested => exact ⟨_, rfl⟩
  | confirmedGood key assertion =>
    by_cases hassertion : assertion.isSome
    · exact ⟨_, by rw [foldOne, if_pos hassertion]⟩
    · exact ⟨_, by rw [foldOne, if_neg hassertion]⟩
  | findingFixed key | findingInvalidated key | findingReopened key =>
    obtain ⟨info, hinfo, -⟩ := h
    exact ⟨_, by rw [foldOne, hinfo, map_some]⟩
  | findingRuled key =>
    obtain ⟨info, hinfo⟩ := h
    exact ⟨_, by rw [foldOne, hinfo, map_some]⟩
  | baseRebase keys =>
    obtain ⟨e, he⟩ := demoteAll_isSome (.baseRebase keys _) fun key hkey => by
      obtain ⟨info, hinfo, -⟩ := h.2 key hkey
      exact isSome_of_eq_some hinfo
    exact ⟨_, by rw [foldOne, he, map_some]⟩

/-! ## The ingest writes -/

/-- The copy of an ingest is the fold of its records. -/
def Ingest.Agrees (s : State) (i : Ingest) : Prop := Writes s i.appended i.state

namespace Ingest.Agrees

variable {s : State} {a : AuditResult} {i : Ingest}

theorem coverageStep (h : Agrees s i) : Agrees s (Ingest.coverageStep a i) := by
  unfold Ingest.coverageStep
  by_cases hempty : a.captureCoverage.items = []
  · rwa [if_pos hempty]
  · rw [if_neg hempty]
    exact Writes.snoc h trivial rfl

variable {key : Key} {info : KeyInfo}

theorem reopen (h : Agrees s i) {reason : ReopenReason} {digest : String}
    (hget : i.state.keys.get? key = some info)
    (hstatus : info.status = .fixClaimed ∧ reason = claimReason info ∨
      info.status = .fixed ∧ (reason = .findingReemitted ∨ reason = .regressionReopened)) :
    Agrees s (i.reopen key info reason digest) := by
  have hwritten : Written i.state (.findingReopened key reason digest) := ⟨info, hget, hstatus⟩
  refine Writes.snoc h hwritten ?_
  rw [foldOne, hget, map_some]
  rfl

theorem fix (h : Agrees s i) {cell assertion : String} (hget : i.state.keys.get? key = some info) :
    Agrees s (Ingest.fix a i key info cell assertion) := by
  unfold Ingest.fix
  by_cases hactive : info.status.active
  · rw [if_pos hactive]
    have hwritten : Written i.state (.findingFixed key cell assertion a.digest) :=
      ⟨info, hget, hactive⟩
    refine Writes.snoc h hwritten ?_
    rw [foldOne, hget, map_some]
    rfl
  · rwa [if_neg hactive]

theorem observedFixed (h : Agrees s i) {cell assertion : String}
    (hget : i.state.keys.get? key = some info) :
    Agrees s (Ingest.observedFixed a i key info cell assertion) := by
  unfold Ingest.observedFixed
  cases Ingest.cellStatus a i.state cell with
  | none => exact h
  | some status =>
    cases status with
    | ok | unreachable => exact h.fix hget
    | unstable => exact h

theorem observedReopened (h : Agrees s i) (hget : i.state.keys.get? key = some info) :
    Agrees s (Ingest.observedReopened a i key info) := by
  unfold Ingest.observedReopened
  split_ifs with hclaimed hfixed
  · exact h.reopen hget (.inl ⟨hclaimed, rfl⟩)
  · exact h.reopen hget (.inr ⟨hfixed, .inr rfl⟩)
  · exact h

theorem observedInvalidated (h : Agrees s i) (hget : i.state.keys.get? key = some info) :
    Agrees s (Ingest.observedInvalidated a i key info) := by
  unfold Ingest.observedInvalidated
  by_cases hactive : info.status.active
  · rw [if_pos hactive]
    have hwritten : Written i.state (.findingInvalidated key a.digest) := ⟨info, hget, hactive⟩
    refine Writes.snoc h hwritten ?_
    rw [foldOne, hget, map_some]
    rfl
  · rwa [if_neg hactive]

theorem mention (h : Agrees s i) (v : Verdict) : Agrees s (i.mention v) := by
  unfold Ingest.mention
  by_cases hkind : v.kind = .unobserved
  · rwa [if_pos hkind]
  · rwa [if_neg hkind]

theorem observe (h : Agrees s i) (v : Verdict) : Agrees s (i.observe a v) := by
  unfold Ingest.observe
  cases hget : i.state.keys.get? v.key with
  | none => exact h
  | some info =>
    cases hkind : v.kind with
    | observedFixed cell assertion => exact h.observedFixed hget
    | reopened => exact h.observedReopened hget
    | invalidated => exact h.observedInvalidated hget
    | unobserved => exact h

theorem findingStep (h : Agrees s i) (finding : Finding) :
    Agrees s (Ingest.findingStep a i finding) := by
  unfold Ingest.findingStep
  cases hget : i.state.keys.get? finding.key with
  | none =>
    have hwritten : Written i.state (.findingOpened a.digest finding) := hget
    exact Writes.snoc h hwritten rfl
  | some info =>
    simp only
    split_ifs with hfixed hclaimed
    · exact h.reopen hget (.inr ⟨hfixed, .inl rfl⟩)
    · exact h.reopen hget (.inl ⟨hclaimed, rfl⟩)
    · exact h

theorem confirmedStep (h : Agrees s i) (entry : ConfirmedGood) :
    Agrees s (Ingest.confirmedStep a i entry) := by
  unfold Ingest.confirmedStep
  by_cases hcheckable : entry.machineCheckable
  · simp only [hcheckable, if_true]
    exact Writes.snoc h trivial (if_pos hcheckable)
  · simp only [hcheckable]
    exact Writes.snoc h trivial (if_neg hcheckable)

end Ingest.Agrees

theorem State.ingestLoops_agrees (s : State) (a : AuditResult) :
    Ingest.Agrees s (s.ingestLoops a) := by
  have hstart : Ingest.Agrees s (Ingest.coverageStep a
      { state := s, summary := { digest := a.digest } }) :=
    Ingest.Agrees.coverageStep (Writes.nil s)
  refine List.foldlRecOn _ _ (List.foldlRecOn _ _ (List.foldlRecOn _ _ hstart ?_) ?_) ?_
  · exact fun i h v _ => (h.mention v).observe v
  · exact fun i h finding _ => h.findingStep finding
  · exact fun i h entry _ => h.confirmedStep entry

/-- An ingest that does not raise appends nothing, or the records of its loops and the digest. -/
theorem State.ingest_eq_ok {a : AuditResult} {summary : Summary}
    (h : s.ingest a = .ok (records, summary)) :
    a.digest ∈ s.ingestedDigests ∧ records = [] ∨
      a.digest ∉ s.ingestedDigests ∧ (∀ v ∈ a.verdicts, (s.keys.get? v.key).isSome) ∧
        records = (s.ingestLoops a).appended ++ [.auditIngested a.digest
          (sortKeys (s.activeKeys.filter (· ∉ (s.ingestLoops a).mentioned)))] := by
  unfold State.ingest at h
  by_cases hdigest : a.digest ∈ s.ingestedDigests
  · rw [if_pos hdigest] at h
    exact .inl ⟨hdigest, (congrArg Prod.fst (Except.ok.inj h)).symm⟩
  · rw [if_neg hdigest] at h
    cases hfind : a.verdicts.find? fun v => (s.keys.get? v.key).isNone with
    | some v => simp [hfind] at h
    | none =>
      rw [hfind] at h
      refine .inr ⟨hdigest, fun v hv => ?_, (congrArg Prod.fst (Except.ok.inj h)).symm⟩
      simpa [isSome_iff_ne_none] using List.find?_eq_none.1 hfind v hv

theorem State.ingest_writes {a : AuditResult} {summary : Summary}
    (h : s.ingest a = .ok (records, summary)) : ∃ t, Writes s records t := by
  obtain ⟨-, rfl⟩ | ⟨-, -, rfl⟩ := State.ingest_eq_ok h
  · exact ⟨s, .nil s⟩
  · exact ⟨_, (s.ingestLoops_agrees a).snoc trivial rfl⟩

/-! ## Every operation writes -/

theorem map_single_eq_ok {x : Except String Record} (h : x.map ([·]) = .ok records) :
    ∃ record, x = .ok record ∧ records = [record] := by
  cases x with
  | error message => simp [Except.map] at h
  | ok record => exact ⟨record, rfl, (Except.ok.inj h).symm⟩

section Operations

variable {journal : List Record} {s : State} {record : Record}

theorem recordFixClaimed_written (hfold : fold journal = .ok s) {key : Json} {source : String}
    {roundId : Option String} (h : recordFixClaimed journal key source roundId = .ok record) :
    Written s record := by
  obtain ⟨key, -, h⟩ := bind_eq_ok.1 h
  obtain ⟨state, hstate, h⟩ := bind_eq_ok.1 h
  cases hfold.symm.trans hstate
  cases hget : s.keys.get? key with
  | none => simp [hget] at h
  | some info =>
    simp only [hget] at h
    by_cases hactive : info.status.active
    · rw [if_pos hactive] at h
      cases h
      exact ⟨info, hget, hactive⟩
    · simp [hactive] at h

theorem recordRuling_written (hfold : fold journal = .ok s) {key : Json}
    {disposition statement actor : String}
    (h : recordRuling journal key disposition statement actor = .ok record) :
    Written s record := by
  obtain ⟨key, -, h⟩ := bind_eq_ok.1 h
  cases hdisposition : disposition? disposition with
  | none => simp [hdisposition] at h
  | some d =>
    simp only [hdisposition] at h
    obtain ⟨-, h⟩ := require_bind_eq_ok.1 h
    obtain ⟨state, hstate, h⟩ := bind_eq_ok.1 h
    cases hfold.symm.trans hstate
    obtain ⟨hsome, h⟩ := require_bind_eq_ok.1 h
    cases h
    exact isSome_iff_exists.1 hsome

theorem recordBaseRebase_written (hfold : fold journal = .ok s) {note : Option String}
    (h : recordBaseRebase journal note = .ok record) : Written s record := by
  obtain ⟨state, hstate, h⟩ := bind_eq_ok.1 h
  cases hfold.symm.trans hstate
  cases h
  exact ⟨nodup_sortKeys (s.keys.nodup_map_filter_items fun info => info.status = .fixed),
    fun key hkey => State.mem_fixedKeys.1 (mem_sortKeys.1 hkey)⟩

theorem openCampaign_written {c : Campaign} (h : openCampaign journal c = .ok record) :
    Written s record := by
  obtain ⟨-, h⟩ := require_bind_eq_ok.1 h
  obtain ⟨-, h⟩ := require_bind_eq_ok.1 h
  obtain ⟨_, -, h⟩ := bind_eq_ok.1 h
  obtain ⟨_, -, h⟩ := bind_eq_ok.1 h
  obtain ⟨_, -, h⟩ := bind_eq_ok.1 h
  obtain ⟨-, h⟩ := require_bind_eq_ok.1 h
  obtain ⟨_, -, h⟩ := bind_eq_ok.1 h
  obtain ⟨-, h⟩ := require_bind_eq_ok.1 h
  cases h
  trivial

theorem recordTargetAmendment_written {digest : String} {scope : Option (List Json)}
    (h : recordTargetAmendment digest scope = .ok record) : Written s record := by
  obtain ⟨-, h⟩ := require_bind_eq_ok.1 h
  cases scope with
  | none =>
    cases h
    trivial
  | some items =>
    obtain ⟨_, -, h⟩ := bind_eq_ok.1 h
    cases h
    trivial

/-- **What an operation appends is written.** -/
theorem Operation.records_writes (hfold : fold journal = .ok s) {op : Operation}
    {records : List Record} (h : op.records journal = .ok records) : ∃ t, Writes s records t := by
  have hsingle : ∀ {record}, Written s record → ∃ t, Writes s [record] t := by
    intro record hwritten
    obtain ⟨t, ht⟩ := hwritten.foldOne_isSome
    exact ⟨t, .single hwritten ht⟩
  cases op with
  | openCampaign campaign =>
    obtain ⟨record, hrecord, rfl⟩ := map_single_eq_ok h
    exact hsingle (openCampaign_written hrecord)
  | ingestAudit auditResult =>
    cases hingest : Convergence.ingestAudit journal auditResult with
    | error message => simp [Operation.records, hingest, Except.map] at h
    | ok result =>
      obtain rfl : result.1 = records := by
        simpa [Operation.records, hingest, Except.map] using h
      obtain ⟨a, -, hingest⟩ := bind_eq_ok.1 hingest
      obtain ⟨state, hstate, hingest⟩ := bind_eq_ok.1 hingest
      cases hfold.symm.trans hstate
      exact State.ingest_writes hingest
  | recordFixClaimed key source roundId =>
    obtain ⟨record, hrecord, rfl⟩ := map_single_eq_ok h
    exact hsingle (recordFixClaimed_written hfold hrecord)
  | recordRuling key disposition statement actor =>
    obtain ⟨record, hrecord, rfl⟩ := map_single_eq_ok h
    exact hsingle (recordRuling_written hfold hrecord)
  | recordBaseRebase note =>
    obtain ⟨record, hrecord, rfl⟩ := map_single_eq_ok h
    exact hsingle (recordBaseRebase_written hfold hrecord)
  | recordTargetAmendment digest scope =>
    obtain ⟨record, hrecord, rfl⟩ := map_single_eq_ok h
    exact hsingle (recordTargetAmendment_written hrecord)

end Operations

/-- **Every reachable journal is written.** -/
theorem reachable_writes {journal : List Record} (h : Reachable journal) :
    ∃ s, Writes .initial journal s := by
  refine Inputs.Runs.invariant (P := fun journal => ∃ s, Writes .initial journal s) h ?_
    ⟨_, .nil _⟩
  intro input before after hstep hbefore
  obtain ⟨s, hs⟩ := hbefore
  unfold step at hstep
  cases hrecords : input.1.records before with
  | error message => simp [hrecords] at hstep
  | ok records =>
    rw [hrecords] at hstep
    cases hstep
    obtain ⟨t, ht⟩ := Operation.records_writes hs.fold_eq hrecords
    obtain ⟨u, hu⟩ := ht.take (input.2.getD records.length)
    exact ⟨u, hs.append hu⟩

/-! ## Envelopes -/

/-- A key without a finding was only ever confirmed or ruled, and a finding is about its key. -/
def Enveloped (s : State) : Prop :=
  ∀ key info, s.keys.get? key = some info →
    (info.finding = none → info.status = .excluded ∨ info.status = .amended) ∧
    ∀ finding, info.finding = some finding → finding.key = key

theorem Enveloped.setInfo (h : Enveloped s)
    (hnone : info.finding = none → info.status = .excluded ∨ info.status = .amended)
    (hkey : ∀ finding, info.finding = some finding → finding.key = key) :
    Enveloped (s.setInfo key info) := by
  intro other entry hget
  rw [keys_setInfo, Dict.get?_set] at hget
  by_cases hother : other = key
  · rw [if_pos hother] at hget
    cases hget
    exact ⟨hnone, hother ▸ hkey⟩
  · rw [if_neg hother] at hget
    exact h other entry hget

/-- A key that a finding was recorded for may move to any status. -/
theorem Enveloped.move (h : Enveloped s) {moved : KeyInfo} (hget : s.keys.get? key = some info)
    (hfinding : moved.finding = info.finding)
    (hopen : ¬ (info.status = .excluded ∨ info.status = .amended)) :
    Enveloped (s.setInfo key moved) := by
  obtain ⟨hnone, hkey⟩ := h key info hget
  refine h.setInfo (fun hmoved => ?_) fun finding hmoved => hkey finding (hfinding ▸ hmoved)
  exact absurd (hnone (hfinding ▸ hmoved)) hopen

theorem Status.active_iff :
    status.active ↔ status = .opened ∨ status = .fixClaimed := by
  cases status <;> simp [Status.active]

theorem Status.not_closed_of_active (h : status.active) :
    ¬ (status = .excluded ∨ status = .amended) := by
  cases status <;> simp_all [Status.active]

theorem enveloped_foldOne {t : State} (hwritten : Written s record)
    (hfold : foldOne s record = some t) (h : Enveloped s) : Enveloped t := by
  cases record with
  | campaignOpened | captureCoverage | targetAmended | auditIngested =>
    cases hfold
    exact h
  | findingOpened digest finding =>
    cases hfold
    exact h.setInfo nofun fun other hother => by rw [Option.some.inj hother]
  | findingFixClaimed key =>
    obtain ⟨info, hget, hactive⟩ := hwritten
    rw [foldOne, hget] at hfold
    cases hfold
    exact h.move hget rfl (Status.not_closed_of_active hactive)
  | findingFixed key | findingInvalidated key =>
    obtain ⟨info, hget, hactive⟩ := hwritten
    rw [foldOne, hget] at hfold
    cases hfold
    exact h.move hget rfl (Status.not_closed_of_active hactive)
  | findingReopened key reason =>
    obtain ⟨info, hget, hstatus⟩ := hwritten
    rw [foldOne, hget] at hfold
    cases hfold
    refine h.move hget (finding_reopen info _ _) ?_
    obtain ⟨hclaimed, -⟩ | ⟨hfixed, -⟩ := hstatus
    · simp [hclaimed]
    · simp [hfixed]
  | baseRebase keys note =>
    obtain ⟨hnodup, hfixed⟩ := hwritten
    obtain ⟨e, he, rfl⟩ := map_eq_some_iff.1 hfold
    intro key info hget
    have hdemoted := get?_demoteAll he hnodup key
    rw [show e.get? key = some info from hget] at hdemoted
    by_cases hkey : key ∈ keys
    · obtain ⟨before, hbefore, hstatus⟩ := hfixed key hkey
      rw [if_pos hkey, hbefore] at hdemoted
      cases hdemoted
      obtain ⟨hnone, hfinding⟩ := h key before hbefore
      exact ⟨fun hinfo => absurd (hnone hinfo) (by simp [hstatus]), hfinding⟩
    · rw [if_neg hkey] at hdemoted
      exact h key info hdemoted.symm
  | findingRuled key disposition =>
    obtain ⟨info, hget⟩ := hwritten
    rw [foldOne, hget] at hfold
    cases hfold
    obtain ⟨hnone, hfinding⟩ := h key info hget
    refine h.setInfo (fun hinfo => ?_) hfinding
    cases disposition with
    | waive => exact .inl rfl
    | requireRepair => exact hnone hinfo
    | amendCriterion => exact .inr rfl
  | confirmedGood key assertion =>
    by_cases hassertion : assertion.isSome
    · rw [foldOne, if_pos hassertion] at hfold
      cases hfold
      refine h.setInfo (fun _ => .inl rfl) fun finding hfinding => ?_
      cases hget : s.keys.get? key with
      | none => simp [hget] at hfinding
      | some info =>
        rw [hget] at hfinding
        exact (h key info hget).2 finding hfinding
    · rw [foldOne, if_neg hassertion] at hfold
      cases hfold
      exact h

theorem Writes.enveloped {journal : List Record} (h : Writes .initial journal s) :
    Enveloped s :=
  h.invariant (fun _ _ _ => enveloped_foldOne) fun _ _ hget => by
    simp [State.initial] at hget

/-- `open_findings` does not raise, and lists the open set. -/
def ListsOpenSet (s : State) : Prop :=
  ∃ findings, s.openFindings = .ok findings ∧ (findings.map (·.key)).Nodup ∧
    (findings.map (·.key)).toFinset = s.openSet

theorem mapM_openFinding (h : Enveloped s) (hactive : ∀ key ∈ keys, key ∈ s.openSet) :
    ∃ findings, keys.mapM s.openFinding = .ok findings ∧ findings.map (·.key) = keys := by
  induction keys with
  | nil => exact ⟨[], rfl, rfl⟩
  | cons key keys ih =>
    obtain ⟨findings, hrest, hmap⟩ := ih fun other hother => hactive other (.tail _ hother)
    obtain ⟨status, hstatus, hactive⟩ := State.mem_openSet.1 (hactive key mem_cons_self)
    obtain ⟨info, hget, rfl⟩ := keyStatus_eq_some.1 hstatus
    obtain ⟨hnone, hkey⟩ := h key info hget
    cases hfinding : info.finding with
    | none => exact absurd (hnone hfinding) (Status.not_closed_of_active hactive)
    | some finding =>
      have hopen : s.openFinding key = .ok finding := by simp [State.openFinding, hget, hfinding]
      refine ⟨finding :: findings, ?_, ?_⟩
      · rw [mapM_cons, hopen, hrest]
        rfl
      · rw [map_cons, hmap, hkey finding hfinding]

theorem Enveloped.listsOpenSet (h : Enveloped s) : ListsOpenSet s := by
  have hmem : ∀ key, key ∈ (sortKeys s.keys.keys).filter
      (fun key => (s.keyStatus key).any (·.active)) ↔ key ∈ s.openSet := by
    intro key
    rw [List.mem_filter, mem_sortKeys, State.mem_openSet, Option.any_eq_true]
    refine ⟨fun hkey => hkey.2, fun hkey => ⟨?_, hkey⟩⟩
    obtain ⟨status, hstatus, -⟩ := hkey
    obtain ⟨info, hget, -⟩ := keyStatus_eq_some.1 hstatus
    exact Dict.mem_keys_iff.2 ⟨info, hget⟩
  obtain ⟨findings, hfindings, hmap⟩ := mapM_openFinding h fun key => (hmem key).1
  refine ⟨findings, hfindings, ?_, ?_⟩
  · rw [hmap]
    exact (nodup_sortKeys s.keys.nodup_keys).filter _
  · rw [hmap]
    ext key
    rw [List.mem_toFinset, hmem]

/-! ## Edges -/

/-- The documented edges. Only a base rebase leads from fixed to claimed. -/
inductive Edge (record : Record) : Status → Status → Prop where
  | claimed : Edge record .opened .fixClaimed
  | fixed {status : Status} : status.active → Edge record status .fixed
  | claimFailed : Edge record .fixClaimed .opened
  | regressed : Edge record .fixed .opened
  | rebased {keys : List Key} {note : Option String} :
      record = .baseRebase keys note → Edge record .fixed .fixClaimed
  | excluded {status : Status} : status.active → Edge record status .excluded
  | amended {status : Status} : status.active → Edge record status .amended
  | invalidated {status : Status} : status.active → Edge record status .invalidated

/-- The record moves every key along an edge, or not at all. -/
def Moves (s : State) (record : Record) (t : State) : Prop :=
  ∀ key before, s.keyStatus key = some before →
    ∃ after, t.keyStatus key = some after ∧ (before = after ∨ Edge record before after)

/-- A ruling and a confirmed entry close only a key that is open or claimed, or closed like that. -/
def Guarded (s : State) : Record → Prop
  | .findingRuled key disposition _ _ =>
    ∀ status, s.keyStatus key = some status → status.active ∨ disposition.rule status = status
  | .confirmedGood key assertion _ _ =>
    assertion.isSome → ∀ status, s.keyStatus key = some status →
      status.active ∨ status = .excluded
  | _ => True

theorem Moves.refl (s : State) (record : Record) : Moves s record s :=
  fun _ before hbefore => ⟨before, hbefore, .inl rfl⟩

/-- A record about one key moves that key only. -/
theorem moves_setInfo :
    Moves s record (s.setInfo key info) ↔
      ∀ before, s.keyStatus key = some before →
        before = info.status ∨ Edge record before info.status := by
  constructor
  · intro h before hbefore
    obtain ⟨after, hafter, hmove⟩ := h key before hbefore
    rw [keyStatus_setInfo, if_pos rfl] at hafter
    cases hafter
    exact hmove
  · intro h other before hbefore
    by_cases hother : other = key
    · subst hother
      exact ⟨info.status, by rw [keyStatus_setInfo, if_pos rfl], h before hbefore⟩
    · exact ⟨before, by rwa [keyStatus_setInfo, if_neg hother], .inl rfl⟩

theorem keyStatus_of_get? (hget : s.keys.get? key = some info)
    (hstatus : s.keyStatus key = some status) :
    status = info.status := by
  rw [State.keyStatus, hget] at hstatus
  exact (Option.some.inj hstatus).symm

/-- The edges into a closed status come from an active one. -/
theorem Edge.active {before after : Status} (h : Edge record before after)
    (hafter : after = .excluded ∨ after = .amended) : before.active := by
  cases h with
  | excluded hactive | amended hactive => exact hactive
  | claimed | fixed | claimFailed | regressed | rebased | invalidated => simp at hafter

/-- **What a written record does to the statuses.** -/
theorem moves_iff_guarded {t : State} (hwritten : Written s record)
    (hfold : foldOne s record = some t) : Moves s record t ↔ Guarded s record := by
  cases record with
  | campaignOpened | captureCoverage | targetAmended | auditIngested =>
    cases hfold
    exact iff_of_true (Moves.refl s _) trivial
  | findingOpened digest finding =>
    cases hfold
    refine iff_of_true (moves_setInfo.2 fun before hbefore => ?_) trivial
    rw [State.keyStatus, show s.keys.get? finding.key = none from hwritten] at hbefore
    simp at hbefore
  | findingFixClaimed key =>
    obtain ⟨info, hget, hactive⟩ := hwritten
    cases hfold
    refine iff_of_true (moves_setInfo.2 fun before hbefore => ?_) trivial
    obtain rfl := keyStatus_of_get? hget hbefore
    obtain hopened | hclaimed := Status.active_iff.1 hactive
    · refine .inr ?_
      rw [hopened]
      exact .claimed
    · exact .inl hclaimed
  | findingFixed key =>
    obtain ⟨info, hget, hactive⟩ := hwritten
    rw [foldOne, hget] at hfold
    cases hfold
    refine iff_of_true (moves_setInfo.2 fun before hbefore => ?_) trivial
    exact .inr (.fixed (keyStatus_of_get? hget hbefore ▸ hactive))
  | findingInvalidated key =>
    obtain ⟨info, hget, hactive⟩ := hwritten
    rw [foldOne, hget] at hfold
    cases hfold
    refine iff_of_true (moves_setInfo.2 fun before hbefore => ?_) trivial
    exact .inr (.invalidated (keyStatus_of_get? hget hbefore ▸ hactive))
  | findingReopened key reason =>
    obtain ⟨info, hget, hstatus⟩ := hwritten
    rw [foldOne, hget] at hfold
    cases hfold
    refine iff_of_true (moves_setInfo.2 fun before hbefore => .inr ?_) trivial
    obtain rfl := keyStatus_of_get? hget hbefore
    rw [status_reopen]
    obtain ⟨hclaimed, -⟩ | ⟨hfixed, -⟩ := hstatus
    · exact hclaimed ▸ .claimFailed
    · exact hfixed ▸ .regressed
  | baseRebase keys note =>
    obtain ⟨hnodup, hfixed⟩ := hwritten
    obtain ⟨e, he, rfl⟩ := map_eq_some_iff.1 hfold
    refine iff_of_true (fun key before hbefore => ?_) trivial
    have hdemoted := get?_demoteAll he hnodup key
    by_cases hkey : key ∈ keys
    · obtain ⟨info, hget, hstatus⟩ := hfixed key hkey
      rw [if_pos hkey, hget] at hdemoted
      obtain rfl := keyStatus_of_get? hget hbefore
      exact ⟨.fixClaimed, by simp [State.keyStatus, hdemoted], .inr (hstatus ▸ .rebased rfl)⟩
    · rw [if_neg hkey] at hdemoted
      exact ⟨before, by rwa [State.keyStatus, hdemoted], .inl rfl⟩
  | findingRuled key disposition =>
    obtain ⟨info, hget⟩ := hwritten
    rw [foldOne, hget] at hfold
    cases hfold
    rw [moves_setInfo, Guarded]
    refine forall_congr' fun before => forall_congr' fun hbefore => ?_
    obtain rfl := keyStatus_of_get? hget hbefore
    cases disposition with
    | waive =>
      constructor
      · rintro (hsame | hedge)
        · exact .inr hsame.symm
        · exact .inl (hedge.active (.inl rfl))
      · rintro (hactive | hsame)
        · exact .inr (.excluded hactive)
        · exact .inl hsame.symm
    | requireRepair => exact iff_of_true (.inl rfl) (.inr rfl)
    | amendCriterion =>
      constructor
      · rintro (hsame | hedge)
        · exact .inr hsame.symm
        · exact .inl (hedge.active (.inr rfl))
      · rintro (hactive | hsame)
        · exact .inr (.amended hactive)
        · exact .inl hsame.symm
  | confirmedGood key assertion =>
    by_cases hassertion : assertion.isSome
    · rw [foldOne, if_pos hassertion] at hfold
      cases hfold
      rw [moves_setInfo, Guarded, forall_prop_of_true hassertion]
      refine forall_congr' fun before => forall_congr' fun _ => ?_
      constructor
      · rintro (hsame | hedge)
        · exact .inr hsame
        · exact .inl (hedge.active (.inl rfl))
      · rintro (hactive | hsame)
        · exact .inr (.excluded hactive)
        · exact .inl hsame
    · rw [foldOne, if_neg hassertion] at hfold
      cases hfold
      exact iff_of_true (Moves.refl s _) fun h => absurd h hassertion

/-! ## Journals -/

/-- Every record of the journal moves the keys along the edges. -/
def MovesAlongEdges (journal : List Record) : Prop :=
  ∀ before record after s t, journal = before ++ record :: after → fold before = .ok s →
    foldOne s record = some t → Moves s record t

/-- No ruling and no confirmed entry of the journal is about a closed key. -/
def ClosedKeysKept (journal : List Record) : Prop :=
  ∀ before record after s, journal = before ++ record :: after → fold before = .ok s →
    Guarded s record

/-- **The status machine of the findings.** -/
theorem status_machine {journal : List Record} (h : Reachable journal) :
    (∃ s, fold journal = .ok s ∧ ListsOpenSet s ∧
      ∀ key ∈ s.openSet, ∃ info finding, s.keys.get? key = some info ∧
        info.finding = some finding ∧ finding.key = key) ∧
      (MovesAlongEdges journal ↔ ClosedKeysKept journal) := by
  obtain ⟨s, hs⟩ := reachable_writes h
  constructor
  · refine ⟨s, hs.fold_eq, hs.enveloped.listsOpenSet, fun key hkey => ?_⟩
    obtain ⟨status, hstatus, hactive⟩ := State.mem_openSet.1 hkey
    obtain ⟨info, hget, rfl⟩ := keyStatus_eq_some.1 hstatus
    obtain ⟨hnone, hfinding⟩ := hs.enveloped key info hget
    cases hinfo : info.finding with
    | none => exact absurd (hnone hinfo) (Status.not_closed_of_active hactive)
    | some finding => exact ⟨info, finding, hget, hinfo, hfinding finding hinfo⟩
  · have hrecord : ∀ before record after m, journal = before ++ record :: after →
        fold before = .ok m → Written m record := by
      intro before record after m hjournal hm
      subst hjournal
      obtain ⟨n, hbefore, hrest⟩ := hs.split
      cases hbefore.fold_eq.symm.trans hm
      cases hrest with
      | cons hwritten _ _ => exact hwritten
    constructor
    · intro hmoves before record after m hjournal hm
      have hwritten := hrecord before record after m hjournal hm
      obtain ⟨t, ht⟩ := hwritten.foldOne_isSome
      exact (moves_iff_guarded hwritten ht).1 (hmoves before record after m t hjournal hm ht)
    · intro hguarded before record after m t hjournal hm ht
      exact (moves_iff_guarded (hrecord before record after m hjournal hm) ht).2
        (hguarded before record after m hjournal hm)

/-! ## A ruling on a closed finding -/

def ruledTwice : List (Operation × Option ℕ) :=
  [(.ingestAudit (.obj [("digest", .str "d1"), ("findings", .arr [.obj [("file", .str "a.py"),
      ("subject", .str "s1"), ("required_paths", .arr [.str "a.py"])]])]), none),
    (.recordRuling (.arr [.str "a.py", .str "s1"]) "amend_criterion" "amended" "operator", none),
    (.recordRuling (.arr [.str "a.py", .str "s1"]) "waive" "waived" "operator", none)]

/-- The last record of a journal excludes a key that the records before it had amended. -/
def excludesAmended (key : Key) (journal : List Record) : Bool :=
  match fold journal.dropLast, journal.getLast? with
  | .ok s, some record => (s.keyStatus key = some .amended) &&
      ((foldOne s record).any fun t => t.keyStatus key = some .excluded)
  | _, _ => false

theorem ruledTwice_excludes : ∃ journal, Inputs.runInputs step [] ruledTwice = some journal ∧
    excludesAmended ("a.py", "s1") journal := by
  have hrun : (Inputs.runInputs step [] ruledTwice).any (excludesAmended ("a.py", "s1")) := by
    decide +kernel
  exact (Option.any_eq_true ..).1 hrun

/-- A waived key was amended before. -/
theorem ruling_moves_closed_key :
    ¬ ∀ journal, Reachable journal → MovesAlongEdges journal := by
  intro hall
  obtain ⟨journal, hrun, hexcludes⟩ := ruledTwice_excludes
  have hmoves := hall journal (Inputs.runs_of_runInputs hrun)
  unfold excludesAmended at hexcludes
  cases hfold : fold journal.dropLast with
  | error message => simp [hfold] at hexcludes
  | ok s =>
    cases hlast : journal.getLast? with
    | none => simp [hfold, hlast] at hexcludes
    | some record =>
      simp only [hfold, hlast, Bool.and_eq_true, decide_eq_true_eq, Option.any_eq_true]
        at hexcludes
      obtain ⟨hamended, t, ht, hexcluded⟩ := hexcludes
      have hjournal : journal = journal.dropLast ++ record :: [] :=
        (List.dropLast_append_getLast? record hlast).symm
      obtain ⟨after, hafter, hmove⟩ := hmoves _ record [] s t hjournal hfold ht _ _ hamended
      cases hafter.symm.trans hexcluded
      obtain heq | hedge := hmove
      · exact absurd heq (by decide)
      · exact absurd (hedge.active (.inl rfl)) (by decide)

theorem status_machine_ruledTwice : ∃ journal, Reachable journal ∧
    (∃ s, fold journal = .ok s ∧ ListsOpenSet s) ∧
    (MovesAlongEdges journal ↔ ClosedKeysKept journal) := by
  obtain ⟨journal, hrun, -⟩ := ruledTwice_excludes
  have hreach : Reachable journal := Inputs.runs_of_runInputs hrun
  obtain ⟨⟨s, hs, hlists, -⟩, hiff⟩ := status_machine hreach
  exact ⟨journal, hreach, ⟨s, hs, hlists⟩, hiff⟩

end HarnessLabs.PlanGraph.Convergence
