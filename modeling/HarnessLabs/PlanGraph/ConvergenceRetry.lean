import HarnessLabs.PlanGraph.ConvergencePass

/-!
# An ingest that is tried again

An ingest that crashed is called again with the same audit result. The digest is recorded only by
the last record, so the retry goes over the whole audit once more, on a state that holds a part of
its effects.

* `PriorKept` — the keys without a verdict are active before the ingest and behind the crash alike.
  The retry computes the unobserved keys from those that are active when it starts.
* `Crash` — the state behind a prefix of the records is one between two items of the audit.
* `crash_retry_iff` — **the retry shows the views of an ingest without a crash exactly** when these
  keys are kept and the second pass over every key agrees.
-/

namespace HarnessLabs.PlanGraph.Convergence

open List Option

/-! ## The observations of an audit -/

section Audit

variable (a : AuditResult) (s : State) (key : Key)

def AuditResult.verdictsOn : List Observation :=
  (a.verdicts.map Item.verdict).filterMap (·.observation? (Ingest.cellStatus a s) key)

def AuditResult.findingsOn : List Observation :=
  (a.findings.map Item.finding).filterMap (·.observation? (Ingest.cellStatus a s) key)

def AuditResult.confirmedOn : List Observation :=
  (a.confirmedGood.map Item.confirmed).filterMap (·.observation? (Ingest.cellStatus a s) key)

theorem observations_eq : a.observations s key =
    a.verdictsOn s key ++ a.findingsOn s key ++ a.confirmedOn s key := by
  rw [AuditResult.observations, AuditResult.items, filterMap_cons_none rfl,
    filterMap_append, filterMap_append]
  rfl

/-- A verdict that observes a key is about the key. -/
theorem key_of_verdict {cells : String → Option CellStatus} {v : Verdict} {o : Observation}
    (h : (Item.verdict v).observation? cells key = some o) :
    v.key = key ∧ v.kind ≠ .unobserved ∧ (o = .fixed ∨ o = .reopened ∨ o = .invalidated) := by
  change (if v.key = key then v.kind.observation? cells else none) = some o at h
  by_cases hkey : v.key = key
  · rw [if_pos hkey] at h
    refine ⟨hkey, fun hkind => ?_, ?_⟩
    · simp [hkind, VerdictKind.observation?] at h
    · have hnone := Ingest.observed?_none h
      cases o <;> simp_all [observed?]
  · simp [hkey] at h

theorem length_verdictsOn_le : (a.verdictsOn s key).length ≤ a.mentioned.count key := by
  unfold AuditResult.verdictsOn AuditResult.mentioned
  generalize Ingest.cellStatus a s = cells
  induction a.verdicts with
  | nil => exact Nat.le_refl 0
  | cons v verdicts ih =>
    rw [map_cons, filterMap_cons, flatMap_cons, count_append]
    cases hobserved : (Item.verdict v).observation? cells key with
    | none => exact Nat.le_add_left_of_le ih
    | some o =>
      obtain ⟨hkey, hkind, -⟩ := key_of_verdict key hobserved
      rw [if_neg hkind, hkey, count_singleton_self, length_cons]
      omega

theorem ordered_observations (h : a.mentioned.Nodup) :
    Ordered (a.verdictsOn s key) (a.findingsOn s key) (a.confirmedOn s key) where
  single := (length_verdictsOn_le a s key).trans (nodup_iff_count_le_one.1 h key)
  verdicts := by
    intro o ho
    obtain ⟨item, hitem, hobserved⟩ := mem_filterMap.1 ho
    obtain ⟨v, -, rfl⟩ := mem_map.1 hitem
    exact (key_of_verdict key hobserved).2.2
  emitted := by
    intro o ho
    obtain ⟨item, hitem, hobserved⟩ := mem_filterMap.1 ho
    obtain ⟨f, -, rfl⟩ := mem_map.1 hitem
    by_cases hkey : f.key = key <;> simp_all [Item.observation?]
  confirmed := by
    intro o ho
    obtain ⟨item, hitem, hobserved⟩ := mem_filterMap.1 ho
    obtain ⟨e, -, rfl⟩ := mem_map.1 hitem
    by_cases hkey : e.key = key <;> simp_all [Item.observation?]

/-- Only known keys have verdicts. -/
theorem verdictsOn_eq_nil (hknown : ∀ v ∈ a.verdicts, (s.keys.get? v.key).isSome)
    (h : s.track key = none) : a.verdictsOn s key = [] := by
  rw [AuditResult.verdictsOn, filterMap_eq_nil_iff]
  intro item hitem
  obtain ⟨v, hv, rfl⟩ := mem_map.1 hitem
  cases hobserved : (Item.verdict v).observation? (Ingest.cellStatus a s) key with
  | none => rfl
  | some o =>
    have hsome := hknown v hv
    rw [(key_of_verdict key hobserved).1] at hsome
    rw [State.track, map_eq_none_iff] at h
    simp [h] at hsome

end Audit

/-! ## Fixed keys -/

/-- The history of a fixed key ends with the fix, where it counts. -/
def Ended (s : State) : Prop :=
  s.keys.All fun _ info => info.status = .fixed → info.pattern.getLast? = some .fixed

variable {s : State} {key : Key} {a : AuditResult}

theorem Ended.setInfo (h : Ended s) (key : Key) {info : KeyInfo}
    (hinfo : info.status = .fixed → info.pattern.getLast? = some .fixed) :
    Ended (s.setInfo key info) := Dict.All.set h hinfo

theorem ended_foldOne {t : State} {record : Record} (hwritten : Written s record)
    (hfold : foldOne s record = some t) (h : Ended s) : Ended t := by
  cases record with
  | campaignOpened | captureCoverage | targetAmended | auditIngested =>
    cases hfold
    exact h
  | findingOpened digest finding =>
    cases hfold
    exact h.setInfo finding.key (by simp)
  | findingFixClaimed key =>
    cases hfold
    exact h.setInfo key (by simp)
  | findingFixed key =>
    obtain ⟨info, -, rfl⟩ := map_eq_some_iff.1 hfold
    refine h.setInfo key fun _ => ?_
    rw [KeyInfo.pattern, history_move, pattern_append]
    exact List.getLast?_concat
  | findingInvalidated key =>
    obtain ⟨info, -, rfl⟩ := map_eq_some_iff.1 hfold
    exact h.setInfo key (by simp)
  | findingReopened key =>
    obtain ⟨info, -, rfl⟩ := map_eq_some_iff.1 hfold
    exact h.setInfo key fun hfixed => by simp at hfixed
  | baseRebase keys note =>
    obtain ⟨e, he, rfl⟩ := map_eq_some_iff.1 hfold
    intro key info hget hfixed
    rw [show e.get? key = _ from get?_demoteAll he hwritten.1 key] at hget
    by_cases hkey : key ∈ keys
    · rw [if_pos hkey, map_eq_some_iff] at hget
      obtain ⟨before, -, rfl⟩ := hget
      simp at hfixed
    · rw [if_neg hkey] at hget
      exact h key info hget hfixed
  | findingRuled key disposition =>
    obtain ⟨info, hget, rfl⟩ := map_eq_some_iff.1 hfold
    refine h.setInfo key fun hfixed => ?_
    rw [KeyInfo.pattern, history_move, pattern_append]
    cases disposition with
    | waive | amendCriterion => cases hfixed
    | requireRepair =>
      simp only [Record.mark?, toList_none, append_nil]
      exact h key info hget hfixed
  | confirmedGood key assertion =>
    by_cases hassertion : assertion.isSome
    · rw [foldOne, if_pos hassertion] at hfold
      cases hfold
      exact h.setInfo key (by simp)
    · rw [foldOne, if_neg hassertion] at hfold
      cases hfold
      exact h

theorem Writes.ended {journal : List Record} (h : Writes .initial journal s) :
    Ended s :=
  h.invariant (fun _ _ _ => ended_foldOne) (Dict.All.empty _)

theorem Ended.getLast? (h : Ended s) {t : Track} (ht : s.track key = some t)
    (hfixed : t.status = .fixed) :
    t.pattern.getLast? = some .fixed := by
  obtain ⟨info, hget, rfl⟩ := map_eq_some_iff.1 ht
  exact h key info hget hfixed

/-! ## Views -/

/-- The derived views of two ledgers agree. -/
structure SameViews (s t : State) : Prop where
  status : ∀ key, s.keyStatus key = t.keyStatus key
  openSet : s.openSet = t.openSet
  exclusionSet : s.exclusionSet = t.exclusionSet
  stalledKeys : s.stalledKeys = t.stalledKeys
  coverage : s.coverageState = t.coverageState
  unobserved : s.lastAuditUnobserved = t.lastAuditUnobserved
  success : s.success = t.success

theorem SameViews.refl (s : State) : SameViews s s := ⟨fun _ => rfl, rfl, rfl, rfl, rfl, rfl, rfl⟩

theorem mem_keysWhere_track {p : Track → Bool} :
    key ∈ s.keysWhere (fun info => p info.track) ↔ (s.track key).any p = true := by
  rw [State.mem_keysWhere, State.track, Option.any_map, Option.any_eq_true]

/-- **The views of keys are read off their tracks.** -/
theorem sameViews_iff {t : State} : SameViews s t ↔
    (∀ key, SameTrack (s.track key) (t.track key)) ∧ s.captureCells = t.captureCells ∧
      s.lastAuditUnobserved = t.lastAuditUnobserved := by
  constructor
  · intro h
    refine ⟨fun key => ⟨?_, ?_⟩, h.coverage, h.unobserved⟩
    · rw [← keyStatus_eq, ← keyStatus_eq, h.status]
    · rw [Bool.eq_iff_iff, ← mem_keysWhere_track, ← mem_keysWhere_track]
      exact Finset.ext_iff.1 h.stalledKeys key
  · intro ⟨htrack, hcells, hunobserved⟩
    have hstatus : ∀ key, s.keyStatus key = t.keyStatus key := by
      intro key
      rw [keyStatus_eq, keyStatus_eq, (htrack key).status]
    have hwhere : ∀ p : Status → Bool,
        s.keysWhere (fun info => p info.status) = t.keysWhere (fun info => p info.status) := by
      intro p
      ext key
      have hany : ∀ u : State, key ∈ u.keysWhere (fun info => p info.status) ↔
          (u.keyStatus key).any p = true := by
        intro u
        rw [State.mem_keysWhere, State.keyStatus, Option.any_map, Option.any_eq_true]
      rw [hany, hany, hstatus]
    refine ⟨hstatus, hwhere (·.active), hwhere (· = .excluded), ?_, hcells, hunobserved, ?_⟩
    · ext key
      exact mem_keysWhere_track.trans ((Bool.eq_iff_iff.1 (htrack key).stalled).trans
        mem_keysWhere_track.symm)
    · rw [State.success, State.success, hunobserved]

/-! ## Unobserved keys -/

instance : Std.Total Key.le where
  total a b := by
    unfold Key.le
    obtain hlt | heq | hgt := lt_trichotomy a.1 b.1
    · exact .inl (.inl hlt)
    · obtain hle | hle := le_total a.2 b.2
      · exact .inl (.inr ⟨heq, hle⟩)
      · exact .inr (.inr ⟨heq.symm, hle⟩)
    · exact .inr (.inl hgt)

instance : IsTrans Key Key.le where
  trans a b c := by
    intro hab hbc
    obtain hab | ⟨hab, hab'⟩ := hab
    · obtain hbc | ⟨hbc, -⟩ := hbc
      · exact .inl (hab.trans hbc)
      · exact .inl (hbc ▸ hab)
    · obtain hbc | ⟨hbc, hbc'⟩ := hbc
      · exact .inl (hab ▸ hbc)
      · exact .inr ⟨hab.trans hbc, hab'.trans hbc'⟩

theorem Key.le_antisymm {a b : Key} (hab : a.le b) (hba : b.le a) : a = b := by
  obtain hab | ⟨hab, hab'⟩ := hab
  · obtain hba | ⟨hba, -⟩ := hba
    · exact absurd hba hab.asymm
    · exact absurd hba.symm hab.ne
  · obtain hba | ⟨-, hba'⟩ := hba
    · exact absurd hab.symm hba.ne
    · exact Prod.ext hab (Std.le_antisymm hab' hba')

/-- Sorted lists of the same keys are one list. -/
theorem sortKeys_eq_iff {keys others : List Key} (hkeys : keys.Nodup) (hothers : others.Nodup) :
    sortKeys keys = sortKeys others ↔ ∀ key, key ∈ keys ↔ key ∈ others := by
  constructor
  · intro h key
    rw [← mem_sortKeys, h, mem_sortKeys]
  · intro h
    have hperm : (sortKeys keys).Perm (sortKeys others) :=
      (perm_insertionSort _ keys).trans
        (((perm_ext_iff_of_nodup hkeys hothers).2 h).trans
          (perm_insertionSort _ others).symm)
    exact hperm.eq_of_pairwise (fun _ _ _ _ => Key.le_antisymm)
      (pairwise_insertionSort _ _) (pairwise_insertionSort _ _)

theorem mem_unobserved :
    key ∈ s.activeKeys.filter (· ∉ a.mentioned) ↔ key ∈ s.openSet ∧ key ∉ a.mentioned := by
  rw [mem_filter, decide_eq_true_eq]
  exact and_congr_left fun _ => mem_toFinset.symm

/-- The keys without a verdict are active before the ingest and behind the crash alike. -/
def PriorKept (a : AuditResult) (s crashed : State) : Prop :=
  ∀ key, key ∉ a.mentioned → (key ∈ s.openSet ↔ key ∈ crashed.openSet)

theorem unobserved_eq_iff {crashed : State} :
    sortKeys (crashed.activeKeys.filter (· ∉ a.mentioned)) =
        sortKeys (s.activeKeys.filter (· ∉ a.mentioned)) ↔ PriorKept a s crashed := by
  have hnodup : ∀ t : State, (t.activeKeys.filter (· ∉ a.mentioned)).Nodup := fun t =>
    (t.keys.nodup_map_filter_items fun info => info.status.active).filter _
  rw [sortKeys_eq_iff (hnodup crashed) (hnodup s)]
  refine forall_congr' fun key => ?_
  rw [mem_unobserved, mem_unobserved]
  by_cases hmentioned : key ∈ a.mentioned
  · simp [hmentioned]
  · simp only [hmentioned, not_false_eq_true, and_true, forall_const]
    exact Iff.comm

/-! ## The retry -/

/-- The state behind the last record of an ingest. -/
def State.ingested (s : State) (a : AuditResult) : State :=
  { (s.ingestLoops a).state with
    ingestedDigests := (s.ingestLoops a).state.ingestedDigests ++ [a.digest]
    lastAuditUnobserved := some (sortKeys (s.activeKeys.filter (· ∉ a.mentioned))) }

/-- An ingest of a digest that is not folded yet, with verdicts on known keys. -/
theorem State.ingest_fresh (hdigest : a.digest ∉ s.ingestedDigests)
    (hknown : ∀ v ∈ a.verdicts, (s.keys.get? v.key).isSome) :
    ∃ summary, s.ingest a = .ok ((s.ingestLoops a).appended ++ [.auditIngested a.digest
      (sortKeys (s.activeKeys.filter (· ∉ a.mentioned)))], summary) := by
  have hfind : (a.verdicts.find? fun v => (s.keys.get? v.key).isNone) = none := by
    rw [List.find?_eq_none]
    intro v hv
    simp [isSome_iff_ne_none.1 (hknown v hv)]
  rw [← mentioned_ingest s a]
  exact ⟨_, by rw [State.ingest, if_neg hdigest, hfind]⟩

theorem State.ingest_writes_ingested (s : State) (a : AuditResult) :
    Writes s ((s.ingestLoops a).appended ++ [.auditIngested a.digest
      (sortKeys (s.activeKeys.filter (· ∉ a.mentioned)))]) (s.ingested a) :=
  (s.ingestLoops_agrees a).snoc trivial rfl

theorem track_ingested (s : State) (a : AuditResult) (key : Key) :
    (s.ingested a).track key = observeAll (a.observations s key) (s.track key) :=
  track_ingest s a key

theorem observed?_isSome {t : Option Track} (h : t.isSome) (o : Observation) :
    (observed? t o).isSome := by
  obtain ⟨t, rfl⟩ := isSome_iff_exists.1 h
  rfl

theorem observeAll_isSome {t : Option Track} (h : t.isSome) (observations : List Observation) :
    (observeAll observations t).isSome := by
  induction observations generalizing t with
  | nil => exact h
  | cons o rest ih => exact ih (observed?_isSome h o)

/-- The state at a crash, between the items before it and those behind it. -/
structure Crash (a : AuditResult) (s crashed : State) : Prop where
  digests : crashed.ingestedDigests = s.ingestedDigests
  cells : Ingest.cellStatus a crashed = Ingest.cellStatus a s
  coverage : crashed.captureCells.update a.captureCoverage =
    s.captureCells.update a.captureCoverage
  track : ∀ key, ∃ front back, front ++ back = a.observations s key ∧
    crashed.track key = observeAll front (s.track key)

theorem exists_crash (s : State) (a : AuditResult) {k : ℕ}
    (hk : k ≤ (s.ingestLoops a).appended.length) :
    ∃ crashed, Writes s ((s.ingestLoops a).appended.take k) crashed ∧ Crash a s crashed := by
  obtain ⟨front, back, hitems, happended⟩ := exists_items_of_crash s a hk
  have hwrites : Writes s _ _ := agrees_foldl s a front
  rw [happended] at hwrites
  refine ⟨_, hwrites, Ingest.ingestedDigests_foldl front, Ingest.cellStatus_foldl front,
    Ingest.update_captureCells_foldl (i := Ingest.start s a) front, fun key => ?_⟩
  refine ⟨_, back.filterMap (·.observation? (Ingest.cellStatus a s) key), ?_,
    Ingest.track_foldl front key⟩
  rw [AuditResult.observations, hitems, filterMap_append]
  rfl

namespace Crash

variable {a : AuditResult} {s crashed : State} (h : Crash a s crashed)

include h

theorem observations (key : Key) : a.observations crashed key = a.observations s key := by
  rw [AuditResult.observations, h.cells]
  rfl

theorem known (hknown : ∀ v ∈ a.verdicts, (s.keys.get? v.key).isSome) :
    ∀ v ∈ a.verdicts, (crashed.keys.get? v.key).isSome := by
  intro v hv
  obtain ⟨front, back, -, htrack⟩ := h.track v.key
  have hsome : (s.track v.key).isSome := by
    rw [State.track, isSome_map]
    exact hknown v hv
  have hcrashed := observeAll_isSome hsome front
  rwa [← htrack, State.track, isSome_map] at hcrashed

/-- **The views of the retry, key by key.** -/
theorem sameViews_iff : SameViews (crashed.ingested a) (s.ingested a) ↔
    PriorKept a s crashed ∧
      ∀ key, SecondPass (a.observations s key) (s.track key) (crashed.track key) := by
  have hcells : (crashed.ingested a).captureCells = (s.ingested a).captureCells := by
    change (crashed.ingestLoops a).state.captureCells = (s.ingestLoops a).state.captureCells
    rw [captureCells_ingest, captureCells_ingest, h.coverage]
  have hunobserved : (crashed.ingested a).lastAuditUnobserved =
      (s.ingested a).lastAuditUnobserved ↔ PriorKept a s crashed :=
    some_inj.trans unobserved_eq_iff
  rw [Convergence.sameViews_iff, hunobserved]
  simp only [hcells, true_and, track_ingested, h.observations]
  exact and_comm

theorem secondPass_iff (hwritten : Ended s)
    (hknown : ∀ v ∈ a.verdicts, (s.keys.get? v.key).isSome) (hunique : a.mentioned.Nodup)
    (key : Key) :
    SecondPass (a.observations s key) (s.track key) (crashed.track key) ↔
      ¬ Conflict (a.observations s key) (s.track key) (crashed.track key) := by
  obtain ⟨front, back, hsplit, htrack⟩ := h.track key
  rw [htrack, observations_eq]
  rw [observations_eq] at hsplit
  exact (ordered_observations a s key hunique).secondPass_iff hsplit
    (verdictsOn_eq_nil a s key hknown) fun t ht => hwritten.getLast? ht

end Crash

theorem ingestAudit_eq {journal : List Record} {auditResult : Json}
    (hvalid : validateAudit auditResult = .ok a) (hfold : fold journal = .ok s) :
    ingestAudit journal auditResult = s.ingest a := by
  rw [ingestAudit, hvalid, hfold]
  rfl

/-- What a crash behind `n` records, a retry and an ingest without the crash lead to. -/
structure Retry (journal records : List Record) (auditResult : Json) (n : ℕ)
    (s crashed retried full : State) : Prop where
  before : fold journal = .ok s
  crash : fold (journal ++ records.take n) = .ok crashed
  retry : ∃ again summary, ingestAudit (journal ++ records.take n) auditResult =
      .ok (again, summary) ∧ fold (journal ++ records.take n ++ again) = .ok retried
  full : fold (journal ++ records) = .ok full

/-- **A retry shows the views of an ingest without a crash exactly** when the crash fell behind the
last record, or it left the keys without a verdict as active as they were and the second pass over
every key agrees. With one verdict on every key at most, the second pass agrees where there is no
conflict. -/
theorem crash_retry_iff {journal : List Record} (h : Reachable journal) {auditResult : Json}
    {a : AuditResult} (hvalid : validateAudit auditResult = .ok a) {records : List Record}
    {summary : Summary} (hingest : ingestAudit journal auditResult = .ok (records, summary))
    (n : ℕ) :
    ∃ s crashed retried full, Retry journal records auditResult n s crashed retried full ∧
      (SameViews retried full ↔ records.length ≤ n ∨ PriorKept a s crashed ∧
        ∀ key, SecondPass (a.observations s key) (s.track key) (crashed.track key)) ∧
      (a.mentioned.Nodup → (SameViews retried full ↔ records.length ≤ n ∨ PriorKept a s crashed ∧
        ∀ key, ¬ Conflict (a.observations s key) (s.track key) (crashed.track key))) := by
  obtain ⟨s, hs⟩ := reachable_writes h
  rw [ingestAudit_eq hvalid hs.fold_eq] at hingest
  obtain ⟨hdigest, rfl⟩ | ⟨hdigest, hknown, hrecords⟩ := State.ingest_eq_ok hingest
  · -- The digest is folded already: neither ingest appends anything.
    have hfold : fold (journal ++ []) = .ok s := by rw [append_nil, hs.fold_eq]
    have hnothing : ∀ P : Prop, SameViews s s ↔ ([] : List Record).length ≤ n ∨ P :=
      fun _ => iff_of_true (.refl s) (.inl (Nat.zero_le n))
    refine ⟨s, s, s, s, ⟨hs.fold_eq, ?_, ⟨[], summary, ?_, ?_⟩, hfold⟩, hnothing _,
      fun _ => hnothing _⟩
    · rwa [take_nil]
    · rw [take_nil, ingestAudit_eq hvalid hfold, hingest]
    · rwa [take_nil, append_nil]
  rw [mentioned_ingest] at hrecords
  have hfull : Writes .initial (journal ++ records) (s.ingested a) :=
    hs.append (hrecords ▸ s.ingest_writes_ingested a)
  by_cases hn : records.length ≤ n
  · -- The digest is the last record, so the retry finds it.
    have hnothing : ∀ P : Prop, SameViews (s.ingested a) (s.ingested a) ↔
        records.length ≤ n ∨ P := fun _ => iff_of_true (.refl _) (.inl hn)
    have hagain : (s.ingested a).ingest a =
        .ok ([], { digest := a.digest, idempotent := true }) :=
      if_pos (mem_append_right _ (mem_singleton_self _))
    refine ⟨s, s.ingested a, s.ingested a, s.ingested a,
      ⟨hs.fold_eq, ?_, ⟨[], { digest := a.digest, idempotent := true }, ?_, ?_⟩,
        hfull.fold_eq⟩, hnothing _, fun _ => hnothing _⟩
    · rw [take_of_length_le hn, hfull.fold_eq]
    · rw [take_of_length_le hn, ingestAudit_eq hvalid hfull.fold_eq, hagain]
    · rw [take_of_length_le hn, append_nil, hfull.fold_eq]
  · -- The crash fell into the loops.
    have hloops : n ≤ (s.ingestLoops a).appended.length := by
      rw [hrecords, length_append, length_singleton] at hn
      omega
    have htake : records.take n = (s.ingestLoops a).appended.take n := by
      rw [hrecords, take_append_of_le_length hloops]
    obtain ⟨crashed, hwrites, hcrash⟩ := exists_crash s a hloops
    have hcrashed : Writes .initial (journal ++ records.take n) crashed :=
      hs.append (htake ▸ hwrites)
    obtain ⟨summary', hagain⟩ := State.ingest_fresh (s := crashed) (a := a)
      (by rwa [hcrash.digests]) (hcrash.known hknown)
    have hviews := hcrash.sameViews_iff
    refine ⟨s, crashed, crashed.ingested a, s.ingested a, ⟨hs.fold_eq, hcrashed.fold_eq,
      ⟨_, summary', by rw [ingestAudit_eq hvalid hcrashed.fold_eq, hagain],
        (hcrashed.append (crashed.ingest_writes_ingested a)).fold_eq⟩, hfull.fold_eq⟩, ?_, ?_⟩
    · rw [hviews, or_iff_right hn]
    · intro hunique
      rw [hviews, or_iff_right hn]
      exact and_congr_right fun _ => forall_congr' fun key =>
        hcrash.secondPass_iff hs.ended hknown hunique key

/-! ## A finding that the crash left behind -/

def oneFinding : Json :=
  .obj [("digest", .str "d1"), ("findings", .arr [.obj [("file", .str "a.py"),
    ("subject", .str "s1"), ("required_paths", .arr [.str "a.py"])]])]

/-- A retry behind the first record is not a success, where the ingest without the crash is. -/
def retryFails (auditResult : Json) : Bool :=
  match ingestAudit [] auditResult with
  | .ok (records, _) =>
    match ingestAudit ([] ++ records.take 1) auditResult with
    | .ok (again, _) =>
      match fold ([] ++ records.take 1 ++ again), fold ([] ++ records) with
      | .ok retried, .ok full => full.success && !retried.success
      | _, _ => false
    | .error _ => false
  | .error _ => false

/-- The finding that the crash left open counts as unobserved in the retry. -/
theorem retry_loses_success :
    ¬ ∀ journal auditResult records summary n s crashed retried full, Reachable journal →
      ingestAudit journal auditResult = .ok (records, summary) →
      Retry journal records auditResult n s crashed retried full → SameViews retried full := by
  intro hall
  have hfails : retryFails oneFinding = true := by decide +kernel
  unfold retryFails at hfails
  split at hfails
  · rename_i records summary hrecords
    split at hfails
    · rename_i again summary' hagain
      split at hfails
      · rename_i retried full hretried hfull
        obtain ⟨s, hs⟩ := reachable_writes (.refl [])
        have hop : (Operation.ingestAudit oneFinding).records [] = .ok records := by
          rw [Operation.records, hrecords]
          rfl
        obtain ⟨t, ht⟩ := Operation.records_writes hs.fold_eq hop
        obtain ⟨crashed, hcrashed⟩ := ht.take 1
        have hviews := hall [] oneFinding records summary 1 s crashed retried full (.refl [])
          hrecords ⟨hs.fold_eq, (hs.append hcrashed).fold_eq, ⟨again, summary', hagain, hretried⟩,
            hfull⟩
        rw [hviews.success, Bool.and_not_self] at hfails
        cases hfails
      · cases hfails
    · cases hfails
  · cases hfails

theorem crash_retry_oneFinding : ∃ a records summary s crashed retried full,
    validateAudit oneFinding = .ok a ∧ ingestAudit [] oneFinding = .ok (records, summary) ∧
      Retry [] records oneFinding 1 s crashed retried full ∧
      (SameViews retried full ↔ records.length ≤ 1 ∨ PriorKept a s crashed ∧
        ∀ key, ¬ Conflict (a.observations s key) (s.track key) (crashed.track key)) := by
  have hvalid : (validateAudit oneFinding).toOption.any (·.verdicts = []) = true := by
    decide +kernel
  have hingest : (ingestAudit [] oneFinding).toOption.isSome = true := by decide +kernel
  cases ha : validateAudit oneFinding with
  | error message => simp [ha, Except.toOption] at hvalid
  | ok a =>
    cases hrecords : ingestAudit [] oneFinding with
    | error message => simp [hrecords, Except.toOption] at hingest
    | ok result =>
      have hverdicts : a.verdicts = [] := by simpa [ha, Except.toOption] using hvalid
      obtain ⟨s, crashed, retried, full, hretry, -, hiff⟩ :=
        @crash_retry_iff [] (.refl []) oneFinding a ha result.1 result.2 hrecords 1
      exact ⟨a, result.1, result.2, s, crashed, retried, full, rfl, rfl, hretry,
        hiff (by simp [AuditResult.mentioned, hverdicts])⟩

end HarnessLabs.PlanGraph.Convergence
