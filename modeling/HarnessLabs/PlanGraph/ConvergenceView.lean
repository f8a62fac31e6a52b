import HarnessLabs.Lib.Behaviour
import HarnessLabs.PlanGraph.ConvergenceSummary

/-!
# The ledger as its tracks

What the operations of a ledger decide on, and what `stalled_keys` shows, is read off a small part
of the state: the digests that were ingested, the capture cells and the track of every key.

* `View`, `Operation.effect` — that part, and what a completed operation makes of it.
* `Operation.refines_effect` — **an operation moves the view by its effect**; one that raises leaves
  it.
* `indistinguishable_iff` — two ledgers show the same stalled keys behind all further operations
  exactly when their views do.
-/

namespace HarnessLabs.PlanGraph.Convergence

open Audit (bind_eq_ok)
open Behaviour (Indistinguishable)
open Controller (isBlank)

/-! ## Completed operations -/

/-- The journal behind a completed operation; one that raises appends nothing. -/
def after (journal : List Record) (op : Operation) : List Record :=
  match op.records journal with
  | .ok records => journal ++ records
  | .error _ => journal

/-- `stalled_keys`, on a ledger. -/
def stalledKeys (journal : List Record) : Except String (Finset Key) :=
  (fold journal).map (·.stalledKeys)

/-! ## Views -/

namespace Track

/-- A claim is refused for a closed key. -/
def claim (t : Track) : Track :=
  if t.status.active then { t with status := .fixClaimed, demoted := false } else t

def rule (d : Disposition) (t : Track) : Track := { t with status := d.rule t.status }

def rebase (t : Track) : Track :=
  if t.status = .fixed then { t with status := .fixClaimed, demoted := true } else t

end Track

structure View where
  digests : List String
  cells : Dict String CellStatus
  track : Key → Option Track

def State.view (s : State) : View := ⟨s.ingestedDigests, s.captureCells, s.track⟩

/-- What an audit result observes of a key, where cells have the status of earlier audits. -/
def AuditResult.observed (a : AuditResult) (cells : Dict String CellStatus) (key : Key) :
    List Observation :=
  a.items.filterMap
    (·.observation? (fun cell => (a.captureCoverage.get? cell).or (cells.get? cell)) key)

namespace View

def update (v : View) (key : Key) (f : Track → Track) : View :=
  { v with track := fun other => if other = key then (v.track other).map f else v.track other }

def rebase (v : View) : View := { v with track := fun key => (v.track key).map Track.rebase }

/-- An ingest of a digest that is there already, or with a verdict on an unknown key, is none. -/
def ingest (v : View) (a : AuditResult) : View :=
  if a.digest ∈ v.digests ∨ ∃ w ∈ a.verdicts, v.track w.key = none then v
  else
    { digests := v.digests ++ [a.digest]
      cells := v.cells.update a.captureCoverage
      track := fun key => observeAll (a.observed v.cells key) (v.track key) }

/-- The keys that show as stalled. -/
def stalled (v : View) (key : Key) : Bool := (v.track key).any (·.stalled)

end View

/-- What a completed operation makes of a view. -/
def Operation.effect (v : View) : Operation → View
  | .openCampaign _ | .recordTargetAmendment _ _ => v
  | .ingestAudit auditResult =>
    match validateAudit auditResult with
    | .ok a => v.ingest a
    | .error _ => v
  | .recordFixClaimed key _ _ =>
    match validateKey key "record_fix_claimed" with
    | .ok key => v.update key Track.claim
    | .error _ => v
  | .recordRuling key disposition statement _ =>
    match validateKey key "record_ruling", disposition? disposition with
    | .ok key, some d => if isBlank statement then v else v.update key (Track.rule d)
    | _, _ => v
  | .recordBaseRebase _ => v.rebase

variable {v : View} {key : Key} {s : State} {journal : List Record}

theorem View.update_of_none (h : v.track key = none) (f : Track → Track) :
    v.update key f = v := by
  rw [View.update]
  congr 1
  funext other
  by_cases hkey : other = key
  · simp [hkey, h]
  · simp [hkey]

theorem View.update_of_fixpoint {t : Track} (h : v.track key = some t) {f : Track → Track}
    (hf : f t = t) : v.update key f = v := by
  rw [View.update]
  congr 1
  funext other
  by_cases hkey : other = key
  · simp [hkey, h, hf]
  · simp [hkey]

/-! ## Records and views -/

theorem view_setInfo {info moved : KeyInfo} {f : Track → Track} (hget : s.keys.get? key = some info)
    (hmoved : moved.track = f info.track) :
    (s.setInfo key moved).view = s.view.update key f := by
  unfold State.view View.update
  congr 1
  funext other
  rw [track_setInfo]
  by_cases hkey : other = key
  · have htrack : s.track key = some info.track := by rw [State.track, hget, Option.map_some]
    rw [if_pos hkey, if_pos hkey, hkey]
    simp only [htrack, Option.map_some, hmoved]
  · rw [if_neg hkey, if_neg hkey]

theorem track_eq_none_iff : s.track key = none ↔ s.keys.get? key = none :=
  Option.map_eq_none_iff

theorem track_demote (info : KeyInfo) (record : Record) (hmark : record.mark? = none) :
    (info.demote record).track = { info.track with status := .fixClaimed, demoted := true } := by
  simp [KeyInfo.demote, KeyInfo.track, KeyInfo.pattern, hmark]

theorem view_rebase {t : State} {note : Option String}
    (h : foldOne s (.baseRebase (sortKeys s.fixedKeys) note) = some t) :
    t.view = s.view.rebase := by
  obtain ⟨keys, hkeys, rfl⟩ := Option.map_eq_some_iff.1 h
  have hnodup : (sortKeys s.fixedKeys).Nodup :=
    nodup_sortKeys (s.keys.nodup_map_filter_items fun info => info.status = .fixed)
  unfold State.view View.rebase
  congr 1
  funext key
  unfold State.track
  rw [get?_demoteAll hkeys hnodup key]
  simp only [mem_sortKeys]
  cases hget : s.keys.get? key with
  | none => simp
  | some info =>
    have hmem : key ∈ s.fixedKeys ↔ info.status = .fixed := by
      rw [State.mem_fixedKeys]
      simp [hget]
    by_cases hfixed : info.status = .fixed
    · have hrebase : info.track.rebase =
          { info.track with status := .fixClaimed, demoted := true } := if_pos hfixed
      rw [if_pos (hmem.2 hfixed)]
      simp only [Option.map_some, hrebase]
      rw [track_demote info _ rfl]
    · have hrebase : info.track.rebase = info.track := if_neg hfixed
      rw [if_neg (mt hmem.1 hfixed)]
      simp only [Option.map_some, hrebase]

theorem view_ingested (s : State) (a : AuditResult) : (s.ingested a).view =
    { digests := s.ingestedDigests ++ [a.digest]
      cells := s.captureCells.update a.captureCoverage
      track := fun key => observeAll (a.observed s.captureCells key) (s.track key) } := by
  have hdigests : (s.ingestLoops a).state.ingestedDigests = s.ingestedDigests := by
    rw [ingestLoops_eq, Ingest.ingestedDigests_foldl]
    rfl
  have htrack : (s.ingested a).track =
      fun key => observeAll (a.observed s.captureCells key) (s.track key) :=
    funext fun key => track_ingested s a key
  rw [State.view, htrack, State.ingested, hdigests]
  congr 1
  exact captureCells_ingest s a

/-! ## Operations and effects -/

/-- An operation that writes, or one that raises and whose effect is none. -/
theorem after_refines (hs : Writes .initial journal s) {op : Operation}
    (hok : ∀ records, op.records journal = .ok records → ∃ t, Writes s records t ∧ t.view = v)
    (herror : ∀ message, op.records journal = .error message → v = s.view) :
    ∃ t, Writes .initial (after journal op) t ∧ t.view = v := by
  unfold after
  cases h : op.records journal with
  | ok records =>
    obtain ⟨t, ht, hview⟩ := hok records h
    exact ⟨t, hs.append ht, hview⟩
  | error message => exact ⟨s, hs, (herror message h).symm⟩

section Operations

variable {journal : List Record} {s : State}

/-- What an ingest that does not raise writes. -/
theorem State.ingest_view {a : AuditResult} {records : List Record} {summary : Summary}
    (h : s.ingest a = .ok (records, summary)) :
    ∃ t, Writes s records t ∧ t.view = s.view.ingest a := by
  obtain ⟨hdigest, hnothing⟩ | ⟨hdigest, hknown, hresult⟩ := State.ingest_eq_ok h
  · exact ⟨s, hnothing ▸ .nil s, (if_pos (.inl hdigest)).symm⟩
  · have hnew : ¬ (a.digest ∈ s.view.digests ∨
        ∃ w ∈ a.verdicts, s.view.track w.key = none) := by
      rintro (hin | ⟨w, hw, hnone⟩)
      · exact hdigest hin
      · have hsome := hknown w hw
        rw [track_eq_none_iff.1 hnone] at hsome
        exact absurd hsome (by simp)
    rw [mentioned_ingest] at hresult
    exact ⟨s.ingested a, hresult ▸ s.ingest_writes_ingested a,
      (view_ingested s a).trans (if_neg hnew).symm⟩

theorem ingest_refines (hs : Writes .initial journal s) (auditResult : Json) :
    ∃ t, Writes .initial (after journal (.ingestAudit auditResult)) t ∧
      t.view = (Operation.ingestAudit auditResult).effect s.view := by
  cases hvalid : validateAudit auditResult with
  | error message =>
    have hraises : (Operation.ingestAudit auditResult).records journal = .error message := by
      rw [Operation.records, ingestAudit, hvalid]
      rfl
    rw [Operation.effect, hvalid]
    exact after_refines hs (fun records h => by simp [hraises] at h) fun _ _ => rfl
  | ok a =>
    have hrecords : (Operation.ingestAudit auditResult).records journal =
        (s.ingest a).map Prod.fst := by
      rw [Operation.records, ingestAudit_eq hvalid hs.fold_eq]
    rw [Operation.effect, hvalid]
    refine after_refines hs (fun records h => ?_) fun message h => ?_
    · rw [hrecords] at h
      cases hingest : s.ingest a with
      | error message => simp [hingest, Except.map] at h
      | ok result =>
        obtain rfl : result.1 = records := by simpa [hingest, Except.map] using h
        exact State.ingest_view hingest
    · -- An ingest raises on a verdict about an unknown key only.
      refine if_pos ?_
      by_contra hnew
      rw [not_or, not_exists] at hnew
      obtain ⟨summary, hingest⟩ := State.ingest_fresh (s := s) (a := a) hnew.1 fun w hw => by
        have hsome := fun hnone => hnew.2 w ⟨hw, track_eq_none_iff.2 hnone⟩
        exact Option.isSome_iff_ne_none.2 hsome
      rw [hrecords, hingest] at h
      cases h

theorem claim_refines (hs : Writes .initial journal s) (key : Json) (source : String)
    (roundId : Option String) :
    ∃ t, Writes .initial (after journal (.recordFixClaimed key source roundId)) t ∧
      t.view = (Operation.recordFixClaimed key source roundId).effect s.view := by
  cases hkey : validateKey key "record_fix_claimed" with
  | error message =>
    have hraises : (Operation.recordFixClaimed key source roundId).records journal =
        .error message := by
      rw [Operation.records, recordFixClaimed, hkey]
      rfl
    rw [Operation.effect, hkey]
    exact after_refines hs (fun records h => by simp [hraises] at h) fun _ _ => rfl
  | ok k =>
    rw [Operation.effect, hkey]
    cases hget : s.keys.get? k with
    | none =>
      have hraises : (Operation.recordFixClaimed key source roundId).records journal =
          .error ("cannot claim a fix for unknown key " ++ keyText k) := by
        simp only [Operation.records, recordFixClaimed, hkey, hs.fold_eq, bind, Except.bind, hget]
        rfl
      exact after_refines hs (fun records h => by simp [hraises] at h)
        fun _ _ => View.update_of_none (track_eq_none_iff.2 hget) _
    | some info =>
      have htrack : s.view.track k = some info.track := by
        rw [show s.view.track k = s.track k from rfl, State.track, hget, Option.map_some]
      by_cases hactive : info.status.active
      · have hwrites : (Operation.recordFixClaimed key source roundId).records journal =
            .ok [.findingFixClaimed k source roundId] := by
          simp only [Operation.records, recordFixClaimed, hkey, hs.fold_eq, bind, Except.bind,
            hget, if_pos hactive]
          rfl
        refine after_refines hs (fun records h => ?_) fun message h => by simp [hwrites] at h
        cases hwrites.symm.trans h
        refine ⟨_, .single ⟨info, hget, hactive⟩ rfl, view_setInfo hget ?_⟩
        rw [Track.claim, if_pos (show info.track.status.active from hactive), hget]
        simp [KeyInfo.track, KeyInfo.pattern, Record.mark?]
      · have hraises : (Operation.recordFixClaimed key source roundId).records journal =
            .error ("cannot claim a fix for key " ++ keyText k ++ "; it is already '" ++
              info.status.text ++ "'") := by
          simp only [Operation.records, recordFixClaimed, hkey, hs.fold_eq, bind, Except.bind,
            hget, if_neg hactive]
          rfl
        exact after_refines hs (fun records h => by simp [hraises] at h)
          fun _ _ => View.update_of_fixpoint htrack (if_neg hactive)

theorem ruling_refines (hs : Writes .initial journal s) (key : Json)
    (disposition statement actor : String) :
    ∃ t, Writes .initial (after journal (.recordRuling key disposition statement actor)) t ∧
      t.view = (Operation.recordRuling key disposition statement actor).effect s.view := by
  have hraise : ∀ message, recordRuling journal key disposition statement actor = .error message →
      (Operation.recordRuling key disposition statement actor).effect s.view = s.view →
      ∃ t, Writes .initial (after journal (.recordRuling key disposition statement actor)) t ∧
        t.view = (Operation.recordRuling key disposition statement actor).effect s.view := by
    intro message hraises heffect
    refine after_refines hs (fun records h => ?_) fun _ _ => heffect
    simp [Operation.records, hraises, Except.map] at h
  cases hkey : validateKey key "record_ruling" with
  | error message =>
    exact hraise message (by rw [recordRuling, hkey]; rfl) (by rw [Operation.effect, hkey])
  | ok k =>
    cases hdisposition : disposition? disposition with
    | none =>
      refine hraise
        "ruling disposition must be one of ['amend_criterion', 'require_repair', 'waive']" ?_ ?_
      · simp only [recordRuling, hkey, bind, Except.bind, hdisposition]
      rw [Operation.effect, hkey, hdisposition]
    | some d =>
      have heffect : (Operation.recordRuling key disposition statement actor).effect s.view =
          if isBlank statement then s.view else s.view.update k (Track.rule d) := by
        rw [Operation.effect, hkey, hdisposition]
      by_cases hblank : isBlank statement
      · refine hraise "a ruling requires a non-empty statement" ?_ (by rw [heffect, if_pos hblank])
        simp only [recordRuling, hkey, bind, Except.bind, hdisposition, Audit.require, hblank]
        rfl
      rw [Bool.not_eq_true] at hblank
      have hupdate : (Operation.recordRuling key disposition statement actor).effect s.view =
          s.view.update k (Track.rule d) := by
        rw [heffect, hblank]
        rfl
      cases hget : s.keys.get? k with
      | none =>
        refine hraise ("cannot rule an unknown key " ++ keyText k) ?_
          (hupdate.trans (View.update_of_none (track_eq_none_iff.2 hget) _))
        simp only [recordRuling, hkey, bind, Except.bind, hdisposition, Audit.require, hblank,
          hs.fold_eq, hget]
        rfl
      | some info =>
        have hwrites : (Operation.recordRuling key disposition statement actor).records journal =
            .ok [.findingRuled k d statement actor] := by
          simp only [Operation.records, recordRuling, hkey, bind, Except.bind, hdisposition,
            Audit.require, hblank, hs.fold_eq, hget]
          rfl
        refine after_refines hs (fun records h => ?_) fun message h => by simp [hwrites] at h
        cases hwrites.symm.trans h
        refine ⟨_, .single ⟨info, hget⟩ (by rw [foldOne, hget, Option.map_some]), ?_⟩
        rw [hupdate]
        refine view_setInfo hget ?_
        rw [track_move, Track.rule]
        simp [Record.mark?, KeyInfo.track]

/-- An operation whose record touches no track. -/
theorem silent_refines (hs : Writes .initial journal s) {op : Operation}
    (h : ∀ records, op.records journal = .ok records → ∃ t, Writes s records t ∧ t.view = s.view)
    (heffect : op.effect s.view = s.view) :
    ∃ t, Writes .initial (after journal op) t ∧ t.view = op.effect s.view := by
  rw [heffect]
  exact after_refines hs h fun _ _ => rfl

/-- **An operation moves the view by its effect.** -/
theorem Operation.refines_effect (hs : Writes .initial journal s) (op : Operation) :
    ∃ t, Writes .initial (after journal op) t ∧ t.view = op.effect s.view := by
  cases op with
  | openCampaign campaign =>
    refine silent_refines hs (fun records h => ?_) rfl
    obtain ⟨record, hrecord, rfl⟩ := map_single_eq_ok h
    obtain rfl : record = .campaignOpened campaign := by
      obtain ⟨-, hrecord⟩ := Audit.require_bind_eq_ok.1 hrecord
      obtain ⟨-, hrecord⟩ := Audit.require_bind_eq_ok.1 hrecord
      obtain ⟨_, -, hrecord⟩ := bind_eq_ok.1 hrecord
      obtain ⟨_, -, hrecord⟩ := bind_eq_ok.1 hrecord
      obtain ⟨_, -, hrecord⟩ := bind_eq_ok.1 hrecord
      obtain ⟨-, hrecord⟩ := Audit.require_bind_eq_ok.1 hrecord
      obtain ⟨_, -, hrecord⟩ := bind_eq_ok.1 hrecord
      obtain ⟨-, hrecord⟩ := Audit.require_bind_eq_ok.1 hrecord
      exact (Except.ok.inj hrecord).symm
    exact ⟨_, .single trivial rfl, rfl⟩
  | ingestAudit auditResult => exact ingest_refines hs auditResult
  | recordFixClaimed key source roundId => exact claim_refines hs key source roundId
  | recordRuling key disposition statement actor =>
    exact ruling_refines hs key disposition statement actor
  | recordBaseRebase note =>
    have hrecords : (Operation.recordBaseRebase note).records journal =
        .ok [.baseRebase (sortKeys s.fixedKeys) note] := by
      rw [Operation.records, Convergence.recordBaseRebase, hs.fold_eq]
      rfl
    refine after_refines hs (fun records h => ?_) fun message h => by simp [hrecords] at h
    cases hrecords.symm.trans h
    have hwritten : Written s (.baseRebase (sortKeys s.fixedKeys) note) :=
      ⟨nodup_sortKeys (s.keys.nodup_map_filter_items fun info => info.status = .fixed),
        fun key hkey => State.mem_fixedKeys.1 (mem_sortKeys.1 hkey)⟩
    obtain ⟨t, ht⟩ := hwritten.foldOne_isSome
    exact ⟨t, .single hwritten ht, view_rebase ht⟩
  | recordTargetAmendment digest scope =>
    refine silent_refines hs (fun records h => ?_) rfl
    obtain ⟨record, hrecord, rfl⟩ := map_single_eq_ok h
    obtain ⟨scope', rfl⟩ : ∃ scope', record = .targetAmended digest scope' := by
      obtain ⟨-, hrecord⟩ := Audit.require_bind_eq_ok.1 hrecord
      cases scope with
      | none => exact ⟨none, (Except.ok.inj hrecord).symm⟩
      | some items =>
        obtain ⟨scope', -, hrecord⟩ := bind_eq_ok.1 hrecord
        exact ⟨some scope', (Except.ok.inj hrecord).symm⟩
    exact ⟨_, .single trivial rfl, rfl⟩

end Operations

/-! ## Ledgers that show the same -/

/-- The view of a ledger. -/
def Shows (journal : List Record) (v : View) : Prop := ∃ s, Writes .initial journal s ∧ s.view = v

theorem Shows.after (h : Shows journal v) (op : Operation) :
    Shows (after journal op) (op.effect v) := by
  obtain ⟨s, hs, rfl⟩ := h
  exact op.refines_effect hs

theorem mem_stalledKeys :
    key ∈ s.stalledKeys ↔ s.view.stalled key = true :=
  mem_keysWhere_track (p := Track.stalled)

theorem stalledKeys_eq_iff {other : List Record} {w : View} (hv : Shows journal v)
    (hw : Shows other w) : stalledKeys journal = stalledKeys other ↔ v.stalled = w.stalled := by
  obtain ⟨s, hs, rfl⟩ := hv
  obtain ⟨t, ht, rfl⟩ := hw
  rw [stalledKeys, stalledKeys, hs.fold_eq, ht.fold_eq]
  change Except.ok s.stalledKeys = Except.ok t.stalledKeys ↔ _
  rw [Except.ok.injEq, Finset.ext_iff, funext_iff]
  refine forall_congr' fun key => ?_
  rw [mem_stalledKeys, mem_stalledKeys]
  exact Bool.eq_iff_iff.symm

/-- **Ledgers show the same stalled keys behind all further operations exactly when their views
do.** -/
theorem indistinguishable_iff {other : List Record} {w : View} (hv : Shows journal v)
    (hw : Shows other w) : Indistinguishable after stalledKeys journal other ↔
      Indistinguishable Operation.effect View.stalled v w :=
  Behaviour.indistinguishable_iff_of_refines (fun _ _ op h => h.after op)
    (fun _ _ _ _ hv hw => stalledKeys_eq_iff hv hw) hv hw

end HarnessLabs.PlanGraph.Convergence
