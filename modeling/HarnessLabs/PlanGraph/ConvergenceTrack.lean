import HarnessLabs.Lib.EventLog
import HarnessLabs.PlanGraph.ConvergenceStatus

/-!
# The track of a key through an ingest

An ingest goes over an audit result item by item. For one key only the items that observe it count:
the verdicts on it that are not blocked, the findings about it, and the confirmed entries that a
machine can check. Its status and its stall are a function of these observations alone.

* `Track`, `Track.observe` — what the views read of a key, and what an observation does to it.
* `AuditResult.items` — the loops of an ingest as one.
* `track_ingest` — **the ingest moves the track of a key by its observations**, and so does the part
  of it before a crash, by the first of them.
-/

namespace HarnessLabs.PlanGraph.Convergence

open List
open Ingest (cellStatus claimReason)

/-! ## Tracks -/

/-- What the views read of a key. -/
structure Track where
  status : Status
  demoted : Bool
  claims : ℕ
  pattern : List Mark

inductive Observation where
  | fixed | reopened | invalidated | emitted | confirmed
  deriving DecidableEq

namespace Track

def stalled (t : Track) : Bool := 2 ≤ t.claims || Relapsed t.pattern

def reopen (t : Track) : Track :=
  match t.status with
  | .fixClaimed =>
    if t.demoted then { t with status := .opened }
    else
      { t with status := .opened, claims := t.claims + 1, pattern := t.pattern ++ [.reopened] }
  | .fixed => { t with status := .opened, pattern := t.pattern ++ [.reopened] }
  | .opened | .excluded | .amended | .invalidated => t

def observe (t : Track) : Observation → Track
  | .fixed =>
    if t.status.active then { t with status := .fixed, pattern := t.pattern ++ [.fixed] } else t
  | .reopened | .emitted => t.reopen
  | .invalidated => if t.status.active then { t with status := .invalidated } else t
  | .confirmed => { t with status := .excluded }

end Track

/-- A finding and a confirmed entry make a key known. -/
def observed? : Option Track → Observation → Option Track
  | some t, o => some (t.observe o)
  | none, .emitted => some ⟨.opened, false, 0, []⟩
  | none, .confirmed => some ⟨.excluded, false, 0, []⟩
  | none, .fixed | none, .reopened | none, .invalidated => none

def KeyInfo.track (info : KeyInfo) : Track :=
  ⟨info.status, info.rebaseDemoted, info.unsuccessfulRepairClaims, info.pattern⟩

def State.track (s : State) (key : Key) : Option Track := (s.keys.get? key).map (·.track)

theorem keyStatus_eq (s : State) (key : Key) :
    s.keyStatus key = (s.track key).map (·.status) := by
  rw [State.keyStatus, State.track, Option.map_map]
  rfl

theorem track_setInfo (s : State) (key other : Key) (info : KeyInfo) :
    (s.setInfo key info).track other = if other = key then some info.track else s.track other := by
  unfold State.track
  by_cases h : other = key <;> simp [h]

@[simp] theorem rebaseDemoted_move (info : KeyInfo) (status : Status) (record : Record) :
    (info.move status record).rebaseDemoted = info.rebaseDemoted := rfl

@[simp] theorem unsuccessfulRepairClaims_move (info : KeyInfo) (status : Status)
    (record : Record) :
    (info.move status record).unsuccessfulRepairClaims = info.unsuccessfulRepairClaims := rfl

theorem pattern_append (info : KeyInfo) (record : Record) :
    (info.history ++ [record]).filterMap Record.mark? =
      info.pattern ++ record.mark?.toList := by
  rw [filterMap_append, KeyInfo.pattern]
  cases h : record.mark? <;> simp [h]

theorem track_move (info : KeyInfo) (status : Status) (record : Record) :
    (info.move status record).track = { info.track with
      status := status, pattern := info.pattern ++ record.mark?.toList } := by
  simp only [KeyInfo.track, KeyInfo.pattern, history_move, pattern_append]
  rfl

theorem track_claim_reopen (info : KeyInfo) (key : Key) (digest : String)
    (hstatus : info.status = .fixClaimed) :
    (info.reopen (claimReason info) (.findingReopened key (claimReason info) digest)).track =
      info.track.reopen := by
  cases hdemoted : info.rebaseDemoted <;>
    simp [KeyInfo.reopen, claimReason, hdemoted, KeyInfo.track, Track.reopen, hstatus,
      KeyInfo.pattern, Record.mark?]

theorem track_regress (info : KeyInfo) (key : Key) (digest : String) {reason : ReopenReason}
    (hstatus : info.status = .fixed) (hclaim : reason ≠ .repairClaimFailed)
    (hrebase : reason ≠ .rebaseReobservationFailed) :
    (info.reopen reason (.findingReopened key reason digest)).track = info.track.reopen := by
  simp [KeyInfo.reopen, hclaim, hrebase, KeyInfo.track, Track.reopen, hstatus, KeyInfo.pattern,
    Record.mark?]

/-! ## Items -/

inductive Item where
  | coverage
  | verdict (v : Verdict)
  | finding (f : Finding)
  | confirmed (e : ConfirmedGood)

/-- What an ingest goes over. -/
def AuditResult.items (a : AuditResult) : List Item :=
  .coverage :: (a.verdicts.map .verdict ++ a.findings.map .finding ++
    a.confirmedGood.map .confirmed)

/-- The keys that an item mentions. -/
def Item.mentions : Item → List Key
  | .verdict v => if v.kind = .unobserved then [] else [v.key]
  | .coverage | .finding _ | .confirmed _ => []

namespace Ingest

def start (s : State) (a : AuditResult) : Ingest := { state := s, summary := { digest := a.digest } }

def itemStep (a : AuditResult) (i : Ingest) : Item → Ingest
  | .coverage => coverageStep a i
  | .verdict v => verdictStep a i v
  | .finding f => findingStep a i f
  | .confirmed e => confirmedStep a i e

end Ingest

theorem ingestLoops_eq (s : State) (a : AuditResult) :
    s.ingestLoops a = a.items.foldl (Ingest.itemStep a) (Ingest.start s a) := by
  rw [AuditResult.items, foldl_cons, foldl_append, foldl_append, foldl_map,
    foldl_map, foldl_map]
  rfl

/-- What a verdict observes; one that cites an unknown or an unstable cell is blocked. -/
def VerdictKind.observation? (cells : String → Option CellStatus) :
    VerdictKind → Option Observation
  | .observedFixed cell _ =>
    match cells cell with
    | some .ok | some .unreachable => some .fixed
    | some .unstable | none => none
  | .reopened => some .reopened
  | .invalidated => some .invalidated
  | .unobserved => none

/-- What an item observes of a key. -/
def Item.observation? (cells : String → Option CellStatus) (key : Key) : Item → Option Observation
  | .coverage => none
  | .verdict v => if v.key = key then v.kind.observation? cells else none
  | .finding f => if f.key = key then some .emitted else none
  | .confirmed e => if e.key = key ∧ e.machineCheckable then some .confirmed else none

/-- What an audit result observes of a key, in order. -/
def AuditResult.observations (a : AuditResult) (s : State) (key : Key) : List Observation :=
  a.items.filterMap (·.observation? (cellStatus a s) key)

/-! ## One item -/

namespace Ingest

variable {a : AuditResult} {i : Ingest} {key : Key} {info : KeyInfo}

/-- An observation of one key, when the copy is written for that key only. -/
theorem track_write (other : Key) (moved : KeyInfo) (record : Record) {o : Observation}
    (hget : i.state.keys.get? key = some info) (hmoved : moved.track = info.track.observe o) :
    (i.write key moved record).state.track other =
      if key = other then observed? (i.state.track other) o else i.state.track other := by
  rw [show (i.write key moved record).state = i.state.setInfo key moved from rfl, track_setInfo]
  by_cases h : key = other
  · subst h
    rw [if_pos rfl, if_pos rfl, State.track, hget, hmoved]
    rfl
  · rw [if_neg (Ne.symm h), if_neg h]

/-- An observation that leaves the copy as it is. -/
theorem track_same (other : Key) {o : Observation} (hget : i.state.keys.get? key = some info)
    (hsame : info.track.observe o = info.track) :
    i.state.track other =
      if key = other then observed? (i.state.track other) o else i.state.track other := by
  by_cases h : key = other
  · subst h
    rw [if_pos rfl, State.track, hget, Option.map_some, observed?, hsame]
  · rw [if_neg h]

theorem track_fix (other : Key) (cell assertion : String)
    (hget : i.state.keys.get? key = some info) :
    (fix a i key info cell assertion).state.track other =
      if key = other then observed? (i.state.track other) .fixed else i.state.track other := by
  unfold fix
  by_cases hactive : info.status.active
  · rw [if_pos hactive]
    refine track_write other _ (.findingFixed key cell assertion a.digest) hget ?_
    rw [track_move, Track.observe, if_pos (show info.track.status.active from hactive)]
    rfl
  · rw [if_neg hactive]
    exact track_same other hget (if_neg hactive)

theorem track_observedFixed (other : Key) (cell assertion : String)
    (hget : i.state.keys.get? key = some info) :
    (observedFixed a i key info cell assertion).state.track other =
      if key = other then
        ((VerdictKind.observedFixed cell assertion).observation? (cellStatus a i.state)).elim
          (i.state.track other) (observed? (i.state.track other))
      else i.state.track other := by
  cases hcell : cellStatus a i.state cell with
  | none => simp [observedFixed, VerdictKind.observation?, hcell]
  | some status =>
    cases status with
    | ok | unreachable =>
      simpa [observedFixed, VerdictKind.observation?, hcell] using
        track_fix other cell assertion hget
    | unstable => simp [observedFixed, VerdictKind.observation?, hcell]

theorem track_observedReopened (other : Key) (hget : i.state.keys.get? key = some info) :
    (observedReopened a i key info).state.track other =
      if key = other then observed? (i.state.track other) .reopened else i.state.track other := by
  unfold observedReopened
  by_cases hclaimed : info.status = .fixClaimed
  · rw [if_pos hclaimed]
    exact track_write other _ (.findingReopened key (claimReason info) a.digest) hget
      (track_claim_reopen info key a.digest hclaimed)
  · rw [if_neg hclaimed]
    by_cases hfixed : info.status = .fixed
    · rw [if_pos hfixed]
      exact track_write other _ (.findingReopened key .regressionReopened a.digest) hget
        (track_regress info key a.digest hfixed (by decide) (by decide))
    · rw [if_neg hfixed]
      refine track_same other hget ?_
      cases hstatus : info.status <;>
        simp_all [Track.observe, Track.reopen, KeyInfo.track]

theorem track_observedInvalidated (other : Key) (hget : i.state.keys.get? key = some info) :
    (observedInvalidated a i key info).state.track other =
      if key = other then observed? (i.state.track other) .invalidated
      else i.state.track other := by
  unfold observedInvalidated
  by_cases hactive : info.status.active
  · rw [if_pos hactive]
    refine track_write other _ (.findingInvalidated key a.digest) hget ?_
    rw [track_move, Track.observe, if_pos (show info.track.status.active from hactive)]
    simp [Record.mark?, KeyInfo.track]
  · rw [if_neg hactive]
    exact track_same other hget (if_neg hactive)

@[simp] theorem state_mention (i : Ingest) (v : Verdict) : (i.mention v).state = i.state := by
  unfold mention
  by_cases h : v.kind = .unobserved <;> simp [h]

/-- A verdict does not make its key known. -/
theorem observed?_none {cells : String → Option CellStatus} {kind : VerdictKind} {o : Observation}
    (h : kind.observation? cells = some o) : observed? none o = none := by
  cases kind with
  | observedFixed cell assertion =>
    cases hcell : cells cell with
    | none => simp [VerdictKind.observation?, hcell] at h
    | some status =>
      cases status with
      | ok | unreachable =>
        simp only [VerdictKind.observation?, hcell, Option.some.injEq] at h
        rw [← h, observed?]
      | unstable => simp [VerdictKind.observation?, hcell] at h
  | reopened | invalidated =>
    cases h
    rfl
  | unobserved => simp [VerdictKind.observation?] at h

theorem track_verdictStep (v : Verdict) (other : Key) :
    (verdictStep a i v).state.track other =
      ((Item.verdict v).observation? (cellStatus a i.state) other).elim
        (i.state.track other) (observed? (i.state.track other)) := by
  have hmention : (i.mention v).state = i.state := state_mention i v
  rw [show (Item.verdict v).observation? (cellStatus a i.state) other =
    if v.key = other then v.kind.observation? (cellStatus a i.state) else none from rfl]
  unfold verdictStep observe
  cases hget : (i.mention v).state.keys.get? v.key with
  | none =>
    rw [hmention]
    by_cases hkey : v.key = other
    · have htrack : i.state.track other = none := by
        rw [State.track, ← hmention, ← hkey, hget, Option.map_none]
      rw [if_pos hkey, htrack]
      cases hobserved : v.kind.observation? (cellStatus a i.state) with
      | none => rfl
      | some o => exact (observed?_none hobserved).symm
    · rw [if_neg hkey]
      rfl
  | some info =>
    cases hkind : v.kind with
    | observedFixed cell assertion =>
      simp only [track_observedFixed other cell assertion hget, hmention]
      by_cases hkey : v.key = other <;> simp [hkey]
    | reopened =>
      simp only [track_observedReopened other hget, hmention]
      by_cases hkey : v.key = other <;> simp [hkey, VerdictKind.observation?]
    | invalidated =>
      simp only [track_observedInvalidated other hget, hmention]
      by_cases hkey : v.key = other <;> simp [hkey, VerdictKind.observation?]
    | unobserved =>
      by_cases hkey : v.key = other <;> simp [hkey, VerdictKind.observation?]

theorem track_findingStep (f : Finding) (other : Key) :
    (findingStep a i f).state.track other =
      if f.key = other then observed? (i.state.track other) .emitted else i.state.track other := by
  unfold findingStep
  cases hget : i.state.keys.get? f.key with
  | none =>
    change (i.state.setInfo f.key _).track other = _
    rw [track_setInfo]
    by_cases hkey : f.key = other
    · subst hkey
      simp [State.track, hget, observed?, KeyInfo.track, KeyInfo.pattern, Record.mark?]
    · rw [if_neg (Ne.symm hkey), if_neg hkey]
  | some info =>
    simp only
    by_cases hfixed : info.status = .fixed
    · rw [if_pos hfixed]
      exact track_write other _ (.findingReopened f.key .findingReemitted a.digest) hget
        (track_regress info f.key a.digest hfixed (by decide) (by decide))
    · rw [if_neg hfixed]
      by_cases hclaimed : info.status = .fixClaimed
      · rw [if_pos hclaimed]
        exact track_write other _ (.findingReopened f.key (claimReason info) a.digest) hget
          (track_claim_reopen info f.key a.digest hclaimed)
      · rw [if_neg hclaimed]
        refine track_same other hget ?_
        cases hstatus : info.status <;>
          simp_all [Track.observe, Track.reopen, KeyInfo.track]

theorem track_confirmedStep (e : ConfirmedGood) (other : Key) :
    (confirmedStep a i e).state.track other =
      if e.key = other ∧ e.machineCheckable then observed? (i.state.track other) .confirmed
      else i.state.track other := by
  unfold confirmedStep
  by_cases hcheckable : e.machineCheckable
  · simp only [hcheckable, if_true, and_true]
    change (i.state.setInfo e.key _).track other = _
    rw [track_setInfo]
    by_cases hkey : e.key = other
    · subst hkey
      rw [if_pos rfl, if_pos rfl, State.track, track_move]
      cases hget : i.state.keys.get? e.key with
      | none => simp [observed?, KeyInfo.track, KeyInfo.pattern, Record.mark?]
      | some info => simp [observed?, Track.observe, KeyInfo.track, Record.mark?]
    · rw [if_neg (Ne.symm hkey), if_neg hkey]
  · simp [hcheckable]

/-- **One item moves the track of a key by what it observes of it.** -/
theorem track_itemStep (item : Item) (key : Key) :
    (itemStep a i item).state.track key =
      (item.observation? (cellStatus a i.state) key).elim
        (i.state.track key) (observed? (i.state.track key)) := by
  cases item with
  | coverage =>
    unfold itemStep coverageStep
    by_cases hempty : a.captureCoverage.items = []
    · rw [if_pos hempty]
      rfl
    · rw [if_neg hempty]
      rfl
  | verdict v => exact track_verdictStep v key
  | finding f =>
    rw [itemStep, track_findingStep, Item.observation?]
    by_cases hkey : f.key = key <;> simp [hkey]
  | confirmed e =>
    rw [itemStep, track_confirmedStep, Item.observation?]
    by_cases hkey : e.key = key ∧ e.machineCheckable <;> simp [hkey]

/-! ## What an item leaves -/

/-- Beside the keys an item appends one record at most. -/
structure Framed (i j : Ingest) : Prop where
  cells : j.state.captureCells = i.state.captureCells
  digests : j.state.ingestedDigests = i.state.ingestedDigests
  mentioned : j.mentioned = i.mentioned
  appended : j.appended = i.appended ∨ ∃ record, j.appended = i.appended ++ [record]

theorem Framed.refl (i : Ingest) : Framed i i := ⟨rfl, rfl, rfl, .inl rfl⟩

theorem framed_fix (key : Key) (info : KeyInfo) (cell assertion : String) :
    Framed i (fix a i key info cell assertion) := by
  unfold fix
  split_ifs
  · exact ⟨rfl, rfl, rfl, .inr ⟨_, rfl⟩⟩
  · exact .refl i

theorem framed_observedFixed (key : Key) (info : KeyInfo) (cell assertion : String) :
    Framed i (observedFixed a i key info cell assertion) := by
  unfold observedFixed
  cases cellStatus a i.state cell with
  | none => exact ⟨rfl, rfl, rfl, .inl rfl⟩
  | some status =>
    cases status with
    | ok | unreachable => exact framed_fix key info cell assertion
    | unstable => exact ⟨rfl, rfl, rfl, .inl rfl⟩

theorem framed_observedReopened (key : Key) (info : KeyInfo) :
    Framed i (observedReopened a i key info) := by
  unfold observedReopened
  split_ifs
  · exact ⟨rfl, rfl, rfl, .inr ⟨_, rfl⟩⟩
  · exact ⟨rfl, rfl, rfl, .inr ⟨_, rfl⟩⟩
  · exact .refl i

theorem framed_observedInvalidated (key : Key) (info : KeyInfo) :
    Framed i (observedInvalidated a i key info) := by
  unfold observedInvalidated
  split_ifs
  · exact ⟨rfl, rfl, rfl, .inr ⟨_, rfl⟩⟩
  · exact .refl i

theorem framed_observe (v : Verdict) : Framed i (i.observe a v) := by
  unfold observe
  cases i.state.keys.get? v.key with
  | none => exact .refl i
  | some info =>
    cases v.kind with
    | observedFixed cell assertion => exact framed_observedFixed v.key info cell assertion
    | reopened => exact framed_observedReopened v.key info
    | invalidated => exact framed_observedInvalidated v.key info
    | unobserved => exact .refl i

theorem framed_findingStep (f : Finding) : Framed i (findingStep a i f) := by
  unfold findingStep
  cases i.state.keys.get? f.key with
  | none => exact ⟨rfl, rfl, rfl, .inr ⟨_, rfl⟩⟩
  | some info =>
    simp only
    split_ifs
    · exact ⟨rfl, rfl, rfl, .inr ⟨_, rfl⟩⟩
    · exact ⟨rfl, rfl, rfl, .inr ⟨_, rfl⟩⟩
    · exact .refl i

theorem framed_confirmedStep (e : ConfirmedGood) : Framed i (confirmedStep a i e) := by
  unfold confirmedStep
  by_cases hcheckable : e.machineCheckable
  · simp only [hcheckable, if_true]
    exact ⟨rfl, rfl, rfl, .inr ⟨_, rfl⟩⟩
  · simp only [hcheckable]
    exact ⟨rfl, rfl, rfl, .inr ⟨_, rfl⟩⟩

theorem state_coverageStep (a : AuditResult) (i : Ingest) : (coverageStep a i).state =
    { i.state with captureCells := i.state.captureCells.update a.captureCoverage } := by
  unfold coverageStep
  by_cases hempty : a.captureCoverage.items = []
  · rw [if_pos hempty, Dict.update, hempty]
    rfl
  · rw [if_neg hempty]

theorem captureCells_itemStep (item : Item) :
    (itemStep a i item).state.captureCells = i.state.captureCells ∨
      (itemStep a i item).state.captureCells = i.state.captureCells.update a.captureCoverage := by
  cases item with
  | coverage => exact .inr (by rw [itemStep, state_coverageStep])
  | verdict v =>
    exact .inl ((framed_observe v).cells.trans (by rw [state_mention]))
  | finding f => exact .inl (framed_findingStep f).cells
  | confirmed e => exact .inl (framed_confirmedStep e).cells

theorem ingestedDigests_itemStep (item : Item) :
    (itemStep a i item).state.ingestedDigests = i.state.ingestedDigests := by
  cases item with
  | coverage => rw [itemStep, state_coverageStep]
  | verdict v => exact (framed_observe v).digests.trans (by rw [state_mention])
  | finding f => exact (framed_findingStep f).digests
  | confirmed e => exact (framed_confirmedStep e).digests

theorem appended_itemStep (i : Ingest) (item : Item) :
    (itemStep a i item).appended = i.appended ∨
      ∃ record, (itemStep a i item).appended = i.appended ++ [record] := by
  cases item with
  | coverage =>
    unfold itemStep coverageStep
    split_ifs
    · exact .inl rfl
    · exact .inr ⟨_, rfl⟩
  | verdict v =>
    have hmention : (i.mention v).appended = i.appended := by
      unfold mention
      split_ifs <;> rfl
    exact hmention ▸ (framed_observe v).appended
  | finding f => exact (framed_findingStep f).appended
  | confirmed e => exact (framed_confirmedStep e).appended

theorem mentioned_itemStep (item : Item) :
    (itemStep a i item).mentioned = i.mentioned ++ item.mentions := by
  cases item with
  | coverage =>
    unfold itemStep coverageStep
    split_ifs <;> exact (append_nil _).symm
  | verdict v =>
    refine (framed_observe v).mentioned.trans ?_
    by_cases hkind : v.kind = .unobserved <;> simp [mention, Item.mentions, hkind]
  | finding f => exact (framed_findingStep f).mentioned.trans (append_nil _).symm
  | confirmed e => exact (framed_confirmedStep e).mentioned.trans (append_nil _).symm

theorem cellStatus_update (a : AuditResult) (s : State) (cell : String) :
    cellStatus a { s with captureCells := s.captureCells.update a.captureCoverage } cell =
      cellStatus a s cell := by
  unfold cellStatus
  rw [Dict.get?_update]
  cases a.captureCoverage.get? cell <;> rfl

/-- No item changes what blocks a verdict. -/
theorem cellStatus_itemStep (item : Item) :
    cellStatus a (itemStep a i item).state = cellStatus a i.state := by
  funext cell
  have hcells : ∀ s : State, cellStatus a s cell =
      (a.captureCoverage.get? cell).or (s.captureCells.get? cell) := fun _ => rfl
  obtain hsame | hupdated := captureCells_itemStep (a := a) (i := i) item
  · rw [hcells, hsame, ← hcells]
  · rw [hcells, hupdated, ← cellStatus_update]
    rfl

/-! ## All items -/

theorem track_foldl (items : List Item) (key : Key) :
    (items.foldl (itemStep a) i).state.track key =
      (items.filterMap (·.observation? (cellStatus a i.state) key)).foldl observed?
        (i.state.track key) := by
  induction items generalizing i with
  | nil => rfl
  | cons item items ih =>
    rw [foldl_cons, ih, cellStatus_itemStep, track_itemStep, filterMap_cons]
    cases item.observation? (cellStatus a i.state) key <;> rfl

theorem ingestedDigests_foldl (items : List Item) :
    (items.foldl (itemStep a) i).state.ingestedDigests = i.state.ingestedDigests := by
  induction items generalizing i with
  | nil => rfl
  | cons item items ih => rw [foldl_cons, ih, ingestedDigests_itemStep]

theorem mentioned_foldl (items : List Item) :
    (items.foldl (itemStep a) i).mentioned = i.mentioned ++ items.flatMap (·.mentions) := by
  induction items generalizing i with
  | nil => exact (append_nil _).symm
  | cons item items ih =>
    rw [foldl_cons, ih, mentioned_itemStep, flatMap_cons, append_assoc]

theorem cellStatus_foldl (items : List Item) :
    cellStatus a (items.foldl (itemStep a) i).state = cellStatus a i.state := by
  induction items generalizing i with
  | nil => rfl
  | cons item items ih => rw [foldl_cons, ih, cellStatus_itemStep]

/-- The coverage may be added any number of times. -/
theorem update_captureCells_foldl (items : List Item) :
    (items.foldl (itemStep a) i).state.captureCells.update a.captureCoverage =
      i.state.captureCells.update a.captureCoverage := by
  induction items generalizing i with
  | nil => rfl
  | cons item items ih =>
    rw [foldl_cons, ih]
    obtain hsame | hupdated := captureCells_itemStep (a := a) (i := i) item
    · rw [hsame]
    · rw [hupdated, Dict.update_update_self]

theorem captureCells_foldl_of_updated (items : List Item)
    (h : i.state.captureCells.update a.captureCoverage = i.state.captureCells) :
    (items.foldl (itemStep a) i).state.captureCells = i.state.captureCells := by
  induction items generalizing i with
  | nil => rfl
  | cons item items ih =>
    have hsame : (itemStep a i item).state.captureCells = i.state.captureCells := by
      obtain hsame | hupdated := captureCells_itemStep (a := a) (i := i) item
      · exact hsame
      · exact hupdated.trans h
    rw [foldl_cons, ih (by rw [hsame, h]), hsame]

end Ingest

variable (s : State) (a : AuditResult)

/-- **An ingest moves the track of a key by its observations.** -/
theorem track_ingest (key : Key) :
    (s.ingestLoops a).state.track key =
      (a.observations s key).foldl observed? (s.track key) := by
  rw [ingestLoops_eq]
  exact Ingest.track_foldl a.items key

theorem captureCells_ingest : (s.ingestLoops a).state.captureCells =
    s.captureCells.update a.captureCoverage := by
  rw [ingestLoops_eq, AuditResult.items, foldl_cons, Ingest.itemStep,
    Ingest.captureCells_foldl_of_updated _ (by
      rw [Ingest.state_coverageStep]
      exact Dict.update_update_self _ _),
    Ingest.state_coverageStep]
  rfl

/-- The keys with a verdict other than `unobserved`. -/
def AuditResult.mentioned : List Key :=
  a.verdicts.flatMap fun v => if v.kind = .unobserved then [] else [v.key]

theorem mentioned_ingest : (s.ingestLoops a).mentioned = a.mentioned := by
  have hfindings : a.findings.flatMap (fun f => (Item.finding f).mentions) = [] :=
    flatMap_eq_nil_iff.2 fun _ _ => rfl
  have hconfirmed : a.confirmedGood.flatMap (fun e => (Item.confirmed e).mentions) = [] :=
    flatMap_eq_nil_iff.2 fun _ _ => rfl
  rw [ingestLoops_eq, Ingest.mentioned_foldl, AuditResult.items, flatMap_cons,
    flatMap_append, flatMap_append, flatMap_map, flatMap_map,
    flatMap_map, hfindings, hconfirmed, append_nil, append_nil]
  rfl

/-- Between two items the copy is the fold of the records. -/
theorem agrees_foldl (items : List Item) :
    Ingest.Agrees s (items.foldl (Ingest.itemStep a) (Ingest.start s a)) := by
  refine List.foldlRecOn items _ (Writes.nil s) fun i hi item _ => ?_
  cases item with
  | coverage => exact hi.coverageStep
  | verdict v => exact (hi.mention v).observe v
  | finding f => exact hi.findingStep f
  | confirmed e => exact hi.confirmedStep e

/-- **A crash between two records of the loops is one between two items.** -/
theorem exists_items_of_crash {k : ℕ} (hk : k ≤ (s.ingestLoops a).appended.length) :
    ∃ front back, a.items = front ++ back ∧
      (front.foldl (Ingest.itemStep a) (Ingest.start s a)).appended =
        (s.ingestLoops a).appended.take k := by
  rw [ingestLoops_eq] at hk ⊢
  exact EventLog.exists_items_of_take Ingest.appended_itemStep _ _ (Nat.zero_le k) hk

end HarnessLabs.PlanGraph.Convergence
