import HarnessLabs.Lib.AsciiJson
import HarnessLabs.PlanGraph.ConvergencePass

/-!
# Remeasuring an improvement campaign

A remeasure runs the assertion of every open key and hands the verdicts to the ledger as an audit,
under a digest of the round and of the raw outcomes.

* `remeasure` — `remeasure`, up to the decision record and the files of the patterns.
* `remeasure_ingests` — behind an audit that the ledger folds every verdict has its effect.
* `folds_iff` — **a remeasure folds what it observed exactly if the ledger has not seen its digest,
  or there is nothing to fold.**
-/

namespace HarnessLabs.Improvement

open List
open Audit (require require_bind_eq_ok bind_eq_ok)
open Controller (isBlank pyStr)
open PlanGraph.Convergence

/-! ## Assertions -/

/-- What a runner says of an assertion; any other word counts as `unexecuted`. -/
inductive Outcome where
  | pass | fail | unexecuted
  deriving DecidableEq

def Outcome.text : Outcome → String
  | .pass => "pass"
  | .fail => "fail"
  | .unexecuted => "unexecuted"

/-- `f"{file_path}::{subject}"`. -/
def resultKey (key : Key) : String := key.1 ++ "::" ++ key.2

def captureCell (key : Key) : String := "assertion::" ++ resultKey key

/-- `_assertion_text`. -/
def assertionText (assertion : Json) : String :=
  match assertion.get? "argv", assertion.get? "signature_absent" with
  | some (.arr (item :: rest)), _ => " ".intercalate ((item :: rest).map pyStr)
  | _, some (.str signature) =>
    if isBlank signature then "assertion" else "signature_absent:" ++ signature
  | _, _ => "assertion"

/-- The members of `results`, as `json.dumps` spells them in the order of their keys. -/
def resultsText (results : Dict String Outcome) : List Char :=
  [',', ' '].intercalate ((results.items.insertionSort fun a b => a.1 ≤ b.1).map fun m =>
    AsciiJson.string m.1 ++ [':', ' '] ++ AsciiJson.string m.2.text)

/-- `_remeasure_digest`. -/
def remeasureDigest (campaignId : String) (round : ℕ) (results : Dict String Outcome) : String :=
  "remeasure:" ++ Sha256.hexdigest (Json.utf8 (
    '\x7b' :: AsciiJson.string "campaign_id" ++ [':', ' '] ++ AsciiJson.string campaignId ++
      [',', ' '] ++ AsciiJson.string "results" ++ [':', ' ', '\x7b'] ++ resultsText results ++
      ['\x7d', ',', ' '] ++ AsciiJson.string "round" ++ [':', ' '] ++ (toString round).toList ++
      ['\x7d']))

/-! ## Campaigns -/

inductive Lifecycle where
  | opened | succeeded | incomplete
  deriving DecidableEq

/-- What a round was synthesized for: its number and the keys of `findings_by_run`. -/
structure Round where
  number : ℕ
  keys : List Key
  deriving DecidableEq

/-- The checkpoint, the ledger, the rounds and `seed-assertions.json`. -/
structure Campaign where
  id : String
  lifecycle : Lifecycle
  roundsCompleted : ℕ
  roundBound : ℕ
  rounds : List Round
  assertions : Dict String Json
  ledger : State

namespace Campaign

/-- `sorted(ledger.open_set())`. -/
def active (c : Campaign) : List Key := sortKeys c.ledger.activeKeys

def assertionOf (c : Campaign) (key : Key) : Json :=
  (c.assertions.get? (resultKey key)).getD .null

def claimed (c : Campaign) (key : Key) : Bool := c.ledger.keyStatus key = some .fixClaimed

section Outcomes

variable (c : Campaign) (outcomes : Key → Outcome)

def verdict? (key : Key) : Option Verdict :=
  match outcomes key with
  | .pass => some ⟨key, .observedFixed (captureCell key) (assertionText (c.assertionOf key))⟩
  | .fail => if c.claimed key then some ⟨key, .reopened⟩ else none
  | .unexecuted => none

def observedFixed : List Key := c.active.filter fun key => outcomes key = .pass

def reopened : List Key := c.active.filter fun key => outcomes key = .fail ∧ c.claimed key

def stillBroken : List Key := c.active.filter fun key => outcomes key = .fail ∧ ¬ c.claimed key

def unexecuted : List Key := c.active.filter fun key => outcomes key = .unexecuted

def results : Dict String Outcome :=
  Dict.ofList (c.active.map fun key => (resultKey key, outcomes key))

/-- `digest or _remeasure_digest(…)`. -/
def digest (given : Option String) : String :=
  match given with
  | none | some "" => remeasureDigest c.id c.roundsCompleted (c.results outcomes)
  | some digest => digest

def audit (digest : String) : AuditResult where
  digest := digest
  findings := []
  verdicts := c.active.filterMap (c.verdict? outcomes)
  confirmedGood := []
  captureCoverage :=
    Dict.ofList ((c.observedFixed outcomes).map fun key => (captureCell key, .ok))

end Outcomes

end Campaign

structure RemeasureOutcome where
  digest : String
  observedFixed : List Key := []
  reopened : List Key := []
  unexecuted : List Key := []
  stillBroken : List Key := []
  lifecycle : Lifecycle
  openKeys : List Key

/-- `remeasure`, with what `ingest_audit` may find wrong in an audit of this form. -/
def remeasure (c : Campaign) (outcomes : Key → Outcome) (given : Option String) :
    Except String (Campaign × RemeasureOutcome) :=
  if c.lifecycle ≠ .opened then
    .ok (c, { digest := "", lifecycle := c.lifecycle, openKeys := c.active })
  else do
    let digest := c.digest outcomes given
    require (isBlank digest = false) "audit_result is missing a non-empty 'digest'"
    require (∀ key ∈ c.observedFixed outcomes, isBlank (assertionText (c.assertionOf key)) = false)
      "an observed_fixed verdict must cite the assertion evaluated"
    let ingested ← c.ledger.ingest (c.audit outcomes digest)
    let ledger ← foldFrom c.ledger 1 ingested.1
    let openKeys := sortKeys ledger.activeKeys
    let lifecycle :=
      if openKeys = [] then .succeeded
      else if c.roundBound ≤ c.roundsCompleted then .incomplete
      else .opened
    return ({ c with ledger := ledger, lifecycle := lifecycle }, {
      digest := digest
      observedFixed := c.observedFixed outcomes
      reopened := c.reopened outcomes
      unexecuted := c.unexecuted outcomes
      stillBroken := c.stillBroken outcomes
      lifecycle := lifecycle
      openKeys := openKeys })

/-! ## The audit of a remeasure -/

variable {c c' : Campaign} {outcomes : Key → Outcome} {given : Option String} {key : Key}
  {o : RemeasureOutcome} {digest : String}

theorem mem_active :
    key ∈ c.active ↔ ∃ info, c.ledger.keys.get? key = some info ∧ info.status.active := by
  rw [Campaign.active, mem_sortKeys, State.activeKeys]
  exact c.ledger.keys.mem_map_filter_items (p := fun info => info.status.active)

theorem claimed_iff : c.claimed key = true ↔ c.ledger.keyStatus key = some .fixClaimed :=
  decide_eq_true_iff

theorem mem_active_of_claimed (h : c.claimed key = true) : key ∈ c.active := by
  obtain ⟨info, hget, hstatus⟩ := keyStatus_eq_some.1 (claimed_iff.1 h)
  exact mem_active.2 ⟨info, hget, by rw [hstatus]; rfl⟩

/-- The outcome fails a claim. -/
def Reopens (c : Campaign) (outcomes : Key → Outcome) (key : Key) : Prop :=
  outcomes key = .fail ∧ c.claimed key = true

/-- A dictionary with one value. -/
theorem get?_ofList_of_forall {K V : Type} [DecidableEq K] {l : List (K × V)} {k : K} {v : V}
    (hmem : k ∈ l.map Prod.fst) (h : ∀ p ∈ l, p.2 = v) : (Dict.ofList l).get? k = some v := by
  induction l using List.reverseRecOn with
  | nil => exact absurd hmem not_mem_nil
  | append_singleton l p ih =>
    rw [Dict.ofList, foldl_append, ← Dict.ofList, foldl_cons, foldl_nil]
    by_cases hk : k = p.1
    · rw [hk, Dict.get?_set_self, h p (mem_append_right _ mem_cons_self)]
    · rw [Dict.get?_set_ne _ _ hk]
      refine ih ?_ fun q hq => h q (mem_append_left _ hq)
      simpa [hk] using hmem

theorem cellStatus_audit (h : key ∈ c.observedFixed outcomes) (s : State) :
    Ingest.cellStatus (c.audit outcomes digest) s (captureCell key) = some .ok := by
  have hcell : (c.audit outcomes digest).captureCoverage.get? (captureCell key) = some .ok := by
    refine get?_ofList_of_forall ?_ fun p hp => ?_
    · rw [map_map]
      exact mem_map.2 ⟨key, h, rfl⟩
    · obtain ⟨k, -, rfl⟩ := mem_map.1 hp
      rfl
  rw [Ingest.cellStatus, hcell]
  rfl

theorem mem_observations {ob : Observation} :
    ob ∈ (c.audit outcomes digest).observations c.ledger key ↔ key ∈ c.active ∧
      (outcomes key = .pass ∧ ob = .fixed ∨ Reopens c outcomes key ∧ ob = .reopened) := by
  have hitems : (c.audit outcomes digest).items =
      .coverage :: (c.active.filterMap (c.verdict? outcomes)).map .verdict := by
    simp [AuditResult.items, Campaign.audit]
  rw [AuditResult.observations, hitems, filterMap_cons]
  simp only [Item.observation?, filterMap_map, mem_filterMap, Function.comp_apply]
  constructor
  · rintro ⟨v, ⟨k, hk, hv⟩, hob⟩
    rw [Campaign.verdict?] at hv
    split at hv
    · rename_i hpass
      cases hv
      rw [Option.ite_none_right_eq_some] at hob
      obtain ⟨rfl, hob⟩ := hob
      have hmem : k ∈ c.observedFixed outcomes := mem_filter.2 ⟨hk, decide_eq_true hpass⟩
      rw [VerdictKind.observation?, cellStatus_audit hmem] at hob
      exact ⟨hk, .inl ⟨hpass, (Option.some.inj hob).symm⟩⟩
    · rename_i hfail
      rw [Option.ite_none_right_eq_some] at hv
      obtain ⟨hclaimed, hv⟩ := hv
      cases hv
      rw [Option.ite_none_right_eq_some] at hob
      obtain ⟨rfl, hob⟩ := hob
      exact ⟨hk, .inr ⟨⟨hfail, hclaimed⟩, (Option.some.inj hob).symm⟩⟩
    · cases hv
  · rintro ⟨hk, ⟨hpass, rfl⟩ | ⟨⟨hfail, hclaimed⟩, rfl⟩⟩
    · have hmem : key ∈ c.observedFixed outcomes := mem_filter.2 ⟨hk, decide_eq_true hpass⟩
      refine ⟨_, ⟨key, hk, by rw [Campaign.verdict?, hpass]⟩, ?_⟩
      rw [if_pos rfl, VerdictKind.observation?, cellStatus_audit hmem]
    · exact ⟨_, ⟨key, hk, by rw [Campaign.verdict?, hfail]; exact if_pos hclaimed⟩, if_pos rfl⟩

theorem mem_mentioned : key ∈ (c.audit outcomes digest).mentioned ↔
    key ∈ c.active ∧ (outcomes key = .pass ∨ Reopens c outcomes key) := by
  simp only [AuditResult.mentioned, Campaign.audit, mem_flatMap, mem_filterMap]
  constructor
  · rintro ⟨v, ⟨k, hk, hv⟩, hkey⟩
    rw [Campaign.verdict?] at hv
    split at hv
    · cases hv
      obtain rfl := mem_singleton.1 hkey
      exact ⟨hk, .inl ‹_›⟩
    · rw [Option.ite_none_right_eq_some] at hv
      obtain ⟨hclaimed, hv⟩ := hv
      cases hv
      obtain rfl := mem_singleton.1 hkey
      exact ⟨hk, .inr ⟨‹_›, hclaimed⟩⟩
    · cases hv
  · rintro ⟨hk, hpass | ⟨hfail, hclaimed⟩⟩
    · exact ⟨⟨key, .observedFixed _ _⟩, ⟨key, hk, by rw [Campaign.verdict?, hpass]⟩,
        mem_singleton_self key⟩
    · exact ⟨⟨key, .reopened⟩, ⟨key, hk, by rw [Campaign.verdict?, hfail]; exact if_pos hclaimed⟩,
        mem_singleton_self key⟩

/-! ## What a remeasure folds -/

/-- What a remeasure that returned owes the ledger and its caller. -/
structure Folds (c c' : Campaign) (outcomes : Key → Outcome) (o : RemeasureOutcome) : Prop where
  fixed : ∀ key ∈ c.active, outcomes key = .pass → c'.ledger.keyStatus key = some .fixed
  reopened : ∀ key, Reopens c outcomes key → c'.ledger.keyStatus key = some .opened
  unobserved : ∃ keys, c'.ledger.lastAuditUnobserved = some keys ∧ ∀ key, key ∈ keys ↔
    key ∈ c.active ∧ outcomes key ≠ .pass ∧ ¬ Reopens c outcomes key
  namesFixed : ∀ key, key ∈ o.observedFixed ↔ key ∈ c.active ∧ outcomes key = .pass
  namesReopened : ∀ key, key ∈ o.reopened ↔ Reopens c outcomes key
  namesRest : ∀ key, key ∈ o.stillBroken ∨ key ∈ o.unexecuted ↔
    key ∈ c.active ∧ outcomes key ≠ .pass ∧ ¬ Reopens c outcomes key

/-- The digest is new to the ledger, or no key passes, no claim fails, and the last audit observed
none of the open keys either. -/
def FreshOrIdle (c : Campaign) (outcomes : Key → Outcome) (given : Option String) : Prop :=
  c.digest outcomes given ∉ c.ledger.ingestedDigests ∨
    (∀ key ∈ c.active, outcomes key ≠ .pass ∧ ¬ Reopens c outcomes key) ∧
      ∃ keys, c.ledger.lastAuditUnobserved = some keys ∧ ∀ key, key ∈ keys ↔ key ∈ c.active

/-- What a remeasure of an open campaign returns. -/
theorem remeasure_eq_ok (hopen : c.lifecycle = .opened)
    (h : remeasure c outcomes given = .ok (c', o)) :
    (∃ records summary, c.ledger.ingest (c.audit outcomes (c.digest outcomes given)) =
      .ok (records, summary) ∧ foldFrom c.ledger 1 records = .ok c'.ledger) ∧
      o.observedFixed = c.observedFixed outcomes ∧ o.reopened = c.reopened outcomes ∧
      o.unexecuted = c.unexecuted outcomes ∧ o.stillBroken = c.stillBroken outcomes := by
  rw [remeasure, if_neg (not_not.2 hopen)] at h
  obtain ⟨-, h⟩ := require_bind_eq_ok.1 h
  obtain ⟨-, h⟩ := require_bind_eq_ok.1 h
  obtain ⟨⟨records, summary⟩, hingest, h⟩ := bind_eq_ok.1 h
  obtain ⟨ledger, hfold, h⟩ := bind_eq_ok.1 h
  cases h
  exact ⟨⟨records, summary, hingest, hfold⟩, rfl, rfl, rfl, rfl⟩

theorem foldFrom_ingest (s : State) (a : AuditResult) (keys : List Key) :
    foldFrom s 1 ((s.ingestLoops a).appended ++ [.auditIngested a.digest keys]) =
      .ok { (s.ingestLoops a).state with
        ingestedDigests := (s.ingestLoops a).state.ingestedDigests ++ [a.digest]
        lastAuditUnobserved := some keys } := by
  refine Writes.foldFrom_eq (Writes.snoc (s.ingestLoops_agrees a) ?_ rfl) 1
  trivial

/-- **Behind an audit that the ledger folds every verdict has its effect.** -/
theorem remeasure_ingests (hopen : c.lifecycle = .opened)
    (h : remeasure c outcomes given = .ok (c', o))
    (hfresh : c.digest outcomes given ∉ c.ledger.ingestedDigests) :
    (∀ key, c'.ledger.track key = observeAll
      ((c.audit outcomes (c.digest outcomes given)).observations c.ledger key)
        (c.ledger.track key)) ∧
      ∃ keys, c'.ledger.lastAuditUnobserved = some keys ∧ ∀ key, key ∈ keys ↔
        key ∈ c.active ∧ outcomes key ≠ .pass ∧ ¬ Reopens c outcomes key := by
  obtain ⟨⟨records, summary, hingest, hfold⟩, -⟩ := remeasure_eq_ok hopen h
  obtain ⟨hseen, -⟩ | ⟨-, -, rfl⟩ := State.ingest_eq_ok hingest
  · exact absurd hseen hfresh
  · have hledger := Except.ok.inj (hfold.symm.trans (foldFrom_ingest c.ledger _ _))
    refine ⟨fun key => ?_, _, by rw [hledger], fun key => ?_⟩
    · rw [hledger]
      exact track_ingest c.ledger _ key
    · rw [mem_sortKeys, mem_filter, decide_eq_true_eq, mentioned_ingest, mem_mentioned,
        Campaign.active, mem_sortKeys]
      tauto

theorem track_of_mem_active (h : key ∈ c.active) :
    ∃ t, c.ledger.track key = some t ∧ t.status.active = true := by
  obtain ⟨info, hget, hactive⟩ := mem_active.1 h
  exact ⟨info.track, by rw [State.track, hget]; rfl, hactive⟩

theorem folds_of_fresh (hopen : c.lifecycle = .opened)
    (h : remeasure c outcomes given = .ok (c', o))
    (hfresh : c.digest outcomes given ∉ c.ledger.ingestedDigests) :
    (∀ key ∈ c.active, outcomes key = .pass → c'.ledger.keyStatus key = some .fixed) ∧
      ∀ key, Reopens c outcomes key → c'.ledger.keyStatus key = some .opened := by
  obtain ⟨htrack, -⟩ := remeasure_ingests hopen h hfresh
  refine ⟨fun key hkey hpass => ?_, fun key hreopens => ?_⟩
  · obtain ⟨t, ht, hactive⟩ := track_of_mem_active hkey
    have hobserved := observeAll_same (o := .fixed)
      (fun x (hx : x ∈ (c.audit outcomes (c.digest outcomes given)).observations c.ledger key) =>
        ((mem_observations.1 hx).2.resolve_right fun hr => by
          simp [hpass, Reopens] at hr).2)
      (ne_nil_of_mem (mem_observations.2 ⟨hkey, .inl ⟨hpass, rfl⟩⟩)) (some t)
    rw [keyStatus_eq, htrack, ht, hobserved]
    simp [observed?, Track.observe, hactive]
  · have hkey := mem_active_of_claimed hreopens.2
    have hobserved := observeAll_same (o := .reopened)
      (fun x (hx : x ∈ (c.audit outcomes (c.digest outcomes given)).observations c.ledger key) =>
        ((mem_observations.1 hx).2.resolve_left fun hl => by
          simp [hreopens.1] at hl).2)
      (ne_nil_of_mem (mem_observations.2 ⟨hkey, .inr ⟨hreopens, rfl⟩⟩)) (c.ledger.track key)
    obtain ⟨info, hget, hstatus⟩ := keyStatus_eq_some.1 (claimed_iff.1 hreopens.2)
    rw [keyStatus_eq, htrack, hobserved, State.track, hget]
    simp only [Option.map_some, observed?, Track.observe, Track.reopen, KeyInfo.track, hstatus]
    split <;> rfl

/-- A remeasure whose digest was seen leaves the ledger as it is. -/
theorem ledger_of_seen (hopen : c.lifecycle = .opened)
    (h : remeasure c outcomes given = .ok (c', o))
    (hseen : c.digest outcomes given ∈ c.ledger.ingestedDigests) : c'.ledger = c.ledger := by
  obtain ⟨⟨records, summary, hingest, hfold⟩, -⟩ := remeasure_eq_ok hopen h
  obtain ⟨-, rfl⟩ | ⟨hfresh, -⟩ := State.ingest_eq_ok hingest
  · exact (Except.ok.inj hfold).symm
  · exact absurd hseen hfresh

/-- **A remeasure folds what it observed exactly if the ledger has not seen its digest, or there is
nothing to fold.** -/
theorem folds_iff (hopen : c.lifecycle = .opened)
    (h : remeasure c outcomes given = .ok (c', o)) :
    Folds c c' outcomes o ↔ FreshOrIdle c outcomes given := by
  obtain ⟨-, hfixed, hreopened, hunexecuted, hbroken⟩ := remeasure_eq_ok hopen h
  have hnames : (∀ key, key ∈ o.observedFixed ↔ key ∈ c.active ∧ outcomes key = .pass) ∧
      (∀ key, key ∈ o.reopened ↔ Reopens c outcomes key) ∧
      ∀ key, key ∈ o.stillBroken ∨ key ∈ o.unexecuted ↔
        key ∈ c.active ∧ outcomes key ≠ .pass ∧ ¬ Reopens c outcomes key := by
    rw [hfixed, hreopened, hunexecuted, hbroken]
    refine ⟨fun key => by simp [Campaign.observedFixed], fun key => ?_, fun key => ?_⟩
    · simp only [Campaign.reopened, mem_filter, decide_eq_true_eq]
      exact ⟨And.right, fun hr => ⟨mem_active_of_claimed hr.2, hr⟩⟩
    · simp only [Campaign.stillBroken, Campaign.unexecuted, mem_filter, decide_eq_true_eq, Reopens]
      cases outcomes key <;> simp
  constructor
  · intro hfolds
    by_cases hseen : c.digest outcomes given ∈ c.ledger.ingestedDigests
    · have hsame := ledger_of_seen hopen h hseen
      have hidle (key : Key) (hkey : key ∈ c.active) :
          outcomes key ≠ .pass ∧ ¬ Reopens c outcomes key := by
        refine ⟨fun hpass => ?_, fun hreopens => ?_⟩
        · obtain ⟨info, hget, hactive⟩ := mem_active.1 hkey
          obtain ⟨info', hget', hstatus⟩ :=
            keyStatus_eq_some.1 (hsame ▸ hfolds.fixed key hkey hpass)
          obtain rfl := Option.some.inj (hget.symm.trans hget')
          rw [hstatus] at hactive
          exact absurd hactive (by decide)
        · have hopened := hsame ▸ hfolds.reopened key hreopens
          rw [claimed_iff.1 hreopens.2] at hopened
          exact absurd hopened (by decide)
      obtain ⟨keys, hkeys, hmem⟩ := hfolds.unobserved
      refine .inr ⟨hidle, keys, hsame ▸ hkeys, fun key => (hmem key).trans ?_⟩
      exact ⟨And.left, fun hkey => ⟨hkey, hidle key hkey⟩⟩
    · exact .inl hseen
  · rintro (hfresh | ⟨hidle, keys, hkeys, hmem⟩)
    · obtain ⟨hfixes, hreopens⟩ := folds_of_fresh hopen h hfresh
      exact ⟨hfixes, hreopens, (remeasure_ingests hopen h hfresh).2, hnames.1, hnames.2.1,
        hnames.2.2⟩
    · by_cases hseen : c.digest outcomes given ∈ c.ledger.ingestedDigests
      · have hsame := ledger_of_seen hopen h hseen
        refine ⟨fun key hkey hpass => absurd hpass (hidle key hkey).1, fun key hreopens =>
          absurd hreopens (hidle key (mem_active_of_claimed hreopens.2)).2,
          ⟨keys, hsame ▸ hkeys, fun key => (hmem key).trans ?_⟩, hnames.1, hnames.2.1, hnames.2.2⟩
        exact ⟨fun hkey => ⟨hkey, hidle key hkey⟩, And.left⟩
      · obtain ⟨hfixes, hreopens⟩ := folds_of_fresh hopen h hseen
        exact ⟨hfixes, hreopens, (remeasure_ingests hopen h hseen).2, hnames.1, hnames.2.1,
          hnames.2.2⟩

/-! ## Runs -/

/-- The calls on a campaign. A synthesized round has the keys that the plan covers. -/
inductive Call where
  | synthesizeRound (keys : List Key)
  | dispatchRound (round : Round) (success : Bool)
  | remeasure (outcomes : Key → Outcome) (given : Option String)

/-- `record_fix_claimed`, for a key that is active. -/
def claimFix (round : ℕ) (s : State) (key : Key) : State :=
  if (s.keyStatus key).any (·.active) then
    (foldOne s (.findingFixClaimed key "graph_success" (some (toString round)))).getD s
  else s

/-- A call that does not raise. -/
def perform : Call → Campaign → Option Campaign
  | .synthesizeRound keys, c =>
    if c.lifecycle = .opened ∧ c.active ≠ [] then
      some { c with rounds := c.rounds ++ [⟨c.roundsCompleted + 1, keys⟩] }
    else none
  | .dispatchRound round success, c =>
    if c.lifecycle = .opened ∧ round ∈ c.rounds then
      some { c with
        ledger := if success then round.keys.foldl (claimFix round.number) c.ledger else c.ledger
        roundsCompleted := max c.roundsCompleted round.number }
    else none
  | .remeasure outcomes given, c =>
    match remeasure c outcomes given with
    | .ok (c', _) => some c'
    | .error _ => none

/-- `open_campaign`, behind the ruling and the shape of the criteria. -/
def openCampaign (id : String) (roundBound : ℕ) (proposal : List ℕ)
    (record : PlanGraph.Convergence.Campaign) (seeds : List Finding)
    (assertions : Dict String Json) : Except String Campaign := do
  require (seeds ≠ []) "no success_criteria to seed a campaign from"
  require (seeds.map (·.key)).Nodup "success_criteria has duplicate key"
  let opened ← foldFrom .initial 1 [.campaignOpened record]
  let ingested ← opened.ingest
    ⟨"seed:" ++ Sha256.hexdigest proposal, seeds, [], [], ∅⟩
  let ledger ← foldFrom opened 2 ingested.1
  require (sortKeys ledger.activeKeys = sortKeys (seeds.map (·.key)))
    "seed ingest did not establish the expected key set"
  return ⟨id, .opened, 0, roundBound, [], assertions, ledger⟩

/-- A remeasure of an open campaign folds what it observed. -/
def FoldsObserved (c : Campaign) (call : Call) (c' : Campaign) : Prop :=
  match call with
  | .remeasure outcomes given => c.lifecycle = .opened →
    ∀ o, remeasure c outcomes given = .ok (c', o) → Folds c c' outcomes o
  | .synthesizeRound _ | .dispatchRound _ _ => True

/-- A remeasure of an open campaign comes with a new digest or has nothing to fold. -/
def Unrepeated (c : Campaign) (call : Call) (_ : Campaign) : Prop :=
  match call with
  | .remeasure outcomes given => c.lifecycle = .opened → FreshOrIdle c outcomes given
  | .synthesizeRound _ | .dispatchRound _ _ => True

/-- **Over any run every remeasure folds what it observed exactly if each comes with a new digest or
has nothing to fold.** -/
theorem remeasures_fold_iff (c : Campaign) (calls : List Call) :
    Inputs.AllSteps perform FoldsObserved c calls ↔
      Inputs.AllSteps perform Unrepeated c calls := by
  refine Inputs.AllSteps.congr (fun c call c' hstep => ?_) c calls
  cases call with
  | synthesizeRound | dispatchRound => rfl
  | remeasure outcomes given =>
    rw [perform] at hstep
    split at hstep
    · rename_i o hok
      cases hstep
      refine forall_congr' fun hopen => ⟨fun h => (folds_iff hopen hok).1 (h o hok), ?_⟩
      exact fun h o' hok' => (folds_iff hopen hok').2 h
    · cases hstep

theorem eq_ok_of_toOption {α : Type} {x : Except String α} {a : α} (h : x.toOption = some a) :
    x = .ok a := by
  cases x with
  | error message => cases h
  | ok b => exact congrArg Except.ok (Option.some.inj h)

/-- A campaign for one key. -/
def crashCampaign : Except String Campaign :=
  openCampaign "loop" 3 [] ⟨"self-improvement", .null, "base", none, none, none, none, .null⟩
    [⟨"a.py", "crash", ["a.py"], none, none, none, none, none, none, false, [], []⟩] ∅

/-- The repair is claimed, fails, and is claimed again in the same round. -/
def claimedTwice : List Call :=
  [.synthesizeRound [("a.py", "crash")], .dispatchRound ⟨1, [("a.py", "crash")]⟩ true,
    .remeasure (fun _ => .fail) none, .dispatchRound ⟨1, [("a.py", "crash")]⟩ true]

/-- The second failure has the digest of the first: it is reported and not folded. -/
theorem second_failure_unfolded : ∃ c, crashCampaign = .ok c ∧
    ¬ Inputs.AllSteps perform FoldsObserved c
      (claimedTwice ++ [.remeasure (fun _ => .fail) none]) := by
  have hrun : (crashCampaign.toOption.any fun c =>
      (Inputs.runInputs perform c claimedTwice).any fun c =>
        (decide (c.lifecycle = .opened) && c.claimed ("a.py", "crash")) &&
          (remeasure c (fun _ => .fail) none).toOption.any fun r =>
            r.1.ledger.keyStatus ("a.py", "crash") ≠ some .opened) = true := by decide +kernel
  generalize crashCampaign = opened at hrun ⊢
  obtain ⟨c, hc, hrun⟩ := (Option.any_eq_true ..).1 hrun
  obtain ⟨b, hb, hrun⟩ := (Option.any_eq_true ..).1 hrun
  rw [Bool.and_eq_true, Bool.and_eq_true, decide_eq_true_iff] at hrun
  obtain ⟨⟨hopen, hclaimed⟩, hstatus⟩ := hrun
  obtain ⟨⟨c', o⟩, hok, hstatus⟩ := (Option.any_eq_true ..).1 hstatus
  refine ⟨c, eq_ok_of_toOption hc, fun h => ?_⟩
  have hok := eq_ok_of_toOption hok
  have hfolds := h.of_runInputs hb (by rw [perform, hok]) hopen o hok
  exact of_decide_eq_true hstatus (hfolds.reopened _ ⟨rfl, hclaimed⟩)

end HarnessLabs.Improvement
