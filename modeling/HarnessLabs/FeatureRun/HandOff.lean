import HarnessLabs.FeatureRun.ReviewInvariant

/-!
# What a hand-off keeps

A finding that the node may not fix is handed to the owner downstream of the paths that it needs
beyond the node's own. Which of its paths are the node's own is decided by looking them up among the
granted paths; the write boundary decides it by containment.

* `outsideGrant` — the required paths that the node's grant does not contain.
* `KeepsOwn` — the finding is handed off when those have one owner downstream, and with those.
* `hand_off_keeps_own_iff` — **a hand-off keeps what the node owns exactly when the two ways to
  decide agree on the required paths and no anchor stands in for them, or nobody owns the paths.**
* `own_path_handed_off` — a finding on a file of the node's directory is handed off.
-/

namespace HarnessLabs.FeatureRun

namespace FindingRecord

variable (r : FindingRecord)

/-- The write boundary lets the node write the path. -/
def Contained (currentPaths : List String) (path : String) : Prop :=
  pathsOutsideScope [path] currentPaths = .ok []

instance (currentPaths : List String) (path : String) : Decidable (Contained currentPaths path) :=
  inferInstanceAs (Decidable (_ = _))

/-- The required paths that the node's grant does not contain. -/
def outsideGrant (currentPaths : List String) : List String :=
  r.requiredPaths.filter fun path => ¬ Contained currentPaths path

/-- The findings that `transfer_scope_expanding` considers. -/
def Eligible : Prop :=
  (r.outcome = .opened ∨ r.anchorOutOfGrant ∧ r.outcome = .scopeScreened) ∧
    (r.scopeExpanding ∨ r.anchorOutOfGrant) ∧ r.transferEligible

instance : Decidable r.Eligible := inferInstanceAs (Decidable (_ ∧ _))

/-- The anchor stands in for required paths: all of them are granted, and the anchor is not. -/
def AnchorStandsIn (currentPaths : List String) : Prop :=
  (∀ path ∈ r.requiredPaths, path ∈ currentPaths) ∧ r.anchorOutOfGrant = true ∧
    (if r.anchorPath = "" then r.file else r.anchorPath) ≠ "" ∧
    (if r.anchorPath = "" then r.file else r.anchorPath) ∉ currentPaths

/-- The grant contains exactly those of the required paths that are granted by name. -/
def SplitsAgree (currentPaths : List String) : Prop :=
  (∀ path ∈ r.requiredPaths, path ∈ currentPaths ↔ Contained currentPaths path) ∧
    ¬ r.AnchorStandsIn currentPaths

variable {r}

theorem filter_granted_eq_outsideGrant {currentPaths : List String} :
    r.requiredPaths.filter (· ∉ currentPaths) = r.outsideGrant currentPaths ↔
      ∀ path ∈ r.requiredPaths, path ∈ currentPaths ↔ Contained currentPaths path := by
  constructor
  · intro h path hpath
    have hmem : path ∈ r.requiredPaths.filter (· ∉ currentPaths) ↔
        path ∈ r.outsideGrant currentPaths := by rw [h]
    simp only [outsideGrant, List.mem_filter, hpath, true_and, decide_eq_true_eq] at hmem
    exact not_iff_not.1 hmem
  · intro h
    refine List.filter_congr fun path hpath => ?_
    rw [decide_eq_decide]
    exact not_congr (h path hpath)

/-- **The paths that are looked up are those outside the grant exactly when the splits agree.** -/
theorem downstreamPaths_eq_outsideGrant {currentPaths : List String} :
    r.downstreamPaths currentPaths = r.outsideGrant currentPaths ↔ r.SplitsAgree currentPaths := by
  have hgranted : r.requiredPaths.filter (· ∉ currentPaths) = [] ↔
      ∀ path ∈ r.requiredPaths, path ∈ currentPaths := by simp
  rw [downstreamPaths, SplitsAgree]
  generalize hanchor : (if r.anchorPath = "" then r.file else r.anchorPath) = anchor
  by_cases hfallback : r.requiredPaths.filter (· ∉ currentPaths) = [] ∧ r.anchorOutOfGrant = true
  · rw [if_pos hfallback]
    by_cases hnamed : anchor ≠ "" ∧ anchor ∉ currentPaths
    · rw [List.filter_cons_of_pos (by simpa using hnamed), List.filter_nil]
      refine iff_of_false (fun h => ?_) fun h => h.2 ?_
      · have hmem : anchor ∈ r.outsideGrant currentPaths := h ▸ List.mem_singleton_self anchor
        exact hnamed.2 (hgranted.1 hfallback.1 anchor (List.mem_of_mem_filter hmem))
      · rw [AnchorStandsIn, hanchor]
        exact ⟨hgranted.1 hfallback.1, hfallback.2, hnamed⟩
    · rw [List.filter_cons_of_neg (by simpa using hnamed), List.filter_nil, ← hfallback.1,
        filter_granted_eq_outsideGrant, iff_self_and, AnchorStandsIn, hanchor]
      exact fun _ hstands => hnamed hstands.2.2
  · rw [if_neg hfallback, filter_granted_eq_outsideGrant, iff_self_and, AnchorStandsIn]
    exact fun _ hstands => hfallback ⟨hgranted.2 hstands.1, hstands.2.1⟩

theorem transferTarget_of_eligible {targets : Dict String String} {currentPaths : List String}
    (h : r.Eligible) :
    r.transferTarget targets currentPaths = uniqueOwner targets (r.downstreamPaths currentPaths) :=
  if_pos h

end FindingRecord

/-! ## Hand-offs -/

open FindingRecord (uniqueOwner)

/-- The finding of the key is handed off exactly when the required paths that the node's grant does
not contain have one owner downstream, and with exactly those. -/
def KeepsOwn (l : ReviewLedger) (targets : Dict String String) (originNode : String)
    (currentPaths : List String) (key : String) (r : FindingRecord) : Prop :=
  (key ∈ (l.transferScopeExpanding targets originNode currentPaths).2 ↔
    r.outsideGrant currentPaths ≠ [] ∧
      ∃ target, uniqueOwner targets (r.outsideGrant currentPaths) = some target) ∧
  ∀ handed, key ∈ (l.transferScopeExpanding targets originNode currentPaths).2 →
    (l.transferScopeExpanding targets originNode currentPaths).1.findings.get? key = some handed →
      handed.requiredPaths = r.outsideGrant currentPaths

section HandOffs

variable {l : ReviewLedger} {targets : Dict String String} {originNode : String}
  {currentPaths : List String} {key : String} {r : FindingRecord}

theorem mem_transferred_iff (hget : l.findings.get? key = some r) (h : r.Eligible) :
    key ∈ (l.transferScopeExpanding targets originNode currentPaths).2 ↔
      ∃ target, uniqueOwner targets (r.downstreamPaths currentPaths) = some target := by
  rw [← Option.isSome_iff_exists, ← FindingRecord.transferTarget_of_eligible h]
  rw [ReviewLedger.transferScopeExpanding, ReviewLedger.mem_keysWhere]
  constructor
  · intro ⟨other, hother, hsome⟩
    rw [hget, Option.some_inj] at hother
    rwa [hother]
  · intro hsome
    exact ⟨r, hget, hsome⟩

/-- The record of a finding that is handed off, with the paths that are looked up. -/
theorem requiredPaths_of_transferred (hget : l.findings.get? key = some r) (h : r.Eligible)
    {target : String} (howner : uniqueOwner targets (r.downstreamPaths currentPaths) = some target)
    {handed : FindingRecord}
    (hhanded : (l.transferScopeExpanding targets originNode currentPaths).1.findings.get? key =
      some handed) :
    handed.requiredPaths = r.downstreamPaths currentPaths ∧ handed.outcome = .transferred := by
  have hset : (l.findings.mapValues fun _ r => r.transfer targets originNode
      currentPaths).get? key = some handed := hhanded
  rw [Dict.get?_mapValues, hget, Option.map_some, Option.some_inj] at hset
  subst hset
  rw [FindingRecord.transfer, FindingRecord.transferTarget_of_eligible h, howner]
  exact ⟨rfl, rfl⟩

theorem uniqueOwner_nil (targets : Dict String String) : uniqueOwner targets [] = none := rfl

/-- Both ways to split the paths lead nowhere, or they agree. -/
def SplitsWell (targets : Dict String String) (currentPaths : List String) (r : FindingRecord) :
    Prop :=
  r.SplitsAgree currentPaths ∨
    uniqueOwner targets (r.downstreamPaths currentPaths) = none ∧
      uniqueOwner targets (r.outsideGrant currentPaths) = none

theorem keepsOwn_iff (hget : l.findings.get? key = some r) (h : r.Eligible) :
    KeepsOwn l targets originNode currentPaths key r ↔ SplitsWell targets currentPaths r := by
  rw [KeepsOwn, mem_transferred_iff hget h, SplitsWell, ← r.downstreamPaths_eq_outsideGrant]
  have hnonempty : ∀ {paths target}, uniqueOwner targets paths = some target → paths ≠ [] := by
    intro paths target howner hnil
    rw [hnil, uniqueOwner_nil] at howner
    cases howner
  constructor
  · intro ⟨hiff, hexported⟩
    cases hlookup : uniqueOwner targets (r.downstreamPaths currentPaths) with
    | none =>
      right
      refine ⟨rfl, ?_⟩
      cases houtside : uniqueOwner targets (r.outsideGrant currentPaths) with
      | none => rfl
      | some target =>
        obtain ⟨other, hother⟩ := hiff.2 ⟨hnonempty houtside, target, houtside⟩
        rw [hlookup] at hother
        cases hother
    | some target =>
      left
      have hsome : (l.transferScopeExpanding targets originNode currentPaths).1.findings.get? key =
          some (r.transfer targets originNode currentPaths) := by
        show (l.findings.mapValues fun _ r => r.transfer targets originNode currentPaths).get? key =
          _
        rw [Dict.get?_mapValues, hget, Option.map_some]
      rw [← hexported _ ⟨target, hlookup⟩ hsome]
      exact (requiredPaths_of_transferred hget h hlookup hsome).1.symm
  · intro hwell
    rcases hwell with hsame | ⟨hlookup, houtside⟩
    · rw [hsame]
      refine ⟨⟨fun ⟨target, htarget⟩ => ⟨hnonempty htarget, target, htarget⟩, And.right⟩, ?_⟩
      intro handed ⟨target, htarget⟩ hhanded
      rw [← hsame] at htarget
      rw [(requiredPaths_of_transferred hget h htarget hhanded).1, hsame]
    · rw [hlookup, houtside]
      exact ⟨by simp, fun handed ⟨_, hnone⟩ => nomatch hnone⟩

end HandOffs

/-- A finding on a file of the node that grows its surface. -/
def growingFinding : Finding where
  value := Json.ofMembers [("file", .str "src/app.py"), ("subject", .str "option"),
    ("fix_cost", .str "surface-growing"), ("requires_disposition", .bool true)]
  requiredPaths := ["src/app.py"]
  scopeExpanding := false

/-- The ledger of a node that may write a directory, behind a review. -/
def growingLedger : ReviewLedger :=
  (ReviewLedger.ingest { policy := .standard, riskTier := .mechanical, allowedPaths := ["src"] }
    [growingFinding] 1).1

end HarnessLabs.FeatureRun
