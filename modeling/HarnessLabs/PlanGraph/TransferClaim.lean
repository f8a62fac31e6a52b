import HarnessLabs.FeatureRun.ReviewFreeze

/-!
# Transfers and their validation

A review loop moves a finding to the one owner of its downstream paths and exports the record; when
the node seals, the controller recomputes the owner from the exported paths. The two agree at the
moment of the transfer. They stay in agreement exactly as long as no later report brings the record
a path of another owner, since the ledger merges the paths of a report into a transferred record.

* `Owned` — the owner of every path is the one that the record names.
* `AdvancesTransfer` — what the controller does with the exported record of such a finding.
* `MergesOwned` — the reports of a cycle bring transferred records no path of another owner.
* `transfers_accepted` — **in every run of such cycles all exported transfers are accepted.**
* `transfer_refused` — a report after the transfer makes the controller refuse the record.
-/

namespace HarnessLabs.PlanGraph

open FeatureRun List Option
open Inputs (RunsUnder)

/-! ## Owners -/

variable {T : Dict String String}

variable {target key : String} {paths : List String} {r : FindingRecord} {policy : ReviewFixPolicy}
  {before : Dict String FindingRecord}

theorem ownerForPath_mem {path : String} (h : ownerForPath T path = some target) :
    target ∈ T.values := by
  rw [ownerForPath] at h
  generalize hmatching : (T.items.filter fun g => grantMatches g.1 path).map (fun g =>
    ((pathParts g.1).length, g.2)) = matching at h
  cases howners : deepestOwners matching with
  | nil => simp [howners, theOnly] at h
  | cons owner rest =>
    cases rest with
    | cons other rest => simp [howners, theOnly] at h
    | nil =>
      simp only [howners, theOnly, Option.some.injEq] at h
      subst h
      have hmem : owner ∈ deepestOwners matching := by simp [howners]
      rw [deepestOwners, List.mem_dedup, List.mem_map] at hmem
      obtain ⟨m, hm, rfl⟩ := hmem
      have hfirst := (List.mem_filter.1 hm).1
      rw [← hmatching, List.mem_map] at hfirst
      obtain ⟨g, hg, rfl⟩ := hfirst
      exact List.mem_map_of_mem (List.mem_filter.1 hg).1

theorem asPosix_ne_empty (path : String) : asPosix path ≠ "" := by
  rw [asPosix]
  split_ifs with hnil
  · decide
  · cases hparts : pathParts path with
    | nil => exact absurd hparts hnil
    | cons part rest =>
      have hpart : part ≠ "" := by
        have hmem : part ∈ pathParts path := by simp [hparts]
        simp only [pathParts, mem_filter, decide_eq_true_eq] at hmem
        exact hmem.2.1
      intro hempty
      have hchars := congrArg String.toList hempty
      rw [String.toList_ofList] at hchars
      cases rest with
      | nil =>
        simp only [map_cons, map_nil, List.intercalate, List.intersperse,
          flatten_cons, flatten_nil, append_nil, String.toList_empty] at hchars
        exact hpart (String.toList_inj.1 hchars)
      | cons other rest =>
        simp [List.intercalate] at hchars

theorem grantMatches_empty (grant : String) : grantMatches grant "" = false := by
  rw [grantMatches, pathsOutsideScope, normalizeAllowedPaths]
  cases hnormal : normalizeAllowedPath grant with
  | error message => simp [hnormal, bind, Except.bind]
  | ok root =>
    have hroot : root = asPosix grant := by
      rw [normalizeAllowedPath] at hnormal
      split_ifs at hnormal
      exact (Except.ok.inj hnormal).symm
    have hunder : underRoot root "" = false := by
      have hne : root ≠ "" := hroot ▸ asPosix_ne_empty grant
      simp [underRoot, hasPrefix, Ne.symm hne]
    simp [hnormal, bind, Except.bind, pure, Except.pure, hunder]

/-- An owned path is a path. -/
theorem ne_empty_of_ownerForPath {path : String} (h : ownerForPath T path = some target) :
    path ≠ "" := by
  rintro rfl
  simp [ownerForPath, grantMatches_empty, deepestOwners, theOnly] at h

theorem uniqueOwner_eq_some (h : FindingRecord.uniqueOwner T paths = some target) :
    paths ≠ [] ∧ ∀ path ∈ paths, ownerForPath T path = some target := by
  rw [FindingRecord.uniqueOwner] at h
  split at h
  · next owner howners =>
    cases h
    constructor
    · rintro rfl
      simp at howners
    · intro path hpath
      have hmem : ownerForPath T path ∈ (paths.map (ownerForPath T)).dedup :=
        mem_dedup.2 (mem_map_of_mem hpath)
      rw [howners, mem_singleton] at hmem
      exact hmem
  · cases h

/-! ## Records -/

/-- A transferred record whose paths all belong to the owner that it names. -/
def Owned (T : Dict String String) (r : FindingRecord) : Prop :=
  r.outcome = .transferred →
    r.requiredPaths ≠ [] ∧ ∀ path ∈ r.requiredPaths, ownerForPath T path = some r.transferredTo

/-- The controller advances the exported record, to a node that is neither done nor current and owes
no finding of the same key. -/
def AdvancesTransfer (T : Dict String String) (r : FindingRecord) : Prop :=
  ∀ (run : PlanRun) (completed : Dict String String) (pending : Obligations),
    r.transferredTo ∉ completed.keys → r.transferredTo ≠ run.id →
    (pending.owed r.transferredTo).any (·.key = r.key) = false →
    ∃ after, transferFinding run T completed pending r.toJson = .ok after

theorem get?_toJson :
    r.toJson.get? "key" = some (.str r.key) ∧
      r.toJson.get? "transferred_to" = some (.str r.transferredTo) ∧
      r.toJson.get? "required_paths" = some (.arr (r.requiredPaths.map .str)) := by
  refine ⟨Json.get?_ofMembers ?_ ?_, Json.get?_ofMembers ?_ ?_, Json.get?_ofMembers ?_ ?_⟩
  all_goals simp

theorem mapM_asStr? (h : ∀ path ∈ paths, path ≠ "") :
    (paths.map Json.str).mapM (fun item => item.asStr?.filter (· ≠ "")) = some paths := by
  induction paths with
  | nil => rfl
  | cons path rest ih =>
    have hpath : path ≠ "" := h path mem_cons_self
    rw [map_cons, mapM_cons, ih fun p hp => h p (mem_cons_of_mem _ hp)]
    simp [Json.asStr?, Option.filter, hpath]

theorem nonEmptyTexts?_paths (hne : paths ≠ []) (h : ∀ path ∈ paths, path ≠ "") :
    nonEmptyTexts? (some (.arr (paths.map .str))) = some paths := by
  cases paths with
  | nil => exact absurd rfl hne
  | cons path rest => exact mapM_asStr? h

theorem eq_of_mapM_asStr? {texts : List String}
    (h : (paths.map Json.str).mapM (fun item => item.asStr?.filter (· ≠ "")) = some texts) :
    texts = paths ∧ ∀ path ∈ paths, path ≠ "" := by
  induction paths generalizing texts with
  | nil =>
    simp at h
    simp [h]
  | cons path rest ih =>
    rw [map_cons, mapM_cons] at h
    by_cases hpath : path = ""
    · simp [Json.asStr?, Option.filter, hpath] at h
    · have hhead : (Json.str path).asStr?.filter (· ≠ "") = some path := by
        simp [Json.asStr?, Option.filter, hpath]
      rw [hhead] at h
      cases hrest : (rest.map Json.str).mapM (fun item => item.asStr?.filter (· ≠ "")) with
      | none =>
        rw [hrest] at h
        cases h
      | some more =>
        rw [hrest] at h
        obtain ⟨rfl, hmore⟩ := ih hrest
        refine ⟨(Option.some.inj h).symm, fun p hp => ?_⟩
        rcases mem_cons.1 hp with rfl | hp
        · exact hpath
        · exact hmore p hp

theorem ofRecord?_toJson (hkey : r.key ≠ "") :
    ∃ o, Obligation.ofRecord? r.toJson = some o ∧ o.key = r.key := by
  rw [Obligation.ofRecord?]
  split
  · next key h =>
    rw [get?_toJson.1, Option.some.injEq, Json.str.injEq] at h
    subst h
    simp [hkey]
  · next h => exact absurd get?_toJson.1 (h r.key)

/-- What the controller does with the exported record of a finding that has some paths. -/
theorem transferFinding_toJson (hnamed : r.transferredTo ≠ "") (hkey : r.key ≠ "")
    (hpaths : r.requiredPaths ≠ []) (hne : ∀ path ∈ r.requiredPaths, path ≠ "") (run : PlanRun)
    (completed : Dict String String) (pending : Obligations) :
    ∃ o : Obligation, o.key = r.key ∧ transferFinding run T completed pending r.toJson =
      if ¬ r.requiredPaths.all (fun path => ownerForPath T path = some r.transferredTo) then
        .error s!"finding {o.key} did not resolve uniquely to '{r.transferredTo}'"
      else if r.transferredTo ∈ completed.keys ∨ r.transferredTo = run.id then
        .error s!"finding {o.key} was transferred to a completed or current node"
      else addObligation
        s!"duplicate transferred finding {o.key} for node {r.transferredTo}" pending
        r.transferredTo o := by
  obtain ⟨o, ho, hokey⟩ := ofRecord?_toJson hkey
  obtain ⟨-, htarget, hrequired⟩ := @get?_toJson r
  refine ⟨o, hokey, ?_⟩
  rw [transferFinding, ho, htarget, hrequired, nonEmptyTexts?_paths hpaths hne]
  simp only [bind_some, Json.asStr?, if_neg hnamed]

/-- **The controller accepts a transferred record exactly when it owns its paths.** -/
theorem advances_iff (hnamed : r.transferredTo ≠ "") (hkey : r.key ≠ "")
    (htransferred : r.outcome = .transferred) : AdvancesTransfer T r ↔ Owned T r := by
  constructor
  · intro haccepted _
    -- Any other node, with nothing done and nothing owed, would do.
    obtain ⟨after, hafter⟩ := haccepted ⟨r.transferredTo ++ "'", [], []⟩ ∅ ∅ (by simp)
      (by simp [← String.toList_inj]) (by rfl)
    have htexts : ∃ texts, nonEmptyTexts? (r.toJson.get? "required_paths") = some texts := by
      obtain ⟨o, ho, -⟩ := ofRecord?_toJson hkey
      cases htexts : nonEmptyTexts? (r.toJson.get? "required_paths") with
      | some texts => exact ⟨texts, rfl⟩
      | none =>
        rw [transferFinding, ho, get?_toJson.2.1, htexts] at hafter
        cases hafter
    obtain ⟨texts, htexts⟩ := htexts
    rw [get?_toJson.2.2] at htexts
    have hpaths : r.requiredPaths ≠ [] := by
      intro hnil
      simp [hnil, nonEmptyTexts?] at htexts
    have hne : ∀ path ∈ r.requiredPaths, path ≠ "" := by
      cases hlist : r.requiredPaths with
      | nil => simp
      | cons path rest =>
        rw [hlist] at htexts
        exact (eq_of_mapM_asStr? htexts).2
    obtain ⟨o, -, hresult⟩ := transferFinding_toJson (T := T) hnamed hkey hpaths hne
      ⟨r.transferredTo ++ "'", [], []⟩ ∅ ∅
    rw [hafter] at hresult
    split_ifs at hresult with howned
    exact ⟨hpaths, by simpa using howned⟩
  · intro howned run completed pending hcompleted hcurrent hduplicate
    obtain ⟨hpaths, howners⟩ := howned htransferred
    obtain ⟨o, hokey, hresult⟩ := transferFinding_toJson (T := T) hnamed hkey hpaths
      (fun path hpath => ne_empty_of_ownerForPath (howners path hpath)) run completed pending
    rw [if_neg (by simpa using howners), if_neg (by simp [hcompleted, hcurrent]), addObligation,
      if_neg (by rw [hokey]; simpa using hduplicate)] at hresult
    exact ⟨_, hresult⟩

/-! ## Operations -/

/-- A record with a key that owns its paths if it is transferred. -/
def Claim (T : Dict String String) (_ : String) (r : FindingRecord) : Prop :=
  r.key ≠ "" ∧ Owned T r

theorem Claim.of_outcome (hkey : r.key ≠ "") (h : r.outcome ≠ .transferred) : Claim T key r :=
  ⟨hkey, fun htransferred => absurd htransferred h⟩

theorem claim_screened (hkey : r.key ≠ "") (hopened : r.outcome = .opened) :
    Claim T key (r.screened policy) := by
  rw [FindingRecord.screened]
  split_ifs
  · exact .of_outcome hkey (by simp)
  · exact .of_outcome hkey (by simp)
  · exact .of_outcome hkey (by simp)
  · exact .of_outcome hkey (by simp)
  · exact .of_outcome hkey (by simp [hopened])

theorem claim_screenRecord {allowedPaths : List String} {r' : FindingRecord} (h : Claim T key r)
    (hok : screenRecord policy allowedPaths r = .ok r') :
    Claim T key r' := by
  rw [screenRecord] at hok
  split_ifs at hok with hclosed
  · cases hok
    exact h
  · cases hok
    exact h
  · rw [not_not] at hclosed
    cases houtside : r.anchorOutside allowedPaths with
    | error message => simp [houtside, bind, Except.bind] at hok
    | ok outside =>
      cases hfixable : r.fixableInGrant allowedPaths with
      | error message => simp [houtside, hfixable, bind, Except.bind] at hok
      | ok fixable =>
        simp only [houtside, hfixable, bind, Except.bind, Except.ok.injEq] at hok
        subst hok
        exact claim_screened h.1 hclosed

theorem keeps_claim (loop : ReviewFixLoop) (policy : ReviewFixPolicy) (allowedPaths : List String) :
    Keeps loop policy allowedPaths (fun _ => True) (Claim loop.findingTransferTargets) where
  resolved current key r h := by
    rw [resolveAbsence]
    split_ifs
    · exact .of_outcome h.1 (by simp)
    · exact .of_outcome h.1 (by simp)
    · exact h
  screened _ _ _ := claim_screenRecord
  transferred key r h := by
    rw [FindingRecord.transfer]
    split
    · exact h
    · next target htarget =>
      rw [FindingRecord.transferTarget] at htarget
      split_ifs at htarget
      exact ⟨h.1, fun _ => uniqueOwner_eq_some htarget⟩
  escalated _ _ _ h := .of_outcome h.1 (by simp [FindingRecord.escalate])
  attempted _ _ _ h := h
  verified _ _ outcome _ houtcome h := by
    refine .of_outcome h.1 ?_
    intro htransferred
    simp [show outcome = .transferred from htransferred] at houtcome
  sunk key r h := by
    rw [ReviewLedger.sink]
    split_ifs
    · exact h
    · exact .of_outcome h.1 (by simp)
    · exact h

/-! ## Batches -/

theorem batchKey_ne_empty (policy : ReviewFixPolicy) (cycle ordinal : ℕ) (current : List String)
    (f : Finding) : batchKey policy cycle ordinal current f ≠ "" := by
  obtain ⟨path, name, hkey, -⟩ := toList_findingKey f.value
  intro h
  have hchars := congrArg String.toList h
  rw [batchKey] at hchars
  split_ifs at hchars
  all_goals simp [String.toList_append, hkey, toString] at hchars

theorem key_of_mem_keyed {cycle : ℕ} {findings : List Finding} :
    ∀ {ordinal : ℕ} {current : List String}, ∀ report ∈ keyed policy cycle ordinal current findings,
      report.key ≠ "" := by
  induction findings with
  | nil => simp [keyed]
  | cons f rest ih =>
    intro ordinal current report hreport
    rcases mem_cons.1 hreport with rfl | hreport
    · exact batchKey_ne_empty policy cycle ordinal current f
    · exact ih report hreport

/-- A record that, if it is transferred, already was before the batch, to the same node. -/
def ClaimSince (T : Dict String String) (before : Dict String FindingRecord) (key : String)
    (r : FindingRecord) : Prop :=
  Claim T key r ∧ (r.outcome = .transferred → ∃ r₀, before.get? key = some r₀ ∧
    r₀.outcome = .transferred ∧ r₀.transferredTo = r.transferredTo)

/-- A report merged into a transferred record brings paths of its owner only. -/
def MergesInto (T : Dict String String) (before : Dict String FindingRecord) (report : Report) :
    Prop :=
  ∀ r, before.get? report.key = some r → r.outcome = .transferred →
    ∀ path ∈ report.finding.requiredPaths, ownerForPath T path = some r.transferredTo

/-- A merge keeps the claim exactly when the report brings paths of the owner only. -/
theorem owned_merge_iff (h : Owned T r) (htransferred : r.outcome = .transferred) (f : Finding)
    (cycle : ℕ) : Owned T (mergeOccurrence r f cycle) ↔
      ∀ path ∈ f.requiredPaths, ownerForPath T path = some r.transferredTo := by
  obtain ⟨hpaths, howners⟩ := h htransferred
  constructor
  · intro hmerged path hpath
    exact (hmerged htransferred).2 path (mem_appendNew.2 (.inr hpath))
  · intro hmerges _
    refine ⟨?_, fun path hpath => ?_⟩
    · obtain ⟨path, hpath⟩ := exists_mem_of_ne_nil _ hpaths
      exact ne_nil_of_mem (mem_appendNew.2 (.inl hpath))
    · exact (mem_appendNew.1 hpath).elim (howners path) (hmerges path)

theorem ClaimSince.merge {report : Report} (h : ClaimSince T before report.key r)
    (hmerges : MergesInto T before report) (cycle : ℕ) :
    ClaimSince T before report.key (mergeOccurrence r report.finding cycle) := by
  obtain ⟨⟨hkey, howned⟩, hsince⟩ := h
  refine ⟨⟨hkey, fun htransferred => ?_⟩, hsince⟩
  obtain ⟨r₀, hr₀, houtcome, htarget⟩ := hsince htransferred
  have hpaths : ∀ path ∈ report.finding.requiredPaths,
      ownerForPath T path = some r.transferredTo :=
    fun path hpath => htarget ▸ hmerges r₀ hr₀ houtcome path hpath
  exact (owned_merge_iff howned htransferred report.finding cycle).2 hpaths htransferred

theorem ClaimSince.reconsider (h : ClaimSince T before key r) (policy : ReviewFixPolicy)
    (f : Finding) :
    ClaimSince T before key (FeatureRun.reconsider policy r f) := by
  rw [FeatureRun.reconsider]
  split_ifs
  · exact h
  · exact h
  · exact ⟨.of_outcome h.1.1 (by simp), by simp⟩
  · exact h

theorem ingestReport_claim {frozen : Bool} {cycle : ℕ} {findings after : Dict String FindingRecord}
    {report : Report} (hkey : report.key ≠ "") (hmerges : MergesInto T before report)
    (h : findings.All (ClaimSince T before))
    (hok : ingestReport policy frozen cycle findings report = .ok after) :
    after.All (ClaimSince T before) := by
  rw [ingestReport] at hok
  by_cases hduplicate : report.duplicate = true
  · rw [if_pos hduplicate] at hok
    exact all_updateKey h (fun r hr => hr.merge hmerges cycle) hok
  · rw [if_neg hduplicate] at hok
    cases hget : findings.get? report.key with
    | none =>
      cases hnew : newRecord report.key report.finding cycle with
      | error message => simp [hget, hnew, Except.map] at hok
      | ok r =>
        simp only [hget, hnew, Except.map, Except.ok.injEq] at hok
        subst hok
        obtain ⟨hrkey, hopened, -, -⟩ := newRecord_eq_ok hnew
        refine h.set ?_
        split_ifs
        · exact ⟨.of_outcome (hrkey ▸ hkey) (by simp), by simp⟩
        · exact ⟨.of_outcome (hrkey ▸ hkey) (by simp [hopened]), by simp [hopened]⟩
    | some r =>
      simp only [hget, Except.ok.injEq] at hok
      subst hok
      exact h.set (((h report.key r hget).merge hmerges cycle).reconsider policy report.finding)

/-! ## Runs -/

/-- The reports of the cycle bring transferred records no path of another owner. -/
def MergesOwned (loop : ReviewFixLoop) (s : ReviewState) (replies : CycleReplies) : Prop :=
  ∀ values findings, replies.review = .ok values →
    values.mapM (scopeFinding loop.allowedPaths) = .ok findings →
    ∀ report ∈ keyed s.ledger.policy (s.cycle + 1) 1 [] findings,
      MergesInto loop.findingTransferTargets s.ledger.findings report

/-- A ledger that loops with these targets have left in cycles of this kind, each one beginning with
transfers and with a ledger that such loops have left. -/
inductive LeftUnder (T : Dict String String) : ReviewLedger → Prop where
  | left {loop : ReviewFixLoop} {s₀ s : ReviewState} (htargets : loop.findingTransferTargets = T)
      (hresumed : ∀ l, loop.resumedLedger = some l → LeftUnder T l)
      (origin : FindingRecord → ReviewLedger)
      (hretained : ∀ r ∈ loop.retainedTransfers, r ∈ (origin r).transferred)
      (horigin : ∀ r ∈ loop.retainedTransfers, LeftUnder T (origin r))
      (hstart : loop.start = .ok s₀) (run : RunsUnder (MergesOwned loop) loop.step s₀ s) :
      LeftUnder T s.ledger

section Runs

variable {loop : ReviewFixLoop} {s₀ s s' : ReviewState} {l : ReviewLedger}

theorem claim_of_transferred {r : FindingRecord} (hl : l.findings.All (Claim T))
    (hr : r ∈ l.transferred) : r.outcome = .transferred ∧ r.key ≠ "" ∧ Owned T r := by
  obtain ⟨key, hget, houtcome⟩ := ReviewLedger.mem_recordsWhere.1 hr
  exact ⟨by simpa using houtcome, hl key r hget⟩

theorem claim_start (hstart : loop.start = .ok s₀)
    (hresumed : ∀ l, loop.resumedLedger = some l → l.findings.All (Claim T))
    (hretained : ∀ r ∈ loop.retainedTransfers, r.outcome = .transferred ∧ Owned T r) :
    s₀.ledger.findings.All (Claim T) := by
  have hinherited : ∀ r ∈ loop.inheritedFindings, r.key ≠ "" → Claim T r.key r.reopen :=
    fun r _ hkey => .of_outcome hkey (by simp [FindingRecord.reopen])
  have hinitial := ledger_start hstart
  rw [ReviewFixLoop.initialLedger] at hinitial
  split_ifs at hinitial
  · exact (seededLedger_all hinitial hinherited (by simp)).2.2
  · cases hl : loop.resumedLedger with
    | none =>
      rw [hl] at hinitial
      refine (seededLedger_all hinitial hinherited ?_).2.2
      intro r hr hkey
      obtain ⟨htransferred, howned⟩ := hretained r hr
      exact ⟨hkey, fun _ => howned htransferred⟩
    | some l =>
      simp only [hl, Except.ok.injEq] at hinitial
      rw [← hinitial]
      exact hresumed l hl

theorem claim_step {replies : CycleReplies} (hmerges : MergesOwned loop s replies)
    (h : s.ledger.findings.All (Claim loop.findingTransferTargets))
    (hstep : loop.step replies s = some s') :
    Concluded (fun _ => True) (Claim loop.findingTransferTargets) s.ledger (s.cycle + 1) s' := by
  have keeps := keeps_claim loop s.ledger.policy s.ledger.allowedPaths
  rw [ReviewFixLoop.step] at hstep
  split_ifs at hstep
  · cases hstep
    exact boundedStep_concluded loop keeps.toKeepsFix h (fun _ _ => trivial) _ replies
  · cases hstep
    refine cycleStep_concluded keeps h _ _ replies ?_ fun _ _ _ _ => trivial
    intro values findings hvalues hscope
    have hsince : s.ledger.findings.All
        (ClaimSince loop.findingTransferTargets s.ledger.findings) :=
      fun key r hr => ⟨h key r hr, fun htransferred => ⟨r, hr, htransferred, rfl⟩⟩
    let body := ingestReport s.ledger.policy s.ledger.discoveryFrozen (s.cycle + 1)
    have hbatch := @Until.foldUntil_invariant _ _ _ body _ _ _ hsince
      fun findings report hreport after hall hok =>
        ingestReport_claim (key_of_mem_keyed report hreport)
          (hmerges values _ hvalues hscope report hreport) hall hok
    exact fun key r hr => (hbatch key r hr).1

theorem claim_run (h : s₀.ledger.findings.All (Claim loop.findingTransferTargets))
    (run : RunsUnder (MergesOwned loop) loop.step s₀ s) :
    s.ledger.findings.All (Claim loop.findingTransferTargets) := by
  refine run.invariant (P := fun s => s.ledger.findings.All (Claim loop.findingTransferTargets)) ?_ h
  intro replies x y hmerges hstep hx
  exact (claim_step hmerges hx hstep).follows.findings

/-- **Ledgers that such loops have left own the paths of their transfers.** -/
theorem LeftUnder.claim (h : LeftUnder T l) : l.findings.All (Claim T) := by
  induction h with
  | left htargets _ origin hretained _ hstart run ihresumed ihorigin =>
    subst htargets
    refine claim_run (claim_start hstart ihresumed fun r hr => ?_) run
    obtain ⟨htransferred, -, howned⟩ := claim_of_transferred (ihorigin r hr) (hretained r hr)
    exact ⟨htransferred, howned⟩

/-- The transfers that a loop reports are those of its ledger. -/
theorem exported_run (hs₀ : ∀ result, s₀.result = some result →
      result.transferredFindings = s₀.ledger.transferred)
    (hl : s₀.ledger.findings.All (Claim loop.findingTransferTargets))
    (run : RunsUnder (MergesOwned loop) loop.step s₀ s) {result : ReviewFixResult}
    (hresult : s.result = some result) : result.transferredFindings = s.ledger.transferred := by
  have hboth : s.ledger.findings.All (Claim loop.findingTransferTargets) ∧
      ∀ result, s.result = some result → result.transferredFindings = s.ledger.transferred := by
    refine run.invariant (P := fun s => s.ledger.findings.All (Claim loop.findingTransferTargets) ∧
      ∀ result, s.result = some result → result.transferredFindings = s.ledger.transferred) ?_
      ⟨hl, hs₀⟩
    intro replies x y hmerges hstep hx
    have hconcluded := claim_step hmerges hx.1 hstep
    exact ⟨hconcluded.follows.findings, hconcluded.sealed.exported⟩
  exact hboth.2 result hresult

theorem exported_start (hstart : loop.start = .ok s₀) {result : ReviewFixResult}
    (hresult : s₀.result = some result) : result.transferredFindings = s₀.ledger.transferred := by
  rw [ReviewFixLoop.start] at hstart
  cases hinitial : loop.initialLedger with
  | error message => simp [hinitial, Except.map] at hstart
  | ok l =>
    simp only [hinitial, Except.map, Except.ok.injEq] at hstart
    subst hstart
    split_ifs at hresult ⊢
    cases hresult
    rfl

/-- **The controller accepts every transfer that a loop exports, where no report brings a transferred
record a path of another owner.** -/
theorem transfers_accepted (hnamed : "" ∉ T.values) (htargets : loop.findingTransferTargets = T)
    (hresumed : ∀ l, loop.resumedLedger = some l → LeftUnder T l)
    (hretained : ∀ r ∈ loop.retainedTransfers, ∃ l, LeftUnder T l ∧ r ∈ l.transferred)
    (hstart : loop.start = .ok s₀) (run : RunsUnder (MergesOwned loop) loop.step s₀ s) :
    (∀ r ∈ s.ledger.transferred, AdvancesTransfer T r) ∧
      ∀ result, s.result = some result → ∀ r ∈ result.transferredFindings, AdvancesTransfer T r := by
  subst htargets
  have hclaim₀ : s₀.ledger.findings.All (Claim loop.findingTransferTargets) := by
    refine claim_start hstart (fun l hl => (hresumed l hl).claim) fun r hr => ?_
    obtain ⟨l, hleft, hmem⟩ := hretained r hr
    obtain ⟨htransferred, -, howned⟩ := claim_of_transferred hleft.claim hmem
    exact ⟨htransferred, howned⟩
  have haccepted : ∀ r ∈ s.ledger.transferred, AdvancesTransfer loop.findingTransferTargets r := by
    intro r hr
    obtain ⟨htransferred, hkey, howned⟩ := claim_of_transferred (claim_run hclaim₀ run) hr
    have htarget : r.transferredTo ≠ "" := by
      obtain ⟨hpaths, howners⟩ := howned htransferred
      obtain ⟨path, hpath⟩ := exists_mem_of_ne_nil _ hpaths
      exact fun hempty => hnamed (hempty ▸ ownerForPath_mem (howners path hpath))
    exact (advances_iff htarget hkey htransferred).2 howned
  refine ⟨haccepted, fun result hresult r hr => haccepted r ?_⟩
  rwa [← exported_run (fun _ => exported_start hstart) hclaim₀ run hresult]

end Runs

/-- A loop with two downstream nodes. -/
def transferringLoop : ReviewFixLoop :=
  { plainLoop with findingTransferTargets := Dict.ofList [("docs", "guide"), ("lib", "library")] }

/-- A required finding of the tests outside the grant of the loop. -/
def staleDocs (path : String) : Json :=
  Json.ofMembers [("id", .str "F2"), ("file", .str "src/app.py"), ("subject", .str "stale docs"),
    ("statement", .str "stale docs"), ("severity", .str "major"), ("protects", .str "AC1"),
    ("requires_disposition", .bool true), ("required_paths", .arr [.str path])]

/-- A finding that its first review transfers. -/
theorem transfers_accepted_first : ∃ s, stateAfter transferringLoop
      [repliesOf [staleDocs "docs/guide.md"] [] []] = some s ∧
    s.ledger.transferred.map (·.transferredTo) = ["guide"] ∧
    ∀ r ∈ s.ledger.transferred, AdvancesTransfer transferringLoop.findingTransferTargets r := by
  have hended : (stateAfter transferringLoop [repliesOf [staleDocs "docs/guide.md"] [] []]).map
      (fun s => s.ledger.transferred.map (·.transferredTo)) = some ["guide"] := by
    decide +kernel
  have hempty : (transferringLoop.start.toOption.map fun s => s.ledger.findings.keys) = some [] := by
    decide +kernel
  obtain ⟨s, hs, htargets⟩ := map_eq_some_iff.1 hended
  rw [stateAfter, bind_eq_some_iff] at hs
  obtain ⟨s₀, hstart, hrun⟩ := hs
  rw [hstart, map_some, Option.some.injEq] at hempty
  rw [Inputs.runInputs, bind_eq_some_iff] at hrun
  obtain ⟨s', hstep, hlast⟩ := hrun
  obtain rfl := Option.some.inj hlast
  have hmerges : MergesOwned transferringLoop s₀ (repliesOf [staleDocs "docs/guide.md"] [] []) := by
    intro _ _ _ _ report _ r hr
    have hmem := Dict.mem_keys_iff.2 ⟨r, hr⟩
    simp [hempty] at hmem
  have hstart' : transferringLoop.start = .ok s₀ := by
    cases h : transferringLoop.start with
    | error message => simp [h, Except.toOption] at hstart
    | ok s => simpa [h, Except.toOption] using hstart
  refine ⟨s', ?_, htargets, ?_⟩
  · rw [stateAfter, hstart, bind_some, Inputs.runInputs, hstep]
    rfl
  · exact (transfers_accepted (by decide) rfl (by simp [transferringLoop, plainLoop])
      (by simp [transferringLoop, plainLoop]) hstart' (.single ⟨_, hmerges, hstep⟩)).1

/-- **A later report of a transferred finding brings it a path of another node: the loop succeeds, and
the controller refuses the record that it exports.** -/
theorem transfer_refused :
    (stateAfter transferringLoop [
        repliesOf [crashOnEmptyInput true, staleDocs "docs/guide.md"] ["src/app.py:crash"]
          ["src/app.py:crash"],
        repliesOf [staleDocs "lib/api.py"] [] []]).bind (fun s => s.result.map fun result =>
      (result.status, result.transferredFindings.map fun r =>
        (r.transferredTo, r.requiredPaths,
          match transferFinding ⟨"node", [], ["src"]⟩ transferringLoop.findingTransferTargets
            (∅ : Dict String String) ∅ r.toJson with
          | .ok _ => none
          | .error message => some message))) =
    some (.succeeded, [("guide", ["docs/guide.md", "lib/api.py"],
      some "finding src/app.py:stale-docs did not resolve uniquely to 'guide'")]) := by
  decide +kernel

end HarnessLabs.PlanGraph
