import HarnessLabs.Lib.Until
import HarnessLabs.PlanGraph.ConvergenceView

/-!
# Stalls and base rebases

A base rebase turns every fix into a claim, and the next audit observes the claim again. Neither
counts as a failed repair, but a fix that is verified again leaves a second mark, and a fix that is
not found any more is open again without one. Behind that the ledger can show other stalled keys
than it would without the rebase.

* `Stage` — how far the marks of a key have come towards a relapse; `relapsed_iff`.
* `Alike` — tracks that stall alike, whatever is done to both.
* `Restored` — the audit verifies the fix again and leaves its stage.
* `rebase_neutral_iff` — **the rebase and its audit are neutral exactly when every fix is restored**
  or its key is stalled already. For the other direction a key that is not restored is claimed and
  reopened until one ledger shows it as stalled and the other does not.
-/

namespace HarnessLabs.PlanGraph.Convergence

open List Option
open Audit (bind_eq_ok)
open Behaviour (Indistinguishable)
open Controller (isBlank nonBlankText)

/-! ## Stages of a relapse -/

inductive Stage where
  | clear | fixed | reopened | fixedAgain | relapsed
  deriving DecidableEq

def Stage.mark : Stage → Mark → Stage
  | .relapsed, _ | .fixedAgain, .reopened => .relapsed
  | .clear, .fixed | .fixed, .fixed | .fixedAgain, .fixed => .fixed
  | .reopened, .fixed => .fixedAgain
  | .fixed, .reopened => .reopened
  | .clear, .reopened | .reopened, .reopened => .clear

/-- The longest part of a relapse that the marks end with. -/
def stage (marks : List Mark) : Stage := marks.foldl Stage.mark .clear

theorem stage_append (marks more : List Mark) :
    stage (marks ++ more) = more.foldl Stage.mark (stage marks) := foldl_append

variable {marks : List Mark} {t u : Option Track} {key : Key} {auditResult : Json} {a : AuditResult}
  {s : State} {journal records : List Record}

theorem concat_suffix_concat {l : List Mark} {a m : Mark} :
    l ++ [a] <:+ marks ++ [m] ↔ l <:+ marks ∧ a = m := by
  rw [suffix_append_inj_of_length_eq (show [a].length = [m].length from rfl),
    singleton_inj]

/-- What the stage says of the last marks. -/
structure Staged (marks : List Mark) : Prop where
  relapsed : stage marks = .relapsed ↔ [.fixed, .reopened, .fixed, .reopened] <:+: marks
  fixedAgain : stage marks ≠ .relapsed →
    (stage marks = .fixedAgain ↔ [.fixed, .reopened, .fixed] <:+ marks)
  reopened : stage marks ≠ .relapsed → (stage marks = .reopened ↔ [.fixed, .reopened] <:+ marks)
  fixed : stage marks ≠ .relapsed →
    (stage marks = .fixed ∨ stage marks = .fixedAgain ↔ [.fixed] <:+ marks)

theorem staged (marks : List Mark) : Staged marks := by
  induction marks using List.reverseRecOn with
  | nil =>
    refine ⟨?_, fun _ => ?_, fun _ => ?_, fun _ => ?_⟩ <;> simp [stage]
  | append_singleton marks m ih =>
    have hfour : [Mark.fixed, .reopened, .fixed, .reopened] <:+ marks ++ [m] ↔
        [Mark.fixed, .reopened, .fixed] <:+ marks ∧ .reopened = m :=
      concat_suffix_concat (l := [.fixed, .reopened, .fixed])
    have hthree : [Mark.fixed, .reopened, .fixed] <:+ marks ++ [m] ↔
        [Mark.fixed, .reopened] <:+ marks ∧ .fixed = m :=
      concat_suffix_concat (l := [.fixed, .reopened])
    have htwo : [Mark.fixed, .reopened] <:+ marks ++ [m] ↔ [Mark.fixed] <:+ marks ∧ .reopened = m :=
      concat_suffix_concat (l := [.fixed])
    have hone : [Mark.fixed] <:+ marks ++ [m] ↔ [] <:+ marks ∧ .fixed = m :=
      concat_suffix_concat (l := [])
    have hstage : stage (marks ++ [m]) = (stage marks).mark m := stage_append marks [m]
    refine ⟨?_, fun hlive => ?_, fun hlive => ?_, fun hlive => ?_⟩
    · rw [infix_concat_iff, hfour, ← ih.relapsed, hstage]
      by_cases hlive : stage marks = .relapsed
      · simp [hlive, Stage.mark]
      · rw [← ih.fixedAgain hlive]
        cases h : stage marks <;> cases m <;> simp_all [Stage.mark]
    all_goals
      rw [hstage] at hlive ⊢
      have hbefore : stage marks ≠ .relapsed := by
        intro h
        exact hlive (by rw [h, Stage.mark])
    · rw [hthree, ← ih.reopened hbefore]
      cases h : stage marks <;> cases m <;> simp_all [Stage.mark]
    · rw [htwo, ← ih.fixed hbefore]
      cases h : stage marks <;> cases m <;> simp_all [Stage.mark]
    · rw [hone]
      cases h : stage marks <;> cases m <;> simp_all [Stage.mark]

theorem relapsed_iff_infix :
    Relapsed marks = true ↔ [.fixed, .reopened, .fixed, .reopened] <:+: marks := by
  rw [Relapsed, List.any_eq_true]
  constructor
  · rintro ⟨start, -, h⟩
    rw [decide_eq_true_eq] at h
    rw [← h]
    exact ( take_prefix _ _).isInfix.trans (drop_suffix _ _).isInfix
  · rintro ⟨front, back, h⟩
    refine ⟨front.length, ?_, ?_⟩
    · rw [← h]
      simp only [length_append, mem_range, length_cons, length_nil]
      omega
    · rw [← h]
      simp

theorem relapsed_iff : Relapsed marks = true ↔ stage marks = .relapsed :=
  relapsed_iff_infix.trans (staged marks).relapsed.symm

/-! ## Tracks that stall alike -/

namespace Track

variable {t u : Track}

theorem stalled_iff :
    t.stalled = true ↔ 2 ≤ t.claims ∨ stage t.pattern = .relapsed := by
  rw [stalled, Bool.or_eq_true, decide_eq_true_eq, relapsed_iff]

/-- The later track has the claims and the marks of the earlier one. -/
structure Extends (t u : Track) : Prop where
  claims : t.claims ≤ u.claims
  pattern : t.pattern <+: u.pattern

theorem Extends.stalled (h : Extends t u) (ht : t.stalled = true) :
    u.stalled = true := by
  rw [stalled_iff, ← relapsed_iff, relapsed_iff_infix] at ht ⊢
  exact ht.imp (fun hclaims => hclaims.trans h.claims) fun hmarks =>
    hmarks.trans h.pattern.isInfix

theorem extends_reopen (t : Track) : Extends t t.reopen := by
  unfold reopen
  cases t.status with
  | fixClaimed =>
    by_cases hdemoted : t.demoted
    · simp only [hdemoted, if_true]
      exact ⟨Nat.le_refl _, prefix_refl _⟩
    · simp only [hdemoted]
      exact ⟨Nat.le_succ _, prefix_append _ _⟩
  | fixed => exact ⟨Nat.le_refl _, prefix_append _ _⟩
  | opened | excluded | amended | invalidated => exact ⟨Nat.le_refl _, prefix_refl _⟩

theorem extends_observe (t : Track) (o : Observation) : Extends t (t.observe o) := by
  cases o with
  | fixed =>
    rw [observe]
    split_ifs
    · exact ⟨Nat.le_refl _, prefix_append _ _⟩
    · exact ⟨Nat.le_refl _, prefix_refl _⟩
  | reopened | emitted => exact t.extends_reopen
  | invalidated =>
    rw [observe]
    split_ifs <;> exact ⟨Nat.le_refl _, prefix_refl _⟩
  | confirmed => exact ⟨Nat.le_refl _, prefix_refl _⟩

theorem extends_claim (t : Track) : Extends t t.claim := by
  unfold claim
  split_ifs <;> exact ⟨Nat.le_refl _, prefix_refl _⟩

theorem extends_rule (d : Disposition) (t : Track) : Extends t (t.rule d) :=
  ⟨Nat.le_refl _, prefix_refl _⟩

theorem extends_rebase (t : Track) : Extends t t.rebase := by
  unfold rebase
  split_ifs <;> exact ⟨Nat.le_refl _, prefix_refl _⟩

/-- Neither is stalled, and they go on alike. -/
structure Matched (t u : Track) : Prop where
  status : t.status = u.status
  claims : t.claims = u.claims
  stage : stage t.pattern = stage u.pattern
  demoted : t.status = .fixClaimed → t.demoted = u.demoted

/-- Tracks that are both stalled, or match. -/
def Alike (t u : Track) : Prop := t.stalled = true ∧ u.stalled = true ∨ Matched t u

theorem Alike.refl (t : Track) : Alike t t := .inr ⟨rfl, rfl, rfl, fun _ => rfl⟩

theorem Alike.stalled (h : Alike t u) : t.stalled = u.stalled := by
  rcases h with ⟨ht, hu⟩ | h
  · rw [ht, hu]
  · rw [Bool.eq_iff_iff, stalled_iff, stalled_iff, h.claims, h.stage]

theorem Alike.map {f : Track → Track} (hextends : ∀ t, Extends t (f t))
    (hmatched : ∀ t u, Matched t u → Matched (f t) (f u)) (h : Alike t u) :
    Alike (f t) (f u) :=
  h.imp (fun h => ⟨(hextends t).stalled h.1, (hextends u).stalled h.2⟩) (hmatched t u)

theorem stage_concat {marks others : List Mark} (h : Convergence.stage marks =
    Convergence.stage others) (m : Mark) :
    Convergence.stage (marks ++ [m]) = Convergence.stage (others ++ [m]) := by
  rw [stage_append, stage_append, h]

theorem Matched.reopen (h : Matched t u) : Matched t.reopen u.reopen := by
  obtain ⟨hstatus, hclaims, hstage, hdemoted⟩ := h
  unfold Track.reopen
  rw [← hstatus]
  cases hcase : t.status with
  | fixClaimed =>
    rw [← hdemoted hcase]
    by_cases hd : t.demoted
    · simp only [hd, if_true]
      exact ⟨rfl, hclaims, hstage, nofun⟩
    · simp only [hd]
      exact ⟨rfl, congrArg (· + 1) hclaims, stage_concat hstage _, nofun⟩
  | fixed => exact ⟨rfl, hclaims, stage_concat hstage _, nofun⟩
  | opened | excluded | amended | invalidated => exact ⟨hstatus, hclaims, hstage, hdemoted⟩

theorem Matched.observe (h : Matched t u) (o : Observation) :
    Matched (t.observe o) (u.observe o) := by
  cases o with
  | fixed =>
    rw [Track.observe, Track.observe, h.status]
    split_ifs
    · exact ⟨rfl, h.claims, stage_concat h.stage _, fun h => by cases h⟩
    · exact h
  | reopened | emitted => exact h.reopen
  | invalidated =>
    rw [Track.observe, Track.observe, h.status]
    split_ifs
    · exact ⟨rfl, h.claims, h.stage, fun h => by cases h⟩
    · exact h
  | confirmed => exact ⟨rfl, h.claims, h.stage, fun h => by cases h⟩

theorem Matched.claim (h : Matched t u) : Matched t.claim u.claim := by
  rw [Track.claim, Track.claim, h.status]
  split_ifs
  · exact ⟨rfl, h.claims, h.stage, fun _ => rfl⟩
  · exact h

theorem Matched.rule (h : Matched t u) (d : Disposition) :
    Matched (t.rule d) (u.rule d) := by
  refine ⟨congrArg d.rule h.status, h.claims, h.stage, fun hclaimed => ?_⟩
  cases d with
  | waive | amendCriterion => cases hclaimed
  | requireRepair => exact h.demoted hclaimed

theorem Matched.rebase (h : Matched t u) : Matched t.rebase u.rebase := by
  rw [Track.rebase, Track.rebase, h.status]
  split_ifs
  · exact ⟨rfl, h.claims, h.stage, fun _ => rfl⟩
  · exact h

theorem Alike.observe (h : Alike t u) (o : Observation) :
    Alike (t.observe o) (u.observe o) :=
  h.map (f := (·.observe o)) (·.extends_observe o) fun _ _ h => h.observe o

end Track

open Track (Alike)

/-! ## Views that stall alike -/

/-- The same digests, cells and keys, and tracks that stall alike. -/
structure AlikeViews (v w : View) : Prop where
  digests : v.digests = w.digests
  cells : v.cells = w.cells
  track : ∀ key, Option.Rel Alike (v.track key) (w.track key)

theorem alike_refl (t : Option Track) : Option.Rel Alike t t := by
  cases t with
  | none => exact .none
  | some t => exact .some (.refl t)

theorem alike_map {f : Track → Track} (hf : ∀ t u, Alike t u → Alike (f t) (f u))
    (h : Option.Rel Alike t u) : Option.Rel Alike (t.map f) (u.map f) := by
  cases h with
  | none => exact .none
  | some h => exact .some (hf _ _ h)

theorem alike_observeAll (observations : List Observation) (h : Option.Rel Alike t u) :
    Option.Rel Alike (observeAll observations t) (observeAll observations u) := by
  induction observations generalizing t u with
  | nil => exact h
  | cons o rest ih =>
    refine ih ?_
    cases h with
    | none => exact alike_refl _
    | some h => exact .some (h.observe o)

theorem alike_none_iff (h : Option.Rel Alike t u) : t = none ↔ u = none := by
  cases h <;> simp

theorem alike_stalled (h : Option.Rel Alike t u) :
    t.any (·.stalled) = u.any (·.stalled) := by
  cases h with
  | none => rfl
  | some h => exact h.stalled

namespace AlikeViews

variable {v w : View}

theorem update (h : AlikeViews v w) (key : Key) {f : Track → Track}
    (hf : ∀ t u, Alike t u → Alike (f t) (f u)) : AlikeViews (v.update key f) (w.update key f) := by
  refine ⟨h.digests, h.cells, fun other => ?_⟩
  simp only [View.update]
  split_ifs
  · exact alike_map hf (h.track other)
  · exact h.track other

theorem rebase (h : AlikeViews v w) : AlikeViews v.rebase w.rebase :=
  ⟨h.digests, h.cells, fun key =>
    alike_map (fun _ _ h => h.map Track.extends_rebase fun _ _ h => h.rebase) (h.track key)⟩

theorem ingest (h : AlikeViews v w) (a : AuditResult) : AlikeViews (v.ingest a) (w.ingest a) := by
  unfold View.ingest
  simp only [h.digests, alike_none_iff (h.track _)]
  split_ifs
  · exact h
  · refine ⟨rfl, congrArg (·.update a.captureCoverage) h.cells, fun key => ?_⟩
    simp only [h.cells]
    exact alike_observeAll _ (h.track key)

/-- **Every operation keeps the tracks alike.** -/
theorem effect (h : AlikeViews v w) (op : Operation) : AlikeViews (op.effect v) (op.effect w) := by
  cases op with
  | openCampaign | recordTargetAmendment => exact h
  | ingestAudit auditResult =>
    simp only [Operation.effect]
    cases validateAudit auditResult with
    | ok a => exact h.ingest a
    | error message => exact h
  | recordFixClaimed key =>
    simp only [Operation.effect]
    cases validateKey key "record_fix_claimed" with
    | ok key => exact h.update key fun _ _ h => h.map Track.extends_claim fun _ _ h => h.claim
    | error message => exact h
  | recordRuling key disposition statement =>
    simp only [Operation.effect]
    cases validateKey key "record_ruling" with
    | error message => exact h
    | ok key =>
      cases disposition? disposition with
      | none => exact h
      | some d =>
        split_ifs
        · exact h
        · exact h.update key fun _ _ h => h.map (Track.extends_rule d) fun _ _ h => h.rule d
  | recordBaseRebase => exact h.rebase

theorem stalled (h : AlikeViews v w) : v.stalled = w.stalled := by
  funext key
  exact alike_stalled (h.track key)

theorem indistinguishable (h : AlikeViews v w) :
    Indistinguishable Operation.effect View.stalled v w :=
  .of_bisimulation (fun _ _ op h => h.effect op) (fun _ _ h => h.stalled) h

end AlikeViews

/-! ## A fix that is observed again -/

namespace Track

/-- The track behind the claims and the marks of an earlier one. -/
def onTop (t : Track) (claims : ℕ) (marks : List Mark) : Track :=
  { t with claims := claims + t.claims, pattern := marks ++ t.pattern }

theorem reopen_onTop (t : Track) (claims : ℕ) (marks : List Mark) :
    (t.onTop claims marks).reopen = t.reopen.onTop claims marks := by
  unfold reopen onTop
  cases hstatus : t.status with
  | fixClaimed => by_cases hdemoted : t.demoted <;> simp [hdemoted, Nat.add_assoc]
  | fixed => simp
  | opened | excluded | amended | invalidated => simp [hstatus]

theorem observe_onTop (t : Track) (claims : ℕ) (marks : List Mark) (o : Observation) :
    (t.onTop claims marks).observe o = (t.observe o).onTop claims marks := by
  cases o with
  | fixed =>
    by_cases hactive : t.status.active <;> simp [observe, onTop, hactive]
  | reopened | emitted => exact t.reopen_onTop claims marks
  | invalidated => by_cases hactive : t.status.active <;> simp [observe, onTop, hactive]
  | confirmed => rfl

theorem observeAll_onTop (t : Track) (claims : ℕ) (marks : List Mark)
    (observations : List Observation) :
    observeAll observations (some (t.onTop claims marks)) =
      some ((observations.foldl observe t).onTop claims marks) := by
  induction observations generalizing t with
  | nil => rfl
  | cons o rest ih =>
    rw [observeAll_cons, observed?, observe_onTop, ih, foldl_cons]

/-- A claim that a rebase demoted. -/
def demotedClaim : Track := ⟨.fixClaimed, true, 0, []⟩

/-- The marks of an audit on a fix that a rebase demoted. -/
structure Reobserved (t : Track) : Prop where
  demoted : t.demoted = true
  claims : t.claims = 0
  fixed : t.status = .fixed → t.pattern = [.fixed] ∨ t.pattern = [.fixed, .reopened, .fixed] ∨
    [.fixed, .reopened, .fixed, .reopened] <+: t.pattern
  active : t.status.active → t.pattern = [] ∨ t.pattern = [.fixed, .reopened] ∨
    [.fixed, .reopened, .fixed, .reopened] <+: t.pattern

theorem Reobserved.reopen {t : Track} (h : Reobserved t) : Reobserved t.reopen := by
  obtain ⟨hdemoted, hclaims, hfixed, hactive⟩ := h
  unfold Track.reopen
  cases hstatus : t.status with
  | fixClaimed =>
    rw [if_pos hdemoted]
    exact ⟨hdemoted, hclaims, nofun, fun _ => hactive (by rw [hstatus]; rfl)⟩
  | fixed =>
    refine ⟨hdemoted, hclaims, nofun, fun _ => ?_⟩
    rcases hfixed hstatus with hone | hthree | hmore
    · exact .inr (.inl (by simp [hone]))
    · exact .inr (.inr (by simp [hthree]))
    · exact .inr (.inr (hmore.trans (prefix_append _ _)))
  | opened | excluded | amended | invalidated => exact ⟨hdemoted, hclaims, hfixed, hactive⟩

theorem Reobserved.observe {t : Track} (h : Reobserved t) (o : Observation) :
    Reobserved (t.observe o) := by
  cases o with
  | fixed =>
    rw [Track.observe]
    split_ifs with hactive
    · refine ⟨h.demoted, h.claims, fun _ => ?_, fun h => by cases h⟩
      rcases h.active hactive with hnone | htwo | hmore
      · exact .inl (by simp [hnone])
      · exact .inr (.inl (by simp [htwo]))
      · exact .inr (.inr (hmore.trans (prefix_append _ _)))
    · exact h
  | reopened | emitted => exact h.reopen
  | invalidated =>
    rw [Track.observe]
    split_ifs
    · exact ⟨h.demoted, h.claims, (fun h => by cases h), fun h => by cases h⟩
    · exact h
  | confirmed => exact ⟨h.demoted, h.claims, (fun h => by cases h), fun h => by cases h⟩

theorem reobserved_foldl (observations : List Observation) :
    Reobserved (observations.foldl observe demotedClaim) :=
  List.foldlRecOn observations observe
    ⟨rfl, rfl, nofun, fun _ => .inl rfl⟩ fun _ h o _ => h.observe o

end Track

/-- What the observations make of a fix that a rebase demoted, and the marks that they add. -/
def reobserve (observations : List Observation) : Track :=
  observations.foldl Track.observe Track.demotedClaim

/-- The observations verify the fix again, and the marks that they add lead its history back to
where it was: another fix, unless that breaks off a relapse that has come as far as its third
mark. -/
structure Restored (observations : List Observation) (marks : List Mark) : Prop where
  fixed : (reobserve observations).status = .fixed
  marks : (reobserve observations).pattern =
    if [.fixed, .reopened, .fixed] <:+ marks then [.fixed, .reopened, .fixed] else [.fixed]

section Marks

variable {marks more : List Mark} (hmarks : stage marks = .fixed ∨ stage marks = .fixedAgain)
  (hmore : more = [.fixed] ∨ more = [.fixed, .reopened, .fixed] ∨
    [.fixed, .reopened, .fixed, .reopened] <+: more)

include hmarks hmore

/-- Where a fix that is verified again leads from a fix. -/
theorem stage_verified : stage (marks ++ more) = .fixed ∧ more = [.fixed] ∨
    stage (marks ++ more) = .fixedAgain ∧ more = [.fixed, .reopened, .fixed] ∨
      stage (marks ++ more) = .relapsed ∧ more ≠ [.fixed] ∧
        more ≠ [.fixed, .reopened, .fixed] := by
  rcases hmore with rfl | rfl | hmany
  · rcases hmarks with h | h <;> simp [stage_append, h, Stage.mark]
  · rcases hmarks with h | h <;> simp [stage_append, h, Stage.mark]
  · refine .inr (.inr ⟨?_, ?_, ?_⟩)
    · rw [← relapsed_iff, relapsed_iff_infix]
      exact hmany.isInfix.trans (suffix_append marks more).isInfix
    · rintro rfl
      exact absurd hmany.length_le (by simp)
    · rintro rfl
      exact absurd hmany.length_le (by simp)

/-- The marks of a fix that is verified again leave its stage exactly when they restore it. -/
theorem stage_restored : stage (marks ++ more) = stage marks ↔
    more = if [.fixed, .reopened, .fixed] <:+ marks then [.fixed, .reopened, .fixed]
      else [.fixed] := by
  have hlive : stage marks ≠ .relapsed := by
    rintro h
    simp [h] at hmarks
  have hthird := (staged marks).fixedAgain hlive
  rcases stage_verified hmarks hmore with ⟨hstage, rfl⟩ | ⟨hstage, rfl⟩ | ⟨hstage, hone, hthree⟩ <;>
    rcases hmarks with h | h <;> simp_all

end Marks

/-! ## Probes -/

/-- What tells two tracks apart: an audit that finds the key again, and a claim. -/
inductive Probe where
  | reopen | claim

def Track.probe (t : Track) : Probe → Track
  | .reopen => t.reopen
  | .claim => t.claim

/-- A fix goes on like no other status, or stage, with as many claims. -/
theorem exists_probes (demoted demoted' : Bool) {status : Status} {claims : ℕ} {others : List Mark}
    (hstage : stage marks = .fixed ∨ stage marks = .fixedAgain) (hclaims : claims < 2)
    (hdemoted : status = .fixClaimed → demoted' = true) (hothers : status = .fixed →
      stage others = .fixed ∨ stage others = .fixedAgain ∨ stage others = .relapsed)
    (hlost : ¬ (status = .fixed ∧ stage others = stage marks)) :
    ¬ Indistinguishable Track.probe Track.stalled ⟨.fixed, demoted, claims, marks⟩
      ⟨status, demoted', claims, others⟩ := by
  intro hall
  have hprobes : ∀ probes : List Probe,
      (probes.foldl Track.probe ⟨.fixed, demoted, claims, marks⟩).stalled = true ↔
        (probes.foldl Track.probe ⟨status, demoted', claims, others⟩).stalled = true :=
    fun probes => Bool.eq_iff_iff.1 (hall probes)
  simp only [Track.stalled_iff] at hprobes
  have hlive : stage others ≠ .relapsed := by
    intro hothers
    have h := hprobes []
    rcases hstage with hmarks | hmarks <;> simp [hmarks, hothers] at h <;> omega
  cases status with
  | fixed =>
    have h := hprobes [.reopen]
    rcases hstage with hmarks | hmarks <;> rcases hothers rfl with ho | ho | ho <;>
      simp [Track.probe, Track.reopen, stage_append, hmarks, ho, Stage.mark] at h hlost hlive
    all_goals omega
  | opened =>
    rcases hstage with hmarks | hmarks
    · -- Two failed claims stall the open key; the fix reopens once only.
      have hone := hprobes [.claim, .reopen]
      have htwo := hprobes [.claim, .reopen, .claim, .reopen]
      simp [Track.probe, Track.reopen, Track.claim, Status.active, stage_append, hmarks,
        Stage.mark] at hone htwo
      omega
    · -- The fix relapses.
      have h := hprobes [.reopen]
      simp [Track.probe, Track.reopen, stage_append, hmarks, hlive, Stage.mark] at h
      omega
  | fixClaimed =>
    obtain rfl := hdemoted rfl
    rcases hstage with hmarks | hmarks
    · have hone := hprobes [.claim, .reopen]
      have htwo := hprobes [.claim, .reopen, .claim, .reopen]
      simp [Track.probe, Track.reopen, Track.claim, Status.active, stage_append, hmarks,
        Stage.mark] at hone htwo
      omega
    · have h := hprobes [.reopen]
      simp [Track.probe, Track.reopen, stage_append, hmarks, hlive, Stage.mark] at h
      omega
  | invalidated | excluded | amended =>
    -- The fix comes to two failed claims; the closed key stays.
    have h := hprobes [.reopen, .claim, .reopen, .claim, .reopen]
    simp [Track.probe, Track.reopen, Track.claim, Status.active, hlive] at h
    omega

/-! ## The keys of a ledger can be cited -/

/-- Both texts of the key can be cited. -/
def Citable (key : Key) : Prop := isBlank key.1 = false ∧ isBlank key.2 = false

def View.Named (v : View) : Prop := ∀ key, (v.track key).isSome → Citable key

theorem validateKey_citable {raw : Json} {owner : String} (h : validateKey raw owner = .ok key) :
    Citable key := by
  unfold validateKey at h
  split at h
  · rename_i file subject
    by_cases hblank : isBlank file ∨ isBlank subject
    · simp [hblank] at h
    · rw [if_neg hblank] at h
      cases h
      simpa [Citable, not_or] using hblank
  · cases h

theorem requireText_citable {value : Json} {message text : String}
    (h : requireText value message = .ok text) : isBlank text = false := by
  unfold requireText nonBlankText at h
  cases value with
  | str s =>
    by_cases hblank : isBlank s
    · simp [hblank] at h
    · simp only [hblank] at h
      cases h
      simpa using hblank
  | null | bool | int | arr | obj => cases h

theorem validateFinding_citable {item : Json} {finding : Finding}
    (h : validateFinding item = .ok finding) : Citable finding.key := by
  obtain ⟨-, -, h⟩ := bind_eq_ok.1 h
  obtain ⟨file, hfile, h⟩ := bind_eq_ok.1 h
  obtain ⟨subject, hsubject, h⟩ := bind_eq_ok.1 h
  have hkey : finding.key = (file, subject) := by
    simp only [bind_eq_ok] at h
    obtain ⟨_, -, _, -, _, -, _, -, _, -, _, -, _, -, _, -, _, -, _, -, _, -, _, -, h⟩ := h
    rw [← Except.ok.inj h]
    rfl
  rw [hkey]
  exact ⟨requireText_citable hfile, requireText_citable hsubject⟩

theorem validateConfirmedGood_citable {item : Json} {entry : ConfirmedGood}
    (h : validateConfirmedGood item = .ok entry) : Citable entry.key := by
  obtain ⟨-, -, h⟩ := bind_eq_ok.1 h
  obtain ⟨key, hkey, h⟩ := bind_eq_ok.1 h
  obtain ⟨_, -, h⟩ := bind_eq_ok.1 h
  obtain ⟨_, -, h⟩ := bind_eq_ok.1 h
  rw [← Except.ok.inj h]
  exact validateKey_citable hkey

/-- A key that an audit makes known is one of its findings, or of its confirmed entries. -/
theorem observed_citable (hvalid : validateAudit auditResult = .ok a) {o : Observation}
    (ho : o ∈ a.observations s key) (hmakes : o = .emitted ∨ o = .confirmed) : Citable key := by
  have hlists := validateAudit_eq_ok_iff.1 hvalid
  obtain ⟨item, hitem, hobserved⟩ := mem_filterMap.1 ho
  cases item with
  | coverage => cases hobserved
  | verdict v =>
    have hkinds := (key_of_verdict key hobserved).2.2
    rcases hmakes with rfl | rfl <;> simp at hkinds
  | finding f =>
    obtain ⟨items, -, hmap⟩ := hlists.findings
    have hf : f ∈ a.findings := by simpa [AuditResult.items] using hitem
    obtain ⟨raw, -, hraw⟩ := Until.mapM_ok_mem_right hmap hf
    by_cases hkey : f.key = key
    · exact hkey ▸ validateFinding_citable hraw
    · simp [Item.observation?, hkey] at hobserved
  | confirmed e =>
    obtain ⟨items, -, hmap⟩ := hlists.confirmedGood
    have he : e ∈ a.confirmedGood := by simpa [AuditResult.items] using hitem
    obtain ⟨raw, -, hraw⟩ := Until.mapM_ok_mem_right hmap he
    by_cases hkey : e.key = key
    · exact hkey ▸ validateConfirmedGood_citable hraw
    · simp [Item.observation?, hkey] at hobserved

/-- Only a finding and a confirmed entry make a key known. -/
theorem makes_known {observations : List Observation} (h : (observeAll observations t).isSome) :
    t.isSome ∨ ∃ o ∈ observations, o = .emitted ∨ o = .confirmed := by
  induction observations generalizing t with
  | nil => exact .inl h
  | cons o rest ih =>
    rcases ih h with hsome | ⟨p, hp, hmakes⟩
    · cases t with
      | some t => exact .inl rfl
      | none =>
        cases o <;> simp_all [observed?]
    · exact .inr ⟨p, mem_cons_of_mem _ hp, hmakes⟩

namespace View.Named

variable {v : View} (h : v.Named)

include h

theorem update (key : Key) (f : Track → Track) : (v.update key f).Named := by
  intro other hsome
  refine h other ?_
  simp only [View.update] at hsome
  split_ifs at hsome
  · simpa using hsome
  · exact hsome

theorem ingest {auditResult : Json} {a : AuditResult} (hvalid : validateAudit auditResult = .ok a) :
    (v.ingest a).Named := by
  unfold View.ingest
  split_ifs
  · exact h
  · intro key hsome
    rcases makes_known hsome with hbefore | ⟨o, ho, hmakes⟩
    · exact h key hbefore
    · exact observed_citable (s := { captureCells := v.cells }) hvalid ho hmakes

theorem effect (op : Operation) : (op.effect v).Named := by
  cases op with
  | openCampaign | recordTargetAmendment => exact h
  | ingestAudit auditResult =>
    simp only [Operation.effect]
    cases hvalid : validateAudit auditResult with
    | ok a => exact h.ingest hvalid
    | error message => exact h
  | recordFixClaimed key =>
    simp only [Operation.effect]
    cases validateKey key "record_fix_claimed" with
    | ok key => exact h.update key _
    | error message => exact h
  | recordRuling key disposition statement =>
    simp only [Operation.effect]
    cases validateKey key "record_ruling" with
    | error message => exact h
    | ok key =>
      cases disposition? disposition with
      | none => exact h
      | some d =>
        split_ifs
        · exact h
        · exact h.update key _
  | recordBaseRebase =>
    intro key hsome
    exact h key (by simpa [View.rebase, Operation.effect] using hsome)

end View.Named

/-- An operation other than an ingest appends one record. -/
theorem records_single {op : Operation} (h : op.records journal = .ok records) :
    (∃ auditResult, op = .ingestAudit auditResult) ∨ ∃ record, records = [record] := by
  cases op with
  | ingestAudit auditResult => exact .inl ⟨auditResult, rfl⟩
  | openCampaign | recordFixClaimed | recordRuling | recordBaseRebase | recordTargetAmendment =>
    obtain ⟨record, -, rfl⟩ := map_single_eq_ok h
    exact .inr ⟨record, rfl⟩

/-- The keys behind an ingest that was cut off. -/
theorem named_of_cut (hnamed : s.view.Named) (hvalid : validateAudit auditResult = .ok a)
    {summary : Summary} (h : s.ingest a = .ok (records, summary)) (n : ℕ) :
    ∃ t, Writes s (records.take n) t ∧ t.view.Named := by
  by_cases hn : records.length ≤ n
  · obtain ⟨t, ht, hview⟩ := State.ingest_view h
    exact ⟨t, by rwa [take_of_length_le hn], hview ▸ hnamed.ingest hvalid⟩
  · obtain ⟨-, rfl⟩ | ⟨-, -, rfl⟩ := State.ingest_eq_ok h
    · exact absurd (Nat.zero_le n) hn
    · have hloops : n ≤ (s.ingestLoops a).appended.length := by
        rw [length_append, length_singleton] at hn
        omega
      obtain ⟨crashed, hwrites, hcrash⟩ := exists_crash s a hloops
      refine ⟨crashed, by rwa [take_append_of_le_length hloops], fun key hsome => ?_⟩
      obtain ⟨front, back, hsplit, htrack⟩ := hcrash.track key
      rw [show crashed.view.track key = crashed.track key from rfl, htrack] at hsome
      rcases makes_known hsome with hbefore | ⟨o, ho, hmakes⟩
      · exact hnamed key hbefore
      · exact observed_citable hvalid (hsplit ▸ mem_append_left back ho) hmakes

/-- **Every key of a ledger can be cited.** -/
theorem reachable_named (h : Reachable journal) :
    ∃ s, Writes .initial journal s ∧ s.view.Named := by
  refine Inputs.Runs.invariant
    (P := fun journal => ∃ s, Writes .initial journal s ∧ s.view.Named) h ?_
    ⟨_, .nil _, fun key hsome => by simp [State.view, State.track, State.initial] at hsome⟩
  rintro ⟨op, cut⟩ before behind hstep ⟨s, hs, hnamed⟩
  unfold step at hstep
  cases hrecords : op.records before with
  | error message => simp [hrecords] at hstep
  | ok records =>
    simp only [hrecords, Option.some.injEq] at hstep
    subst hstep
    rcases records_single hrecords with ⟨auditResult, rfl⟩ | ⟨record, rfl⟩
    · obtain ⟨⟨appended, summary⟩, hingest, happended⟩ := Audit.map_eq_ok.1 hrecords
      obtain ⟨a, hvalid, -⟩ := bind_eq_ok.1 hingest
      rw [ingestAudit_eq hvalid hs.fold_eq] at hingest
      obtain ⟨t, ht, hbehind⟩ := named_of_cut hnamed hvalid hingest (cut.getD records.length)
      exact ⟨t, hs.append (happended ▸ ht), hbehind⟩
    · obtain ⟨t, ht, hview⟩ := op.refines_effect hs
      simp only [after, hrecords] at ht
      rcases Nat.eq_zero_or_pos (cut.getD 1) with hzero | hpos
      · exact ⟨s, by simpa [hzero] using hs, hnamed⟩
      · refine ⟨t, ?_, hview ▸ hnamed.effect op⟩
        rwa [length_singleton, take_of_length_le (show [record].length ≤ _ from hpos)]

/-! ## Probes as operations -/

/-- An audit whose one verdict is that the key is back. -/
def reopening (digest : String) (key : Key) : Json :=
  .obj [("digest", .str digest), ("verdicts", .arr [.obj [
    ("key", .arr [.str key.1, .str key.2]), ("verdict", .str "reopened")]])]

theorem validateAudit_reopening {digest : String} (hdigest : isBlank digest = false)
    (hkey : Citable key) : validateAudit (reopening digest key) =
      .ok { digest := digest, findings := [], verdicts := [⟨key, .reopened⟩], confirmedGood := []
            captureCoverage := ∅ } := by
  obtain ⟨file, subject⟩ := key
  have htext : nonBlankText (.str digest) = some digest := by
    rw [nonBlankText, if_neg (by simp [hdigest])]
  have hverdict : validateVerdict (.obj [("key", .arr [.str file, .str subject]),
      ("verdict", .str "reopened")]) = .ok ⟨(file, subject), .reopened⟩ := by
    have hraw : validateKey (.arr [.str file, .str subject]) "verdict" = .ok (file, subject) := by
      rw [validateKey, if_neg]
      simp [show isBlank file = false from hkey.1, show isBlank subject = false from hkey.2]
    have hfield : field (.obj [("key", .arr [.str file, .str subject]),
        ("verdict", .str "reopened")]) "key" = .arr [.str file, .str subject] := rfl
    unfold validateVerdict
    rw [hfield, hraw]
    rfl
  refine validateAudit_eq_ok_iff.2 ⟨rfl, ?_, ⟨[], rfl, rfl⟩, ⟨_, rfl, ?_⟩, ⟨[], rfl, rfl⟩,
    ⟨[], rfl, rfl⟩⟩
  · change requireText (.str digest) _ = _
    rw [requireText, htext]
  · rw [mapM_cons, hverdict]
    rfl

theorem exists_operations (hkey : Citable key) (probes : List Probe) (digests : List String) :
    ∃ ops : List Operation, ∀ v : View, v.digests = digests → ∀ t, v.track key = some t →
      (ops.foldl Operation.effect v).track key = some (probes.foldl Track.probe t) := by
  induction probes generalizing digests with
  | nil => exact ⟨[], fun v _ t ht => ht⟩
  | cons probe rest ih =>
    cases probe with
    | claim =>
      obtain ⟨ops, hops⟩ := ih digests
      refine ⟨.recordFixClaimed (.arr [.str key.1, .str key.2]) "" none :: ops,
        fun v hv t ht => ?_⟩
      have hvalid : validateKey (.arr [.str key.1, .str key.2]) "record_fix_claimed" = .ok key := by
        rw [validateKey, if_neg]
        simp [hkey.1, hkey.2]
      have hstep : (Operation.recordFixClaimed (.arr [.str key.1, .str key.2]) "" none).effect v =
          v.update key Track.claim := by
        rw [Operation.effect, hvalid]
      rw [foldl_cons, hstep]
      exact hops (v.update key Track.claim) hv t.claim (by simp [View.update, ht])
    | reopen =>
      obtain ⟨n, hn⟩ := Text.exists_fresh "d" digests
      obtain ⟨ops, hops⟩ := ih (digests ++ ["d" ++ toString n])
      refine ⟨.ingestAudit (reopening ("d" ++ toString n) key) :: ops, fun v hv t ht => ?_⟩
      have hdigest : isBlank ("d" ++ toString n) = false := by
        rw [isBlank, String.toList_append]
        simp
      have hnew : ¬ ("d" ++ toString n ∈ v.digests ∨
          ∃ w ∈ [(⟨key, .reopened⟩ : Verdict)], v.track w.key = none) := by
        rw [hv, not_or]
        exact ⟨hn, by simp [ht]⟩
      have hstep : (Operation.ingestAudit (reopening ("d" ++ toString n) key)).effect v =
          { digests := v.digests ++ ["d" ++ toString n], cells := v.cells.update ∅
            track := fun other => observeAll (AuditResult.observed ⟨"d" ++ toString n, [],
              [⟨key, .reopened⟩], [], ∅⟩ v.cells other) (v.track other) } := by
        rw [Operation.effect, validateAudit_reopening hdigest hkey]
        exact if_neg hnew
      rw [foldl_cons, hstep]
      refine hops _ (congrArg (· ++ ["d" ++ toString n]) hv) t.reopen ?_
      simp [AuditResult.observed, AuditResult.items, Item.observation?, VerdictKind.observation?,
        ht, observed?, Track.observe]

/-! ## The rebase and its audit -/

/-- The audit without its items about some keys. -/
def AuditResult.without (a : AuditResult) (keys : List Key) : AuditResult :=
  { a with
    findings := a.findings.filter (·.key ∉ keys)
    verdicts := a.verdicts.filter (·.key ∉ keys)
    confirmedGood := a.confirmedGood.filter (·.key ∉ keys) }

/-- Items that observe one key only, without some keys. -/
theorem filterMap_without {α : Type} {items : List α} (key : Key) (keyOf : α → Key)
    {observation? : α → Option Observation}
    (hkey : ∀ x o, observation? x = some o → keyOf x = key) (keys : List Key) :
    (items.filter (keyOf · ∉ keys)).filterMap observation? =
      if key ∈ keys then [] else items.filterMap observation? := by
  rw [filterMap_filter]
  by_cases hin : key ∈ keys
  · rw [if_pos hin, filterMap_eq_nil_iff]
    intro x _
    cases ho : observation? x with
    | none => simp
    | some o => simp [hkey x o ho, hin]
  · rw [if_neg hin]
    refine filterMap_congr fun x _ => ?_
    cases ho : observation? x with
    | none => simp
    | some o => simp [hkey x o ho, hin]

theorem observed_without (a : AuditResult) (keys : List Key) (cells : Dict String CellStatus)
    (key : Key) : (a.without keys).observed cells key =
      if key ∈ keys then [] else a.observed cells key := by
  simp only [AuditResult.observed, AuditResult.items, AuditResult.without,
    filterMap_cons_none (show Item.observation? _ key .coverage = none from rfl),
    filterMap_append, filterMap_map]
  rw [filterMap_without key Verdict.key _ keys, filterMap_without key Finding.key _ keys,
    filterMap_without key ConfirmedGood.key _ keys]
  · split_ifs <;> rfl
  all_goals
    intro x o ho
    simp only [Function.comp_apply, Item.observation?] at ho
    split_ifs at ho with hkey
  · exact hkey.1
  · exact hkey
  · exact hkey

/-- A fix that is observed again matches the fix before it exactly when it is restored. -/
theorem matched_iff {t : Track} (hfixed : t.status = .fixed)
    (hstage : stage t.pattern = .fixed ∨ stage t.pattern = .fixedAgain)
    (observations : List Observation) :
    Track.Matched ((reobserve observations).onTop t.claims t.pattern) t ↔
      Restored observations t.pattern := by
  have hreobserved := Track.reobserved_foldl observations
  constructor
  · intro h
    have hagain : (reobserve observations).status = .fixed := h.status.trans hfixed
    exact ⟨hagain, (stage_restored hstage (hreobserved.fixed hagain)).1 h.stage⟩
  · intro h
    refine ⟨h.fixed.trans hfixed.symm, ?_, ?_, fun hclaimed => ?_⟩
    · change t.claims + (reobserve observations).claims = t.claims
      rw [show (reobserve observations).claims = 0 from hreobserved.claims, Nat.add_zero]
    · exact (stage_restored hstage (hreobserved.fixed h.fixed)).2 h.marks
    · exact absurd (h.fixed.symm.trans hclaimed) (by decide)

namespace View

variable {v : View} {a : AuditResult} {keys : List Key}

/-- What the audit observes, unless its digest is there already. -/
def news (v : View) (a : AuditResult) (key : Key) : List Observation :=
  if a.digest ∈ v.digests then [] else a.observed v.cells key

theorem ingest_of_known (hknown : a.digest ∉ v.digests → ∀ w ∈ a.verdicts, v.track w.key ≠ none) :
    v.ingest a =
      { digests := if a.digest ∈ v.digests then v.digests else v.digests ++ [a.digest]
        cells := if a.digest ∈ v.digests then v.cells else v.cells.update a.captureCoverage
        track := fun key => observeAll (v.news a key) (v.track key) } := by
  unfold ingest news
  by_cases hdigest : a.digest ∈ v.digests
  · simp [hdigest]
  · rw [if_neg]
    · simp [hdigest]
    · rintro (hin | ⟨w, hw, hnone⟩)
      · exact hdigest hin
      · exact hknown hdigest w hw hnone

theorem news_without (a : AuditResult) (keys : List Key) (key : Key) :
    v.news (a.without keys) key = if key ∈ keys then [] else v.news a key := by
  unfold news
  rw [observed_without]
  split_ifs <;> first | rfl | contradiction

/-- The fixed keys of the view, and no others. -/
def FixedKeys (v : View) (keys : List Key) : Prop :=
  ∀ key, key ∈ keys ↔ ∃ t, v.track key = some t ∧ t.status = .fixed

section Rebase

variable (hknown : a.digest ∉ v.digests → ∀ w ∈ a.verdicts, v.track w.key ≠ none)
  (hkeys : v.FixedKeys keys)

include hknown

theorem rebased_eq : v.rebase.ingest a =
    { digests := if a.digest ∈ v.digests then v.digests else v.digests ++ [a.digest]
      cells := if a.digest ∈ v.digests then v.cells else v.cells.update a.captureCoverage
      track := fun key => observeAll (v.news a key) ((v.track key).map Track.rebase) } :=
  ingest_of_known (v := v.rebase) fun hdigest w hw hnone =>
    hknown hdigest w hw (map_eq_none_iff.1 hnone)

theorem plain_eq (keys : List Key) : v.ingest (a.without keys) =
    { digests := if a.digest ∈ v.digests then v.digests else v.digests ++ [a.digest]
      cells := if a.digest ∈ v.digests then v.cells else v.cells.update a.captureCoverage
      track := fun key =>
        observeAll (if key ∈ keys then [] else v.news a key) (v.track key) } := by
  rw [ingest_of_known (a := a.without keys) fun hdigest w hw =>
    hknown hdigest w (mem_of_mem_filter hw)]
  congr 1
  funext key
  rw [news_without]

variable {key : Key}

theorem track_rebased {t : Track} (ht : v.track key = some t) (hfixed : t.status = .fixed) :
    (v.rebase.ingest a).track key =
      some ((reobserve (v.news a key)).onTop t.claims t.pattern) := by
  have hrebase : t.rebase = Track.demotedClaim.onTop t.claims t.pattern := by
    rw [Track.rebase, if_pos hfixed]
    simp [Track.onTop, Track.demotedClaim]
  rw [rebased_eq hknown]
  simp only [ht, map_some, hrebase]
  exact Track.observeAll_onTop _ _ _ _

include hkeys

theorem track_plain {t : Track} (ht : v.track key = some t) (hfixed : t.status = .fixed) :
    (v.ingest (a.without keys)).track key = some t := by
  rw [plain_eq hknown]
  simp [(hkeys key).2 ⟨t, ht, hfixed⟩, ht]

/-- A key that is not fixed is observed alike in both. -/
theorem track_same (hnot : key ∉ keys) :
    (v.rebase.ingest a).track key = (v.ingest (a.without keys)).track key := by
  rw [rebased_eq hknown, plain_eq hknown]
  simp only [hnot, if_false]
  cases ht : v.track key with
  | none => rfl
  | some t =>
    have hfixed : t.status ≠ .fixed := fun hfixed => hnot ((hkeys key).2 ⟨t, ht, hfixed⟩)
    rw [map_some, Track.rebase, if_neg hfixed]

/-- **The rebase and its audit leave a view that goes on as without them exactly when every fix is
restored or its key is stalled.** -/
theorem neutral_iff (hnamed : v.Named)
    (hended : ∀ key t, v.track key = some t → t.status = .fixed →
      t.pattern.getLast? = some .fixed) :
    Indistinguishable Operation.effect View.stalled (v.rebase.ingest a)
        (v.ingest (a.without keys)) ↔
      ∀ key t, v.track key = some t → t.status = .fixed →
        t.stalled = true ∨ Restored (v.news a key) t.pattern := by
  have hstaged : ∀ key t, v.track key = some t → t.status = .fixed → t.stalled ≠ true →
      t.claims < 2 ∧ (stage t.pattern = .fixed ∨ stage t.pattern = .fixedAgain) := by
    intro key t ht hfixed hlive
    rw [Ne, Track.stalled_iff, not_or, Nat.not_le] at hlive
    obtain ⟨front, hfront⟩ := List.getLast?_eq_some_iff.1 (hended key t ht hfixed)
    exact ⟨hlive.1, ((staged t.pattern).fixed hlive.2).2 ⟨front, hfront.symm⟩⟩
  constructor
  · intro hall key t ht hfixed
    by_contra hlost
    rw [not_or] at hlost
    obtain ⟨hclaims, hstage⟩ := hstaged key t ht hfixed hlost.1
    have ho : Track.Reobserved (reobserve (v.news a key)) := Track.reobserved_foldl _
    have hrebased := track_rebased hknown ht hfixed
    have hplain := track_plain hknown hkeys ht hfixed
    obtain ⟨status, demoted, claims, marks⟩ := t
    obtain rfl : status = .fixed := hfixed
    rw [Track.onTop, ho.claims, Nat.add_zero] at hrebased
    have hothers : (reobserve (v.news a key)).status = .fixed →
        stage (marks ++ (reobserve (v.news a key)).pattern) = .fixed ∨
          stage (marks ++ (reobserve (v.news a key)).pattern) = .fixedAgain ∨
            stage (marks ++ (reobserve (v.news a key)).pattern) = .relapsed := fun hagain =>
      (stage_verified hstage (ho.fixed hagain)).imp And.left (.imp And.left And.left)
    refine exists_probes demoted (reobserve (v.news a key)).demoted hstage hclaims
      (fun _ => ho.demoted) hothers (fun hsame => ?_) fun probes => ?_
    · exact hlost.2 ⟨hsame.1, (stage_restored hstage (ho.fixed hsame.1)).1 hsame.2⟩
    · -- The probes are operations that both ledgers take alike.
      obtain ⟨ops, hops⟩ := exists_operations (hnamed key (by rw [ht]; rfl)) probes
        (if a.digest ∈ v.digests then v.digests else v.digests ++ [a.digest])
      have hshown := congrFun (hall ops) key
      rw [stalled, stalled, hops _ (by rw [rebased_eq hknown]) _ hrebased,
        hops _ (by rw [plain_eq hknown]) _ hplain] at hshown
      exact hshown.symm
  · intro hrestored
    refine AlikeViews.indistinguishable ⟨?_, ?_, fun key => ?_⟩
    · rw [rebased_eq hknown, plain_eq hknown]
    · rw [rebased_eq hknown, plain_eq hknown]
    · by_cases hin : key ∈ keys
      · obtain ⟨t, ht, hfixed⟩ := (hkeys key).1 hin
        rw [track_rebased hknown ht hfixed, track_plain hknown hkeys ht hfixed]
        refine .some ?_
        by_cases hlive : t.stalled = true
        · refine .inl ⟨Track.Extends.stalled (t := t) ⟨Nat.le_add_right _ _, ?_⟩ hlive, hlive⟩
          exact prefix_append _ _
        · have hrestore := (hrestored key t ht hfixed).resolve_left hlive
          exact .inr ((matched_iff hfixed (hstaged key t ht hfixed hlive).2 _).2 hrestore)
      · rw [track_same hknown hkeys hin]
        exact alike_refl _

end Rebase

end View

/-! ## Neutral rebases -/

/-- What a rebase and the audit behind it append, and what the audit appends without the rebase and
without observing the fixed keys again. -/
structure Rebased (journal : List Record) (note : Option String) (auditResult : Json) (s : State)
    (a : AuditResult) (rebase : Record) (records plain : List Record) : Prop where
  before : fold journal = .ok s
  rebased : recordBaseRebase journal note = .ok rebase
  valid : validateAudit auditResult = .ok a
  ingested : ∃ summary, ingestAudit (journal ++ [rebase]) auditResult = .ok (records, summary)
  without : ∃ summary, s.ingest (a.without s.fixedKeys) = .ok (plain, summary)

theorem not_restored_nil (marks : List Mark) : ¬ Restored [] marks := fun h => nomatch h.fixed

/-- **A rebase and the audit behind it are neutral for the stalled keys, now and behind every
further operation, exactly when** every key that was fixed is stalled already, or the audit is new
and restores its fix. -/
theorem rebase_neutral_iff {journal : List Record} (h : Reachable journal) {note : Option String}
    {auditResult : Json} {s : State} {a : AuditResult} {rebase : Record}
    {records plain : List Record}
    (hrebased : Rebased journal note auditResult s a rebase records plain) :
    Indistinguishable after stalledKeys (journal ++ [rebase] ++ records) (journal ++ plain) ↔
      ∀ key info, s.keys.get? key = some info → info.status = .fixed → info.stalled = true ∨
        a.digest ∉ s.ingestedDigests ∧ Restored (a.observations s key) info.pattern := by
  obtain ⟨s', hs, hnamed⟩ := reachable_named h
  obtain rfl := Except.ok.inj (hs.fold_eq.symm.trans hrebased.before)
  obtain ⟨summary, hrecords⟩ := hrebased.ingested
  obtain ⟨plainSummary, hplain⟩ := hrebased.without
  -- The ledger behind the rebase, and behind the audit.
  obtain ⟨r, hr, hrview⟩ := (Operation.recordBaseRebase note).refines_effect hs
  change r.view = s'.view.rebase at hrview
  have hafter : after journal (.recordBaseRebase note) = journal ++ [rebase] := by
    simp only [after, Operation.records, hrebased.rebased, Except.map]
  rw [hafter] at hr
  rw [ingestAudit_eq hrebased.valid hr.fold_eq] at hrecords
  obtain ⟨t, ht, htview⟩ := State.ingest_view hrecords
  obtain ⟨u, hu, huview⟩ := State.ingest_view hplain
  have hu' : Writes .initial (journal ++ plain) u := hs.append hu
  have hknown : a.digest ∉ s'.view.digests → ∀ w ∈ a.verdicts, s'.view.track w.key ≠ none := by
    intro hdigest w hw hnone
    have hdigests : r.ingestedDigests = s'.ingestedDigests := congrArg View.digests hrview
    obtain ⟨hin, -⟩ | ⟨-, hsome, -⟩ := State.ingest_eq_ok hrecords
    · rw [hdigests] at hin
      exact hdigest hin
    · have htrack : r.track w.key = (s'.view.track w.key).map Track.rebase :=
        congrFun (congrArg View.track hrview) w.key
      rw [hnone, map_none, track_eq_none_iff] at htrack
      exact isSome_iff_ne_none.1 (hsome w hw) htrack
  have hkeys : s'.view.FixedKeys s'.fixedKeys := by
    intro key
    rw [State.mem_fixedKeys]
    constructor
    · rintro ⟨info, hget, hfixed⟩
      exact ⟨info.track, map_eq_some_iff.2 ⟨info, hget, rfl⟩, hfixed⟩
    · rintro ⟨t, ht, hfixed⟩
      obtain ⟨info, hget, rfl⟩ := map_eq_some_iff.1 ht
      exact ⟨info, hget, hfixed⟩
  rw [indistinguishable_iff ⟨t, hr.append ht, htview⟩ ⟨u, hu', huview⟩, hrview,
    View.neutral_iff hknown hkeys hnamed fun key t ht hfixed => hs.ended.getLast? ht hfixed]
  have hnews : ∀ key marks, Restored (s'.view.news a key) marks ↔
      a.digest ∉ s'.ingestedDigests ∧ Restored (a.observations s' key) marks := by
    intro key marks
    unfold View.news
    by_cases hdigest : a.digest ∈ s'.view.digests
    · rw [if_pos hdigest]
      exact iff_of_false (not_restored_nil marks) fun h => h.1 hdigest
    · rw [if_neg hdigest]
      exact (and_iff_right hdigest).symm
  constructor
  · intro hall key info hget hfixed
    have hcase := hall key info.track (map_eq_some_iff.2 ⟨info, hget, rfl⟩) hfixed
    rwa [hnews] at hcase
  · intro hall key t ht hfixed
    obtain ⟨info, hget, rfl⟩ := map_eq_some_iff.1 ht
    rw [hnews]
    exact hall key info hget hfixed

/-! ## A relapse that a rebase hides -/

/-- The audit observes every key that was fixed again, as fixed or as still there. -/
def Reobserves (a : AuditResult) (s : State) : Prop :=
  a.digest ∉ s.ingestedDigests ∧ ∀ key ∈ s.fixedKeys, ∃ o ∈ a.observations s key,
    o = .fixed ∨ o = .reopened ∨ o = .emitted

instance (a : AuditResult) (s : State) : Decidable (Reobserves a s) := by
  unfold Reobserves
  infer_instance

/-- What a rebase and the audit behind it append, where none of it raises. -/
def rebased? (journal : List Record) (note : Option String) (auditResult : Json) :
    Except String (State × AuditResult × Record × List Record × List Record) := do
  let s ← fold journal
  let rebase ← recordBaseRebase journal note
  let a ← validateAudit auditResult
  let (records, _) ← ingestAudit (journal ++ [rebase]) auditResult
  let (plain, _) ← s.ingest (a.without s.fixedKeys)
  return (s, a, rebase, records, plain)

theorem rebased_of_eq {note : Option String} {rebase : Record} {plain : List Record}
    (h : rebased? journal note auditResult = .ok (s, a, rebase, records, plain)) :
    Rebased journal note auditResult s a rebase records plain := by
  obtain ⟨s, hs, h⟩ := bind_eq_ok.1 h
  obtain ⟨rebase, hrebase, h⟩ := bind_eq_ok.1 h
  obtain ⟨a, ha, h⟩ := bind_eq_ok.1 h
  obtain ⟨⟨records, summary⟩, hrecords, h⟩ := bind_eq_ok.1 h
  obtain ⟨⟨plain, plainSummary⟩, hplain, h⟩ := bind_eq_ok.1 h
  cases Except.ok.inj h
  exact ⟨hs, hrebase, ha, ⟨summary, hrecords⟩, ⟨plainSummary, hplain⟩⟩

def keyA : Key := ("a.py", "s1")

def foundA : Json :=
  .obj [("digest", .str "found"), ("findings", .arr [.obj [("file", .str "a.py"),
    ("subject", .str "s1"), ("required_paths", .arr [.str "a.py"])]]),
    ("capture_coverage", .obj [("cell", .str "ok")])]

def verifiedA (digest : String) : Json :=
  .obj [("digest", .str digest), ("verdicts", .arr [.obj [
    ("key", .arr [.str "a.py", .str "s1"]), ("verdict", .str "observed_fixed"),
    ("capture_cell", .str "cell"), ("assertion", .str "grep")]])]

/-- Fixed, reopened and fixed. -/
def fixedAgain : List (Operation × Option ℕ) :=
  [(.ingestAudit foundA, none), (.ingestAudit (verifiedA "1"), none),
    (.ingestAudit (reopening "2" keyA), none), (.ingestAudit (verifiedA "3"), none)]

/-- Behind the rebase and the audit that verifies the fix again, the next audit that finds the key
stalls it only where there was no rebase. -/
def hidesRelapse (journal : List Record) : Bool :=
  match rebased? journal none (verifiedA "4") with
  | .ok (s, a, rebase, records, plain) =>
    decide (Reobserves a s) &&
      decide ((stalledKeys (after (journal ++ [rebase] ++ records)
        (.ingestAudit (reopening "5" keyA)))).toOption ≠
        (stalledKeys (after (journal ++ plain) (.ingestAudit (reopening "5" keyA)))).toOption)
  | .error _ => false

theorem fixedAgain_hidesRelapse :
    (Inputs.runInputs step [] fixedAgain).any hidesRelapse = true := by
  decide +kernel

/-- The second fix of a relapse is verified once more behind the rebase, so the relapse is no longer
without another event between. -/
theorem rebase_hides_relapse :
    ¬ ∀ journal note auditResult s a rebase records plain, Reachable journal →
      Rebased journal note auditResult s a rebase records plain → Reobserves a s →
      Indistinguishable after stalledKeys (journal ++ [rebase] ++ records) (journal ++ plain) := by
  intro hall
  obtain ⟨journal, hrun, hhides⟩ := (any_eq_true _ _).1 fixedAgain_hidesRelapse
  unfold hidesRelapse at hhides
  split at hhides
  · rename_i s a rebase records plain hrebased
    simp only [Bool.and_eq_true, decide_eq_true_eq] at hhides
    have hsame := hall journal none _ s a rebase records plain (Inputs.runs_of_runInputs hrun)
      (rebased_of_eq hrebased) hhides.1 [.ingestAudit (reopening "5" keyA)]
    exact hhides.2 (congrArg Except.toOption hsame)
  · cases hhides

theorem rebase_neutral_fixedAgain : ∃ journal s a rebase records plain,
    Inputs.runInputs step [] fixedAgain = some journal ∧
      Rebased journal none (verifiedA "4") s a rebase records plain ∧
      (Indistinguishable after stalledKeys (journal ++ [rebase] ++ records) (journal ++ plain) ↔
        ∀ key info, s.keys.get? key = some info → info.status = .fixed → info.stalled = true ∨
          a.digest ∉ s.ingestedDigests ∧ Restored (a.observations s key) info.pattern) := by
  have hreached : (Inputs.runInputs step [] fixedAgain).any
      (fun journal => (rebased? journal none (verifiedA "4")).toOption.isSome) = true := by
    decide +kernel
  obtain ⟨journal, hrun, haccepted⟩ := (any_eq_true _ _).1 hreached
  cases hrebased : rebased? journal none (verifiedA "4") with
  | error message => simp [hrebased, Except.toOption] at haccepted
  | ok result =>
    obtain ⟨s, a, rebase, records, plain⟩ := result
    exact ⟨journal, s, a, rebase, records, plain, hrun, rebased_of_eq hrebased,
      rebase_neutral_iff (Inputs.runs_of_runInputs hrun) (rebased_of_eq hrebased)⟩

end HarnessLabs.PlanGraph.Convergence
