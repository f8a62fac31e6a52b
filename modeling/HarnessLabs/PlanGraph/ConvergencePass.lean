import HarnessLabs.PlanGraph.ConvergenceTrack

/-!
# A key observed again

When an ingest is tried again behind a crash, a key is observed a second time from where the crash
left it. An observation that is made twice in a row is one (`observe_observe`), so the part of the
audit before the crash changes nothing again, unless a finding follows a verdict on the same key.

* `SecondPass` — all observations behind the crash lead where they lead without it.
* `Conflict` — the crash fell behind the record that opens the key again, and the verdict says that
  the key is fixed or invalid.
* `Ordered.secondPass_iff` — **with one verdict on the key the second pass agrees exactly when there
  is no conflict.**
-/

namespace HarnessLabs.PlanGraph.Convergence

open List

/-! ## Relapses -/

theorem relapsed_append (pattern : List Mark) :
    Relapsed (pattern ++ [.fixed, .reopened, .fixed, .reopened]) = true := by
  rw [Relapsed, any_eq_true]
  refine ⟨pattern.length, ?_, ?_⟩
  · simp
  · simp

/-- Fixed and reopened behind fixed and reopened. -/
theorem relapsed_twice {pattern front : List Mark} (h : pattern = front ++ [.fixed, .reopened]) :
    Relapsed (pattern ++ [.fixed, .reopened]) = true := by
  rw [h, append_assoc]
  exact relapsed_append front

/-! ## An observation made twice -/

namespace Track

theorem status_reopen (t : Track) : t.reopen.status ≠ .fixClaimed ∧ t.reopen.status ≠ .fixed := by
  unfold reopen
  cases hstatus : t.status with
  | fixClaimed => by_cases hdemoted : t.demoted <;> simp [hdemoted]
  | fixed => simp
  | opened | excluded | amended | invalidated => simp [hstatus]

variable {t : Track}

theorem reopen_of_ne (hclaimed : t.status ≠ .fixClaimed) (hfixed : t.status ≠ .fixed) :
    t.reopen = t := by
  unfold reopen
  cases hstatus : t.status with
  | fixClaimed => exact absurd hstatus hclaimed
  | fixed => exact absurd hstatus hfixed
  | opened | excluded | amended | invalidated => rfl

theorem reopen_reopen (t : Track) : t.reopen.reopen = t.reopen :=
  reopen_of_ne t.status_reopen.1 t.status_reopen.2

theorem observe_of_inactive (h : t.status.active = false) :
    t.observe .fixed = t ∧ t.observe .invalidated = t := by
  simp [observe, h]

theorem observe_observe (t : Track) (o : Observation) : (t.observe o).observe o = t.observe o := by
  cases o with
  | fixed =>
    by_cases h : t.status.active
    · simp [observe, h, show Status.fixed.active = false from rfl]
    · simp [observe, h]
  | reopened | emitted => exact t.reopen_reopen
  | invalidated =>
    by_cases h : t.status.active
    · simp [observe, h, show Status.invalidated.active = false from rfl]
    · simp [observe, h]
  | confirmed => rfl

theorem observe_of_excluded (h : t.status = .excluded) (o : Observation) :
    t.observe o = t := by
  cases o with
  | fixed => exact (observe_of_inactive (by rw [h]; rfl)).1
  | invalidated => exact (observe_of_inactive (by rw [h]; rfl)).2
  | reopened | emitted => exact reopen_of_ne (by simp [h]) (by simp [h])
  | confirmed => rw [observe, ← h]

/-- A closed key that is not fixed stays as it is, unless it is confirmed. -/
theorem observe_of_closed (hactive : t.status.active = false) (hfixed : t.status ≠ .fixed)
    {o : Observation} (ho : o ≠ .confirmed) : t.observe o = t := by
  have hclaimed : t.status ≠ .fixClaimed := by
    intro h
    rw [h] at hactive
    exact absurd hactive (by decide)
  cases o with
  | fixed => exact (observe_of_inactive hactive).1
  | invalidated => exact (observe_of_inactive hactive).2
  | reopened | emitted => exact reopen_of_ne hclaimed hfixed
  | confirmed => exact absurd rfl ho

end Track

/-- The observations of a list, in order. -/
def observeAll (observations : List Observation) (t : Option Track) : Option Track :=
  observations.foldl observed? t

@[simp] theorem observeAll_nil (t : Option Track) : observeAll [] t = t := rfl

@[simp] theorem observeAll_cons (o : Observation) (rest : List Observation) (t : Option Track) :
    observeAll (o :: rest) t = observeAll rest (observed? t o) := rfl

theorem observeAll_append (front back : List Observation) (t : Option Track) :
    observeAll (front ++ back) t = observeAll back (observeAll front t) :=
  foldl_append

theorem observed?_observed? (t : Option Track) (o : Observation) :
    observed? (observed? t o) o = observed? t o := by
  cases t with
  | some t => exact congrArg some (t.observe_observe o)
  | none => cases o <;> rfl

variable {observations back : List Observation} {before : Option Track}

/-- The same observation made once or more is made once. -/
theorem observeAll_same {o : Observation} (hall : ∀ x ∈ observations, x = o)
    (hne : observations ≠ []) (t : Option Track) :
    observeAll observations t = observed? t o := by
  induction observations generalizing t with
  | nil => exact absurd rfl hne
  | cons x rest ih =>
    obtain ⟨rfl, hrest⟩ := forall_mem_cons.1 hall
    rw [observeAll_cons]
    by_cases hnil : rest = []
    · rw [hnil, observeAll_nil]
    · rw [ih hrest hnil, observed?_observed?]

theorem observeAll_of_fixpoint {t : Track} (h : ∀ o ∈ observations, t.observe o = t) :
    observeAll observations (some t) = some t := by
  induction observations with
  | nil => rfl
  | cons o rest ih =>
    obtain ⟨ho, hrest⟩ := forall_mem_cons.1 h
    rw [observeAll_cons, observed?, ho, ih hrest]

theorem observeAll_excluded {t : Track} (h : t.status = .excluded)
    (observations : List Observation) : observeAll observations (some t) = some t :=
  observeAll_of_fixpoint fun o _ => t.observe_of_excluded h o

/-! ## The second pass over one key -/

/-- The views of two tracks agree. -/
structure SameTrack (t u : Option Track) : Prop where
  status : t.map (·.status) = u.map (·.status)
  stalled : t.any (·.stalled) = u.any (·.stalled)

/-- All observations behind the crash lead where they lead without it. -/
def SecondPass (observations : List Observation) (before crashed : Option Track) : Prop :=
  SameTrack (observeAll observations crashed) (observeAll observations before)

/-- The crash fell behind the record that opens the key again, and the verdict on the key says that
it is fixed, which stalls the key when it is said again, or that it is invalid. -/
def Conflict (observations : List Observation) (before crashed : Option Track) : Prop :=
  ∃ t, crashed = some t ∧ t.status = .opened ∧ before.map (·.pattern) ≠ some t.pattern ∧
    (.fixed ∈ observations ∧ t.stalled = false ∨
      .invalidated ∈ observations ∧ .confirmed ∉ observations)

theorem SameTrack.refl (t : Option Track) : SameTrack t t := ⟨rfl, rfl⟩

/-- When the observations before the crash change nothing again, the second pass agrees. -/
theorem secondPass_of_stable {front : List Observation}
    (h : observeAll front (observeAll front before) = observeAll front before) :
    SecondPass (front ++ back) before (observeAll front before) := by
  unfold SecondPass
  rw [observeAll_append, observeAll_append, h]
  exact .refl _

/-- The crash fell before the key was observed. -/
theorem secondPass_start :
    SecondPass back before before ↔ ¬ Conflict observations before before := by
  refine iff_of_true (.refl _) fun hconflict => ?_
  obtain ⟨t, ht, -, hpattern, -⟩ := hconflict
  exact hpattern (by rw [ht]; rfl)

/-- The crash fell behind a confirmed entry. -/
theorem secondPass_confirmed {front : List Observation}
    (hfront : ∃ rest, front = rest ++ [.confirmed]) :
    SecondPass (front ++ back) before (observeAll front before) ↔
      ¬ Conflict observations before (observeAll front before) := by
  obtain ⟨rest, hrest⟩ := hfront
  have hexcluded : ∃ t : Track, observeAll front before = some t ∧ t.status = .excluded := by
    rw [hrest, observeAll_append, observeAll_cons, observeAll_nil]
    cases observeAll rest before with
    | none => exact ⟨_, rfl, rfl⟩
    | some t => exact ⟨_, rfl, rfl⟩
  obtain ⟨t, ht, hstatus⟩ := hexcluded
  refine iff_of_true ?_ ?_
  · refine secondPass_of_stable ?_
    rw [ht, observeAll_excluded hstatus]
  · intro hconflict
    obtain ⟨u, hu, hopened, -⟩ := hconflict
    rw [ht] at hu
    cases hu
    rw [hstatus] at hopened
    cases hopened

/-- The observations of one key in an audit: a verdict at most, findings, and confirmed entries. -/
structure Ordered (verdicts emitted confirmed : List Observation) : Prop where
  single : verdicts.length ≤ 1
  verdicts : ∀ o ∈ verdicts, o = .fixed ∨ o = .reopened ∨ o = .invalidated
  emitted : ∀ o ∈ emitted, o = .emitted
  confirmed : ∀ o ∈ confirmed, o = .confirmed

section OneKey

variable {vs es cs : List Observation} (h : Ordered vs es cs)

include h

theorem Ordered.fixed_mem : .fixed ∈ vs ++ es ++ cs ↔ .fixed ∈ vs := by
  rw [mem_append, mem_append]
  constructor
  · intro hmem
    obtain (hv | he) | hc := hmem
    · exact hv
    · exact absurd (h.emitted _ he) (by decide)
    · exact absurd (h.confirmed _ hc) (by decide)
  · exact fun hv => .inl (.inl hv)

theorem Ordered.invalidated_mem : .invalidated ∈ vs ++ es ++ cs ↔ .invalidated ∈ vs := by
  rw [mem_append, mem_append]
  constructor
  · intro hmem
    obtain (hv | he) | hc := hmem
    · exact hv
    · exact absurd (h.emitted _ he) (by decide)
    · exact absurd (h.confirmed _ hc) (by decide)
  · exact fun hv => .inl (.inl hv)

theorem Ordered.confirmed_mem : .confirmed ∈ vs ++ es ++ cs ↔ cs ≠ [] := by
  rw [mem_append, mem_append]
  constructor
  · intro hmem
    obtain (hv | he) | hc := hmem
    · obtain ho | ho | ho := h.verdicts _ hv <;> cases ho
    · exact absurd (h.emitted _ he) (by decide)
    · exact ne_nil_of_mem hc
  · intro hne
    obtain ⟨o, rest, rfl⟩ := exists_cons_of_ne_nil hne
    rw [h.confirmed o mem_cons_self]
    exact .inr mem_cons_self

variable {t : Track} {rest : List Observation} {before : Option Track}

/-- Behind a crash at an open key, findings change nothing and confirmed entries exclude it. -/
theorem Ordered.observeAll_rest (hopened : t.reopen = t) (hrest : ∀ o ∈ rest, o = .emitted) :
    observeAll (rest ++ cs) (some t) =
      some (if cs = [] then t else { t with status := .excluded }) := by
  rw [observeAll_append, observeAll_of_fixpoint fun o ho => by rw [hrest o ho]; exact hopened]
  by_cases hnil : cs = []
  · rw [if_pos hnil, hnil, observeAll_nil]
  · rw [if_neg hnil, observeAll_same h.confirmed hnil]
    rfl

/-- The crash fell behind the verdict. -/
theorem Ordered.secondPass_verdict {back : List Observation} (hknown : before = none → vs = []) :
    SecondPass (vs ++ back) before (observeAll vs before) ↔
      ¬ Conflict (vs ++ es ++ cs) before (observeAll vs before) := by
  have hsingle := h.single
  cases hvs : vs with
  | nil => exact secondPass_start
  | cons o rest =>
    obtain rfl : rest = [] := by
      rw [hvs, length_cons] at hsingle
      exact eq_nil_of_length_eq_zero (by omega)
    cases before with
    | none => exact absurd (hknown rfl) (by simp [hvs])
    | some t =>
      refine iff_of_true (secondPass_of_stable (observed?_observed? (some t) o)) fun hconflict => ?_
      obtain ⟨u, hu, hopened, hpattern, hcases⟩ := hconflict
      rw [← hvs, h.fixed_mem, h.invalidated_mem, hvs, mem_singleton, mem_singleton]
        at hcases
      obtain rfl : t.observe o = u := Option.some.inj hu
      obtain ⟨rfl, -⟩ | ⟨rfl, -⟩ := hcases
      · by_cases hactive : t.status.active <;> simp [Track.observe, hactive] at hopened
        rw [hopened] at hactive
        exact hactive rfl
      · refine hpattern ?_
        by_cases hactive : t.status.active <;> simp [Track.observe, hactive]

/-- The crash fell behind a finding about a key with the verdict that it is fixed. -/
theorem Ordered.secondPass_fixed (hvs : vs = [.fixed]) {u : Track}
    (hu : u = (t.observe .fixed).reopen) (hopened : u.status = .opened)
    (hlast : t.status = .fixed → t.pattern.getLast? = some .fixed)
    (hrest : ∀ o ∈ rest, o = .emitted) :
    SameTrack (observeAll (rest ++ cs) (some (u.observe .fixed).reopen))
        (observeAll (rest ++ cs) (some u)) ↔
      ¬ Conflict (vs ++ es ++ cs) (some t) (some u) := by
  -- The key was active or fixed, and its history ends with the fix and the finding.
  have hpattern : ∃ front, u.pattern = front ++ [.fixed, .reopened] ∧ t.pattern ≠ u.pattern := by
    by_cases hactive : t.status.active
    · have hreopened : u.pattern = t.pattern ++ [.fixed, .reopened] := by
        simp [hu, Track.observe, hactive, Track.reopen]
      exact ⟨t.pattern, hreopened, by simp [hreopened]⟩
    · have hsame : t.observe .fixed = t := if_neg hactive
      rw [hsame] at hu
      have hfixed : t.status = .fixed := by
        cases hstatus : t.status <;> simp_all [Track.reopen, Status.active]
      have hreopened : u.pattern = t.pattern ++ [.reopened] := by
        simp [hu, Track.reopen, hfixed]
      obtain ⟨front, hfront⟩ := List.getLast?_eq_some_iff.1 (hlast hfixed)
      exact ⟨front, by rw [hreopened, hfront, append_assoc]; rfl, by simp [hreopened]⟩
  obtain ⟨front, hfront, hne⟩ := hpattern
  have hagain : (u.observe .fixed).reopen =
      { u with pattern := u.pattern ++ [.fixed, .reopened] } := by
    simp [Track.observe, hopened, Track.reopen, Status.active]
  have hstable : u.reopen = u := Track.reopen_of_ne (by simp [hopened]) (by simp [hopened])
  have hstable' : (u.observe .fixed).reopen.reopen = (u.observe .fixed).reopen :=
    Track.reopen_reopen _
  have hconflict : Conflict (vs ++ es ++ cs) (some t) (some u) ↔ u.stalled = false := by
    unfold Conflict
    rw [h.fixed_mem, h.invalidated_mem, hvs]
    constructor
    · rintro ⟨v, hv, _, _, hcases⟩
      cases hv
      obtain ⟨-, hstalled⟩ | ⟨hmem, -⟩ := hcases
      · exact hstalled
      · simp at hmem
    · intro hstalled
      exact ⟨u, rfl, hopened, fun heq => hne (Option.some.inj heq),
        .inl ⟨mem_singleton_self _, hstalled⟩⟩
  rw [hconflict, h.observeAll_rest hstable hrest, h.observeAll_rest hstable' hrest, hagain,
    Bool.not_eq_false]
  have hstalls : ∀ status, (Track.stalled
      { u with status := status, pattern := u.pattern ++ [.fixed, .reopened] }) = true := by
    simp [Track.stalled, relapsed_twice hfront]
  have hsame : ∀ status, Track.stalled { u with status := status } = u.stalled := fun _ => rfl
  constructor
  · intro hsecond
    have hstalled := hsecond.stalled
    by_cases hnil : cs = []
    · simpa [hnil, hstalls] using hstalled.symm
    · simpa [hnil, hstalls, hsame] using hstalled.symm
  · intro hstalled
    by_cases hnil : cs = []
    · constructor
      · simp [hnil]
      · simp [hnil, hstalls, hstalled]
    · constructor
      · simp [hnil]
      · simp [hnil, hstalls, hsame, hstalled]

/-- The crash fell behind a finding about a key with the verdict that it is invalid. -/
theorem Ordered.secondPass_invalidated (hvs : vs = [.invalidated]) {u : Track}
    (hu : u = (t.observe .invalidated).reopen) (hopened : u.status = .opened)
    (hrest : ∀ o ∈ rest, o = .emitted) :
    SameTrack (observeAll (rest ++ cs) (some (u.observe .invalidated).reopen))
        (observeAll (rest ++ cs) (some u)) ↔
      ¬ Conflict (vs ++ es ++ cs) (some t) (some u) := by
  -- The verdict did not count, because the key was fixed. It counts now.
  have hpattern : t.pattern ≠ u.pattern := by
    by_cases hactive : t.status.active
    · simp [hu, Track.observe, hactive, Track.reopen] at hopened
    · have hsame : t.observe .invalidated = t := if_neg hactive
      rw [hsame] at hu
      have hfixed : t.status = .fixed := by
        cases hstatus : t.status <;> simp_all [Track.reopen, Status.active]
      simp [hu, Track.reopen, hfixed]
  have hagain : (u.observe .invalidated).reopen = { u with status := .invalidated } := by
    simp [Track.observe, hopened, Track.reopen, Status.active]
  have hstable : u.reopen = u := Track.reopen_of_ne (by simp [hopened]) (by simp [hopened])
  have hstable' : (u.observe .invalidated).reopen.reopen = (u.observe .invalidated).reopen :=
    Track.reopen_reopen _
  have hconflict : Conflict (vs ++ es ++ cs) (some t) (some u) ↔ cs = [] := by
    unfold Conflict
    rw [h.fixed_mem, h.invalidated_mem, h.confirmed_mem, hvs]
    constructor
    · rintro ⟨v, hv, _, _, hcases⟩
      obtain ⟨hmem, -⟩ | ⟨-, hnil⟩ := hcases
      · simp at hmem
      · exact not_not.1 hnil
    · intro hnil
      exact ⟨u, rfl, hopened, fun heq => hpattern (Option.some.inj heq),
        .inr ⟨mem_singleton_self _, not_not.2 hnil⟩⟩
  rw [hconflict, h.observeAll_rest hstable hrest, h.observeAll_rest hstable' hrest, hagain]
  by_cases hnil : cs = []
  · refine iff_of_false (fun hsecond => ?_) (not_not.2 hnil)
    have hstatus := hsecond.status
    simp [hnil, hopened] at hstatus
  · refine iff_of_true ?_ hnil
    simp only [hnil, if_false]
    exact .refl _

/-- The crash fell behind a finding. -/
theorem Ordered.secondPass_emitted {front : List Observation} (hfront : ∀ o ∈ front, o = .emitted)
    (hne : front ≠ []) (hrest : ∀ o ∈ rest, o = .emitted) (hknown : before = none → vs = [])
    (hlast : ∀ t, before = some t → t.status = .fixed → t.pattern.getLast? = some .fixed) :
    SecondPass (vs ++ front ++ (rest ++ cs)) before (observeAll (vs ++ front) before) ↔
      ¬ Conflict (vs ++ es ++ cs) before (observeAll (vs ++ front) before) := by
  have hpass : ∀ t, observeAll (vs ++ front) t = observed? (observeAll vs t) .emitted := by
    intro t
    rw [observeAll_append, observeAll_same hfront hne]
  have hsingle := h.single
  -- Where the verdict observes nothing, the part before the crash is stable.
  have hstable : observeAll (vs ++ front) (observeAll (vs ++ front) before) =
      observeAll (vs ++ front) before → (.fixed ∉ vs ∧ .invalidated ∉ vs ∨
        ∀ t, observeAll (vs ++ front) before = some t → t.status ≠ .opened) →
      (SecondPass (vs ++ front ++ (rest ++ cs)) before (observeAll (vs ++ front) before) ↔
        ¬ Conflict (vs ++ es ++ cs) before (observeAll (vs ++ front) before)) := by
    intro hsame hno
    refine iff_of_true (secondPass_of_stable hsame) fun hconflict => ?_
    obtain ⟨t, ht, hopened, -, hcases⟩ := hconflict
    rw [h.fixed_mem, h.invalidated_mem] at hcases
    obtain ⟨hnofix, hnoinvalid⟩ | hclosed := hno
    · exact hcases.elim (fun hfix => hnofix hfix.1) fun hinvalid => hnoinvalid hinvalid.1
    · exact hclosed t ht hopened
  cases hvs : vs with
  | nil =>
    refine hvs ▸ hstable ?_ (.inl ⟨by simp [hvs], by simp [hvs]⟩)
    rw [hpass, hpass, hvs, observeAll_nil, observeAll_nil, observed?_observed?]
  | cons o more =>
    obtain rfl : more = [] := by
      rw [hvs, length_cons] at hsingle
      exact eq_nil_of_length_eq_zero (by omega)
    cases before with
    | none => exact absurd (hknown rfl) (by simp [hvs])
    | some t =>
      have hcrashed : ∀ t : Track,
          observeAll (vs ++ front) (some t) = some (t.observe o).reopen := by
        intro t
        rw [hpass, hvs]
        rfl
      -- A closed key stays closed: nothing but a confirmed entry counts for it.
      have hclosed : (t.observe o).reopen.status ≠ .opened →
          (SecondPass (vs ++ front ++ (rest ++ cs)) (some t) (observeAll (vs ++ front) (some t)) ↔
            ¬ Conflict (vs ++ es ++ cs) (some t) (observeAll (vs ++ front) (some t))) := by
        intro hclosed
        refine hstable ?_ (.inr fun u hu => ?_)
        · have hinactive : (t.observe o).reopen.status.active = false := by
            obtain ⟨hclaimed, -⟩ := (t.observe o).status_reopen
            cases hstatus : (t.observe o).reopen.status <;> simp_all [Status.active]
          have ho : o ≠ .confirmed := by
            obtain rfl | rfl | rfl := h.verdicts o (by simp [hvs]) <;> decide
          rw [hcrashed, hcrashed,
            Track.observe_of_closed hinactive (t.observe o).status_reopen.2 ho,
            Track.reopen_reopen]
        · rw [hcrashed] at hu
          cases hu
          exact hclosed
      rw [← hvs]
      by_cases hopened : (t.observe o).reopen.status = .opened
      · have hunfold : SecondPass (vs ++ front ++ (rest ++ cs)) (some t)
            (observeAll (vs ++ front) (some t)) ↔
            SameTrack (observeAll (rest ++ cs)
                (some ((t.observe o).reopen.observe o).reopen))
              (observeAll (rest ++ cs) (some (t.observe o).reopen)) := by
          unfold SecondPass
          rw [observeAll_append (vs ++ front), observeAll_append (vs ++ front), hcrashed, hcrashed]
        rw [hunfold, hcrashed]
        obtain rfl | rfl | rfl := h.verdicts o (by simp [hvs])
        · exact h.secondPass_fixed hvs rfl hopened (hlast t rfl) hrest
        · rw [← hunfold, ← hcrashed]
          refine hstable ?_ (.inl ⟨by simp [hvs], by simp [hvs]⟩)
          rw [hcrashed, hcrashed]
          simp only [Track.observe, Track.reopen_reopen]
        · exact h.secondPass_invalidated hvs rfl hopened hrest
      · exact hclosed hopened

/-- **The second pass over one key.** -/
theorem Ordered.secondPass_iff {front back : List Observation}
    (hsplit : front ++ back = vs ++ es ++ cs) (hknown : before = none → vs = [])
    (hlast : ∀ t, before = some t → t.status = .fixed → t.pattern.getLast? = some .fixed) :
    SecondPass (vs ++ es ++ cs) before (observeAll front before) ↔
      ¬ Conflict (vs ++ es ++ cs) before (observeAll front before) := by
  have hverdict : ∀ back, SecondPass (vs ++ back) before (observeAll vs before) ↔
      ¬ Conflict (vs ++ es ++ cs) before (observeAll vs before) :=
    fun _ => h.secondPass_verdict hknown
  obtain ⟨more, hfront, hcs⟩ | ⟨more, hves, hback⟩ := append_eq_append_iff.1 hsplit.symm
  · -- Behind all findings, or behind a confirmed entry.
    by_cases hnil : more = []
    · rw [hnil, append_nil] at hfront
      rw [hfront]
      by_cases hes : es = []
      · rw [hes, append_nil] at hverdict ⊢
        exact hverdict cs
      · have hnone : ∀ o ∈ ([] : List Observation), o = .emitted := nofun
        exact h.secondPass_emitted h.emitted hes hnone hknown hlast
    · obtain ⟨init, o, hmore⟩ := (eq_nil_or_concat more).resolve_left hnil
      have ho : o = .confirmed := h.confirmed o (by rw [hcs, hmore]; simp)
      rw [← hsplit]
      exact secondPass_confirmed ⟨vs ++ es ++ init, by simp [hfront, hmore, ho]⟩
  · obtain ⟨found, hfront, hes⟩ | ⟨tail, hvs, -⟩ := append_eq_append_iff.1 hves
    · -- Behind the verdict, or behind a finding.
      by_cases hnil : found = []
      · rw [hnil, append_nil] at hfront
        rw [append_assoc] at hverdict ⊢
        rw [hfront]
        exact hverdict (es ++ cs)
      · have hobserved : vs ++ found ++ (more ++ cs) = vs ++ es ++ cs := by
          rw [hes]
          simp only [append_assoc]
        have hfound : ∀ o ∈ found, o = .emitted :=
          fun o ho => h.emitted o (by rw [hes]; exact mem_append_left _ ho)
        have hmore : ∀ o ∈ more, o = .emitted :=
          fun o ho => h.emitted o (by rw [hes]; exact mem_append_right _ ho)
        have hpass := h.secondPass_emitted hfound hnil hmore hknown hlast
        rwa [hobserved, ← hfront] at hpass
    · -- Before or behind the verdict.
      by_cases hnil : front = []
      · rw [hnil]
        exact secondPass_start
      · have htail : tail = [] := by
          have hsingle := h.single
          rw [hvs, length_append] at hsingle
          have hpos := length_pos_of_ne_nil hnil
          exact eq_nil_of_length_eq_zero (by omega)
        rw [htail, append_nil] at hvs
        rw [append_assoc] at hverdict ⊢
        rw [← hvs]
        exact hverdict (es ++ cs)

end OneKey

end HarnessLabs.PlanGraph.Convergence
