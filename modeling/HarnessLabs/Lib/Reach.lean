import HarnessLabs.Lib.Dag

/-!
# Closures by a work list

The nodes that are met by following the dependencies of a graph from some nodes, with a list of
nodes that are still to be followed. A list that is served in turn finds distances.

* `closure` — the nodes met so far, and the ones to follow, the last one first.
* `mem_closure` — **the closure has exactly the nodes that are reached.**
* `Breadth` — the invariant of a search whose list is served in turn: the levels on the list grow,
  by one at most.
* `Breadth.level_eq_some` — **once the list is empty, the levels are the distances.**
-/

namespace HarnessLabs.Dag

open List Option

universe u

variable {α : Type u} (deps : α → List α) (known : α → Prop)

/-- Known nodes, each a dependency of the one before. -/
def Leads : α → α → Prop := Relation.ReflTransGen fun x d => d ∈ deps x ∧ known d

variable {result nodes : List α} {x : α}

variable {deps known} in
/-- What a met node leads to was met, or is behind a pending node. -/
theorem leads_of_met {pending : List α}
    (hmet : ∀ x ∈ result, ∀ d ∈ deps x, known d → d ∈ result ∨ d ∈ pending) {y : α}
    (hx : x ∈ result) (h : Leads deps known x y) :
    y ∈ result ∨ ∃ z ∈ pending, known z ∧ Leads deps known z y := by
  induction h with
  | refl => exact .inl hx
  | tail _ hd ih =>
    rcases ih with hmem | ⟨z, hz, hknown, hleads⟩
    · rcases hmet _ hmem _ hd.1 hd.2 with hresult | hpending
      · exact .inl hresult
      · exact .inr ⟨_, hpending, hd.2, .refl⟩
    · exact .inr ⟨z, hz, hknown, hleads.tail hd⟩

variable [DecidableEq α] [DecidablePred known]

/-- Follows the last pending node, unless it was met before or is not known. -/
def closure : ℕ → List α → List α → List α
  | 0, result, _ => result
  | fuel + 1, result, pending =>
    match pending.getLast? with
    | none => result
    | some x =>
      if x ∈ result ∨ ¬ known x then closure fuel result pending.dropLast
      else closure fuel (x :: result) (pending.dropLast ++ deps x)

/-- The dependencies that the nodes outside a list may still add. -/
def openEdges (nodes result : List α) : ℕ :=
  ((nodes.filter (· ∉ result)).map fun x => (deps x).length).sum

variable {deps known}

theorem openEdges_cons_le (result : List α) :
    openEdges deps nodes (x :: result) ≤ openEdges deps nodes result := by
  induction nodes with
  | nil => exact le_refl _
  | cons y nodes ih =>
    simp only [openEdges, filter_cons, mem_cons, not_or, Bool.decide_and] at ih ⊢
    by_cases hresult : y ∈ result
    · simpa [hresult] using ih
    · by_cases hx : y = x
      · subst hx
        simp [hresult] at ih ⊢
        omega
      · simpa [hresult, hx] using ih

theorem openEdges_cons (hnode : x ∈ nodes) (hnew : x ∉ result) :
    openEdges deps nodes (x :: result) + (deps x).length ≤ openEdges deps nodes result := by
  induction nodes with
  | nil => cases hnode
  | cons y nodes ih =>
    by_cases hy : y = x
    · subst hy
      have hle : openEdges deps nodes (y :: result) ≤ openEdges deps nodes result :=
        openEdges_cons_le result
      simp only [openEdges, filter_cons, mem_cons, hnew] at hle ⊢
      simp at hle ⊢
      omega
    · have hle := ih ((mem_cons.1 hnode).resolve_left (Ne.symm hy))
      simp only [openEdges, filter_cons, mem_cons, hy, false_or] at hle ⊢
      by_cases hresult : y ∈ result <;> simp [hresult] at hle ⊢ <;> omega

/-- **The closure has exactly the nodes that are met already or reached from a pending one.** -/
theorem mem_closure (hnodes : ∀ x, known x → x ∈ nodes) {fuel : ℕ} {pending : List α}
    (hfuel : pending.length + openEdges deps nodes result ≤ fuel)
    (hmet : ∀ x ∈ result, ∀ d ∈ deps x, known d → d ∈ result ∨ d ∈ pending) {y : α} :
    y ∈ closure deps known fuel result pending ↔
      y ∈ result ∨ ∃ x ∈ pending, known x ∧ Leads deps known x y := by
  induction fuel generalizing result pending with
  | zero =>
    have hnil : pending = [] := eq_nil_of_length_eq_zero (by omega)
    subst hnil
    simp [closure]
  | succ fuel ih =>
    rcases eq_nil_or_concat pending with rfl | ⟨rest, x, rfl⟩
    · simp [closure]
    rw [concat_eq_append] at hfuel hmet ⊢
    rw [closure, List.getLast?_concat]
    simp only [dropLast_concat]
    rw [length_append, length_singleton] at hfuel
    by_cases hskip : x ∈ result ∨ ¬ known x
    · rw [if_pos hskip]
      have hrest : ∀ z ∈ result, ∀ d ∈ deps z, known d → d ∈ result ∨ d ∈ rest := by
        intro z hz d hd hknown
        rcases hmet z hz d hd hknown with hresult | hpending
        · exact .inl hresult
        · rcases mem_append.1 hpending with hrest | hx
          · exact .inr hrest
          · rw [mem_singleton.1 hx] at hknown ⊢
            exact .inl (hskip.resolve_right (not_not.2 hknown))
      rw [ih (by omega) hrest]
      constructor
      · rintro (hresult | ⟨z, hz, hleads⟩)
        · exact .inl hresult
        · exact .inr ⟨z, mem_append_left _ hz, hleads⟩
      · rintro (hresult | ⟨z, hz, hknown, hleads⟩)
        · exact .inl hresult
        · rcases mem_append.1 hz with hz | hz
          · exact .inr ⟨z, hz, hknown, hleads⟩
          · rw [mem_singleton.1 hz] at hknown hleads
            exact leads_of_met hrest (hskip.resolve_right (not_not.2 hknown)) hleads
    · rw [if_neg hskip]
      push Not at hskip
      obtain ⟨hnew, hknown⟩ := hskip
      have hedges : openEdges deps nodes (x :: result) + (deps x).length ≤
          openEdges deps nodes result := openEdges_cons (hnodes x hknown) hnew
      rw [ih (by rw [length_append]; omega) ?_]
      · constructor
        · rintro (hmem | ⟨z, hz, hz', hleads⟩)
          · rcases mem_cons.1 hmem with rfl | hmem
            · exact .inr ⟨y, by simp, hknown, .refl⟩
            · exact .inl hmem
          · rcases mem_append.1 hz with hz | hz
            · exact .inr ⟨z, mem_append_left _ hz, hz', hleads⟩
            · exact .inr ⟨x, by simp, hknown, .head ⟨hz, hz'⟩ hleads⟩
        · rintro (hmem | ⟨z, hz, hz', hleads⟩)
          · exact .inl (mem_cons_of_mem x hmem)
          · rcases mem_append.1 hz with hz | hz
            · exact .inr ⟨z, mem_append_left _ hz, hz', hleads⟩
            · rw [mem_singleton.1 hz] at hleads
              rcases Relation.ReflTransGen.cases_head hleads with rfl | ⟨d, hd, hleads⟩
              · exact .inl mem_cons_self
              · exact .inr ⟨d, mem_append_right _ hd.1, hd.2, hleads⟩
      · intro z hz d hd hd'
        rcases mem_cons.1 hz with rfl | hz
        · exact .inr (mem_append_right _ hd)
        · rcases hmet z hz d hd hd' with hresult | hpending
          · exact .inl (mem_cons_of_mem x hresult)
          · rcases mem_append.1 hpending with hrest | hx
            · exact .inr (mem_append_left _ hrest)
            · rw [mem_singleton.1 hx]
              exact .inl mem_cons_self

/-! ## Distances -/

section Distances

omit [DecidableEq α] [DecidablePred known]

/-- A node is some dependencies away from another one. -/
inductive Away (deps : α → List α) (source : α) : ℕ → α → Prop
  | here : Away deps source 0 source
  | step {k : ℕ} {p x : α} : Away deps source k p → p ∈ deps x → Away deps source (k + 1) x

/-- The least number of dependencies that a node is away. -/
def Distance (deps : α → List α) (source : α) (k : ℕ) (x : α) : Prop :=
  Away deps source k x ∧ ∀ j, Away deps source j x → k ≤ j

variable {x : α} {k : ℕ}

theorem Away.needs {source : α} (h : Away deps source (k + 1) x) :
    Needs deps x source := by
  generalize hn : k + 1 = n at h
  induction h generalizing k with
  | here => omega
  | step h hp ih =>
    cases h with
    | here => exact .single hp
    | step hback hq => exact .head hp (ih rfl)

/-- A search from a source, with the levels found so far and the nodes still to be served. -/
structure Breadth (deps : α → List α) (source : α) (level : α → Option ℕ) (frontier : List α) :
    Prop where
  start : level source = some 0
  sound : ∀ {x k}, level x = some k → Away deps source k x
  nodup : frontier.Nodup
  queued : ∀ f ∈ frontier, ∃ k, level f = some k
  served : ∀ {p k}, level p = some k → p ∉ frontier → ∀ x, p ∈ deps x →
    ∃ j, level x = some j ∧ j ≤ k + 1
  behind : ∀ {p k}, level p = some k → p ∉ frontier → ∀ f ∈ frontier, ∀ j, level f = some j → k ≤ j
  sorted : frontier.Pairwise fun f g => ∀ j k, level f = some j → level g = some k → j ≤ k
  span : ∀ f ∈ frontier, ∀ g ∈ frontier, ∀ j k, level f = some j → level g = some k → k ≤ j + 1

variable {source : α} {level : α → Option ℕ}

theorem Breadth.begin {level : α → Option ℕ} (hstart : level source = some 0)
    (hrest : ∀ x, x ≠ source → level x = none) : Breadth deps source level [source] := by
  have honly : ∀ {x k}, level x = some k → x = source := by
    intro x k hx
    by_contra hne
    rw [hrest x hne] at hx
    cases hx
  refine ⟨hstart, fun hx => ?_, nodup_singleton _, fun f hf => ?_, fun hp hnot => ?_,
    fun hp hnot => ?_, pairwise_singleton _ _, fun f hf g hg j k hj hk => ?_⟩
  · obtain rfl := honly hx
    rw [hstart, some_inj] at hx
    exact hx ▸ .here
  · exact ⟨0, mem_singleton.1 hf ▸ hstart⟩
  · exact absurd (mem_singleton.2 (honly hp)) hnot
  · exact absurd (mem_singleton.2 (honly hp)) hnot
  · rw [mem_singleton.1 hg, hstart, some_inj] at hk
    omega

/-- No level is higher than the one below the node that is served next. -/
theorem Breadth.level_le {p : α} {rest : List α} (h : Breadth deps source level (p :: rest))
    (hp : level p = some k) {j : ℕ} (hx : level x = some j) : j ≤ k + 1 := by
  by_cases hmem : x ∈ p :: rest
  · exact h.span p mem_cons_self x hmem k j hp hx
  · exact (h.behind hx hmem p mem_cons_self k hp).trans (Nat.le_succ k)

/-- **A node is served: the nodes that depend on it have a level, the new ones one below.** -/
theorem Breadth.serve {p : α} {rest : List α} (h : Breadth deps source level (p :: rest))
    (hp : level p = some k) {new : List α} (hnew : new.Nodup)
    (hfresh : ∀ x ∈ new, level x = none ∧ p ∈ deps x) {level' : α → Option ℕ}
    (hsame : ∀ x, x ∉ new → level' x = level x) (hset : ∀ x ∈ new, level' x = some (k + 1))
    (hall : ∀ x, p ∈ deps x → ∃ j, level' x = some j) :
    Breadth deps source level' (rest ++ new) := by
  have hold : ∀ {x j}, level x = some j → x ∉ new ∧ level' x = some j := by
    intro x j hx
    have hnot : x ∉ new := fun hmem => by
      rw [(hfresh x hmem).1] at hx
      cases hx
    exact ⟨hnot, by rw [hsame x hnot, hx]⟩
  have hlevel : ∀ {x j}, level' x = some j → level x = some j ∨ x ∈ new ∧ j = k + 1 := by
    intro x j hx
    by_cases hmem : x ∈ new
    · rw [hset x hmem, some_inj] at hx
      exact .inr ⟨hmem, hx.symm⟩
    · exact .inl (by rw [← hsame x hmem, hx])
  have hbound : ∀ {x j}, level' x = some j → j ≤ k + 1 := fun hx =>
    (hlevel hx).elim (h.level_le hp) fun hmem => hmem.2.le
  obtain ⟨hnotrest, hrest⟩ := nodup_cons.1 h.nodup
  have hrestold : ∀ f ∈ rest, ∀ j, level' f = some j → level f = some j := by
    intro f hf j hj
    obtain ⟨i, hi⟩ := h.queued f (mem_cons_of_mem p hf)
    rw [(hold hi).2, some_inj] at hj
    rw [hi, hj]
  have hrestle : ∀ f ∈ rest, ∀ j, level' f = some j → k ≤ j := fun f hf j hj =>
    (pairwise_cons.1 h.sorted).1 f hf k j hp (hrestold f hf j hj)
  have hnewlevel : ∀ f ∈ new, ∀ j, level' f = some j → j = k + 1 := by
    intro f hf j hj
    rw [hset f hf, some_inj] at hj
    exact hj.symm
  -- what was served is the node itself or was served before
  have hserved : ∀ {q j}, level' q = some j → q ∉ rest ++ new →
      q = p ∧ j = k ∨ level q = some j ∧ q ∉ p :: rest := by
    intro q j hq hnot
    rw [mem_append, not_or] at hnot
    have hqold := (hlevel hq).resolve_right fun hmem => hnot.2 hmem.1
    by_cases hqp : q = p
    · subst hqp
      rw [hp, some_inj] at hqold
      exact .inl ⟨rfl, hqold.symm⟩
    · exact .inr ⟨hqold, by simp [hqp, hnot.1]⟩
  refine ⟨(hold h.start).2, fun hx => ?_, ?_, fun f hf => ?_, fun {q j} hq hnot x hx => ?_,
    fun {q i} hq hnot f hf j hj => ?_, ?_, fun f hf g hg i j hi hj => ?_⟩
  · rcases hlevel hx with hx | ⟨hmem, rfl⟩
    · exact h.sound hx
    · exact .step (h.sound hp) (hfresh _ hmem).2
  · refine nodup_append.2 ⟨hrest, hnew, fun f hf g hg heq => ?_⟩
    obtain ⟨i, hi⟩ := h.queued f (mem_cons_of_mem p hf)
    exact (hold hi).1 (heq ▸ hg)
  · rcases mem_append.1 hf with hf | hf
    · obtain ⟨i, hi⟩ := h.queued f (mem_cons_of_mem p hf)
      exact ⟨i, (hold hi).2⟩
    · exact ⟨k + 1, hset f hf⟩
  · rcases hserved hq hnot with ⟨rfl, rfl⟩ | ⟨hqold, hqnot⟩
    · obtain ⟨i, hi⟩ := hall x hx
      exact ⟨i, hi, hbound hi⟩
    · obtain ⟨i, hi, hle⟩ := h.served hqold hqnot x hx
      exact ⟨i, (hold hi).2, hle⟩
  · have hqk : i ≤ k := by
      rcases hserved hq hnot with ⟨rfl, rfl⟩ | ⟨hqold, hqnot⟩
      · exact le_refl _
      · exact h.behind hqold hqnot p mem_cons_self k hp
    rcases mem_append.1 hf with hf | hf
    · exact hqk.trans (hrestle f hf j hj)
    · have hjk := hnewlevel f hf j hj
      omega
  · refine pairwise_append.2 ⟨?_, ?_, fun f hf g hg i j hi hj => ?_⟩
    · refine (pairwise_cons.1 h.sorted).2.imp_of_mem fun {f g} hf hg hle i j hi hj => ?_
      exact hle i j (hrestold f hf i hi) (hrestold g hg j hj)
    · refine pairwise_of_forall_mem_list fun f hf g hg i j hi hj => ?_
      rw [hnewlevel f hf i hi, hnewlevel g hg j hj]
    · rw [hnewlevel g hg j hj]
      exact hbound hi
  · have hik : k ≤ i := by
      rcases mem_append.1 hf with hf | hf
      · exact hrestle f hf i hi
      · exact (hnewlevel f hf i hi).symm ▸ Nat.le_succ k
    have hjk := hbound hj
    omega

/-- **Once every node is served, the levels are the distances.** -/
theorem Breadth.level_eq_some (h : Breadth deps source level []) :
    level x = some k ↔ Distance deps source k x := by
  have hleast : ∀ {j x}, Away deps source j x → ∃ i, level x = some i ∧ i ≤ j := by
    intro j x haway
    induction haway with
    | here => exact ⟨0, h.start, le_refl 0⟩
    | step _ hp ih =>
      obtain ⟨i, hi, hle⟩ := ih
      obtain ⟨i', hi', hle'⟩ := h.served hi not_mem_nil _ hp
      exact ⟨i', hi', by omega⟩
  constructor
  · intro hx
    refine ⟨h.sound hx, fun j hj => ?_⟩
    obtain ⟨i, hi, hle⟩ := hleast hj
    rw [hx, some_inj] at hi
    omega
  · intro ⟨haway, hmin⟩
    obtain ⟨i, hi, hle⟩ := hleast haway
    rw [hi, some_inj]
    exact le_antisymm hle (hmin i (h.sound hi))

end Distances

end HarnessLabs.Dag
