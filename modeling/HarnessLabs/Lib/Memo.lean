import HarnessLabs.Lib.Dag
import HarnessLabs.Lib.Dict

/-!
# Closures that are computed once

The nodes that a node of a dependency graph needs, by a recursion that keeps what it has found. The
table of what is known is threaded through every computation that asks for a closure.

* `Query`, `closureMemo` — computations with a table, and the recursion on the dependencies.
* `Sound` — every entry of the table is the closure of its node.
* `Computes` — a computation has one value from every sound table; it composes.
* `computes_closureMemo` — **the closure of a node of an acyclic graph is what it needs.**
-/

namespace HarnessLabs.Memo

universe u

variable {α : Type u}

/-- What is known of the closures. -/
abbrev Table (α : Type u) := Dict α (Finset α)

/-- Computations with a table. A recursion that is too deep has no result. -/
abbrev Query (α : Type u) (β : Type u) := StateT (Table α) Option β

variable (deps : α → List α) [DecidableEq α]

/-- A node is looked up; else its dependencies come first, each with its own closure. -/
def closureMemo : ℕ → α → Query α (Finset α)
  | 0, _ => fun _ => none
  | fuel + 1, x => fun known =>
    match known.get? x with
    | some found => some (found, known)
    | none =>
      ((deps x).foldlM (fun found d => do
          let above ← closureMemo fuel d
          return insert d found ∪ above) ∅ known).map
        fun r : Finset α × Table α => (r.1, r.2.set x r.1)

/-- Every entry is the closure of its node. -/
def Sound (known : Table α) : Prop :=
  ∀ x found, known.get? x = some found → ∀ y, y ∈ found ↔ Dag.Needs deps x y

/-- From every sound table the computation has the value, and leaves a sound table. -/
def Computes {β : Type u} (m : Query α β) (b : β) : Prop :=
  ∀ known, Sound deps known → ∃ known', m known = some (b, known') ∧ Sound deps known'

variable {deps}

section Rules

variable {β γ : Type u}

theorem sound_empty : Sound deps ∅ := by
  intro x found h
  cases h

theorem Sound.set {known : Table α} (h : Sound deps known) {x : α} {found : Finset α}
    (hfound : ∀ y, y ∈ found ↔ Dag.Needs deps x y) : Sound deps (known.set x found) := by
  intro z found' hget
  rw [Dict.get?_set] at hget
  split_ifs at hget with hz
  · cases hget
    exact hz ▸ hfound
  · exact h z found' hget

theorem computes_pure (b : β) : Computes deps (pure b) b :=
  fun known hknown => ⟨known, rfl, hknown⟩

theorem Computes.bind {m : Query α β} {f : β → Query α γ} {b : β} {c : γ}
    (hm : Computes deps m b) (hf : Computes deps (f b) c) : Computes deps (m >>= f) c := by
  intro known hknown
  obtain ⟨known', hrun, hknown'⟩ := hm known hknown
  obtain ⟨known'', hrun', hknown''⟩ := hf known' hknown'
  refine ⟨known'', ?_, hknown''⟩
  show (m known).bind (fun r => f r.1 r.2) = _
  rw [hrun]
  exact hrun'

/-- Computations in turn. -/
theorem computes_mapM {f : β → Query α γ} {g : β → γ} {xs : List β}
    (h : ∀ x ∈ xs, Computes deps (f x) (g x)) : Computes deps (xs.mapM f) (xs.map g) := by
  induction xs with
  | nil => exact computes_pure []
  | cons x xs ih =>
    obtain ⟨hx, hxs⟩ := List.forall_mem_cons.1 h
    rw [List.mapM_cons]
    exact hx.bind ((ih hxs).bind (computes_pure _))

end Rules

/-! ## The closure -/

omit [DecidableEq α] in
theorem needs_iff {x y : α} :
    Dag.Needs deps x y ↔ ∃ d ∈ deps x, y = d ∨ Dag.Needs deps d y := by
  rw [Dag.Needs, Relation.TransGen.head'_iff]
  refine exists_congr fun d => and_congr_right fun _ => ?_
  rw [Relation.reflTransGen_iff_eq_or_transGen]

/-- What the dependencies add, in turn. -/
theorem foldlM_above {fuel : ℕ} {ds : List α} {above : α → Finset α}
    (h : ∀ d ∈ ds, Computes deps (closureMemo deps fuel d) (above d)) (found : Finset α) :
    ∃ result, Computes deps (ds.foldlM (fun found d => do
        let above ← closureMemo deps fuel d
        return insert d found ∪ above) found) result ∧
      ∀ y, y ∈ result ↔ y ∈ found ∨ ∃ d ∈ ds, y = d ∨ y ∈ above d := by
  induction ds generalizing found with
  | nil => exact ⟨found, computes_pure found, by simp⟩
  | cons d ds ih =>
    obtain ⟨hd, hds⟩ := List.forall_mem_cons.1 h
    obtain ⟨result, hresult, hmem⟩ := ih hds (insert d found ∪ above d)
    refine ⟨result, ?_, fun y => ?_⟩
    · rw [List.foldlM_cons]
      exact Computes.bind (hd.bind (computes_pure (insert d found ∪ above d))) hresult
    · rw [hmem y, List.exists_mem_cons_iff, ← or_assoc]
      refine or_congr_left ?_
      simp only [Finset.mem_union, Finset.mem_insert]
      constructor
      · rintro ((h | h) | h)
        · exact .inr (.inl h)
        · exact .inl h
        · exact .inr (.inr h)
      · rintro (h | h | h)
        · exact .inl (.inr h)
        · exact .inl (.inl h)
        · exact .inr h

/-- **The closure of a node of an acyclic graph is what it needs**, if the recursion may go as deep
as the node's rank. -/
theorem computes_closureMemo {rank : α → ℕ} (hrank : ∀ x, ∀ d ∈ deps x, rank d < rank x)
    {fuel : ℕ} {x : α} (hfuel : rank x < fuel) :
    ∃ found, Computes deps (closureMemo deps fuel x) found ∧
      ∀ y, y ∈ found ↔ Dag.Needs deps x y := by
  induction fuel generalizing x with
  | zero => omega
  | succ fuel ih =>
    have hbelow : ∀ d ∈ deps x, ∃ found, Computes deps (closureMemo deps fuel d) found ∧
        ∀ y, y ∈ found ↔ Dag.Needs deps d y := by
      intro d hd
      have hlt := hrank x d hd
      exact ih (by omega)
    choose! above habove using hbelow
    obtain ⟨found, hfound, hmem⟩ := foldlM_above (fun d hd => (habove d hd).1) ∅
    have hneeds : ∀ y, y ∈ found ↔ Dag.Needs deps x y := by
      intro y
      rw [hmem y, needs_iff]
      simp only [Finset.notMem_empty, false_or]
      refine exists_congr fun d => and_congr_right fun hd => or_congr_right ((habove d hd).2 y)
    refine ⟨found, fun known hknown => ?_, hneeds⟩
    rw [closureMemo]
    dsimp only
    obtain hnone | ⟨found', hsome⟩ := Option.eq_none_or_eq_some (known.get? x)
    · obtain ⟨known', hrun, hknown'⟩ := hfound known hknown
      rw [hnone]
      rw [hrun]
      exact ⟨_, rfl, hknown'.set hneeds⟩
    · rw [hsome]
      have heq : found' = found := by
        ext y
        rw [hneeds y, hknown x found' hsome y]
      exact ⟨known, by rw [heq], hknown⟩

end HarnessLabs.Memo
