import Mathlib.Data.List.Induction
import Mathlib.Data.List.Nodup
import Mathlib.Data.List.Perm.Subperm
import Mathlib.Logic.Relation
import Mathlib.Tactic

/-!
# Dependency graphs

Nodes with the nodes that each of them depends on, and the depth-first order that puts every node
behind its dependencies.

* `Ordered` — a list without repetitions in which every node stands behind its dependencies.
* `postorder_isOk` — **the depth-first order of an acyclic graph is found, and is ordered.**
* `Acyclic.exists_ready` — a node without open dependencies among any open nodes.
* `needs_of_postorder_error` — **an order that is not found names a node that needs itself**, so
  that a graph without such a node has a rank (`acyclic_iff`).
-/

namespace HarnessLabs.Dag

open List

universe u

variable {α : Type u} (deps : α → List α)

/-- A rank grows along the dependencies. -/
def Acyclic : Prop := ∃ rank : α → ℕ, ∀ x, ∀ d ∈ deps x, rank d < rank x

/-- `y` needs `x`, at any distance. -/
def Needs : α → α → Prop := Relation.TransGen fun y x => x ∈ deps y

/-- Every node stands behind its dependencies, once. -/
inductive Ordered : List α → Prop
  | nil : Ordered []
  | snoc {xs : List α} {x : α} : Ordered xs → x ∉ xs → (∀ d ∈ deps x, d ∈ xs) → Ordered (xs ++ [x])

variable {deps}

/-- **Progress.** Among open nodes one depends on none of them. -/
theorem Acyclic.exists_ready (h : Acyclic deps) {p : α → Prop} {x : α} (hx : p x) :
    ∃ y, p y ∧ ∀ d ∈ deps y, ¬ p d := by
  obtain ⟨rank, hrank⟩ := h
  induction hn : rank x using Nat.strong_induction_on generalizing x with
  | _ n ih =>
    by_cases hready : ∃ d ∈ deps x, p d
    · obtain ⟨d, hd, hp⟩ := hready
      exact ih (rank d) (hn ▸ hrank x d hd) hp rfl
    · push Not at hready
      exact ⟨x, hx, hready⟩

theorem Acyclic.not_needs_self (h : Acyclic deps) (x : α) : ¬ Needs deps x x := by
  obtain ⟨rank, hrank⟩ := h
  have hlt : ∀ y, Needs deps x y → rank y < rank x := by
    intro y hneeds
    induction hneeds with
    | single hd => exact hrank _ _ hd
    | tail _ hd ih => exact (hrank _ _ hd).trans ih
  intro hneeds
  exact lt_irrefl _ (hlt x hneeds)

/-! ## Ordered lists -/

variable {xs ys : List α}

theorem Ordered.nodup (h : Ordered deps xs) : xs.Nodup := by
  induction h with
  | nil => exact nodup_nil
  | snoc _ hx _ ih => exact nodup_append.2 ⟨ih, nodup_singleton _, by
      intro a ha b hb hab
      rw [mem_singleton.1 hb] at hab
      exact hx (hab ▸ ha)⟩

/-- The list splits before each of its nodes behind the node's dependencies. -/
theorem Ordered.split {x : α} (h : Ordered deps (xs ++ x :: ys)) :
    Ordered deps xs ∧ x ∉ xs ∧ ∀ d ∈ deps x, d ∈ xs := by
  induction ys using List.reverseRecOn with
  | nil =>
    generalize hzs : xs ++ [x] = zs at h
    cases h with
    | nil => simp at hzs
    | snoc hxs hx hdeps =>
      obtain ⟨rfl, rfl⟩ := append_singleton_inj.1 hzs
      exact ⟨hxs, hx, hdeps⟩
  | append_singleton ys y ih =>
    generalize hzs : xs ++ x :: (ys ++ [y]) = zs at h
    cases h with
    | nil => simp at hzs
    | snoc hxs hx hdeps =>
      rw [← cons_append, ← append_assoc] at hzs
      obtain ⟨rfl, rfl⟩ := append_singleton_inj.1 hzs
      exact ih hxs

/-- The places in an ordered list are a rank. -/
theorem Ordered.ranked [DecidableEq α] (h : Ordered deps xs) (hdeps : ∀ x, x ∉ xs → deps x = []) :
    ∃ rank : α → ℕ, (∀ x, ∀ d ∈ deps x, rank d < rank x) ∧ ∀ x, rank x ≤ xs.length := by
  refine ⟨fun x => xs.idxOf x + if x ∈ xs then 1 else 0, ?_, fun x => ?_⟩
  swap
  · by_cases hx : x ∈ xs
    · have hlt := idxOf_lt_length_of_mem hx
      simp only [hx, if_true]
      omega
    · have hle := idxOf_le_length (a := x) (l := xs)
      simp only [hx, if_false]
      omega
  intro x d hd
  by_cases hx : x ∈ xs
  · obtain ⟨ys, zs, rfl⟩ := append_of_mem hx
    obtain ⟨hys, hxys, hsplit⟩ := h.split
    have hdys := hsplit d hd
    have hidx : (ys ++ x :: zs).idxOf d < ys.length := by
      rw [idxOf_append_of_mem hdys]
      exact idxOf_lt_length_of_mem hdys
    have hplace : (ys ++ x :: zs).idxOf x = ys.length := by
      rw [idxOf_append_of_notMem hxys]
      simp
    show (ys ++ x :: zs).idxOf d + _ < (ys ++ x :: zs).idxOf x + _
    split_ifs <;> omega
  · rw [hdeps x hx] at hd
    exact absurd hd not_mem_nil

/-- **The graph of an ordered list is acyclic.** -/
theorem Ordered.acyclic [DecidableEq α] (h : Ordered deps xs) (hdeps : ∀ x, x ∉ xs → deps x = []) :
    Acyclic deps := by
  obtain ⟨rank, hrank, -⟩ := h.ranked hdeps
  exact ⟨rank, hrank⟩

/-! ## Depth-first order -/

/-- The dependencies first, then the node. A node on the way to itself is an error. -/
def visit [DecidableEq α] (deps : α → List α) : ℕ → List α → List α → α → Except α (List α)
  | 0, _, _, x => .error x
  | fuel + 1, visiting, ordered, x =>
    if x ∈ visiting then .error x
    else if x ∈ ordered then .ok ordered
    else ((deps x).foldlM (visit deps fuel (x :: visiting)) ordered).map (· ++ [x])

/-- The depth-first order from the roots, in turn. -/
def postorder [DecidableEq α] (deps : α → List α) (roots : List α) : Except α (List α) :=
  roots.foldlM (visit deps (roots.length + 1) []) []

/-- What a visit adds: an ordered list stays ordered, and no node on the way is added. -/
structure Grows (deps : α → List α) (visiting xs ys : List α) : Prop where
  ordered : Ordered deps xs → Ordered deps ys
  subset : xs ⊆ ys
  fresh : ∀ y ∈ ys, y ∈ xs ∨ y ∉ visiting

theorem Grows.refl (visiting xs : List α) : Grows deps visiting xs xs :=
  ⟨id, List.Subset.refl xs, fun _ hy => .inl hy⟩

theorem Grows.trans {visiting zs : List α} (h : Grows deps visiting xs ys)
    (h' : Grows deps visiting ys zs) : Grows deps visiting xs zs where
  ordered := fun hxs => h'.ordered (h.ordered hxs)
  subset := List.Subset.trans h.subset h'.subset
  fresh := by
    intro z hz
    rcases h'.fresh z hz with hz | hz
    · exact h.fresh z hz
    · exact .inr hz

theorem foldlM_ok_iff {ε β γ : Type*} {f : β → γ → Except ε β} {c : γ} {cs : List γ} {b r : β} :
    (c :: cs).foldlM f b = .ok r ↔ ∃ b', f b c = .ok b' ∧ cs.foldlM f b' = .ok r := by
  rw [foldlM_cons]
  cases h : f b c with
  | error e => simp [bind, Except.bind]
  | ok b' => simp [bind, Except.bind]

theorem foldlM_isOk {β γ ε : Type*} {p : β → Prop} {f : β → γ → Except ε β} {cs : List γ}
    (h : ∀ c ∈ cs, ∀ b, p b → ∃ r, f b c = .ok r ∧ p r) {b : β} (hb : p b) :
    ∃ r, cs.foldlM f b = .ok r ∧ p r := by
  induction cs generalizing b with
  | nil => exact ⟨b, rfl, hb⟩
  | cons c cs ih =>
    obtain ⟨b', hb', hp⟩ := h c mem_cons_self b hb
    obtain ⟨r, hr, hpr⟩ := ih (fun c hc => h c (mem_cons_of_mem _ hc)) hp
    exact ⟨r, foldlM_ok_iff.2 ⟨b', hb', hr⟩, hpr⟩

theorem grows_foldlM {visiting : List α} {f : List α → α → Except α (List α)}
    (hf : ∀ xs x ys, f xs x = .ok ys → Grows deps visiting xs ys ∧ x ∈ ys) {roots : List α}
    (h : roots.foldlM f xs = .ok ys) : Grows deps visiting xs ys ∧ ∀ x ∈ roots, x ∈ ys := by
  induction roots generalizing xs with
  | nil =>
    cases h
    exact ⟨Grows.refl _ _, forall_mem_nil _⟩
  | cons x roots ih =>
    obtain ⟨zs, hx, hrest⟩ := foldlM_ok_iff.1 h
    obtain ⟨hgrows, hmem⟩ := hf xs x zs hx
    obtain ⟨hgrows', hmem'⟩ := ih hrest
    refine ⟨hgrows.trans hgrows', ?_⟩
    intro y hy
    rcases mem_cons.1 hy with rfl | hy
    · exact hgrows'.subset hmem
    · exact hmem' y hy

section Visit

variable [DecidableEq α]

variable {fuel : ℕ} {visiting xs roots : List α} {x : α}

theorem grows_visit {ys : List α} (h : visit deps fuel visiting xs x = .ok ys) :
    Grows deps visiting xs ys ∧ x ∈ ys := by
  induction fuel generalizing visiting xs ys x with
  | zero => cases h
  | succ fuel ih =>
    rw [visit] at h
    by_cases hvisiting : x ∈ visiting
    · rw [if_pos hvisiting] at h
      cases h
    rw [if_neg hvisiting] at h
    by_cases hmem : x ∈ xs
    · rw [if_pos hmem] at h
      cases h
      exact ⟨Grows.refl _ _, hmem⟩
    rw [if_neg hmem] at h
    cases hfold : (deps x).foldlM (visit deps fuel (x :: visiting)) xs with
    | error e =>
      rw [hfold] at h
      cases h
    | ok zs =>
      rw [hfold] at h
      cases h
      obtain ⟨hgrows, hdeps⟩ := grows_foldlM (fun _ _ _ hok => ih hok) hfold
      -- the node itself is on the way, so its dependencies did not add it
      have hx : x ∉ zs := fun hx => (hgrows.fresh x hx).elim hmem fun hnot =>
        hnot mem_cons_self
      refine ⟨⟨fun hxs => .snoc (hgrows.ordered hxs) hx hdeps,
        fun y hy => mem_append_left _ (hgrows.subset hy), ?_⟩,
        mem_append_right _ (mem_singleton_self x)⟩
      intro y hy
      rcases mem_append.1 hy with hy | hy
      · exact (hgrows.fresh y hy).imp_right fun hnot hmem => hnot (mem_cons_of_mem x hmem)
      · rw [mem_singleton.1 hy]
        exact .inr hvisiting

/-- **Soundness.** The order that is found is ordered and has every root. -/
theorem ordered_postorder {ys : List α} (h : postorder deps roots = .ok ys) :
    Ordered deps ys ∧ ∀ x ∈ roots, x ∈ ys := by
  obtain ⟨hgrows, hmem⟩ := grows_foldlM (fun _ _ _ hok => grows_visit hok) h
  exact ⟨hgrows.ordered .nil, hmem⟩

/-- The fuel lasts while the nodes on the way are distinct nodes of the graph. -/
theorem visit_isOk {nodes : List α} {rank : α → ℕ} (hrank : ∀ x, ∀ d ∈ deps x, rank d < rank x)
    (hnodes : ∀ x ∈ nodes, ∀ d ∈ deps x, d ∈ nodes) (hvisiting : visiting.Nodup)
    (hsubset : visiting ⊆ nodes) (hfuel : nodes.length < visiting.length + fuel) (hx : x ∈ nodes)
    (hbelow : ∀ y ∈ visiting, rank x < rank y) (hxs : xs ⊆ nodes) :
    ∃ ys, visit deps fuel visiting xs x = .ok ys ∧ ys ⊆ nodes := by
  induction fuel generalizing visiting x xs with
  | zero =>
    have hlength := (hvisiting.subperm hsubset).length_le
    omega
  | succ fuel ih =>
    have hnot : x ∉ visiting := fun hmem => lt_irrefl _ (hbelow x hmem)
    have hstep : ∀ d ∈ deps x, ∀ xs, xs ⊆ nodes →
        ∃ ys, visit deps fuel (x :: visiting) xs d = .ok ys ∧ ys ⊆ nodes := by
      intro d hd xs hxs
      refine ih (nodup_cons.2 ⟨hnot, hvisiting⟩) (cons_subset.2 ⟨hx, hsubset⟩) ?_
        (hnodes x hx d hd) ?_ hxs
      · rw [length_cons]
        omega
      · intro y hy
        rcases mem_cons.1 hy with rfl | hy
        · exact hrank y d hd
        · exact (hrank x d hd).trans (hbelow y hy)
    rw [visit, if_neg hnot]
    by_cases hmem : x ∈ xs
    · exact ⟨xs, if_pos hmem, hxs⟩
    · obtain ⟨ys, hys, hysubset⟩ := foldlM_isOk hstep hxs
      refine ⟨ys ++ [x], by rw [if_neg hmem, hys]; rfl, ?_⟩
      exact append_subset.2 ⟨hysubset, cons_subset.2 ⟨hx, nil_subset _⟩⟩

/-- **Completeness.** The order of an acyclic graph is found. -/
theorem Acyclic.postorder_isOk (h : Acyclic deps) (hroots : ∀ x ∈ roots, ∀ d ∈ deps x, d ∈ roots) :
    ∃ ys, postorder deps roots = .ok ys ∧ ys ⊆ roots := by
  obtain ⟨rank, hrank⟩ := h
  refine foldlM_isOk (p := (· ⊆ roots)) (fun x hx xs hxs => ?_) (nil_subset _)
  refine visit_isOk hrank hroots nodup_nil (nil_subset _) ?_ hx (forall_mem_nil _) hxs
  omega

/-! ## Cycles -/

theorem foldlM_error {ε β γ : Type*} {f : β → γ → Except ε β} {cs : List γ} {b : β} {e : ε}
    (h : cs.foldlM f b = .error e) : ∃ c ∈ cs, ∃ b', f b' c = .error e := by
  induction cs generalizing b with
  | nil => cases h
  | cons c cs ih =>
    rw [foldlM_cons] at h
    cases hc : f b c with
    | error e' =>
      rw [hc] at h
      obtain rfl : e' = e := Except.error.inj h
      exact ⟨c, mem_cons_self, b, hc⟩
    | ok b' =>
      rw [hc] at h
      obtain ⟨c', hc', hrest⟩ := ih h
      exact ⟨c', mem_cons_of_mem c hc', hrest⟩

/-- The nodes on the way need the node that is visited. -/
theorem needs_of_visit_error {nodes : List α} (hnodes : ∀ x ∈ nodes, ∀ d ∈ deps x, d ∈ nodes)
    (hvisiting : visiting.Nodup) (hsubset : visiting ⊆ nodes)
    (hfuel : nodes.length < visiting.length + fuel) (hx : x ∈ nodes)
    (hway : ∀ y ∈ visiting, Needs deps y x) {e : α} (h : visit deps fuel visiting xs x = .error e) :
    Needs deps e e := by
  induction fuel generalizing visiting x xs with
  | zero =>
    have hlength := (hvisiting.subperm hsubset).length_le
    omega
  | succ fuel ih =>
    rw [visit] at h
    by_cases hback : x ∈ visiting
    · rw [if_pos hback] at h
      obtain rfl := Except.error.inj h
      exact hway x hback
    rw [if_neg hback] at h
    by_cases hmem : x ∈ xs
    · rw [if_pos hmem] at h
      cases h
    rw [if_neg hmem] at h
    cases hfold : (deps x).foldlM (visit deps fuel (x :: visiting)) xs with
    | ok zs =>
      rw [hfold] at h
      cases h
    | error e' =>
      rw [hfold] at h
      obtain rfl : e' = e := Except.error.inj h
      obtain ⟨d, hd, ys, herror⟩ := foldlM_error hfold
      refine ih (nodup_cons.2 ⟨hback, hvisiting⟩) (cons_subset.2 ⟨hx, hsubset⟩) ?_
        (hnodes x hx d hd) ?_ herror
      · rw [length_cons]
        omega
      · intro y hy
        rcases mem_cons.1 hy with rfl | hy
        · exact .single hd
        · exact (hway y hy).tail hd

/-- **An order that is not found names a node that needs itself.** -/
theorem needs_of_postorder_error (hroots : ∀ x ∈ roots, ∀ d ∈ deps x, d ∈ roots) {e : α}
    (h : postorder deps roots = .error e) : Needs deps e e := by
  obtain ⟨x, hx, xs, herror⟩ := foldlM_error h
  refine needs_of_visit_error hroots nodup_nil (nil_subset _) ?_ hx
    (forall_mem_nil _) herror
  omega

/-- Over finitely many nodes a rank exists exactly when no node needs itself. -/
theorem acyclic_iff (hroots : ∀ x ∈ roots, ∀ d ∈ deps x, d ∈ roots)
    (hrest : ∀ x, x ∉ roots → deps x = []) : Acyclic deps ↔ ∀ x, ¬ Needs deps x x := by
  refine ⟨Acyclic.not_needs_self, fun hnone => ?_⟩
  cases horder : postorder deps roots with
  | error e => exact absurd (needs_of_postorder_error hroots horder) (hnone e)
  | ok ys =>
    obtain ⟨hordered, hmem⟩ := ordered_postorder horder
    exact hordered.acyclic fun x hx => hrest x fun hroot => hx (hmem x hroot)

end Visit

end HarnessLabs.Dag
