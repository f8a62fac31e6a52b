import Mathlib.Data.Finset.Max
import Mathlib.Order.Preorder.Finite
import Mathlib.Tactic

/-!
# Joining candidates

Commits with their ancestry, and `_join_candidates`: ancestors are pruned, the others are merged one
after the other.

* `Git` — merging, of which a merge commit descends from both parents.
* `le_of_join` — **a join descends from every candidate.**
-/

namespace HarnessLabs.PlanGraph

universe u

/-- Merging in a repository, where `a ≤ b` says that `a` is an ancestor of `b` or `b` itself. A
conflict without a registered resolution raises. -/
structure Git (C : Type u) [PartialOrder C] where
  merge : String → C → C → Except String C
  left_le : ∀ {label a b m}, merge label a b = .ok m → a ≤ m
  right_le : ∀ {label a b m}, merge label a b = .ok m → b ≤ m

/-- Commits as the changes that they hold. A merge holds those of both parents. -/
def changeGit : Git (Finset ℕ) where
  merge := fun _ a b => .ok (a ∪ b)
  left_le := by
    intro label a b m h
    cases h
    exact Finset.subset_union_left
  right_le := by
    intro label a b m h
    cases h
    exact Finset.subset_union_right

variable {C : Type u}

/-- `dict.fromkeys`: the first of equal commits stays. -/
def unique [DecidableEq C] (parents : List C) : List C := (parents.reverse.dedup).reverse

variable {parents : List C} {c : C}

@[simp] theorem mem_unique [DecidableEq C] :
    c ∈ unique parents ↔ c ∈ parents := by
  simp [unique]

variable [PartialOrder C]

theorem le_of_merges {git : Git C} {label : String} {rest : List C} {first m : C}
    (h : rest.foldlM (git.merge label) first = .ok m) : first ≤ m ∧ ∀ c ∈ rest, c ≤ m := by
  induction rest generalizing first with
  | nil =>
    cases h
    exact ⟨le_rfl, List.forall_mem_nil _⟩
  | cons c rest ih =>
    rw [List.foldlM_cons] at h
    cases hmerge : git.merge label first c with
    | error e =>
      rw [hmerge] at h
      cases h
    | ok next =>
      rw [hmerge] at h
      obtain ⟨hnext, hrest⟩ := ih h
      exact ⟨(git.left_le hmerge).trans hnext,
        List.forall_mem_cons.2 ⟨(git.right_le hmerge).trans hnext, hrest⟩⟩

variable [DecidableEq C] [DecidableLE C]

/-- The commits that are no ancestors of another one. -/
def prune (commits : List C) : List C :=
  commits.filter fun parent => !commits.any fun other => other != parent && decide (parent ≤ other)

/-- `_join_candidates`. -/
def joinCandidates (git : Git C) (label : String) (parents : List C) : Except String C :=
  match prune (unique parents) with
  | [] => .error s!"join '{label}' has no candidate parents"
  | first :: rest => rest.foldlM (git.merge label) first

theorem mem_prune {commits : List C} :
    c ∈ prune commits ↔ c ∈ commits ∧ ∀ d ∈ commits, c ≤ d → d = c := by
  simp only [prune, List.mem_filter, Bool.not_eq_true', List.any_eq_false, Bool.and_eq_true,
    bne_iff_ne, decide_eq_true_eq, not_and]
  refine and_congr_right fun _ => ?_
  constructor
  · intro h d hd hle
    by_contra hne
    exact h d hd hne hle
  · intro h d hd hne hle
    exact hne (h d hd hle)

/-- Every commit is an ancestor of one that is not pruned. -/
theorem exists_le_prune {commits : List C} (hc : c ∈ commits) :
    ∃ d ∈ prune commits, c ≤ d := by
  obtain ⟨d, hle, hmax⟩ := (commits.toFinset).exists_le_maximal (List.mem_toFinset.2 hc)
  have hd : d ∈ commits := List.mem_toFinset.1 hmax.prop
  refine ⟨d, mem_prune.2 ⟨hd, fun e he hde => ?_⟩, hle⟩
  exact (hmax.eq_of_le (List.mem_toFinset.2 he) hde).symm

/-- **A join descends from every candidate.** -/
theorem le_of_join {git : Git C} {label : String} {m : C}
    (h : joinCandidates git label parents = .ok m) : ∀ c ∈ parents, c ≤ m := by
  intro c hc
  obtain ⟨d, hd, hle⟩ := exists_le_prune (mem_unique.2 hc)
  rw [joinCandidates] at h
  cases hpruned : prune (unique parents) with
  | nil =>
    rw [hpruned] at h
    cases h
  | cons first rest =>
    rw [hpruned] at h hd
    obtain ⟨hfirst, hrest⟩ := le_of_merges h
    rcases List.mem_cons.1 hd with rfl | hd
    · exact hle.trans hfirst
    · exact hle.trans (hrest d hd)

end HarnessLabs.PlanGraph
