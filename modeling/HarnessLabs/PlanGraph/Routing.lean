import HarnessLabs.PlanGraph.Disclosure

/-!
# Routing

An escalated finding goes to the owner of its paths. A path belongs to the nodes that hold the
deepest grants around it, and a finding to the one node that all its paths belong to alone. The
lookup compares the path with every grant of the plan through the boundary that guards writes, so
a grant that no boundary can be drawn along makes it fail.

* `HoldsDeepest`, `OwnsAll` — who a path and a finding belong to.
* `ownerForPaths_eq_some` — **the lookup finds the owner**; `ownerForPaths?_eq` — in a plan of
  writable grants no lookup fails.
* `ownerForPaths?_of_not_writable` — a grant that is not writable fails every lookup.
-/

namespace HarnessLabs.PlanGraph

open List
open FeatureRun (pathParts pathsOutsideScope normalizeAllowedPaths)
open Until (mapM_ok_iff mapM_ok_mem)

/-! ## Claimants -/

/-- A grant that a boundary can be drawn along. -/
def Writable (grant : String) : Prop := (normalizeAllowedPaths [grant]).isOk

instance (grant : String) : Decidable (Writable grant) :=
  inferInstanceAs (Decidable (_ = true))

def WritableGrants (runs : List PlanRun) : Prop :=
  ∀ run ∈ runs, ∀ grant ∈ run.allowedPaths, Writable grant

instance (runs : List PlanRun) : Decidable (WritableGrants runs) :=
  inferInstanceAs (Decidable (∀ run ∈ runs, ∀ grant ∈ run.allowedPaths, Writable grant))

/-- The grants of a plan with their holders. -/
def grantsHeld (runs : List PlanRun) : List (String × String) :=
  runs.flatMap fun run => run.allowedPaths.map fun grant => (grant, run.id)

/-- The depth and the holder of a grant that matches the path. -/
def grantMatch? (path : String) (held : String × String) : Except String (Option (ℕ × String)) :=
  match pathsOutsideScope [path] [held.1] with
  | .error message => .error message
  | .ok [] => .ok (some ((pathParts held.1).length, held.2))
  | .ok (_ :: _) => .ok none

/-- `_deepest_claimants`, with the error of a grant that is not writable. -/
def deepestClaimants? (runs : List PlanRun) (path : String) : Except String (List String) :=
  ((grantsHeld runs).mapM (grantMatch? path)).map fun found => deepestOwners found.reduceOption

/-- The owner that all paths share. -/
def agreedOwner (owners : List (Option String)) : Option String :=
  match owners.dedup with
  | [some owner] => some owner
  | _ => none

/-- `_owner_for_paths`. -/
def ownerForPaths? (runs : List PlanRun) (paths : List String) : Except String (Option String) :=
  (paths.mapM fun path => (deepestClaimants? runs path).map theOnly).map agreedOwner

/-- `_candidate_owners_for_paths`. -/
def candidateOwnersForPaths? (runs : List PlanRun) (paths : List String) :
    Except String (List String) :=
  (paths.mapM (deepestClaimants? runs)).map fun owners =>
    owners.flatten.dedup.mergeSort fun a b => a ≤ b

/-! ## Owners -/

/-- The node holds a grant of that depth that contains the path. -/
def HoldsAt (runs : List PlanRun) (path node : String) (depth : ℕ) : Prop :=
  ∃ run ∈ runs, run.id = node ∧
    ∃ grant ∈ run.allowedPaths, grantMatches grant path ∧ (pathParts grant).length = depth

/-- The node holds a grant around the path, and nobody holds a deeper one. -/
def HoldsDeepest (runs : List PlanRun) (path node : String) : Prop :=
  ∃ depth, HoldsAt runs path node depth ∧
    ∀ other deeper, HoldsAt runs path other deeper → deeper ≤ depth

/-- Every path belongs to the node alone. -/
def OwnsAll (runs : List PlanRun) (paths : List String) (node : String) : Prop :=
  ∀ path ∈ paths, ∀ other, HoldsDeepest runs path other ↔ other = node

section Lookup

variable {runs : List PlanRun}

variable {node path owner : String} {paths : List String} {held : String × String}

theorem mem_deepestOwners {found : List (ℕ × String)} :
    node ∈ deepestOwners found ↔
      ∃ depth, (depth, node) ∈ found ∧ ∀ other ∈ found, other.1 ≤ depth := by
  simp [deepestOwners]

theorem mem_matches {depth : ℕ} :
    ((depth, node) ∈ runs.flatMap fun run =>
      (run.allowedPaths.filter (grantMatches · path)).map fun grant =>
        ((pathParts grant).length, run.id)) ↔ HoldsAt runs path node depth := by
  simp only [mem_flatMap, mem_map, mem_filter, Prod.mk.injEq, HoldsAt]
  constructor
  · intro ⟨run, hrun, grant, ⟨hgrant, hmatch⟩, hdepth, hid⟩
    exact ⟨run, hrun, hid, grant, hgrant, hmatch, hdepth⟩
  · intro ⟨run, hrun, hid, grant, hgrant, hmatch, hdepth⟩
    exact ⟨run, hrun, grant, ⟨hgrant, hmatch⟩, hdepth, hid⟩

theorem mem_deepestClaimants_iff :
    node ∈ deepestClaimants runs path ↔ HoldsDeepest runs path node := by
  rw [deepestClaimants, mem_deepestOwners]
  constructor
  · rintro ⟨depth, hmem, hall⟩
    exact ⟨depth, mem_matches.1 hmem, fun other deeper h => hall (deeper, other) (mem_matches.2 h)⟩
  · rintro ⟨depth, hholds, hall⟩
    exact ⟨depth, mem_matches.2 hholds, fun other h => hall other.2 other.1 (mem_matches.1 h)⟩

theorem nodup_deepestClaimants (path : String) : (deepestClaimants runs path).Nodup :=
  nodup_dedup _

theorem theOnly_eq_some {owners : List String} (hnodup : owners.Nodup) :
    theOnly owners = some owner ↔ ∀ other, other ∈ owners ↔ other = owner := by
  constructor
  · intro h
    unfold theOnly at h
    split at h
    · cases h
      simp
    · exact nomatch h
  · intro h
    have hperm : owners.Perm [owner] :=
      (perm_ext_iff_of_nodup hnodup (nodup_singleton owner)).2 (by simpa using h)
    rw [perm_singleton.1 hperm]
    rfl

theorem theOnly_deepestClaimants :
    theOnly (deepestClaimants runs path) = some owner ↔
      ∀ other, HoldsDeepest runs path other ↔ other = owner := by
  rw [theOnly_eq_some (nodup_deepestClaimants path)]
  simp only [mem_deepestClaimants_iff]

theorem agreedOwner_eq_some {owners : List (Option String)} :
    agreedOwner owners = some owner ↔ owners ≠ [] ∧ ∀ o ∈ owners, o = some owner := by
  rw [agreedOwner]
  constructor
  · intro h
    split at h
    · rename_i o heq
      cases h
      refine ⟨?_, fun other hmem => ?_⟩
      · rintro rfl
        exact nomatch heq
      · rw [← mem_dedup, heq] at hmem
        exact mem_singleton.1 hmem
    · exact nomatch h
  · intro ⟨hne, hall⟩
    have hperm : owners.dedup.Perm [some owner] := by
      refine (perm_ext_iff_of_nodup (nodup_dedup _) (nodup_singleton _)).2 ?_
      intro o
      rw [mem_dedup, mem_singleton]
      refine ⟨hall o, ?_⟩
      rintro rfl
      obtain ⟨first, hfirst⟩ := exists_mem_of_ne_nil _ hne
      rw [← hall first hfirst]
      exact hfirst
    rw [perm_singleton.1 hperm]

theorem ownerForPaths_eq (paths : List String) : ownerForPaths runs paths =
    agreedOwner (paths.map fun path => theOnly (deepestClaimants runs path)) := rfl

theorem ownerForPaths_eq_some (hne : paths ≠ []) :
    ownerForPaths runs paths = some owner ↔ OwnsAll runs paths owner := by
  rw [ownerForPaths_eq, agreedOwner_eq_some]
  constructor
  · intro ⟨_, hall⟩ path hpath
    exact theOnly_deepestClaimants.1 (hall _ (mem_map_of_mem hpath))
  · intro hall
    refine ⟨by simpa using hne, fun o ho => ?_⟩
    obtain ⟨path, hpath, rfl⟩ := mem_map.1 ho
    exact theOnly_deepestClaimants.2 (hall path hpath)

/-- The candidates are the deepest claimants of the paths. -/
theorem mem_candidateOwnersForPaths :
    node ∈ candidateOwnersForPaths runs paths ↔ ∃ path ∈ paths, HoldsDeepest runs path node := by
  rw [candidateOwnersForPaths, mem_mergeSort, mem_dedup, mem_flatMap]
  simp only [mem_deepestClaimants_iff]

/-! ## Lookups that fail -/

theorem mapM_eq_ok_map {α β : Type} {f : α → Except String β} {g : α → β} {as : List α}
    (h : ∀ a ∈ as, f a = .ok (g a)) : as.mapM f = .ok (as.map g) := by
  rw [mapM_ok_iff, List.forall₂_map_right_iff, List.forall₂_same]
  exact h

theorem mapM_eq_error {α β : Type} {f : α → Except String β} {as : List α} {a : α} (ha : a ∈ as)
    {message : String} (h : f a = .error message) : ∃ m, as.mapM f = .error m := by
  cases hmap : as.mapM f with
  | error m => exact ⟨m, rfl⟩
  | ok bs =>
    obtain ⟨b, -, hb⟩ := mapM_ok_mem hmap ha
    rw [h] at hb
    exact nomatch hb

theorem grantMatch?_of_writable (h : Writable held.1) (path : String) :
    grantMatch? path held = .ok
      (if grantMatches held.1 path then some ((pathParts held.1).length, held.2) else none) := by
  rw [Writable] at h
  obtain ⟨outside, houtside⟩ : ∃ outside, pathsOutsideScope [path] [held.1] = .ok outside := by
    rw [pathsOutsideScope]
    cases hroots : normalizeAllowedPaths [held.1] with
    | error message =>
      rw [hroots] at h
      cases h
    | ok roots => exact ⟨_, rfl⟩
  rw [grantMatch?, grantMatches, houtside]
  cases outside <;> rfl

theorem grantMatch?_of_not_writable (h : ¬ Writable held.1) (path : String) :
    ∃ message, grantMatch? path held = .error message := by
  rw [Writable] at h
  rw [grantMatch?, pathsOutsideScope]
  cases hroots : normalizeAllowedPaths [held.1] with
  | error message => exact ⟨message, rfl⟩
  | ok roots =>
    rw [hroots] at h
    exact absurd rfl h

theorem writable_grantsHeld (h : WritableGrants runs) (hheld : held ∈ grantsHeld runs) :
    Writable held.1 := by
  obtain ⟨run, hrun, hmem⟩ := mem_flatMap.1 hheld
  obtain ⟨grant, hgrant, rfl⟩ := mem_map.1 hmem
  exact h run hrun grant hgrant

theorem deepestClaimants?_eq (h : WritableGrants runs) (path : String) :
    deepestClaimants? runs path = .ok (deepestClaimants runs path) := by
  rw [deepestClaimants?, mapM_eq_ok_map fun held hheld =>
    grantMatch?_of_writable (writable_grantsHeld h hheld) path]
  refine congrArg (fun found => Except.ok (deepestOwners found)) ?_
  rw [grantsHeld, map_flatMap]
  refine filterMap_flatMap.trans (congrArg (runs.flatMap ·) (funext fun run => ?_))
  induction run.allowedPaths with
  | nil => rfl
  | cons grant rest ih =>
    by_cases hmatch : grantMatches grant path
    · simpa [hmatch] using ih
    · simpa [hmatch] using ih

theorem ownerForPaths?_eq (h : WritableGrants runs) (paths : List String) :
    ownerForPaths? runs paths = .ok (ownerForPaths runs paths) := by
  rw [ownerForPaths?, mapM_eq_ok_map (g := fun path => theOnly (deepestClaimants runs path))
    fun path _ => by rw [deepestClaimants?_eq h]; rfl]
  rfl

theorem candidateOwnersForPaths?_eq (h : WritableGrants runs) (paths : List String) :
    candidateOwnersForPaths? runs paths = .ok (candidateOwnersForPaths runs paths) := by
  rw [candidateOwnersForPaths?, mapM_eq_ok_map fun path _ => deepestClaimants?_eq h path]
  rfl

theorem deepestClaimants?_of_not_writable (hheld : held ∈ grantsHeld runs)
    (hnot : ¬ Writable held.1) (path : String) :
    ∃ message, deepestClaimants? runs path = .error message := by
  obtain ⟨_, hmatch⟩ := grantMatch?_of_not_writable hnot path
  obtain ⟨message, hmap⟩ := mapM_eq_error (f := grantMatch? path) hheld hmatch
  refine ⟨message, ?_⟩
  rw [deepestClaimants?, hmap]
  rfl

theorem exists_grantsHeld (h : ¬ WritableGrants runs) :
    ∃ held ∈ grantsHeld runs, ¬ Writable held.1 := by
  simp only [WritableGrants, not_forall] at h
  obtain ⟨run, hrun, grant, hgrant, hnot⟩ := h
  refine ⟨(grant, run.id), ?_, hnot⟩
  rw [grantsHeld, mem_flatMap]
  exact ⟨run, hrun, mem_map_of_mem hgrant⟩

/-- One grant that is not writable, and no finding is routed. -/
theorem ownerForPaths?_of_not_writable (h : ¬ WritableGrants runs) (hne : paths ≠ []) :
    ∃ message, ownerForPaths? runs paths = .error message := by
  obtain ⟨held, hheld, hnot⟩ := exists_grantsHeld h
  obtain ⟨path, hpath⟩ := exists_mem_of_ne_nil _ hne
  obtain ⟨_, hclaimants⟩ := deepestClaimants?_of_not_writable hheld hnot path
  obtain ⟨message, hmap⟩ := mapM_eq_error
    (f := fun path => (deepestClaimants? runs path).map theOnly) hpath
    (by rw [hclaimants]; rfl)
  refine ⟨message, ?_⟩
  rw [ownerForPaths?, hmap]
  rfl

end Lookup

end HarnessLabs.PlanGraph
