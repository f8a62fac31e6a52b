import HarnessLabs.Lib.CQuote
import HarnessLabs.Lib.Dict
import HarnessLabs.Lib.Json
import HarnessLabs.Lib.Sha256
import Mathlib.Data.List.Dedup
import Mathlib.Data.List.Sort
import Mathlib.Order.WellFounded

/-!
# Resolutions of join conflicts

The conflicted paths are read from what the merge prints. A resolved tree is compared with the
automerge tree by what a second command prints, and its files are read by a third, which takes
paths as they are.

* `describeJoinConflict`, `verifyResolvedTree` — the conflict and the check of a resolved tree.
* `resolvesConflict_iff` — **every accepted tree resolves its conflict exactly if the conflicted
  paths are printed as they are**, or one printed path is a file that lets nothing pass.
-/

namespace HarnessLabs.PlanGraph.JoinResolution

open List
open CQuote (Name cQuote cQuote_injective isPlain cQuote_of_isPlain length_cQuote)

/-! ## Trees -/

structure Entry where
  mode : ℕ
  data : List ℕ
deriving DecidableEq

/-- The files of a tree. -/
abbrev Tree := Dict Name Entry

/-- `git show <tree>:<path>`; the path is taken as it is. -/
def gitShow (tree : Tree) (path : Name) : Option (List ℕ) := (tree.get? path).map Entry.data

/-- `git diff-tree -r --name-only`. -/
def diffTree (a b : Tree) : List Name :=
  ((a.keys ++ b.keys).filter fun path => a.get? path ≠ b.get? path).map cQuote

def ours : Name := replicate 7 60 ++ [32]

def theirs : Name := replicate 7 62 ++ [32]

/-- `_retains_conflict_markers`. -/
def retainsConflictMarkers (tree : Tree) (path : Name) : Bool :=
  match gitShow tree path with
  | none => false
  | some data =>
    let starts := (data.splitOn 10).map (take 8)
    starts.any (ours.isPrefixOf ·) && starts.any (theirs.isPrefixOf ·)

theorem mem_diffTree {a b : Tree} {line : Name} :
    line ∈ diffTree a b ↔ ∃ path, a.get? path ≠ b.get? path ∧ cQuote path = line := by
  simp only [diffTree, mem_map, mem_filter, mem_append, decide_eq_true_eq]
  refine exists_congr fun path => and_congr_left fun _ => and_iff_right_of_imp fun hne => ?_
  by_contra hnot
  rw [not_or, ← Dict.get?_eq_none_iff, ← Dict.get?_eq_none_iff] at hnot
  exact hne (hnot.1.trans hnot.2.symm)

theorem retainsConflictMarkers_congr {a b : Tree} {path : Name} (h : a.get? path = b.get? path) :
    retainsConflictMarkers a path = retainsConflictMarkers b path := by
  rw [retainsConflictMarkers, retainsConflictMarkers, gitShow, gitShow, h]

/-! ## Conflicts -/

inductive JoinError where
  | blankReason | blankActor | blankLabel | notACommit (name : String) | sameCommit | mergesCleanly
  | mergeTreeFailed | mergeBaseFailed | noConflictedFiles | notATree (name : String)
  | identicalToAutomerge | outsideConflict (stray : List Name) | retainsMarkers (paths : List Name)
  | alreadyResolved (sequence : ℕ) | corrupt | updateRefFailed
deriving DecidableEq

/-- A line that `git merge-tree` prints for a stage of a path. -/
structure StageLine where
  mode : String
  object : String
  stage : String
  path : Name
deriving DecidableEq

inductive MergeTree where
  | clean
  | failed
  | conflict (automergeTree : String) (stages : List StageLine)

/-- The repository; names of commits and trees are resolved to ids, which are no empty texts. -/
structure Git where
  commit : String → Option String
  tree : String → Option String
  treeOf : String → String
  mergeBases : String → String → Option (List String)
  mergeTree : String → String → MergeTree
  files : String → Tree
  tree_ne {name id : String} : tree name = some id → id ≠ ""
  mergeTree_ne {a b id : String} {stages : List StageLine} :
    mergeTree a b = .conflict id stages → id ≠ ""

structure Description where
  label : String
  parents : String × String
  parentTrees : String × String
  mergeBaseTrees : List String
  resolutionKey : String
  automergeTree : String
  conflictedPaths : List Name
deriving DecidableEq

/-- The paths in what is printed for the stages. -/
def conflictedPaths (stages : List StageLine) : List Name :=
  (stages.map fun line => cQuote line.path).dedup

def mergeBaseTrees (git : Git) (bases : List String) : List String :=
  (bases.map git.treeOf).dedup.insertionSort (· ≤ ·)

def resolutionKey (label : String) (parentTrees : String × String) (bases : List String) :
    String :=
  Sha256.hexdigest (Json.utf8 (Json.dumps (.obj
    [("protocol", .str "join-conflict-resolution/1"), ("label", .str label),
      ("parent_trees", .arr [.str parentTrees.1, .str parentTrees.2]),
      ("merge_base_trees", .arr (bases.map Json.str))])))

def resolveCommit (git : Git) (name : String) : Except JoinError String :=
  match git.commit name with
  | none => .error (.notACommit name)
  | some commit => .ok commit

/-- `git merge-base --all`, and the trees of what it prints. -/
def sharedTrees (git : Git) (a b : String) : Except JoinError (List String) :=
  match git.mergeBases a b with
  | none => .error .mergeBaseFailed
  | some bases => .ok (mergeBaseTrees git bases)

def parentTrees (git : Git) (a b : String) : String × String := (git.treeOf a, git.treeOf b)

def describeJoinConflict (git : Git) (label parentA parentB : String) :
    Except JoinError Description :=
  if label = "" then .error .blankLabel
  else do
    let a ← resolveCommit git parentA
    let b ← resolveCommit git parentB
    if a = b then .error .sameCommit
    else
      match git.mergeTree a b with
      | .clean => .error .mergesCleanly
      | .failed => .error .mergeTreeFailed
      | .conflict automergeTree stages =>
        if conflictedPaths stages = [] then .error .noConflictedFiles
        else (sharedTrees git a b).map fun bases =>
          ⟨label, (a, b), parentTrees git a b, bases,
            resolutionKey label (parentTrees git a b) bases, automergeTree,
            conflictedPaths stages⟩

/-- The comparison in `_verify_resolved_tree`. -/
def compareTrees (automerge : Tree) (conflicted : List Name) (resolved : Tree) :
    Except JoinError Unit :=
  let changed := diffTree automerge resolved
  let stray := changed.filter (· ∉ conflicted)
  let retained := conflicted.filter (retainsConflictMarkers resolved)
  if changed = [] then .error .identicalToAutomerge
  else if stray ≠ [] then .error (.outsideConflict stray)
  else if retained ≠ [] then .error (.retainsMarkers retained)
  else .ok ()

def verifyResolvedTree (git : Git) (description : Description) (resolvedTree : String) :
    Except JoinError String :=
  match git.tree resolvedTree with
  | none => .error (.notATree resolvedTree)
  | some resolved =>
    (compareTrees (git.files description.automergeTree) description.conflictedPaths
      (git.files resolved)).map fun _ => resolved

/-! ## What an accepted tree resolves -/

/-- What the comparison is for. -/
structure ResolvesConflict (automerge : Tree) (stages : List StageLine) (resolved : Tree) :
    Prop where
  preserved : ∀ path, path ∉ stages.map StageLine.path → resolved.get? path = automerge.get? path
  changed : ∃ path ∈ stages.map StageLine.path, resolved.get? path ≠ automerge.get? path
  unmarked : ∀ path ∈ stages.map StageLine.path, retainsConflictMarkers resolved path = false

theorem compareTrees_eq_ok {automerge resolved : Tree} {conflicted : List Name} :
    compareTrees automerge conflicted resolved = .ok () ↔
      (∃ path, automerge.get? path ≠ resolved.get? path) ∧
        (∀ path, automerge.get? path ≠ resolved.get? path → cQuote path ∈ conflicted) ∧
        ∀ path ∈ conflicted, retainsConflictMarkers resolved path = false := by
  have hchanged : diffTree automerge resolved ≠ [] ↔
      ∃ path, automerge.get? path ≠ resolved.get? path := by
    rw [ne_eq, eq_nil_iff_forall_not_mem, not_forall]
    simp only [mem_diffTree, not_not]
    constructor
    · rintro ⟨_, path, hne, _⟩
      exact ⟨path, hne⟩
    · rintro ⟨path, hne⟩
      exact ⟨_, path, hne, rfl⟩
  have hstray : (diffTree automerge resolved).filter (· ∉ conflicted) = [] ↔
      ∀ path, automerge.get? path ≠ resolved.get? path → cQuote path ∈ conflicted := by
    simp [mem_diffTree]
  have hretained : conflicted.filter (retainsConflictMarkers resolved) = [] ↔
      ∀ path ∈ conflicted, retainsConflictMarkers resolved path = false := by simp
  rw [← hchanged, ← hstray, ← hretained, compareTrees]
  split_ifs <;> simp_all

section

variable {automerge resolved : Tree} {stages : List StageLine}

theorem mem_conflictedPaths {line : Name} :
    line ∈ conflictedPaths stages ↔ ∃ path ∈ stages.map StageLine.path, cQuote path = line := by
  simp [conflictedPaths]

/-- Of an accepted tree, only the last part of the purpose can fail. -/
theorem resolves_of_unmarked
    (h : compareTrees automerge (conflictedPaths stages) resolved = .ok ())
    (hmarks : ∀ path ∈ stages.map StageLine.path, retainsConflictMarkers resolved path = false) :
    ResolvesConflict automerge stages resolved := by
  obtain ⟨⟨changed, hchanged⟩, hinside, -⟩ := compareTrees_eq_ok.1 h
  have hmem : ∀ path, automerge.get? path ≠ resolved.get? path →
      path ∈ stages.map StageLine.path := by
    intro path hne
    obtain ⟨other, hother, hquote⟩ := mem_conflictedPaths.1 (hinside path hne)
    exact cQuote_injective hquote ▸ hother
  refine ⟨fun path hnot => ?_, ⟨changed, hmem changed hchanged, hchanged.symm⟩, hmarks⟩
  by_contra hne
  exact hnot (hmem path (Ne.symm hne))

def marked (mode : ℕ) : Entry := ⟨mode, ours ++ [10] ++ theirs⟩

/-- Takes the conflicted paths out and puts a file with markers at one of them. -/
def unresolvedTree (automerge : Tree) (paths : List Name) (path : Name) : Tree :=
  (automerge.filterMap fun p e => if p ∈ paths then none else some e).set path
    (marked (if automerge.get? path = some (marked 0) then 1 else 0))

theorem get?_unresolvedTree (automerge : Tree) (paths : List Name) {path p : Name} (hp : p ≠ path) :
    (unresolvedTree automerge paths path).get? p =
      if p ∈ paths then none else automerge.get? p := by
  rw [unresolvedTree, Dict.get?_set_ne _ _ hp, Dict.get?_filterMap]
  split <;> cases automerge.get? p <;> rfl

theorem get?_unresolvedTree_self (paths : List Name) (path : Name) :
    automerge.get? path ≠ (unresolvedTree automerge paths path).get? path := by
  rw [unresolvedTree, Dict.get?_set_self]
  split
  · next h => simp [h, marked]
  · next h => exact h

theorem retains_unresolvedTree (paths : List Name) (path : Name) :
    retainsConflictMarkers (unresolvedTree automerge paths path) path = true := by
  have hmarked : ∀ mode : ℕ,
      ((marked mode).data.splitOn 10).map (take 8) = [ours, theirs] := fun _ =>
    (by decide : ((ours ++ [10] ++ theirs).splitOn 10).map (take 8) = [ours, theirs])
  simp only [retainsConflictMarkers, gitShow, unresolvedTree, Dict.get?_set_self, Option.map_some,
    hmarked]
  decide

/-- A shortest conflicted path in quotes keeps its markers. -/
theorem accepts_unresolvedTree {path : Name} (hpath : path ∈ stages.map StageLine.path)
    (hmin : ∀ other ∈ stages.map StageLine.path, cQuote other ≠ path)
    (hunmarked : ∀ other ∈ stages.map StageLine.path, cQuote other ∉ stages.map StageLine.path →
      retainsConflictMarkers automerge (cQuote other) = false) :
    compareTrees automerge (conflictedPaths stages)
      (unresolvedTree automerge (stages.map StageLine.path) path) = .ok () := by
  refine compareTrees_eq_ok.2 ⟨⟨path, get?_unresolvedTree_self _ path⟩, fun p hne => ?_,
    fun line hline => ?_⟩
  · refine mem_conflictedPaths.2 ⟨p, ?_, rfl⟩
    by_contra hp
    have hp' : p ≠ path := fun h => hp (h ▸ hpath)
    exact hne (by rw [get?_unresolvedTree _ _ hp', if_neg hp])
  · obtain ⟨other, hother, rfl⟩ := mem_conflictedPaths.1 hline
    have hget := get?_unresolvedTree automerge (stages.map StageLine.path)
      (hmin other hother)
    by_cases hmem : cQuote other ∈ stages.map StageLine.path
    · rw [retainsConflictMarkers, gitShow, hget, if_pos hmem]
      rfl
    · rw [if_neg hmem] at hget
      rw [retainsConflictMarkers_congr hget]
      exact hunmarked other hother hmem

/-- **Every accepted tree resolves its conflict exactly if** the conflicted paths are printed as
they are, or a printed path that is not conflicted itself is a file with markers. -/
theorem resolvesConflict_iff (automerge : Tree) (stages : List StageLine) :
    (∀ resolved, compareTrees automerge (conflictedPaths stages) resolved = .ok () →
        ResolvesConflict automerge stages resolved) ↔
      (∀ path ∈ stages.map StageLine.path, cQuote path = path) ∨
        ∃ path ∈ stages.map StageLine.path, cQuote path ∉ stages.map StageLine.path ∧
          retainsConflictMarkers automerge (cQuote path) = true := by
  constructor
  · intro h
    by_contra hnot
    simp only [not_or, not_forall, not_exists, not_and, Bool.not_eq_true] at hnot
    obtain ⟨⟨first, hfirst⟩, hunmarked⟩ := hnot
    obtain ⟨path, ⟨hpath, hquoted⟩, hshortest⟩ := (measure List.length).wf.has_min
      {path | path ∈ stages.map StageLine.path ∧ cQuote path ≠ path}
      ⟨first, by simpa using hfirst⟩
    -- What is printed as `path` is shorter than it, and quoted too.
    have hmin : ∀ other ∈ stages.map StageLine.path, cQuote other ≠ path := by
      intro other hother heq
      cases hplain : isPlain other with
      | true =>
        rw [cQuote_of_isPlain hplain] at heq
        exact hquoted (heq ▸ cQuote_of_isPlain hplain)
      | false =>
        have hlength := length_cQuote hplain
        refine hshortest other ⟨hother, fun h => ?_⟩ (heq ▸ hlength)
        rw [h] at hlength
        exact Nat.lt_irrefl _ hlength
    have hresolves := h _ (accepts_unresolvedTree hpath hmin hunmarked)
    have hmarks := hresolves.unmarked path hpath
    rw [retains_unresolvedTree] at hmarks
    cases hmarks
  · rintro (hplain | ⟨path, hpath, hnot, hmarks⟩) resolved hok
    · refine resolves_of_unmarked hok fun path hpath => ?_
      refine (compareTrees_eq_ok.1 hok).2.2 path (mem_conflictedPaths.2 ⟨path, hpath, ?_⟩)
      exact hplain path hpath
    · have hsame : automerge.get? (cQuote path) = resolved.get? (cQuote path) := by
        by_contra hne
        obtain ⟨other, hother, hquote⟩ :=
          mem_conflictedPaths.1 ((compareTrees_eq_ok.1 hok).2.1 _ hne)
        exact hnot (cQuote_injective hquote ▸ hother)
      rw [retainsConflictMarkers_congr hsame] at hmarks
      have hfalse := (compareTrees_eq_ok.1 hok).2.2 (cQuote path)
        (mem_conflictedPaths.2 ⟨path, hpath, rfl⟩)
      rw [hmarks] at hfalse
      cases hfalse

end

/-- `é` in UTF-8: the path is printed with two escapes and quotes. -/
def accented : StageLine := ⟨"100644", "0a", "2", [195, 169]⟩

def markedTree (mode : ℕ) : Tree := ⟨[([195, 169], marked mode)], nodup_singleton _⟩

theorem accepts_retained_markers :
    compareTrees (markedTree 0) (conflictedPaths [accented]) (markedTree 1) = .ok () ∧
      ¬ ResolvesConflict (markedTree 0) [accented] (markedTree 1) := by
  refine ⟨by decide, fun h => ?_⟩
  exact absurd (h.unmarked [195, 169] (by decide)) (by decide)

end HarnessLabs.PlanGraph.JoinResolution
