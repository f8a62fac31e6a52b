import HarnessLabs.FeatureRun.Command

/-!
# Import neighbourhoods

What a module imports is looked up in a map from dotted names to paths; what imports it is found by
comparing names with its own dotted name.

* `resolveImport`, `moduleNeighborhood` — the names of a statement and the two directions.
* `get?_dottedMap` — of the paths with one dotted name the map has the last listed.
* `dual_iff` — **the directions are converse and independent of the listing exactly if no imported
  name belongs to two paths.**
-/

namespace HarnessLabs.PlanGraph

open List
open FeatureRun (pathParts hasPrefix)

/-! ## Names -/

/-- A name in a statement: the grammar has no empty one. -/
abbrev ModuleName := { name : String // name ≠ "" }

inductive ImportNode where
  | import (names : List ModuleName)
  | importFrom (level : ℕ) (module : Option ModuleName) (names : List ModuleName)

/-- `path.endswith(".py")`. -/
def isPython (path : String) : Bool := ".py".toList.isSuffixOf path.toList

/-- `".".join(parts)`. -/
def joinDots (parts : List String) : String :=
  String.ofList (['.'].intercalate (parts.map String.toList))

/-- `with_suffix("")` on the last component of a Python path; a leading dot starts no suffix. -/
def dropSuffix (name : String) : String :=
  if name = ".py" then name else String.ofList (name.toList.dropLast.dropLast.dropLast)

/-- `PurePosixPath(path).with_suffix("").parts`. -/
def moduleParts (path : String) : List String :=
  (if hasPrefix "/" path then ["/"] else []) ++ (pathParts path).dropLast ++
    ((pathParts path).getLast?.map dropSuffix).toList

/-- `_module_identity`: the dotted name, and whether it is a package. -/
def moduleIdentity (path : String) : String × Bool :=
  if (moduleParts path).getLast? = some "__init__" then
    (joinDots (moduleParts path).dropLast, true)
  else (joinDots (moduleParts path), false)

def dotted (path : String) : String := (moduleIdentity path).1

def splitDots (name : String) : List String := (name.toList.splitOn '.').map String.ofList

/-- `_package_of`. -/
def packageOf (dotted : String) (isPackage : Bool) : String :=
  if isPackage then dotted else joinDots (splitDots dotted).dropLast

/-- `f"{base}.{name}" if base else name`. -/
def beneath (base name : String) : String := if base = "" then name else base ++ "." ++ name

/-- `_resolve_import`. -/
def resolveImport (dotted : String) (isPackage : Bool) : ImportNode → List String
  | .import names => names.map Subtype.val
  | .importFrom 0 module names =>
    match module with
    | none => []
    | some module => module.1 :: names.map fun name => module.1 ++ "." ++ name.1
  | .importFrom (trim + 1) module names =>
    let package := packageOf dotted isPackage
    let parts := if package = "" then [] else splitDots package
    if trim > parts.length then []
    else
      let base := joinDots (parts.take (parts.length - trim))
      match module with
      | none => names.map fun name => beneath base name.1
      | some module =>
        beneath base module.1 :: names.map fun name => beneath base module.1 ++ "." ++ name.1

/-! ## Neighbourhoods -/

/-- `_dotted_map`. -/
def dottedMap (repoPaths : List String) : Dict String String :=
  repoPaths.foldl (fun map path =>
    if isPython path ∧ dotted path ≠ "" then map.set (dotted path) path else map) ∅

structure ModuleNeighborhood where
  importedBy : Finset String
  imports : Finset String

section Source

-- The import statements of a file, wherever in it they stand.
variable (source : String → List ImportNode)

/-- The names that the statements of a file could mean. -/
def importedNames (path : String) : List String :=
  (source path).flatMap (resolveImport (dotted path) (moduleIdentity path).2)

/-- `module_neighborhood`, where every file parses. -/
def moduleNeighborhood (target : String) (repoPaths : List String) :
    Except String ModuleNeighborhood :=
  if isPython target = false then .error (target ++ " is not a Python file")
  else .ok {
    imports := (((importedNames source target).filterMap (dottedMap repoPaths).get?).filter
      (· ≠ target)).toFinset
    importedBy := (repoPaths.filter fun path =>
      path ≠ target ∧ isPython path ∧ dotted target ∈ importedNames source path).toFinset }

end Source

variable {source : String → List ImportNode} {paths listing : List String} {p q name : String}

theorem beneath_ne_empty {base : String} (h : name ≠ "") : beneath base name ≠ "" := by
  rw [beneath]
  split_ifs <;> simp [h]

theorem ne_empty_of_mem_resolveImport {isPackage : Bool} {node : ImportNode}
    (h : name ∈ resolveImport p isPackage node) : name ≠ "" := by
  cases node with
  | «import» names =>
    obtain ⟨m, -, rfl⟩ := mem_map.1 h
    exact m.2
  | importFrom level module names =>
    cases level with
    | zero =>
      cases module with
      | none => exact absurd h not_mem_nil
      | some module =>
        obtain rfl | hmem := mem_cons.1 h
        · exact module.2
        · obtain ⟨m, -, rfl⟩ := mem_map.1 hmem
          simp
    | succ trim =>
      rw [resolveImport] at h
      dsimp only at h
      generalize (if packageOf p isPackage = "" then [] else _) = parts at h
      split at h
      · exact absurd h not_mem_nil
      · cases module with
        | none =>
          obtain ⟨m, -, rfl⟩ := mem_map.1 h
          exact beneath_ne_empty m.2
        | some module =>
          obtain rfl | hmem := mem_cons.1 h
          · exact beneath_ne_empty module.2
          · obtain ⟨m, -, rfl⟩ := mem_map.1 hmem
            simp

theorem ne_empty_of_mem_importedNames (h : name ∈ importedNames source p) : name ≠ "" :=
  have ⟨_, _, hresolved⟩ := mem_flatMap.1 h
  ne_empty_of_mem_resolveImport hresolved

/-- **Of the paths with one dotted name the map has the last listed.** -/
theorem get?_dottedMap (h : name ≠ "") : (dottedMap paths).get? name =
    paths.reverse.find? fun path => isPython path && dotted path == name := by
  induction paths using List.reverseRecOn with
  | nil => rfl
  | append_singleton paths path ih =>
    rw [dottedMap, foldl_append, ← dottedMap, reverse_concat, find?_cons, foldl_cons, foldl_nil]
    cases hpy : isPython path with
    | false => simpa [hpy] using ih
    | true =>
      by_cases hname : dotted path = name
      · simp [hname, h]
      · rw [beq_false_of_ne hname, ← ih]
        split_ifs
        · exact Dict.get?_set_ne _ _ (Ne.symm hname)
        · rfl

/-- The paths that the target imports. -/
def importsOf (source : String → List ImportNode) (target : String) (repoPaths : List String) :
    Finset String :=
  ((moduleNeighborhood source target repoPaths).toOption.map (·.imports)).getD ∅

/-- The paths that import the target. -/
def importersOf (source : String → List ImportNode) (target : String) (repoPaths : List String) :
    Finset String :=
  ((moduleNeighborhood source target repoPaths).toOption.map (·.importedBy)).getD ∅

theorem mem_importsOf (hp : isPython p = true) : q ∈ importsOf source p paths ↔ q ≠ p ∧
    ∃ name ∈ importedNames source p, (paths.reverse.find? fun path =>
      isPython path && dotted path == name) = some q := by
  simp only [importsOf, moduleNeighborhood, hp, Bool.true_eq_false, if_false, Except.toOption,
    Option.map_some, Option.getD_some, mem_toFinset, mem_filter, decide_eq_true_eq, mem_filterMap]
  rw [and_comm]
  refine and_congr_right fun _ => exists_congr fun name => and_congr_right fun hname => ?_
  rw [get?_dottedMap (ne_empty_of_mem_importedNames hname)]

theorem mem_importersOf (hq : isPython q = true) : p ∈ importersOf source q paths ↔
    p ∈ paths ∧ p ≠ q ∧ isPython p = true ∧ dotted q ∈ importedNames source p := by
  simp [importersOf, moduleNeighborhood, hq, Except.toOption]

/-! ## Duality -/

/-- Over every listing of the paths the directions are converse, and no listing changes a result. -/
structure Dual (source : String → List ImportNode) (paths : List String) : Prop where
  converse : ∀ listing, listing ~ paths → ∀ p ∈ paths, ∀ q ∈ paths, isPython p = true →
    isPython q = true → p ≠ q →
    (q ∈ importsOf source p listing ↔ p ∈ importersOf source q listing)
  stable : ∀ listing, listing ~ paths → ∀ target ∈ paths,
    moduleNeighborhood source target listing = moduleNeighborhood source target paths

/-- No name that a file imports is the dotted name of two paths. -/
def Unambiguous (source : String → List ImportNode) (paths : List String) : Prop :=
  ∀ p ∈ paths, isPython p = true → ∀ q ∈ paths, ∀ q' ∈ paths, isPython q = true →
    isPython q' = true → dotted q ∈ importedNames source p → dotted q = dotted q' → q = q'

theorem find_spec (h : (paths.reverse.find? fun path => isPython path && dotted path == name) =
    some q) : q ∈ paths ∧ isPython q = true ∧ dotted q = name := by
  have hfound := find?_some h
  rw [Bool.and_eq_true, beq_iff_eq] at hfound
  exact ⟨mem_reverse.1 (mem_of_find?_eq_some h), hfound⟩

/-- Without ambiguity the target imports exactly the paths whose dotted names it imports. -/
theorem Unambiguous.mem_importsOf (h : Unambiguous source paths) (hlisting : listing ~ paths)
    (hmem : p ∈ paths) (hp : isPython p = true) : q ∈ importsOf source p listing ↔
    q ≠ p ∧ q ∈ paths ∧ isPython q = true ∧ dotted q ∈ importedNames source p := by
  rw [PlanGraph.mem_importsOf hp]
  refine and_congr_right fun _ => ⟨?_, ?_⟩
  · rintro ⟨name, hname, hfind⟩
    obtain ⟨hq, hpy, rfl⟩ := find_spec hfind
    exact ⟨hlisting.mem_iff.1 hq, hpy, hname⟩
  · rintro ⟨hq, hpy, hname⟩
    refine ⟨_, hname, ?_⟩
    cases hfind : listing.reverse.find? fun path => isPython path && dotted path == dotted q with
    | none =>
      have hnone := find?_eq_none.1 hfind q (mem_reverse.2 (hlisting.mem_iff.2 hq))
      simp [hpy] at hnone
    | some q' =>
      obtain ⟨hq', hpy', hsame⟩ := find_spec hfind
      rw [h p hmem hp q hq q' (hlisting.mem_iff.1 hq') hpy hpy' hname hsame.symm]

/-- The last of the paths with an imported name hides the others. -/
theorem notMem_importsOf (hp : isPython p = true) {last : String} (hpy : isPython last = true)
    (hsame : dotted last = dotted q) (hne : q ≠ last) :
    q ∉ importsOf source p (listing ++ [last]) := by
  intro hmem
  obtain ⟨-, name, -, hfind⟩ := (mem_importsOf hp).1 hmem
  obtain ⟨-, -, rfl⟩ := find_spec hfind
  rw [reverse_concat, find?_cons, hpy, hsame] at hfind
  simp [hne.symm] at hfind

/-- **The directions are converse and independent of the listing exactly if no imported name belongs
to two paths.** -/
theorem dual_iff (source : String → List ImportNode) (paths : List String) :
    Dual source paths ↔ Unambiguous source paths := by
  constructor
  · intro h p hmem hp q hq q' hq' hpy hpy' hname hsame
    by_contra hne
    -- the path listed last hides the other one, which is chosen apart from the importer
    have hhides {x y : String} (hx : x ∈ paths) (hy : y ∈ paths) (hxpy : isPython x = true)
        (hypy : isPython y = true) (hyname : dotted y ∈ importedNames source p)
        (hxy : dotted x = dotted y) (hyx : y ≠ x) (hyp : p ≠ y) : False := by
      have hperm : paths.erase x ++ [x] ~ paths :=
        (perm_append_singleton x _).trans (perm_cons_erase hx).symm
      refine notMem_importsOf hp hxpy hxy hyx
        ((h.converse _ hperm p hmem y hy hp hypy hyp).2 ?_)
      exact (mem_importersOf hypy).2 ⟨hperm.mem_iff.2 hmem, hyp, hp, hyname⟩
    by_cases hpq : p = q'
    · exact hhides hq' hq hpy' hpy hname hsame.symm hne (hpq ▸ Ne.symm hne)
    · exact hhides hq hq' hpy hpy' (hsame ▸ hname) hsame (Ne.symm hne) hpq
  · intro h
    refine ⟨fun listing hlisting p hp q hq hpp hpq hne => ?_,
      fun listing hlisting target htarget => ?_⟩
    · rw [h.mem_importsOf hlisting hp hpp, mem_importersOf hpq, hlisting.mem_iff]
      tauto
    · cases hpy : isPython target with
      | false => rw [moduleNeighborhood, moduleNeighborhood, if_pos hpy, if_pos hpy]
      | true =>
        have himports : importsOf source target listing = importsOf source target paths := by
          ext q
          rw [h.mem_importsOf hlisting htarget hpy, h.mem_importsOf .rfl htarget hpy]
        have himporters : importersOf source target listing = importersOf source target paths := by
          ext q
          rw [mem_importersOf hpy, mem_importersOf hpy, hlisting.mem_iff]
        simpa [importsOf, importersOf, moduleNeighborhood, hpy, Except.toOption] using
          And.intro himporters himports

/-- A module and a package of one name: the importer of both appears under one direction only. -/
theorem module_hides_package : ¬ Dual
    (fun path => if path = "main.py" then [.import [⟨"a", by decide⟩]] else [])
    ["main.py", "a.py", "a/__init__.py"] := by
  intro h
  exact absurd (h.converse _ .rfl "main.py" (by simp) "a.py" (by simp) rfl rfl (by decide))
    (by decide)

end HarnessLabs.PlanGraph
