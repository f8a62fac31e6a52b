import HarnessLabs.PlanGraph.Routing

/-!
# Paths that a grant covers

A grant is read at admission, at routing and at the write boundary. Admission takes paths apart into
their components, the write boundary compares texts, and each side has a check of its own for what
may be granted.

* `normalizeRepositoryPath`, `pathIsAllowed` — the check and the containment of the plan contract.
* `pathsOverlap` — the overlap of two grants, of the warnings at admission.
* `underRoot_iff` — **a text lies beneath another one exactly when its components begin with those
  of the other.**
* `grants_agree_iff` — the two sides agree on every path exactly when no grant lies in the
  repository's own directory.
* `internal_grant_refused` — a grant of a hook is admitted, and refused at the write boundary.
-/

namespace HarnessLabs.PlanGraph

open List
open HarnessLabs.Controller (isBlank)
open FeatureRun (hasPrefix pathParts asPosix normalizeAllowedPath normalizeAllowedPaths underRoot
  pathsOutsideScope)

/-! ## The plan contract -/

/-- `normalize_repository_path`. -/
def normalizeRepositoryPath (value : Json) (field : String) : Except String String :=
  match value with
  | .str text =>
    if isBlank text then .error (field ++ " must be a non-empty string")
    else if hasPrefix "/" text ∨ ".." ∈ pathParts text ∨ hasPrefix "./" text then
      .error (field ++ " must be a normalized repository-relative path")
    else if asPosix text ∈ ["", "."] ∨ asPosix text ≠ text then
      .error (field ++ " must be a normalized repository-relative path")
    else .ok (asPosix text)
  | _ => .error (field ++ " must be a non-empty string")

/-- `PurePosixPath`. -/
structure PosixPath where
  root : String
  parts : List String
  deriving DecidableEq

def PosixPath.ofText (text : String) : PosixPath where
  root :=
    if hasPrefix "//" text ∧ ¬ hasPrefix "///" text then "//"
    else if hasPrefix "/" text then "/"
    else ""
  parts := pathParts text

/-- `parents`: fewer and fewer of the components. -/
def PosixPath.parents (path : PosixPath) : List PosixPath :=
  (List.range path.parts.length).reverse.map fun n => { path with parts := path.parts.take n }

/-- `path_is_allowed`. -/
def pathIsAllowed (path : String) (allowedPaths : List String) : Bool :=
  let candidate := PosixPath.ofText path
  allowedPaths.any fun allowed =>
    candidate = PosixPath.ofText allowed ∨ PosixPath.ofText allowed ∈ candidate.parents

/-- `text.rstrip("/")`. -/
def rstripSlash (text : String) : String :=
  String.ofList (text.toList.reverse.dropWhile (· = '/')).reverse

/-- `_paths_overlap`. -/
def pathsOverlap (first second : String) : Bool :=
  let first := rstripSlash first
  let second := rstripSlash second
  first = second ∨ hasPrefix (first ++ "/") second ∨ hasPrefix (second ++ "/") first

/-- A path that the plan contract accepts. -/
def AcceptedPath (path : String) : Prop :=
  ∃ field, (normalizeRepositoryPath (.str path) field).isOk

/-- A path of the repository's own directory. -/
def InternalPath (path : String) : Prop := path = ".git" ∨ hasPrefix ".git/" path = true

instance (path : String) : Decidable (InternalPath path) := inferInstanceAs (Decidable (_ ∨ _))

/-! ## Components -/

theorem hasPrefix_iff {start text : String} :
    hasPrefix start text = true ↔ start.toList <+: text.toList := by
  rw [hasPrefix, isPrefixOf_iff_prefix]

/-- What is joined behind a separator has the components of both. -/
theorem pathParts_append (front back : List Char) :
    pathParts (String.ofList (front ++ '/' :: back)) =
      pathParts (String.ofList front) ++ pathParts (String.ofList back) := by
  simp only [pathParts, String.toList_ofList, splitOn_append_cons_self, map_append,
    filter_append]

theorem eq_false_of_mem_splitOnP {p : Char → Bool} {text part : List Char} {c : Char}
    (h : part ∈ text.splitOnP p) (hc : c ∈ part) : p c = false := by
  induction text generalizing part with
  | nil =>
    rw [splitOnP_nil, mem_singleton] at h
    rw [h] at hc
    exact absurd hc not_mem_nil
  | cons d text ih =>
    rw [splitOnP_cons_eq_if_modifyHead] at h
    split_ifs at h with hd
    · cases mem_cons.1 h with
      | inl hempty =>
        rw [hempty] at hc
        exact absurd hc not_mem_nil
      | inr hrest => exact ih hrest hc
    · cases hparts : text.splitOnP p with
      | nil => exact absurd hparts (splitOnP_ne_nil p text)
      | cons first rest =>
        rw [hparts] at h ih
        cases mem_cons.1 h with
        | inl hfirst =>
          rw [hfirst] at hc
          cases mem_cons.1 hc with
          | inl heq => exact heq ▸ by simpa using hd
          | inr hmem => exact ih mem_cons_self hmem
        | inr hrest => exact ih (mem_cons_of_mem _ hrest) hc

theorem part_spec {text part : String} (h : part ∈ pathParts text) :
    part.toList ≠ [] ∧ '/' ∉ part.toList := by
  rw [pathParts, mem_filter, mem_map] at h
  obtain ⟨⟨chars, hchars, rfl⟩, hkept⟩ := h
  rw [String.toList_ofList]
  refine ⟨?_, fun hslash => by cases eq_false_of_mem_splitOnP hchars hslash⟩
  rintro rfl
  simp at hkept

/-- Joined components. -/
def joined (parts : List String) : List Char := ['/'].intercalate (parts.map String.toList)

theorem joined_append {front back : List String} (hfront : front ≠ []) (hback : back ≠ []) :
    joined (front ++ back) = joined front ++ '/' :: joined back := by
  induction front with
  | nil => exact absurd rfl hfront
  | cons first rest ih =>
    cases rest with
    | nil =>
      have hmap : back.map String.toList ≠ [] := by simpa using hback
      simp [joined, intercalate_cons_of_ne_nil hmap]
    | cons second rest =>
      have hrest := ih (cons_ne_nil second rest)
      simp only [joined, cons_append, map_cons, intercalate_cons_cons,
        append_assoc, nil_append] at hrest ⊢
      rw [hrest]

theorem prefix_joined (first : String) (others : List String) :
    first.toList <+: joined (first :: others) := by
  cases others with
  | nil => simp [joined]
  | cons second others =>
    simp [joined]

theorem getLast?_joined {parts : List String} (hparts : parts ≠ [])
    (hspec : ∀ part ∈ parts, part.toList ≠ [] ∧ '/' ∉ part.toList) :
    (joined parts).getLast? ≠ some '/' := by
  obtain ⟨front, last, rfl⟩ := eq_nil_or_concat parts |>.resolve_left hparts
  obtain ⟨hne, hnot⟩ := hspec last (by simp)
  have htail : ∃ rest, joined (front.concat last) = rest ++ last.toList := by
    rw [concat_eq_append]
    cases front with
    | nil => exact ⟨[], by simp [joined]⟩
    | cons first rest =>
      rw [joined_append (cons_ne_nil first rest) (cons_ne_nil last [])]
      exact ⟨joined (first :: rest) ++ ['/'], by simp [joined]⟩
  obtain ⟨rest, hrest⟩ := htail
  rw [hrest, List.getLast?_append_of_ne_nil rest hne]
  intro hslash
  exact hnot (mem_of_getLast? hslash)

/-! ## Accepted paths -/

/-- What an accepted path is: relative, written as its components joined, and not blank. -/
structure NormalPath (path : String) : Prop where
  filled : isBlank path = false
  relative : hasPrefix "/" path = false
  inside : ".." ∉ pathParts path
  parts : pathParts path ≠ []
  text : path.toList = joined (pathParts path)

variable {path : String} {grants : List String}

theorem asPosix_of_parts (h : pathParts path ≠ []) :
    (asPosix path).toList = joined (pathParts path) := by
  rw [asPosix, if_neg h, String.toList_ofList]
  rfl

theorem AcceptedPath.normal (h : AcceptedPath path) : NormalPath path := by
  obtain ⟨field, hok⟩ := h
  unfold normalizeRepositoryPath at hok
  dsimp only at hok
  split_ifs at hok with hblank hshape htext
  · exact nomatch hok
  · exact nomatch hok
  · exact nomatch hok
  · push Not at hshape htext
    have hparts : pathParts path ≠ [] := by
      intro hnil
      refine htext.1 ?_
      rw [asPosix, if_pos hnil]
      simp
    refine ⟨by simpa using hblank, by simpa using hshape.1, hshape.2.1, hparts, ?_⟩
    rw [← asPosix_of_parts hparts, htext.2]

theorem NormalPath.asPosix_eq (h : NormalPath path) : asPosix path = path := by
  rw [← String.toList_inj, asPosix_of_parts h.parts, ← h.text]

theorem NormalPath.normalizeAllowedPath (h : NormalPath path) :
    normalizeAllowedPath path =
      if InternalPath path then .error ("writable path is forbidden: " ++ path) else .ok path := by
  have hfilled : path.toList.all (·.isWhitespace) = false := h.filled
  rw [FeatureRun.normalizeAllowedPath, if_neg (by simp [hfilled]),
    if_neg (by simp [h.relative, h.inside]), h.asPosix_eq]
  rfl

theorem NormalPath.rstripSlash_eq (h : NormalPath path) :
    rstripSlash path = path := by
  have hlast : path.toList.getLast? ≠ some '/' := by
    rw [h.text]
    exact getLast?_joined h.parts fun part hpart => part_spec hpart
  have hkept : path.toList.reverse.dropWhile (· = '/') = path.toList.reverse := by
    rw [← List.head?_reverse] at hlast
    cases hreverse : path.toList.reverse with
    | nil => rfl
    | cons c rest =>
      rw [hreverse, List.head?_cons] at hlast
      exact dropWhile_cons_of_neg (by simpa using hlast)
  rw [rstripSlash, hkept, reverse_reverse, String.ofList_toList]

/-- **A text lies beneath a root exactly when its components begin with those of the root.** -/
theorem underRoot_iff {root : String} (hroot : NormalPath root) (hpath : NormalPath path) :
    underRoot root path = true ↔ pathParts root <+: pathParts path := by
  rw [underRoot, Bool.or_eq_true, beq_iff_eq, hasPrefix_iff, String.toList_append]
  constructor
  · rintro (rfl | ⟨rest, hrest⟩)
    · exact prefix_refl _
    · have hsplit : path = String.ofList (root.toList ++ '/' :: rest) := by
        rw [← String.toList_inj, String.toList_ofList, ← hrest]
        simp
      rw [hsplit, pathParts_append, String.ofList_toList]
      exact prefix_append _ _
  · rintro ⟨rest, hrest⟩
    cases rest with
    | nil =>
      left
      rw [← String.toList_inj, hpath.text, hroot.text, ← hrest, append_nil]
    | cons part rest =>
      right
      rw [hpath.text, ← hrest, joined_append hroot.parts (cons_ne_nil part rest), hroot.text]
      exact ⟨joined (part :: rest), by simp⟩

/-! ## Containment at admission -/

theorem mem_parents {path other : PosixPath} :
    other ∈ path.parents ↔
      other.root = path.root ∧ other.parts <+: path.parts ∧ other.parts ≠ path.parts := by
  rw [PosixPath.parents, mem_map]
  constructor
  · intro ⟨n, hn, hother⟩
    subst hother
    have hlt : n < path.parts.length := by simpa using hn
    refine ⟨rfl, take_prefix n _, fun heq => ?_⟩
    have hlength := congrArg List.length heq
    rw [length_take] at hlength
    omega
  · intro ⟨hroot, hpre, hne⟩
    refine ⟨other.parts.length, ?_, ?_⟩
    · have hle := hpre.length_le
      have hlt : other.parts.length ≠ path.parts.length := fun heq => hne (hpre.eq_of_length heq)
      simp only [mem_reverse, mem_range]
      omega
    · obtain ⟨root, parts⟩ := other
      rw [PosixPath.mk.injEq]
      exact ⟨hroot.symm, (prefix_iff_eq_take.1 hpre).symm⟩

theorem NormalPath.ofText_root (h : NormalPath path) :
    (PosixPath.ofText path).root = "" := by
  have hdouble : hasPrefix "//" path = false := by
    by_contra hnot
    have hpre := hasPrefix_iff.1 (by simpa using hnot)
    have hsingle : hasPrefix "/" path = true :=
      hasPrefix_iff.2 (List.IsPrefix.trans (by decide) hpre)
    rw [h.relative] at hsingle
    cases hsingle
  simp [PosixPath.ofText, hdouble, h.relative]

/-- The plan contract compares components. -/
theorem pathIsAllowed_iff (hpath : NormalPath path) {allowedPaths : List String}
    (hallowed : ∀ allowed ∈ allowedPaths, NormalPath allowed) :
    pathIsAllowed path allowedPaths = true ↔
      ∃ allowed ∈ allowedPaths, pathParts allowed <+: pathParts path := by
  rw [pathIsAllowed, any_eq_true]
  refine exists_congr fun allowed => and_congr_right fun hmem => ?_
  have hroots : (PosixPath.ofText allowed).root = (PosixPath.ofText path).root := by
    rw [(hallowed allowed hmem).ofText_root, hpath.ofText_root]
  rw [decide_eq_true_eq, mem_parents]
  constructor
  · rintro (heq | ⟨-, hpre, -⟩)
    · have hparts : pathParts path = pathParts allowed := congrArg PosixPath.parts heq
      rw [hparts]
    · exact hpre
  · intro hpre
    by_cases heq : pathParts allowed = pathParts path
    · left
      exact congrArg₂ PosixPath.mk hroots.symm heq.symm
    · exact .inr ⟨hroots, hpre, heq⟩

theorem pathIsAllowed_singleton {root : String} (hpath : NormalPath path) (hroot : NormalPath root)
    :
    pathIsAllowed path [root] = true ↔ underRoot root path = true := by
  rw [pathIsAllowed_iff hpath (by simpa using hroot), underRoot_iff hroot hpath]
  simp

/-- The warnings compare texts. -/
theorem pathsOverlap_iff {first second : String} (hfirst : NormalPath first)
    (hsecond : NormalPath second) :
    pathsOverlap first second = true ↔
      pathIsAllowed first [second] = true ∨ pathIsAllowed second [first] = true := by
  rw [pathIsAllowed_singleton hfirst hsecond, pathIsAllowed_singleton hsecond hfirst]
  simp only [pathsOverlap, underRoot, hfirst.rstripSlash_eq, hsecond.rstripSlash_eq,
    decide_eq_true_eq, Bool.or_eq_true, beq_iff_eq]
  constructor
  · intro h
    rcases h with heq | hsecond | hfirst
    · exact .inl (.inl heq)
    · exact .inr (.inr hsecond)
    · exact .inl (.inr hfirst)
  · intro h
    rcases h with (heq | hfirst) | (heq | hsecond)
    · exact .inl heq
    · exact .inr (.inr hfirst)
    · exact .inl heq.symm
    · exact .inr (.inl hsecond)

/-! ## The write boundary -/

theorem normalizeAllowedPaths_of_outside (hnormal : ∀ g ∈ grants, NormalPath g)
    (hunique : grants.Nodup) (houtside : ∀ g ∈ grants, ¬ InternalPath g) :
    normalizeAllowedPaths grants = .ok (grants.insertionSort (· ≤ ·)) := by
  have hmap : grants.mapM normalizeAllowedPath = .ok (grants.map id) :=
    mapM_eq_ok_map fun grant hgrant => by
      rw [(hnormal grant hgrant).normalizeAllowedPath, if_neg (houtside grant hgrant), id_eq]
  rw [normalizeAllowedPaths, hmap, map_id]
  exact if_pos hunique

theorem normalizeAllowedPaths_of_internal {grant : String} (hgrant : grant ∈ grants)
    (hnormal : NormalPath grant) (hinternal : InternalPath grant) :
    ∃ message, normalizeAllowedPaths grants = .error message := by
  have herror := hnormal.normalizeAllowedPath
  rw [if_pos hinternal] at herror
  obtain ⟨message, hmap⟩ := mapM_eq_error hgrant herror
  exact ⟨message, by rw [normalizeAllowedPaths, hmap]⟩

theorem pathsOutsideScope_singleton {roots : List String}
    (h : normalizeAllowedPaths grants = .ok roots) :
    pathsOutsideScope [path] grants = .ok [] ↔ ∃ root ∈ roots, underRoot root path = true := by
  rw [pathsOutsideScope, h]
  by_cases hunder : roots.any (underRoot · path) = true
  · simp [hunder, any_eq_true.1 hunder]
  · have hnone : ¬ ∃ root ∈ roots, underRoot root path = true := by
      rwa [← any_eq_true]
    simp [hunder, hnone]

/-- The write boundary compares texts. -/
theorem pathsOutsideScope_eq_nil_iff (hnormal : ∀ g ∈ grants, NormalPath g) (hunique : grants.Nodup)
    (houtside : ∀ g ∈ grants, ¬ InternalPath g) (hpath : NormalPath path) :
    pathsOutsideScope [path] grants = .ok [] ↔
      ∃ grant ∈ grants, pathParts grant <+: pathParts path := by
  rw [pathsOutsideScope_singleton (normalizeAllowedPaths_of_outside hnormal hunique houtside)]
  refine exists_congr fun grant => ?_
  rw [mem_insertionSort]
  exact and_congr_right fun hgrant => underRoot_iff (hnormal grant hgrant) hpath

/-! ## The two sides -/

/-- Admission and the write boundary agree on the grants. -/
structure GrantsAgree (grants : List String) : Prop where
  accepted : ∃ roots, normalizeAllowedPaths grants = .ok roots
  contained : ∀ path, AcceptedPath path →
    (pathIsAllowed path grants = true ↔ pathsOutsideScope [path] grants = .ok [])
  overlapping : ∀ first second, AcceptedPath first → AcceptedPath second →
    (pathsOverlap first second = true ↔
      pathIsAllowed first [second] = true ∨ pathIsAllowed second [first] = true)

/-- **Admission and the write boundary agree on grants that the plan contract accepts exactly when
none of them lies in the repository's own directory.** -/
theorem grants_agree_iff {grants : List String} (haccepted : ∀ grant ∈ grants, AcceptedPath grant)
    (hunique : grants.Nodup) : GrantsAgree grants ↔ ∀ grant ∈ grants, ¬ InternalPath grant := by
  have hnormal : ∀ grant ∈ grants, NormalPath grant := fun grant hgrant =>
    (haccepted grant hgrant).normal
  constructor
  · intro hagree grant hgrant hinternal
    obtain ⟨roots, hroots⟩ := hagree.accepted
    obtain ⟨message, herror⟩ :=
      normalizeAllowedPaths_of_internal hgrant (hnormal grant hgrant) hinternal
    rw [herror] at hroots
    exact nomatch hroots
  · intro houtside
    refine ⟨⟨_, normalizeAllowedPaths_of_outside hnormal hunique houtside⟩, ?_, ?_⟩
    · intro path hpath
      rw [pathIsAllowed_iff hpath.normal hnormal,
        pathsOutsideScope_eq_nil_iff hnormal hunique houtside hpath.normal]
    · intro first second hfirst hsecond
      exact pathsOverlap_iff hfirst.normal hsecond.normal

theorem grants_agree_plain : GrantsAgree ["src", "src/pkg/mod.py", "docs/.gitignore"] :=
  (grants_agree_iff (fun grant hgrant => ⟨"allowed_paths", by
      simp only [mem_cons, not_mem_nil, or_false] at hgrant
      rcases hgrant with rfl | rfl | rfl <;> decide +kernel⟩)
    (by decide +kernel)).2 (by decide +kernel)

/-- A hook of the repository may be granted, and the boundary that guards the writes refuses it. -/
theorem internal_grant_refused :
    AcceptedPath ".git/hooks/pre-commit" ∧ ¬ GrantsAgree [".git/hooks/pre-commit"] ∧
      normalizeAllowedPaths [".git/hooks/pre-commit"] =
        .error "writable path is forbidden: .git/hooks/pre-commit" := by
  have herror : normalizeAllowedPaths [".git/hooks/pre-commit"] =
      .error "writable path is forbidden: .git/hooks/pre-commit" := by decide +kernel
  refine ⟨⟨"allowed_paths", by decide +kernel⟩, fun hagree => ?_, herror⟩
  obtain ⟨roots, hroots⟩ := hagree.accepted
  rw [herror] at hroots
  exact nomatch hroots

end HarnessLabs.PlanGraph
