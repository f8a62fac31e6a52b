import HarnessLabs.Campaign.Round
import HarnessLabs.FeatureRun.CandidateCommit

/-!
# The target of a campaign, and the grants of its repairs

A campaign is measured against a pinned document, which no repair may be granted. The target records
the path of the document as it was spelled; grants are repository-relative, and the refusal compares
the two component by component.

* `pinTarget` — the target that is recorded; `rejectTargetGrant` — the refusal.
* `pathIsAllowed_text` — **grants cover a recorded path when it is relative and their components
  begin it.**
* `target_guarded_iff` — **the refusal agrees with the write boundary on all grants exactly when the
  path was spelled from the root of the repository, up to its first `..`.**
* `absolute_target_granted` — a document that is pinned by its absolute path may be granted.
-/

namespace HarnessLabs.Campaign

open Controller (isBlank)
open FeatureRun (hasPrefix pathParts asPosix underRoot pathParts_joined hasPrefix_joined)
open PlanGraph (AcceptedPath NormalPath joined joined_append prefix_joined part_spec
  hasPrefix_iff
  pathParts_append asPosix_of_parts underRoot_iff normalizeRepositoryPath)

/-! ## The target -/

/-- `str` of a path. -/
def pathText (path : ℕ × List String) : String :=
  if path = (0, []) then "."
  else String.ofList (List.replicate path.1 '/' ++ joined path.2)

/-- The target that `pin_target` records; `readFile` is the content of a path that is a file. -/
def pinTarget (readFile : String → Option (List ℕ)) (sourcePath snapshotRelativePath : String)
    (targetKind : String) : Except String Json :=
  let source := pathText (posixPath sourcePath)
  match readFile source with
  | none => .error ("target source path does not exist: " ++ source)
  | some content =>
    if isBlank snapshotRelativePath then
      .error "target snapshot_relative_path must be a non-empty string"
    else if hasPrefix "/" snapshotRelativePath ∨ ".." ∈ pathParts snapshotRelativePath then
      .error ("target snapshot_relative_path must stay inside the campaign root, got '" ++
        snapshotRelativePath ++ "'")
    else
      .ok (.obj [("kind", .str targetKind), ("digest", .str (Sha256.hexdigest content)),
        ("snapshot_path", .str snapshotRelativePath), ("path", .str source)])

def targetField (target : Json) (name : String) : String := ((target.get? name).map strOr).getD ""

/-- `reject_target_grant`. -/
def rejectTargetGrant (target : Json) (allowedPaths : List String) : Except String Unit :=
  let path := if targetField target "path" ≠ "" then targetField target "path"
    else targetField target "snapshot_path"
  if path = "" then
    .error ("target mapping must include a 'path' or 'snapshot_path' to check against a " ++
      "repair-node grant")
  else if pathIsAllowed path allowedPaths then
    .error ("repair-node grant ['" ++ "', '".intercalate allowedPaths ++
      "'] must not cover the pinned target path '" ++ path ++ "'")
  else .ok ()

/-! ## Recorded paths -/

section Paths

variable {text path grant : String} {grants : List String}

theorem parts_valid (text : String) :
    ∀ part ∈ pathParts text, part ≠ "" ∧ part ≠ "." ∧ '/' ∉ part.toList := by
  intro part hpart
  have hkept := (List.mem_filter.1 hpart).2
  exact ⟨by simpa using (part_spec hpart).1, (by simpa using hkept : part ≠ "" ∧ part ≠ ".").2,
    (part_spec hpart).2⟩

theorem root_le_two (text : String) : (posixPath text).1 ≤ 2 := by
  unfold posixPath
  dsimp only
  split_ifs <;> omega

theorem pathParts_slashes (n : ℕ) (chars : List Char) :
    pathParts (String.ofList (List.replicate n '/' ++ chars)) =
      pathParts (String.ofList chars) := by
  induction n with
  | zero => rfl
  | succ n ih =>
    rw [List.replicate_succ, List.cons_append, ← List.nil_append ('/' :: _), pathParts_append, ih]
    rfl

theorem takeWhile_slash {chars : List Char} (h : hasPrefix "/" (String.ofList chars) = false) :
    chars.takeWhile (· = '/') = [] := by
  cases chars with
  | nil => rfl
  | cons c rest =>
    refine List.takeWhile_cons_of_neg fun hc => ?_
    simp [hasPrefix, show c = '/' by simpa using hc] at h

/-- A path that is spelled out reads back. -/
theorem posixPath_pathText {path : ℕ × List String} (hroot : path.1 ≤ 2)
    (hparts : ∀ part ∈ path.2, part ≠ "" ∧ part ≠ "." ∧ '/' ∉ part.toList) :
    posixPath (pathText path) = path := by
  obtain ⟨n, parts⟩ := path
  unfold pathText
  split_ifs with hempty
  · rw [hempty]
    decide
  · unfold posixPath
    simp only [String.toList_ofList, pathParts_slashes, pathParts_joined hparts]
    rw [List.takeWhile_append_of_pos (by simp), takeWhile_slash (hasPrefix_joined hparts)]
    simp only [List.append_nil, List.length_replicate, Prod.mk.injEq, and_true]
    split_ifs <;> omega

theorem recorded_ne_empty (text : String) : pathText (posixPath text) ≠ "" := by
  intro hempty
  have hread := posixPath_pathText (root_le_two text) (parts_valid text)
  rw [hempty] at hread
  rw [← hread] at hempty
  revert hempty
  decide

theorem root_eq (h : NormalPath grant) : (posixPath grant).1 = 0 := by
  have hslashes : grant.toList.takeWhile (· = '/') = [] :=
    takeWhile_slash (by rw [String.ofList_toList, h.relative])
  simp [posixPath, hslashes]

/-- **Grants cover a recorded path when it is relative and their components begin it.** -/
theorem pathIsAllowed_text (hgrants : ∀ grant ∈ grants, NormalPath grant) :
    pathIsAllowed (pathText (posixPath text)) grants = true ↔
      ∃ grant ∈ grants, (posixPath text).1 = 0 ∧ pathParts grant <+: pathParts text := by
  rw [pathIsAllowed, posixPath_pathText (root_le_two text) (parts_valid text), List.any_eq_true]
  refine exists_congr fun grant => and_congr_right fun hmem => ?_
  rw [root_eq (hgrants grant hmem), Bool.and_eq_true, decide_eq_true_eq, List.isPrefixOf_iff_prefix,
    eq_comm]
  rfl

/-- A grant climbs nowhere, and covers what is below it up to the first `..` only. -/
theorem grant_prefix_iff (hgrant : NormalPath grant) :
    pathParts grant <+: pathParts text ↔
      pathParts grant <+: (pathParts text).takeWhile (· ≠ "..") := by
  refine ⟨fun hpre => ?_, fun hpre => hpre.trans (List.takeWhile_prefix _)⟩
  obtain ⟨rest, hrest⟩ := hpre
  rw [← hrest, List.takeWhile_append_of_pos]
  · exact List.prefix_append _ _
  · intro part hpart
    have hne : part ≠ ".." := fun h => hgrant.inside (h ▸ hpart)
    simpa using hne

/-- Joined components are accepted. -/
theorem accepted_joined {parts : List String} (hne : parts ≠ [])
    (hparts : ∀ part ∈ parts, part ≠ "" ∧ part ≠ "." ∧ '/' ∉ part.toList)
    (hinside : ".." ∉ parts) (hfilled : isBlank (String.ofList (joined parts)) = false) :
    AcceptedPath (String.ofList (joined parts)) := by
  have hread := pathParts_joined hparts
  have hsame : asPosix (String.ofList (joined parts)) = String.ofList (joined parts) := by
    rw [← String.toList_inj, asPosix_of_parts (hread.symm ▸ hne), hread, String.toList_ofList]
  have hdot : hasPrefix "./" (String.ofList (joined parts)) = false := by
    by_contra hdot
    obtain ⟨rest, hrest⟩ := hasPrefix_iff.1 (by simpa using hdot)
    simp only [String.toList_ofList] at hrest
    obtain ⟨first, others, rfl⟩ := List.exists_cons_of_ne_nil hne
    obtain ⟨hfirst, hsingle, hslash⟩ := hparts first List.mem_cons_self
    have hhead : first.toList <+: '.' :: '/' :: rest := by
      rw [show '.' :: '/' :: rest = joined (first :: others) from hrest]
      exact prefix_joined first others
    rcases htext : first.toList with _ | ⟨c, _ | ⟨d, more⟩⟩
    · exact hfirst (String.toList_inj.1 htext)
    · rw [htext] at hhead
      obtain rfl : c = '.' := by simpa using hhead
      exact hsingle (String.toList_inj.1 htext)
    · rw [htext] at hhead hslash
      obtain ⟨rfl, rfl, -⟩ : c = '.' ∧ d = '/' ∧ more <+: rest := by simpa using hhead
      simp at hslash
  have htext : String.ofList (joined parts) ∉ ["", "."] := by
    intro hmem
    refine hne (hread.symm.trans ?_)
    generalize String.ofList (joined parts) = path at hmem
    obtain rfl | rfl : path = "" ∨ path = "." := by simpa using hmem
    · decide
    · decide
  refine ⟨"", ?_⟩
  unfold normalizeRepositoryPath
  dsimp only
  rw [if_neg (by simp [hfilled]), if_neg (by simp [hasPrefix_joined hparts, hread, hinside, hdot]),
    if_neg (by rw [hsame]; simpa using htext)]
  rfl

end Paths

/-! ## The guard -/

section Guard

variable {readFile : String → Option (List ℕ)} {source snapshot kind path : String} {target : Json}

theorem pinTarget_path (h : pinTarget readFile source snapshot kind = .ok target) :
    targetField target "path" = pathText (posixPath source) := by
  unfold pinTarget at h
  dsimp only at h
  split at h
  · cases h
  · split_ifs at h
    cases h
    have htruthy : PlanGraph.truthy (.str (pathText (posixPath source))) = true := by
      simpa [PlanGraph.truthy] using recorded_ne_empty source
    change strOr (.str (pathText (posixPath source))) = _
    rw [strOr, if_pos htruthy]
    rfl

/-- The refusal of a pinned target is the containment at admission. -/
theorem refused_iff (h : pinTarget readFile source snapshot kind = .ok target)
    {grants : List String} (hgrants : ∀ grant ∈ grants, NormalPath grant) :
    (rejectTargetGrant target grants).isOk = false ↔ ∃ grant ∈ grants,
      (posixPath source).1 = 0 ∧ pathParts grant <+: pathParts source := by
  rw [← pathIsAllowed_text hgrants]
  unfold rejectTargetGrant
  rw [pinTarget_path h, if_pos (recorded_ne_empty _)]
  rw [if_neg (recorded_ne_empty _)]
  split_ifs with hallowed
  · simp [hallowed, Except.isOk, Except.toBool]
  · simp [hallowed, Except.isOk, Except.toBool]

/-- **The refusal agrees with the write boundary on all grants exactly when the path was spelled
from the root of the repository, up to its first `..`.** -/
theorem target_guarded_iff (h : pinTarget readFile source snapshot kind = .ok target)
    (hpath : AcceptedPath path) :
    (∀ grants : List String, (∀ grant ∈ grants, AcceptedPath grant) →
      ((rejectTargetGrant target grants).isOk = false ↔
        ∃ grant ∈ grants, underRoot grant path = true)) ↔
      (posixPath source).1 = 0 ∧
        (pathParts source).takeWhile (· ≠ "..") = pathParts path := by
  have hnormal := hpath.normal
  constructor
  · intro hguard
    have hown := (hguard [path] (by simpa using hpath)).2
      ⟨path, List.mem_singleton_self path, (underRoot_iff hnormal hnormal).2 (List.prefix_refl _)⟩
    obtain ⟨_, hmem, hroot, hpre⟩ := (refused_iff h (by simpa using hnormal)).1 hown
    rw [List.mem_singleton.1 hmem, grant_prefix_iff hnormal] at hpre
    refine ⟨hroot, ?_⟩
    obtain ⟨below, hbelow⟩ := hpre
    cases below with
    | nil => rw [← hbelow, List.append_nil]
    | cons part below =>
      -- the grant of the whole spelled path is refused, and does not hold the file
      have hvalid : ∀ p ∈ (pathParts source).takeWhile (· ≠ ".."),
          p ≠ "" ∧ p ≠ "." ∧ '/' ∉ p.toList := fun p hp =>
        parts_valid source p ((List.takeWhile_sublist _).subset hp)
      have hinside : ".." ∉ (pathParts source).takeWhile (· ≠ "..") := fun hp => by
        simpa using List.mem_takeWhile_imp hp
      rw [← hbelow] at hvalid hinside
      have hlonger := accepted_joined (by simp) hvalid hinside (by
        rw [joined_append hnormal.parts (List.cons_ne_nil part below)]
        simp [isBlank])
      have hread := pathParts_joined hvalid
      obtain ⟨g, hg, hunder⟩ := (hguard [_] (by simpa using hlonger)).1 <|
        (refused_iff h (by simpa using hlonger.normal)).2 ⟨_, List.mem_singleton_self _, hroot, by
          rw [hread, hbelow]
          exact List.takeWhile_prefix _⟩
      rw [List.mem_singleton.1 hg, underRoot_iff hlonger.normal hnormal, hread] at hunder
      have hlength := hunder.length_le
      simp at hlength
  · rintro ⟨hroot, hparts⟩ grants haccepted
    have hgrants : ∀ grant ∈ grants, NormalPath grant := fun g hg => (haccepted g hg).normal
    rw [refused_iff h hgrants]
    refine exists_congr fun grant => and_congr_right fun hmem => ?_
    rw [underRoot_iff (hgrants grant hmem) hnormal, grant_prefix_iff (hgrants grant hmem), hparts]
    exact and_iff_right hroot

/-- A document that is pinned by its path below the root is guarded. -/
theorem relative_target_guarded : ∃ target,
    pinTarget (fun _ => some [35]) "docs/./spec.md" "target/spec.md" "plan" = .ok target ∧
      ∀ grants : List String, (∀ grant ∈ grants, AcceptedPath grant) →
        ((rejectTargetGrant target grants).isOk = false ↔
          ∃ grant ∈ grants, underRoot grant "docs/spec.md" = true) := by
  obtain ⟨target, h⟩ : ∃ target,
      pinTarget (fun _ => some [35]) "docs/./spec.md" "target/spec.md" "plan" = .ok target :=
    ⟨_, rfl⟩
  exact ⟨target, h, (target_guarded_iff h ⟨"", by decide⟩).2 (by decide)⟩

/-- A document that is pinned by its absolute path may be granted. -/
theorem absolute_target_granted : ∃ target,
    pinTarget (fun path => if path = "/repo/docs/spec.md" then some [35] else none)
      "/repo/docs/spec.md" "target/spec.md" "plan" = .ok target ∧
    AcceptedPath "docs/spec.md" ∧ underRoot "docs/spec.md" "docs/spec.md" = true ∧
    rejectTargetGrant target ["docs/spec.md"] = .ok () :=
  ⟨_, rfl, ⟨"", by decide⟩, by decide, by decide⟩

end Guard

end HarnessLabs.Campaign
