import HarnessLabs.Campaign.Driver
import HarnessLabs.Lib.AsciiJson

/-!
# The repository of a campaign

The driver reads the head of its repository, and two of its steps commit there: `plan` commits the
decomposition that it synthesized together with the plan text, `approve_prepare` the table of
findings, owners and paths. Both write their files first and commit only where the status of these
files shows a change.

* `Repository` — the head, the files committed there, and the worktree.
* `commitSynthesizedPlan`, `commitFindingsOwnersPathsTable` — what the two steps commit.
* `head_commitPaths` — **the head stays where it is exactly when nothing changed at the paths.**
-/

namespace HarnessLabs.Campaign

open Audit (require bind_eq_ok require_bind_eq_ok)
open Controller (isBlank pyStr)
open PlanGraph (truthy)
open PlanGraph.Convergence (field)

/-! ## Texts of documents -/

/-- The blanks behind an opening bracket or in front of a closing one, where there is an indent. -/
def layout (indent : Option ℕ) (level : ℕ) : List Char :=
  match indent with
  | none => []
  | some width => '\n' :: List.replicate (width * level) ' '

def separator (indent : Option ℕ) (level : ℕ) : List Char :=
  match indent with
  | none => [',', ' ']
  | some _ => ',' :: layout indent level

mutual

/-- `json.dumps`, with sorted keys; an object lists its members in that order. -/
def spelled (indent : Option ℕ) (level : ℕ) : Json → List Char
  | .null => ['n', 'u', 'l', 'l']
  | .bool true => ['t', 'r', 'u', 'e']
  | .bool false => ['f', 'a', 'l', 's', 'e']
  | .int n => (toString n).toList
  | .str s => AsciiJson.string s
  | .arr [] => ['[', ']']
  | .arr (x :: xs) =>
    '[' :: layout indent (level + 1) ++ spelled indent (level + 1) x ++
      spelledElements indent level xs
  | .obj [] => ['\x7b', '\x7d']
  | .obj ((key, x) :: members) =>
    '\x7b' :: layout indent (level + 1) ++ AsciiJson.string key ++ ':' :: ' ' ::
      spelled indent (level + 1) x ++ spelledMembers indent level members

/-- The elements behind the first one. -/
def spelledElements (indent : Option ℕ) (level : ℕ) : List Json → List Char
  | [] => layout indent level ++ [']']
  | x :: xs =>
    separator indent (level + 1) ++ spelled indent (level + 1) x ++ spelledElements indent level xs

/-- The members behind the first one. -/
def spelledMembers (indent : Option ℕ) (level : ℕ) : List (String × Json) → List Char
  | [] => layout indent level ++ ['\x7d']
  | (key, x) :: members =>
    separator indent (level + 1) ++ AsciiJson.string key ++ ':' :: ' ' ::
      spelled indent (level + 1) x ++ spelledMembers indent level members

end

/-- A document as the driver writes it to a file. -/
def documentText (document : Json) : List Char := spelled none 0 document ++ ['\n']

/-! ## Repositories -/

/-- A repository with nothing staged. -/
structure Repository where
  head : String
  committed : Dict String (List Char) := ∅
  worktree : Dict String (List Char) := ∅
  ignored : String → Bool := fun _ => false

/-- What `git commit` makes of a repository at a time: **a commit is not its own parent**. -/
structure Git where
  commit : Repository → ℕ → Except String String
  fresh : ∀ {r time head}, commit r time = .ok head → head ≠ r.head

namespace Repository

/-- A path that git leaves out: it is ignored, and nothing is committed there. -/
def excluded (r : Repository) (path : String) : Bool :=
  r.ignored path && (r.committed.get? path).isNone

/-- `git status --porcelain -- path` lists the path. -/
def changed (r : Repository) (path : String) : Bool :=
  decide (r.worktree.get? path ≠ r.committed.get? path) && !r.excluded path

/-- `git status --porcelain` lists nothing. -/
def pristine (r : Repository) : Bool :=
  (r.worktree.keys ++ r.committed.keys).all fun path => !r.changed path

def readText (r : Repository) (path : String) : List Char :=
  ((r.worktree.get? path).map Lines.translateNewlines).getD []

def writeText (r : Repository) (file : String × List Char) : Repository :=
  { r with worktree := r.worktree.set file.1 file.2 }

def add (r : Repository) (path : String) : Repository :=
  match r.worktree.get? path with
  | some text => { r with committed := r.committed.set path text }
  | none => r

/-- `git add` and `git commit` of paths whose status shows a change. Adding refuses a path that is
left out. -/
def commitPaths (git : Git) (time : ℕ) (r : Repository) (paths : List String) :
    Except String Repository :=
  if paths.any r.changed then do
    require (paths.all fun path => !r.excluded path) "CalledProcessError"
    let head ← git.commit r time
    return { paths.foldl add r with head := head }
  else .ok r

/-- Behind the writing, what is to be committed at the paths is committed already or left out. -/
def Settled (r : Repository) (files : List (String × List Char)) (paths : List String) : Prop :=
  ∀ path ∈ paths, (files.foldl writeText r).changed path = false

instance (r : Repository) (files : List (String × List Char)) (paths : List String) :
    Decidable (r.Settled files paths) := List.decidableBAll _ _

theorem head_foldl_writeText (r : Repository) (files : List (String × List Char)) :
    (files.foldl writeText r).head = r.head := by
  induction files generalizing r with
  | nil => rfl
  | cons file rest ih => exact ih (r.writeText file)

/-- **The head stays where it is exactly when nothing changed at the paths.** -/
theorem head_commitPaths {git : Git} {time : ℕ} {r s : Repository} {paths : List String}
    (h : r.commitPaths git time paths = .ok s) :
    s.head = r.head ↔ ∀ path ∈ paths, r.changed path = false := by
  unfold commitPaths at h
  by_cases hchanged : paths.any r.changed = true
  · rw [if_pos hchanged] at h
    obtain ⟨-, hcommit⟩ := require_bind_eq_ok.1 h
    obtain ⟨head, hhead, hs⟩ := bind_eq_ok.1 hcommit
    cases hs
    obtain ⟨path, hpath, hdiffers⟩ := List.any_eq_true.1 hchanged
    refine iff_of_false (git.fresh hhead) fun hsettled => ?_
    rw [hsettled path hpath] at hdiffers
    cases hdiffers
  · rw [if_neg hchanged] at h
    cases h
    refine iff_of_true rfl fun path hpath => ?_
    by_contra hdiffers
    exact hchanged (List.any_eq_true.2 ⟨path, hpath, by simpa using hdiffers⟩)

/-- The files are written in front of the commit. -/
theorem head_commitWritten {git : Git} {time : ℕ} {r s : Repository}
    {files : List (String × List Char)} {paths : List String}
    (h : (files.foldl writeText r).commitPaths git time paths = .ok s) :
    s.head = r.head ↔ r.Settled files paths := by
  rw [← head_foldl_writeText r files]
  exact head_commitPaths h

end Repository

/-! ## The synthesized plan -/

/-- `_heading_level`. -/
def headingLevel (line : List Char) : ℕ := (line.takeWhile (· = '#')).length

def strip (line : List Char) : List Char := FeatureRun.stripChars (·.isWhitespace) line

/-- The first line that reads as the heading, among the lines with their positions. -/
def headingIndex? (lines : List (List Char)) (heading : List Char) : Option ℕ :=
  lines.findIdx? fun line => strip line = strip heading

/-- The lines of a section, up to the next heading that is as deep or less deep. -/
def sectionLines (lines : List (List Char)) (heading : List Char) : List (List Char) :=
  match headingIndex? lines heading with
  | none => []
  | some start =>
    let level := headingLevel (strip heading)
    let body := lines.drop (start + 1)
    (lines.drop start).take 1 ++
      if level = 0 then body
      else body.takeWhile fun line => !(line.head? = some '#' && headingLevel line ≤ level)

def joinLines (lines : List (List Char)) : List Char := List.intercalate ['\n'] lines

/-- `extract_plan_section`. -/
def extractPlanSection (text heading : List Char) : List Char :=
  joinLines (sectionLines (Lines.splitlines text) heading)

/-- The text with a heading at its end, unless a line reads so. -/
def withHeading (text heading : List Char) : List Char :=
  if (headingIndex? (Lines.splitlines text) heading).isSome then text
  else
    let text := if text ≠ [] ∧ text.getLast? ≠ some '\n' then text ++ ['\n'] else text
    text ++ (if text = [] then [] else ['\n']) ++ heading ++ ['\n']

/-- The text with an objective under a heading, unless the section holds it. -/
def withObjective (text objective heading : List Char) : List Char :=
  if objective <:+: extractPlanSection text heading then text
  else
    let lines := Lines.splitlines text
    match headingIndex? lines heading with
    | none => text
    | some index => joinLines (lines.insertIdx (index + 1) objective) ++ ['\n']

/-- The items of a list that may be missing. -/
def listed (value : Json) : List Json := value.asArr?.getD []

/-- The headings that a run of the decomposition cites. -/
def citedHeadings (decomposition run : Json) : List (List Char) :=
  (listed (field run "plan_sections")).filterMap fun slug => do
    let heading ← (field decomposition "plan_sections").get? (← slug.asStr?)
    if heading = .null then none else some (pyStr heading).toList

def withRunObjective (decomposition : Json) (text : List Char) (run : Json) : List Char :=
  let objective := if truthy (field run "objective") then pyStr (field run "objective") else ""
  if isBlank objective then text
  else (citedHeadings decomposition run).foldl (fun text => withObjective text objective.toList) text

/-- `_text_with_synthesized_objectives`. -/
def textWithSynthesizedObjectives (text : List Char) (decomposition : Json) : List Char :=
  let headings := ((field decomposition "plan_sections").asMembers?.getD []).map fun member =>
    (pyStr member.2).toList
  (listed (field decomposition "runs")).foldl (withRunObjective decomposition)
    (headings.foldl withHeading text)

/-- Where the decomposition of a round is kept. -/
def decompositionPath (round : ℕ) : String :=
  ".harness/campaign-plans/round-" ++ toString round ++ "-decomposition.json"

/-- The files that a synthesized round writes. -/
def synthesizedFiles (r : Repository) (round : ℕ) (decomposition : Json) :
    List (String × List Char) :=
  let file := (decompositionPath round, documentText decomposition)
  match decomposition.get? "plan" with
  | some (.str plan) =>
    [file, (plan, textWithSynthesizedObjectives ((r.writeText file).readText plan) decomposition)]
  | _ => [file]

/-- `commit_synthesized_plan`. -/
def commitSynthesizedPlan (git : Git) (time : ℕ) (r : Repository) (round : ℕ)
    (decomposition : Json) : Except String Repository :=
  let files := synthesizedFiles r round decomposition
  (files.foldl Repository.writeText r).commitPaths git time (files.map Prod.fst)

/-! ## The table of findings, owners and paths -/

def tablePath : String := "findings-owners-paths.json"

/-- A row of the table. -/
def tableRow (runId : String) (finding : Json) : Json :=
  .obj [("file", field finding "file"),
    ("required_paths", .arr (((listed (field finding "required_paths")).map pyStr).insertionSort
      (· ≤ ·) |>.map .str)),
    ("run_id", .str runId), ("subject", field finding "subject")]

/-- The texts that a row is sorted by. -/
def rowTexts (row : Json) : List String :=
  ["run_id", "file", "subject"].map fun name => ((field row name).asStr?).getD ""

/-- `render_findings_owners_paths_table`. -/
def renderTable (findingsByRun : Dict String (List Json)) : Json :=
  let runs := findingsByRun.items.insertionSort fun a b => a.1 ≤ b.1
  .arr ((runs.flatMap fun item => item.2.map (tableRow item.1)).insertionSort fun a b =>
    rowTexts a ≤ rowTexts b)

/-- `_read_json(path) or {}`. -/
def readDocument (r : Repository) (path : String) : Json :=
  match (r.worktree.get? path).bind Json.loads with
  | some (.obj members) => .obj members
  | _ => .obj []

/-- The decomposition with the table among its artifacts, where it does not list it. -/
def referencing (decomposition : Json) : Option Json :=
  let referenced := listed (field decomposition "referenced_artifacts")
  if .str tablePath ∈ referenced then none
  else some (PlanGraph.setField decomposition "referenced_artifacts"
    (.arr (referenced ++ [.str tablePath])))

/-- What `approve_prepare` is given; the path of the decomposition is relative to the repository. -/
structure PacketInput where
  repository : String
  decompositionPath : String
  findingsByRun : Dict String (List Json) := ∅
  /-- The checks in front of the commit. -/
  checks : Except String Unit := .ok ()
  /-- Refinement, admission and the warnings, behind it. -/
  admission : Except String Unit := .ok ()

/-- The files that the table is committed with; a decomposition that lists the table stays. -/
def tableFiles (r : Repository) (input : PacketInput) : List (String × List Char) :=
  let table := (tablePath, spelled (some 2) 0 (renderTable input.findingsByRun) ++ ['\n'])
  match referencing (readDocument (r.writeText table) input.decompositionPath) with
  | some decomposition => [table, (input.decompositionPath, documentText decomposition)]
  | none => [table]

/-- `commit_findings_owners_paths_table`. -/
def commitFindingsOwnersPathsTable (git : Git) (time : ℕ) (r : Repository) (input : PacketInput) :
    Except String Repository :=
  ((tableFiles r input).foldl Repository.writeText r).commitPaths git time
    [tablePath, input.decompositionPath]

/-- `render_approval_packet`. -/
def renderApprovalPacket (git : Git) (time : ℕ) (r : Repository) (input : PacketInput) :
    Except String Repository := do
  require r.pristine "approve requires a pristine base worktree"
  input.checks
  let r ← commitFindingsOwnersPathsTable git time r input
  input.admission
  return r

end HarnessLabs.Campaign
