import HarnessLabs.Core.Attempts

/-!
# Recorded verification commands

The data of a deterministic verification: workspace snapshots and the scope they are checked
against, what a command run leaves, how the record that the run keeps differs from the content that
the evidence catalog stores, and the identifiers of commands and repairs.

* `pathsOutsideScope` — the changed paths that no allowed path covers.
* `Command.toJson` — the stored content.
-/

namespace HarnessLabs.FeatureRun

/-! ## Workspaces -/

/-- `workspace_snapshot`: the worktree as Git shows it. -/
@[ext] structure Workspace where
  head : String
  branch : String
  changedPaths : List String
  files : Dict String Json
  deriving DecidableEq

def Workspace.toJson (w : Workspace) : Json :=
  Json.ofMembers [("head", .str w.head), ("branch", .str w.branch),
    ("changed_paths", .arr (w.changedPaths.map .str)), ("files", Json.ofMembers w.files.items)]

def hasPrefix (start text : String) : Bool := start.toList.isPrefixOf text.toList

/-- The components of a path that `PurePosixPath` keeps. -/
def pathParts (path : String) : List String :=
  ((path.toList.splitOn '/').map String.ofList).filter fun part => part ≠ "" ∧ part ≠ "."

def asPosix (path : String) : String :=
  if pathParts path = [] then "."
  else String.ofList (['/'].intercalate ((pathParts path).map String.toList))

def normalizeAllowedPath (value : String) : Except String String :=
  if value.toList.all (·.isWhitespace) then .error "writable paths must be non-empty strings"
  else if hasPrefix "/" value ∨ ".." ∈ pathParts value then
    .error ("writable path escapes repository: " ++ value)
  else if asPosix value = ".git" ∨ hasPrefix ".git/" (asPosix value) then
    .error ("writable path is forbidden: " ++ value)
  else .ok (asPosix value)

/-- `normalize_allowed_paths`. -/
def normalizeAllowedPaths (paths : List String) : Except String (List String) :=
  match paths.mapM normalizeAllowedPath with
  | .error e => .error e
  | .ok normalized =>
    if normalized.Nodup then .ok (normalized.insertionSort (· ≤ ·))
    else .error "writable paths must be unique"

/-- The path is the root or lies beneath it. -/
def underRoot (root path : String) : Bool := path == root || hasPrefix (root ++ "/") path

/-- `paths_outside_scope`. -/
def pathsOutsideScope (actual allowed : List String) : Except String (List String) :=
  match normalizeAllowedPaths allowed with
  | .error e => .error e
  | .ok roots =>
    .ok ((actual.filter fun path => !roots.any (underRoot · path)).insertionSort (· ≤ ·))

/-! ## Commands -/

/-- The content that the evidence catalog stores for one run of a verification command. -/
structure Command where
  stage : String
  attempt : ℕ
  argv : List String
  cwd : String
  exitCode : ℤ
  stdout : String
  stderr : String
  timedOut : Bool
  durationMs : ℕ
  workspace : Workspace
  executedArgv : Option (List String)
  deriving DecidableEq

def Command.members (c : Command) : List (String × Json) :=
  [("stage", .str c.stage), ("attempt", .int c.attempt), ("argv", .arr (c.argv.map .str)),
    ("cwd", .str c.cwd), ("exit_code", .int c.exitCode), ("stdout", .str c.stdout),
    ("stderr", .str c.stderr), ("timed_out", .bool c.timedOut), ("duration_ms", .int c.durationMs),
    ("workspace", c.workspace.toJson)] ++
  (c.executedArgv.map fun argv => ("executed_argv", .arr (argv.map .str))).toList

def Command.toJson (c : Command) : Json := Json.ofMembers c.members

/-- `classify_verification_failure`'s verdict. -/
structure Failure where
  classification : String
  ruleId : String
  evidenceExcerpt : String
  deriving DecidableEq

/-- What the run records of a command: its content and what was found out about it. -/
structure CommandAttempt where
  command : Command
  evidenceRef : String
  invocationId : String
  gate : Option String
  failure : Option Failure
  imageArtifacts : Option Json
  deriving DecidableEq

/-- A dispatched repair, as the evidence for the parent ledger has it. -/
structure RepairInvocation where
  invocationId : String
  classification : String
  failureKeys : List String
  gate : Option String
  deriving DecidableEq

/-! ## Results -/

/-- `DeterministicVerificationResult`. -/
structure VerificationResult where
  status : String
  reason : String
  commandAttempts : List CommandAttempt
  repairAttempts : ℕ
  repairInvocations : List RepairInvocation
  deriving DecidableEq

/-- `repair_invocation_ids` is filled together with `repair_invocations`. -/
def VerificationResult.repairInvocationIds (r : VerificationResult) : List String :=
  r.repairInvocations.map (·.invocationId)

/-! ## Identifiers -/

def commandInvocationId (runId stage : String) (ordinal : ℕ) : String :=
  runId ++ ":verification-command:" ++ stage ++ ":" ++ toString ordinal

def repairInvocationId (runId stage : String) (ordinal : ℕ) : String :=
  runId ++ ":verification-repair:" ++ stage ++ ":" ++ toString ordinal

def recoveryInvocationId (runId stage : String) (ordinal : ℕ) : String :=
  repairInvocationId runId stage ordinal ++ ":recovery-1"

end HarnessLabs.FeatureRun
