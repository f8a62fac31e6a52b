import HarnessLabs.PlanGraph.ConvergenceSummary
import HarnessLabs.PlanGraph.GrantPaths

/-!
# Finding intake

The statement of an operator quotes terms between backticks, each a path or the name of a
definition. The one file of the working tree that they mean is the file of the finding; anything
else is a question, which a batch raises.

* `extractQueries`, `resolveCandidates` — the terms, and the files that a term may mean.
* `draftFinding`, `draftFindingsBatch` — the intake of a statement, and of a list of them.
* `NeverGuesses` — every term means the file of the finding, written as the contract wants it, and
  the ledger takes the finding as it is.
* `neverGuesses_iff` — **it holds where every term means the file that some term means, and a quoted
  path is normalized.**
* `skips_unmatched_term` — a term that means nothing is passed over.
-/

namespace HarnessLabs.PlanGraph.Intake

open List
open Audit (require require_eq_ok bind_eq_ok)
open HarnessLabs.Controller (isBlank isBlank_append nonBlankText)
open Convergence (Key keyText Finding findingSeverities)
open FeatureRun (pathParts stripChars)

/-! ## The working tree -/

/-- A file that the walk of the tree lists, under its path from the root. A file whose path is blank
is never a source. -/
structure SourceFile where
  path : String
  text : String
  accepted : AcceptedPath path

/-- The files in the order of the walk, and the paths that lead to a file, in any spelling. -/
structure WorkingTree where
  files : List SourceFile
  isFile : String → Bool

/-- The word characters of a pattern, and `str.lower`. -/
structure Host where
  isWord : Char → Bool
  lower : String → String

def hasPySuffix (text : String) : Bool := ".py".toList.isSuffixOf text.toList

def excludedDirNames : List String :=
  [".git", "__pycache__", ".venv", "venv", "node_modules", "build", "dist", ".pytest_cache",
    ".mypy_cache"]

/-- `_iter_source_files`. A name that is nothing but the extension has no suffix. -/
def WorkingTree.sources (tree : WorkingTree) : List SourceFile :=
  tree.files.filter fun file =>
    ((pathParts file.path).getLast?.any fun name => hasPySuffix name && 3 < name.length) &&
      (pathParts file.path).all (· ∉ excludedDirNames)

/-- The paths of the sources whose text is found, sorted. -/
def WorkingTree.matching (tree : WorkingTree) (found : List Char → Bool) : List String :=
  ((tree.sources.filter fun file => found file.text.toList).map (·.path)).insertionSort (· ≤ ·)

/-! ## Patterns -/

/-- The character before each place of a text, and what follows it. -/
def places (text : List Char) : List (Option Char × List Char) :=
  (none :: text.map some).zip text.tails

def isSymbol : List Char → Bool
  | [] => false
  | c :: rest => (c.isAlpha || c = '_') && rest.all fun c => c.isAlphanum || c = '_' || c = '.'

/-- A whole word stands here, the boundary in front of it apart. -/
def startsWord (host : Host) (word text : List Char) : Bool :=
  word.isPrefixOf text && (text.drop word.length).head?.all fun c => !host.isWord c

/-- `\s+`, and what follows it. -/
def afterSpaces : List Char → Option (List Char)
  | c :: rest => if c.isWhitespace then some (rest.dropWhile (·.isWhitespace)) else none
  | [] => none

def afterText (start : String) (text : List Char) : Option (List Char) :=
  if start.toList.isPrefixOf text then some (text.drop start.length) else none

/-- `(?:async\s+def|def|class)`, and what follows it. -/
def afterKeyword (text : List Char) : Option (List Char) :=
  (((afterText "async" text).bind afterSpaces).bind (afterText "def")).or
    ((afterText "def" text).or (afterText "class" text))

/-- A definition of the symbol begins on some line. -/
def defines (host : Host) (symbol text : List Char) : Bool :=
  (places text).any fun (before, rest) => (before = none ∨ before = some '\n') ∧
    ((afterKeyword (rest.dropWhile (·.isWhitespace))).bind afterSpaces).any (startsWord host symbol)

def mentions (host : Host) (symbol text : List Char) : Bool :=
  (places text).any fun (before, rest) => before.all (fun c => !host.isWord c) &&
    startsWord host symbol rest

/-! ## Terms -/

/-- The quoted texts, from the texts behind the backticks: a quoted text is not empty. -/
def quotedTerms : List (List Char) → List (List Char)
  | [] | [_] => []
  | [] :: next :: rest => quotedTerms (next :: rest)
  | term :: _ :: rest => term :: quotedTerms rest

/-- `_extract_queries`. -/
def extractQueries (statement : String) : List String :=
  (((quotedTerms (statement.toList.splitOn '\x60').tail).map fun term =>
    String.ofList (stripChars (·.isWhitespace) term)).filter (· ≠ "")).eraseDups

/-- The term names a file by its path. -/
def WorkingTree.namesFile (tree : WorkingTree) (query : String) : Bool :=
  ('/' ∈ query.toList || hasPySuffix query) && tree.isFile query

/-- `_resolve_candidates`. -/
def resolveCandidates (host : Host) (tree : WorkingTree) (query : String) : List String × Bool :=
  if tree.namesFile query then ([query], true)
  else
    let symbol := (query.toList.splitOn '.').getLast?.getD []
    if isSymbol symbol then
      let defining := tree.matching (defines host symbol)
      if defining ≠ [] then (defining, false) else (tree.matching (mentions host symbol), false)
    else ([], false)

/-! ## Findings and questions -/

structure IntakeQuestion where
  statement : String
  reason : String
  candidates : List (List String) := []
deriving DecidableEq

structure DraftFinding where
  file : String
  subject : String
  requiredPaths : List String
  confidence : String
  supersedesKey : Option Key
  id : String
  statement : String
  category : String
  severity : Option String
  requiresDisposition : Bool
  evidenceRefs : List String
  sourceFindingIds : List String
deriving DecidableEq

def texts (values : List String) : Json := .arr (values.map .str)

def DraftFinding.toEnvelope (f : DraftFinding) : Json :=
  .obj [("category", .str f.category), ("confidence", .str f.confidence),
    ("evidence_refs", texts f.evidenceRefs), ("file", .str f.file), ("id", .str f.id),
    ("required_paths", texts f.requiredPaths),
    ("requires_disposition", .bool f.requiresDisposition),
    ("severity", (f.severity.map .str).getD .null),
    ("source_finding_ids", texts f.sourceFindingIds), ("statement", .str f.statement),
    ("subject", .str f.subject),
    ("supersedes_key", (f.supersedesKey.map fun key => texts [key.1, key.2]).getD .null)]

/-- The envelope that `seal_findings` writes. -/
def auditEnvelope (digest : String) (findings : List DraftFinding) : Json :=
  .obj [("capture_coverage", .obj []), ("confirmed_good", .arr []), ("digest", .str digest),
    ("findings", .arr (findings.map (·.toEnvelope))), ("verdicts", .arr [])]

def DraftFinding.key (f : DraftFinding) : Key := (f.file, f.subject)

/-- The finding as the ledger keeps it. -/
def DraftFinding.recorded (f : DraftFinding) : Finding where
  file := f.file
  subject := f.subject
  requiredPaths := f.requiredPaths
  confidence := some f.confidence
  supersedesKey := f.supersedesKey
  id := some f.id
  statement := some f.statement
  category := some f.category
  severity := f.severity
  requiresDisposition := f.requiresDisposition
  evidenceRefs := f.evidenceRefs
  sourceFindingIds := f.sourceFindingIds

inductive Outcome where
  | question (question : IntakeQuestion)
  | finding (finding : DraftFinding)
deriving DecidableEq

/-! ## Drafting -/

/-- The keyword arguments of `draft_finding`. -/
structure Options where
  target : String
  evidenceRefs : List String := []
  severity : Option String := some "major"
  supersedesKey : Option (List String) := none
  sourceFindingIds : List String := []
  requiresDisposition : Option Bool := none

def allFilled (values : List String) : Bool := values.all fun value => !isBlank value

def checkArguments (options : Options) (statement : String) : Except String Unit := do
  require (isBlank statement = false) "statement must be a non-empty string"
  require (isBlank options.target = false) "target must be a non-empty string"
  require (options.severity.all (· ∈ findingSeverities))
    "severity must be one of ['critical', 'info', 'major', 'minor'] or None"
  require (allFilled options.evidenceRefs) "evidence_refs entries must be non-empty strings"
  require (allFilled options.sourceFindingIds)
    "source_finding_ids entries must be non-empty strings"
  require (options.supersedesKey.all fun key => key.length = 2 && allFilled key)
    "supersedes_key must be a [file, subject] pair of non-empty strings"

/-- `str.replace(old, "")`; what is left of an occurrence is skipped. -/
def removeAll (old : List Char) : ℕ → List Char → List Char
  | _, [] => []
  | skipped + 1, _ :: rest => removeAll old skipped rest
  | 0, c :: rest =>
    if old.isPrefixOf (c :: rest) then removeAll old (old.length - 1) rest
    else c :: removeAll old 0 rest

/-- `_slugify`. -/
def slugify (host : Host) (text : String) : String :=
  let words := ((host.lower text).toList.splitOnP fun c => !c.isAlphanum).filter (· ≠ [])
  if words = [] then "statement" else String.ofList (['-'].intercalate (words.take 8))

/-- `_derive_id`. -/
def deriveId (statement target file subject : String) : String :=
  "fi-" ++ String.ofList ((Sha256.hexdigest (Json.utf8
    (String.intercalate "\x00" [statement, target, file, subject]).toList)).toList.take 16)

/-- A term with the one file it means. -/
structure Match where
  term : String
  file : String
  viaPath : Bool

def quoted (term : String) : String := "`" ++ term ++ "`"

/-- A list of texts, as it is printed. -/
def listText (values : List String) : String :=
  "[" ++ String.intercalate ", " (values.map fun value => "'" ++ value ++ "'") ++ "]"

/-- The loop over the terms. A term that means no file is passed over. -/
def matchTerms (host : Host) (tree : WorkingTree) (statement : String) :
    List String → List Match → Except IntakeQuestion (List Match)
  | [], matched => .ok matched
  | term :: rest, matched =>
    match resolveCandidates host tree term with
    | ([], _) => matchTerms host tree statement rest matched
    | ([file], viaPath) => matchTerms host tree statement rest (matched ++ [⟨term, file, viaPath⟩])
    | (candidates, _) => .error {
        statement := statement
        reason := quoted term ++ " matches " ++ toString candidates.length ++
          " disjoint files in the working tree"
        candidates := candidates.map ([·]) }

/-- The finding of a statement whose first matched term is given. -/
def draft (host : Host) (options : Options) (statement : String) (first : Match) : DraftFinding :=
  let subject :=
    if first.viaPath then
      slugify host (String.ofList (removeAll (quoted first.term).toList 0 statement.toList))
    else first.term
  { file := first.file
    subject := subject
    requiredPaths := [first.file]
    confidence := if options.evidenceRefs = [] then "S" else "C+S"
    supersedesKey := options.supersedesKey.bind fun
      | [file, subject] => some (file, subject)
      | _ => none
    id := deriveId statement options.target first.file subject
    statement := statement
    category := options.target
    severity := options.severity
    requiresDisposition := options.requiresDisposition.getD (options.evidenceRefs = [])
    evidenceRefs := options.evidenceRefs
    sourceFindingIds := options.sourceFindingIds }

/-- `draft_finding`, behind the checks of its arguments. -/
def root (host : Host) (tree : WorkingTree) (options : Options) (statement : String) : Outcome :=
  let queries := extractQueries statement
  if queries = [] then
    .question ⟨statement, "no backtick-quoted term to search the working tree for", []⟩
  else
    match matchTerms host tree statement queries [] with
    | .error question => .question question
    | .ok [] => .question
        ⟨statement, "no file in the working tree matches any of " ++ listText queries, []⟩
    | .ok (first :: rest) =>
      let files := ((first :: rest).map (·.file)).dedup.insertionSort (· ≤ ·)
      if 1 < files.length then
        .question ⟨statement, "backtick-quoted terms " ++ listText ((first :: rest).map (·.term)) ++
          " resolve to " ++ toString files.length ++ " disjoint files in the working tree",
          files.map ([·])⟩
      else .finding (draft host options statement first)

/-- `draft_finding`. -/
def draftFinding (host : Host) (tree : WorkingTree) (options : Options) (statement : String) :
    Except String Outcome :=
  (checkArguments options statement).map fun _ => root host tree options statement

/-! ## Batches -/

/-- The arguments of a batch, by the index of the statement. -/
structure BatchOptions where
  target : String
  evidenceRefs : ℕ → List String := fun _ => []
  sourceFindingIds : ℕ → List String := fun _ => []
  requiresDisposition : ℕ → Option Bool := fun _ => none

def BatchOptions.at (options : BatchOptions) (index : ℕ) : Options where
  target := options.target
  evidenceRefs := options.evidenceRefs index
  sourceFindingIds := options.sourceFindingIds index
  requiresDisposition := options.requiresDisposition index

def draftFrom (host : Host) (tree : WorkingTree) (options : BatchOptions) :
    ℕ → List String → Dict Key ℕ → List DraftFinding → Except String (List DraftFinding)
  | _, [], _, drafted => .ok drafted
  | index, statement :: rest, seenKeys, drafted =>
    match draftFinding host tree (options.at index) statement with
    | .error message => .error message
    | .ok (.question question) => .error ("batch statement " ++ toString index ++
        " is ambiguous: " ++ question.reason ++ " ('" ++ statement ++ "')")
    | .ok (.finding result) =>
      match seenKeys.get? result.key with
      | some earlier => .error ("batch statement " ++ toString index ++ " derives the same key " ++
          keyText result.key ++ " as batch statement " ++ toString earlier ++
          "; merge the two operator statements before intake instead of silently dropping one ('" ++
          statement ++ "')")
      | none => draftFrom host tree options (index + 1) rest (seenKeys.set result.key index)
          (drafted ++ [result])

/-- `draft_findings_batch`. -/
def draftFindingsBatch (host : Host) (tree : WorkingTree) (options : BatchOptions)
    (statements : List String) : Except String (List DraftFinding) :=
  if statements = [] then .error "batch must contain at least one statement"
  else draftFrom host tree options 0 statements ∅ []

/-! ## Terms that resolve -/

variable {host : Host} {tree : WorkingTree} {options : Options} {statement term path : String}
  {f : DraftFinding}

theorem resolveCandidates_of_namesFile (h : tree.namesFile term = true) :
    resolveCandidates host tree term = ([term], true) := if_pos h

theorem mem_of_mem_matching {found : List Char → Bool} (h : path ∈ tree.matching found) :
    ∃ file ∈ tree.sources, file.path = path := by
  rw [WorkingTree.matching, mem_insertionSort, mem_map] at h
  obtain ⟨file, hfile, rfl⟩ := h
  exact ⟨file, (mem_filter.1 hfile).1, rfl⟩

/-- What a search finds is a normalized path. -/
theorem accepted_of_resolved (hsearch : tree.namesFile term = false)
    (h : path ∈ (resolveCandidates host tree term).1) : AcceptedPath path := by
  rw [resolveCandidates, if_neg (by simp [hsearch])] at h
  obtain ⟨file, -, rfl⟩ : ∃ file ∈ tree.sources, file.path = path := by
    dsimp only at h
    split_ifs at h
    · exact mem_of_mem_matching h
    · exact mem_of_mem_matching h
    · exact absurd h not_mem_nil
  exact file.accepted

theorem filled_of_mem_extractQueries (h : term ∈ extractQueries statement) :
    isBlank term = false := by
  rw [extractQueries, mem_eraseDups, mem_filter, mem_map] at h
  obtain ⟨⟨chars, -, rfl⟩, hne⟩ := h
  have hne : stripChars (·.isWhitespace) chars ≠ [] := by
    rintro heq
    simp [heq] at hne
  rw [isBlank, String.toList_ofList, all_eq_false]
  obtain ⟨c, rest, hreverse⟩ := exists_cons_of_ne_nil (mt reverse_eq_nil_iff.1 hne)
  refine ⟨c, mem_reverse.1 (hreverse ▸ mem_cons_self), ?_⟩
  rw [stripChars, reverse_reverse] at hreverse
  have hhead := head?_dropWhile_not (·.isWhitespace) (chars.dropWhile (·.isWhitespace)).reverse
  rw [hreverse] at hhead
  simpa using hhead

/-- The matches of a term. -/
def hits (host : Host) (tree : WorkingTree) (term : String) : List Match :=
  (resolveCandidates host tree term).1.map fun file =>
    ⟨term, file, (resolveCandidates host tree term).2⟩

theorem matchTerms_eq_ok_iff {terms : List String} {acc matched : List Match} :
    matchTerms host tree statement terms acc = .ok matched ↔
      (∀ term ∈ terms, (resolveCandidates host tree term).1.length ≤ 1) ∧
        matched = acc ++ terms.flatMap (hits host tree) := by
  induction terms generalizing acc with
  | nil => simp [matchTerms, eq_comm]
  | cons term rest ih =>
    rw [matchTerms, forall_mem_cons, flatMap_cons, hits]
    rcases resolveCandidates host tree term with ⟨_ | ⟨file, _ | ⟨other, files⟩⟩, viaPath⟩
    · simp [ih]
    · simp [ih]
    · simp

theorem mem_hits {m : Match} : m ∈ hits host tree term ↔ m.term = term ∧
    m.file ∈ (resolveCandidates host tree term).1 ∧
      m.viaPath = (resolveCandidates host tree term).2 := by
  simp only [hits, mem_map]
  constructor
  · rintro ⟨file, hfile, rfl⟩
    exact ⟨rfl, hfile, rfl⟩
  · rintro ⟨rfl, hfile, hvia⟩
    exact ⟨m.file, hfile, by rw [← hvia]⟩

theorem length_dedup_le_one {files : List String} :
    files.dedup.length ≤ 1 ↔ ∀ a ∈ files, ∀ b ∈ files, a = b := by
  rw [← List.card_toFinset, Finset.card_le_one]
  simp

/-- The statement has the finding of its first match, where the matches agree on the file. -/
theorem root_eq_finding_iff : root host tree options statement = .finding f ↔
    ∃ first rest, matchTerms host tree statement (extractQueries statement) [] =
        .ok (first :: rest) ∧
      (∀ m ∈ rest, m.file = first.file) ∧ f = draft host options statement first := by
  rw [root]
  dsimp only
  split_ifs with hqueries
  · simp [hqueries, matchTerms]
  rcases matchTerms host tree statement (extractQueries statement) [] with
    question | _ | ⟨first, rest⟩
  · simp
  · simp
  · have hagree : ¬ 1 < (((first :: rest).map (·.file)).dedup.insertionSort (· ≤ ·)).length ↔
        ∀ m ∈ rest, m.file = first.file := by
      rw [length_insertionSort, not_lt, length_dedup_le_one]
      simp only [mem_map, forall_exists_index, and_imp, forall_apply_eq_imp_iff₂]
      constructor
      · intro h m hm
        exact h m (mem_cons_of_mem _ hm) first mem_cons_self
      · intro h a ha b hb
        have hfirst : ∀ m ∈ first :: rest, m.file = first.file := forall_mem_cons.2 ⟨rfl, h⟩
        rw [hfirst a ha, hfirst b hb]
    dsimp only
    split_ifs with hmany
    · refine iff_of_false (by simp) ?_
      rintro ⟨_, _, hmatched, hsame, -⟩
      cases hmatched
      exact hagree.2 hsame hmany
    · constructor
      · intro h
        exact ⟨first, rest, rfl, hagree.1 hmany, (Outcome.finding.inj h).symm⟩
      · rintro ⟨_, _, hmatched, -, rfl⟩
        cases hmatched
        rfl

/-- The terms that mean a file mean the same file, and there is one. -/
structure Agree (host : Host) (tree : WorkingTree) (statement path : String) : Prop where
  someTerm : ∃ term ∈ extractQueries statement, (resolveCandidates host tree term).1 = [path]
  others : ∀ term ∈ extractQueries statement, (resolveCandidates host tree term).1 = [] ∨
    (resolveCandidates host tree term).1 = [path]

/-- A finding names the file that the terms agree on. -/
theorem agree_of_root (h : root host tree options statement = .finding f) :
    Agree host tree statement f.file := by
  obtain ⟨first, rest, hmatched, hsame, rfl⟩ := root_eq_finding_iff.1 h
  obtain ⟨hshort, hhits⟩ := matchTerms_eq_ok_iff.1 hmatched
  have hfile : ∀ m ∈ first :: rest, m.file = first.file := forall_mem_cons.2 ⟨rfl, hsame⟩
  have hothers : ∀ term ∈ extractQueries statement, (resolveCandidates host tree term).1 = [] ∨
      (resolveCandidates host tree term).1 = [first.file] := by
    intro term hterm
    match hfiles : (resolveCandidates host tree term).1 with
    | [] => exact .inl rfl
    | [file] =>
      have hm : (⟨term, file, (resolveCandidates host tree term).2⟩ : Match) ∈ first :: rest := by
        rw [hhits, nil_append, mem_flatMap]
        exact ⟨term, hterm, mem_hits.2 ⟨rfl, by simp [hfiles], rfl⟩⟩
      rw [← hfile _ hm]
      exact .inr rfl
    | _ :: _ :: _ =>
      have hlength := hshort term hterm
      simp [hfiles] at hlength
  refine ⟨?_, hothers⟩
  have hfirst : first ∈ (extractQueries statement).flatMap (hits host tree) := by
    rw [nil_append] at hhits
    exact hhits ▸ mem_cons_self
  obtain ⟨term, hterm, hm⟩ := mem_flatMap.1 hfirst
  refine ⟨term, hterm, (hothers term hterm).resolve_left fun hnone => ?_⟩
  have hmem := (mem_hits.1 hm).2.1
  rw [hnone] at hmem
  exact not_mem_nil hmem

/-- Terms that agree on a file give a finding that names it. -/
theorem Agree.root (h : Agree host tree statement path) (options : Options) :
    ∃ f, root host tree options statement = .finding f ∧ f.file = path := by
  have hshort : ∀ term ∈ extractQueries statement,
      (resolveCandidates host tree term).1.length ≤ 1 := by
    intro term hterm
    rcases h.others term hterm with hnone | hone
    · simp [hnone]
    · simp [hone]
  have hfile : ∀ m ∈ (extractQueries statement).flatMap (hits host tree), m.file = path := by
    intro m hm
    obtain ⟨term, hterm, hm⟩ := mem_flatMap.1 hm
    have hmem := (mem_hits.1 hm).2.1
    rcases h.others term hterm with hnone | hone
    · rw [hnone] at hmem
      exact absurd hmem not_mem_nil
    · rw [hone] at hmem
      exact mem_singleton.1 hmem
  obtain ⟨term, hterm, hone⟩ := h.someTerm
  have hmem : (⟨term, path, (resolveCandidates host tree term).2⟩ : Match) ∈
      (extractQueries statement).flatMap (hits host tree) :=
    mem_flatMap.2 ⟨term, hterm, mem_hits.2 ⟨rfl, by simp [hone], rfl⟩⟩
  obtain ⟨first, rest, hmatches⟩ := exists_cons_of_ne_nil (ne_nil_of_mem hmem)
  rw [hmatches] at hfile
  obtain ⟨hfirst, hrest⟩ := forall_mem_cons.1 hfile
  exact ⟨draft host options statement first, root_eq_finding_iff.2 ⟨first, rest,
    matchTerms_eq_ok_iff.2 ⟨hshort, hmatches.symm⟩,
    fun m hm => (hrest m hm).trans hfirst.symm, rfl⟩, hfirst⟩

/-! ## What the ledger takes -/

structure DraftFinding.Valid (f : DraftFinding) : Prop where
  file : isBlank f.file = false
  subject : isBlank f.subject = false
  requiredPaths : f.requiredPaths = [f.file]
  confidence : f.confidence ∈ ["C", "S", "C+S"]
  supersedesKey : ∀ key, f.supersedesKey = some key → isBlank key.1 = false ∧ isBlank key.2 = false
  id : isBlank f.id = false
  statement : isBlank f.statement = false
  category : isBlank f.category = false
  severity : ∀ word, f.severity = some word → word ∈ findingSeverities
  evidenceRefs : allFilled f.evidenceRefs = true
  sourceFindingIds : allFilled f.sourceFindingIds = true

section

open Convergence

variable {value message : String}

theorem requireText_str (h : isBlank value = false) :
    requireText (.str value) message = .ok value := by
  simp [requireText, nonBlankText, h]

theorem optionalText_str (h : isBlank value = false) :
    Convergence.optionalText (.str value) message = .ok (some value) := by
  simp [Convergence.optionalText, requireText_str h, Except.map]

theorem texts?_texts {values : List String} (h : allFilled values = true) :
    texts? (texts values) = some values :=
  HarnessLabs.Controller.mapM_nonBlankText fun v hv => by simpa using all_eq_true.1 h v hv

theorem optionalTexts_texts {values : List String} (h : allFilled values = true) :
    optionalTexts (texts values) message = .ok values := by
  rw [optionalTexts, if_neg (by simp [texts]), requireTexts, texts?_texts h]

theorem validateFinding_toEnvelope (h : f.Valid) :
    validateFinding f.toEnvelope = .ok f.recorded := by
  have hpaths : requireTexts (texts f.requiredPaths)
      "finding is missing non-empty 'required_paths'" = .ok f.requiredPaths := by
    rw [requireTexts, texts?_texts (by simp [allFilled, h.requiredPaths, h.file])]
  have hconfidence : validateConfidence (.str f.confidence) = .ok (some f.confidence) :=
    if_pos h.confidence
  have hkey : validateSupersedesKey
      ((f.supersedesKey.map fun key => texts [key.1, key.2]).getD .null) = .ok f.supersedesKey := by
    cases hkey : f.supersedesKey with
    | none => rfl
    | some key =>
      obtain ⟨hfile, hsubject⟩ := h.supersedesKey key hkey
      simp [validateSupersedesKey, texts, validateKey, hfile, hsubject, Except.map]
  have hseverity : validateSeverity ((f.severity.map .str).getD .null) = .ok f.severity := by
    cases hword : f.severity with
    | none => rfl
    | some word =>
      simp [validateSeverity, inWords, h.severity word hword, bind, Except.bind, Json.asStr?]
      rfl
  refine bind_eq_ok.2 ⟨(), rfl, bind_eq_ok.2 ⟨_, requireText_str h.file, ?_⟩⟩
  refine bind_eq_ok.2 ⟨_, requireText_str h.subject, bind_eq_ok.2 ⟨_, hpaths, ?_⟩⟩
  refine bind_eq_ok.2 ⟨(), require_eq_ok.2 (by simp [h.requiredPaths]), ?_⟩
  refine bind_eq_ok.2 ⟨(), require_eq_ok.2 (by simp [h.requiredPaths]), ?_⟩
  refine bind_eq_ok.2 ⟨_, hconfidence, bind_eq_ok.2 ⟨_, hkey, ?_⟩⟩
  refine bind_eq_ok.2 ⟨_, optionalText_str h.id, bind_eq_ok.2 ⟨_, optionalText_str h.statement, ?_⟩⟩
  refine bind_eq_ok.2 ⟨_, optionalText_str h.category, bind_eq_ok.2 ⟨_, hseverity, ?_⟩⟩
  refine bind_eq_ok.2 ⟨_, rfl, bind_eq_ok.2 ⟨_, optionalTexts_texts h.evidenceRefs, ?_⟩⟩
  exact bind_eq_ok.2 ⟨_, optionalTexts_texts h.sourceFindingIds, rfl⟩

/-- The audit of a sealed list of findings. -/
def audited (digest : String) (findings : List DraftFinding) : AuditResult where
  digest := digest
  findings := findings.map (·.recorded)
  verdicts := []
  confirmedGood := []
  captureCoverage := ∅

/-- The ledger takes the findings as they are, on any journal it can read. -/
def Accepted (findings : List DraftFinding) : Prop :=
  ∀ digest, isBlank digest = false →
    validateAudit (auditEnvelope digest findings) = .ok (audited digest findings) ∧
      ∀ journal s, fold journal = .ok s →
        (ingestAudit journal (auditEnvelope digest findings)).isOk

theorem accepted_of_valid {findings : List DraftFinding} (h : ∀ f ∈ findings, f.Valid) :
    Accepted findings := by
  intro digest hdigest
  have hfindings : (findings.map (·.toEnvelope)).mapM validateFinding =
      .ok (findings.map (·.recorded)) := by
    rw [mapM_map]
    exact mapM_eq_ok_map fun f hf => validateFinding_toEnvelope (h f hf)
  have hvalid : validateAudit (auditEnvelope digest findings) = .ok (audited digest findings) :=
    validateAudit_eq_ok_iff.2 ⟨rfl, requireText_str hdigest, ⟨_, rfl, hfindings⟩, ⟨[], rfl, rfl⟩,
      ⟨[], rfl, rfl⟩, ⟨[], rfl, rfl⟩⟩
  refine ⟨hvalid, fun journal s hfold => ?_⟩
  rw [ingestAudit, hvalid]
  simp only [bind, Except.bind, hfold, State.ingest]
  split_ifs
  · rfl
  · rfl

end

/-! ## A drafted finding is one that the ledger takes -/

theorem isWhitespace_of_isAlphanum {c : Char} (h : c.isAlphanum = true) :
    c.isWhitespace = false := by
  by_contra hspace
  have hcases : c = ' ' ∨ c = '\t' ∨ c = '\r' ∨ c = '\n' := by
    rw [Bool.not_eq_false, Char.isWhitespace] at hspace
    simpa only [Bool.or_eq_true, decide_eq_true_eq, or_assoc] using hspace
  rcases hcases with rfl | rfl | rfl | rfl <;> exact absurd h (by decide)

theorem isBlank_slugify (text : String) : isBlank (slugify host text) = false := by
  rw [slugify]
  split_ifs with hwords
  · rfl
  obtain ⟨word, rest, hwords⟩ := exists_cons_of_ne_nil hwords
  have hword := hwords ▸ mem_cons_self (a := word) (l := rest)
  obtain ⟨hpart, hne⟩ := mem_filter.1 hword
  obtain ⟨c, chars, rfl⟩ := exists_cons_of_ne_nil (by simpa using hne)
  have hc := eq_false_of_mem_splitOnP hpart mem_cons_self
  have hspace : c.isWhitespace = false := isWhitespace_of_isAlphanum (by simpa using hc)
  rw [hwords, isBlank, String.toList_ofList, all_eq_false]
  refine ⟨c, ?_, by simp [hspace]⟩
  rw [take_succ_cons]
  cases rest.take 7 with
  | nil => simp
  | cons next others => simp [intercalate_cons_cons]

theorem checkArguments_eq_ok_iff : checkArguments options statement = .ok () ↔
    isBlank statement = false ∧ isBlank options.target = false ∧
      (options.severity.all (· ∈ findingSeverities)) = true ∧
      allFilled options.evidenceRefs = true ∧ allFilled options.sourceFindingIds = true ∧
      (options.supersedesKey.all fun key => key.length = 2 && allFilled key) = true := by
  simp only [checkArguments, Audit.require_bind_eq_ok, require_eq_ok]

/-- What the intake drafts, the ledger takes. -/
theorem valid_of_draftFinding
    (h : draftFinding host tree options statement = .ok (.finding f)) : f.Valid := by
  obtain ⟨⟨⟩, hcheck, hroot⟩ := Audit.map_eq_ok.1 h
  obtain ⟨hstatement, htarget, hseverity, hrefs, hids, hsupersedes⟩ :=
    checkArguments_eq_ok_iff.1 hcheck
  obtain ⟨first, rest, hmatched, -, rfl⟩ := root_eq_finding_iff.1 hroot
  have hmem : first ∈ (extractQueries statement).flatMap (hits host tree) := by
    have hhits := (matchTerms_eq_ok_iff.1 hmatched).2
    rw [nil_append] at hhits
    exact hhits ▸ mem_cons_self
  obtain ⟨term, hquery, hm⟩ := mem_flatMap.1 hmem
  obtain ⟨rfl, hfile, -⟩ := mem_hits.1 hm
  have hterm := filled_of_mem_extractQueries hquery
  refine {
    file := ?_
    subject := ?_
    requiredPaths := rfl
    confidence := ?_
    supersedesKey := ?_
    id := isBlank_append rfl _
    statement := hstatement
    category := htarget
    severity := fun word hword => ?_
    evidenceRefs := hrefs
    sourceFindingIds := hids }
  · cases hnamed : tree.namesFile first.term with
    | true =>
      rw [resolveCandidates_of_namesFile hnamed, mem_singleton] at hfile
      rw [← hfile] at hterm
      exact hterm
    | false => exact (accepted_of_resolved hnamed hfile).normal.filled
  · rw [draft]
    dsimp only
    split_ifs
    · exact isBlank_slugify _
    · exact hterm
  · rw [draft]
    dsimp only
    split_ifs <;> decide
  · intro key hkey
    obtain ⟨pair, hpair, hkey⟩ := Option.bind_eq_some_iff.1 hkey
    rw [hpair] at hsupersedes
    split at hkey
    · cases hkey
      simpa [allFilled] using hsupersedes
    · cases hkey
  · rw [show options.severity = some word from hword] at hseverity
    simpa using hseverity

/-! ## The intake does not guess -/

/-- A finding has a file that every term means, and the file is a normalized path. -/
structure Rooted (host : Host) (tree : WorkingTree) (statement : String) (f : DraftFinding) :
    Prop where
  terms : ∀ term ∈ extractQueries statement, (resolveCandidates host tree term).1 = [f.file]
  normalized : ∀ field, normalizeRepositoryPath (.str f.file) field = .ok f.file
  requiredPaths : f.requiredPaths = [f.file]

/-- The intake of a statement ends with a question, or with a finding that is rooted and that the
ledger takes as it is. -/
def NeverGuesses (host : Host) (tree : WorkingTree) (options : Options) (statement : String) :
    Prop :=
  ∃ outcome, draftFinding host tree options statement = .ok outcome ∧
    ∀ f, outcome = .finding f → Rooted host tree statement f ∧ Accepted [f]

/-- Whenever the terms agree on a file, they all mean it, and a quoted path is normalized. -/
def AllMeant (host : Host) (tree : WorkingTree) (statement : String) : Prop :=
  ∀ path, Agree host tree statement path → ∀ term ∈ extractQueries statement,
    (resolveCandidates host tree term).1 ≠ [] ∧ (tree.namesFile term = true → AcceptedPath term)

theorem normalize_of_accepted (h : AcceptedPath path) (field : String) :
    normalizeRepositoryPath (.str path) field = .ok path := by
  have hnormal := h.normal
  obtain ⟨other, hok⟩ := h
  unfold normalizeRepositoryPath at hok ⊢
  dsimp only at hok ⊢
  split_ifs at hok ⊢
  · exact nomatch hok
  · exact nomatch hok
  · exact nomatch hok
  · rw [hnormal.asPosix_eq]

theorem rooted_iff (hroot : root host tree options statement = .finding f) :
    Rooted host tree statement f ↔ ∀ term ∈ extractQueries statement,
      (resolveCandidates host tree term).1 ≠ [] ∧
        (tree.namesFile term = true → AcceptedPath term) := by
  have hagree := agree_of_root hroot
  constructor
  · intro h term hterm
    refine ⟨by simp [h.terms term hterm], fun hnamed => ?_⟩
    have hmeant := h.terms term hterm
    rw [resolveCandidates_of_namesFile hnamed] at hmeant
    rw [(cons.inj hmeant).1]
    exact ⟨"file", by rw [h.normalized]; rfl⟩
  · intro h
    have hterms : ∀ term ∈ extractQueries statement,
        (resolveCandidates host tree term).1 = [f.file] := fun term hterm =>
      (hagree.others term hterm).resolve_left (h term hterm).1
    obtain ⟨term, hterm, hone⟩ := hagree.someTerm
    have haccepted : AcceptedPath f.file := by
      cases hnamed : tree.namesFile term with
      | true =>
        have hmeant := hone
        rw [resolveCandidates_of_namesFile hnamed] at hmeant
        rw [← (cons.inj hmeant).1]
        exact (h term hterm).2 hnamed
      | false => exact accepted_of_resolved hnamed (by rw [hone]; exact mem_singleton_self _)
    obtain ⟨first, rest, -, -, rfl⟩ := root_eq_finding_iff.1 hroot
    exact ⟨hterms, normalize_of_accepted haccepted, rfl⟩

/-! ## Batches -/

/-- The findings so far, one for each statement, with keys that have all been seen. -/
structure Drafted (statements : List String) (seenKeys : Dict Key ℕ)
    (drafted : List DraftFinding) : Prop where
  statements : drafted.map (·.statement) = statements
  valid : ∀ f ∈ drafted, f.Valid
  keys : (drafted.map (·.key)).Nodup
  seen : ∀ f ∈ drafted, (seenKeys.get? f.key).isSome

theorem Drafted.draftFrom {batch : BatchOptions} {index : ℕ} {done rest : List String}
    {seenKeys : Dict Key ℕ} {drafted findings : List DraftFinding}
    (h : Drafted done seenKeys drafted)
    (hdraft : draftFrom host tree batch index rest seenKeys drafted = .ok findings) :
    ∃ seenKeys, Drafted (done ++ rest) seenKeys findings := by
  induction rest generalizing index done seenKeys drafted with
  | nil =>
    cases hdraft
    exact ⟨seenKeys, by rwa [append_nil]⟩
  | cons statement rest ih =>
    rw [Intake.draftFrom] at hdraft
    rcases hresult : draftFinding host tree (batch.at index) statement with message | question | f
    · simp [hresult] at hdraft
    · simp [hresult] at hdraft
    rw [hresult] at hdraft
    dsimp only at hdraft
    cases hseen : seenKeys.get? f.key with
    | some earlier => simp [hseen] at hdraft
    | none =>
      rw [hseen] at hdraft
      obtain ⟨-, -, hroot⟩ := Audit.map_eq_ok.1 hresult
      obtain ⟨first, others, -, -, hf⟩ := root_eq_finding_iff.1 hroot
      have hstatement : f.statement = statement := by rw [hf]; rfl
      have hfresh : ∀ g ∈ drafted, g.key ≠ f.key := by
        intro g hg heq
        have hknown := h.seen g hg
        rw [heq, hseen] at hknown
        cases hknown
      have hnext : Drafted (done ++ [statement]) (seenKeys.set f.key index) (drafted ++ [f]) := by
        refine ⟨by simp [h.statements, hstatement], ?_, ?_, ?_⟩
        · exact forall_mem_append.2 ⟨h.valid, by simpa using valid_of_draftFinding hresult⟩
        · rw [map_append, nodup_append]
          refine ⟨h.keys, nodup_singleton _, fun a ha b hb => ?_⟩
          obtain ⟨g, hg, rfl⟩ := mem_map.1 ha
          rw [mem_singleton.1 hb]
          exact hfresh g hg
        · refine forall_mem_append.2 ⟨fun g hg => ?_, by simp⟩
          rw [Dict.get?_set_ne _ _ (hfresh g hg)]
          exact h.seen g hg
      simpa using ih hnext hdraft

/-- **The intake never guesses exactly where** its arguments pass their checks, every term means the
file that the terms agree on, and a quoted path is normalized. A batch that returns has one finding
for each statement, with distinct keys, and the ledger takes it as it is. -/
theorem neverGuesses_iff (host : Host) (tree : WorkingTree) (options : Options)
    (statement : String) :
    (NeverGuesses host tree options statement ↔
      checkArguments options statement = .ok () ∧ AllMeant host tree statement) ∧
    ∀ batch statements findings, draftFindingsBatch host tree batch statements = .ok findings →
      findings.map (·.statement) = statements ∧ (findings.map (·.key)).Nodup ∧
        Accepted findings := by
  refine ⟨⟨?_, ?_⟩, ?_⟩
  · rintro ⟨outcome, hdraft, hfinding⟩
    obtain ⟨⟨⟩, hcheck, rfl⟩ := Audit.map_eq_ok.1 hdraft
    refine ⟨hcheck, fun path hagree => ?_⟩
    obtain ⟨f, hroot, rfl⟩ := hagree.root options
    exact (rooted_iff hroot).1 (hfinding f hroot).1
  · rintro ⟨hcheck, hmeant⟩
    have hdraft : draftFinding host tree options statement =
        .ok (root host tree options statement) := by
      rw [draftFinding, hcheck]
      rfl
    refine ⟨_, hdraft, fun f hroot => ⟨?_, accepted_of_valid ?_⟩⟩
    · exact (rooted_iff hroot).2 (hmeant f.file (agree_of_root hroot))
    · intro g hg
      rw [mem_singleton.1 hg]
      exact valid_of_draftFinding (hroot ▸ hdraft)
  · intro batch statements findings hbatch
    rw [draftFindingsBatch] at hbatch
    split_ifs at hbatch
    obtain ⟨_, hdrafted⟩ := Drafted.draftFrom
      ⟨rfl, forall_mem_nil _, nodup_nil, forall_mem_nil _⟩ hbatch
    exact ⟨hdrafted.statements, hdrafted.keys, accepted_of_valid hdrafted.valid⟩

/-! ## A term that means nothing, and a path with a dot -/

def asciiHost : Host where
  isWord c := c.isAlphanum || c = '_'
  lower text := String.ofList (text.toList.map Char.toLower)

/-- One file that defines nothing, and the spellings of its path that occur below. -/
def plainTree : WorkingTree where
  files := [⟨"a.py", "x = 1\n", "file", by decide +kernel⟩]
  isFile path := path ∈ ["a.py", "./a.py"]

def unmatched : DraftFinding where
  file := "a.py"
  subject := "lacks-retry-limit"
  requiredPaths := ["a.py"]
  confidence := "S"
  supersedesKey := none
  id := "fi-9e00ffe2e2dd627b"
  statement := "`a.py` lacks `retry_limit`"
  category := "core"
  severity := some "major"
  requiresDisposition := true
  evidenceRefs := []
  sourceFindingIds := []

def dotted : DraftFinding :=
  { unmatched with
    file := "./a.py"
    subject := "has-no-limit"
    requiredPaths := ["./a.py"]
    id := "fi-22448083238642b1"
    statement := "`./a.py` has no limit" }

theorem skips_unmatched_term :
    (draftFinding asciiHost plainTree ⟨"core", [], some "major", none, [], none⟩
        unmatched.statement = .ok (.finding unmatched) ∧
      ¬ NeverGuesses asciiHost plainTree ⟨"core", [], some "major", none, [], none⟩
        unmatched.statement) ∧
    draftFinding asciiHost plainTree ⟨"core", [], some "major", none, [], none⟩
        dotted.statement = .ok (.finding dotted) ∧
      ¬ NeverGuesses asciiHost plainTree ⟨"core", [], some "major", none, [], none⟩
        dotted.statement := by
  have hunmatched : draftFinding asciiHost plainTree ⟨"core", [], some "major", none, [], none⟩
      unmatched.statement = .ok (.finding unmatched) := by decide +kernel
  have hdotted : draftFinding asciiHost plainTree ⟨"core", [], some "major", none, [], none⟩
      dotted.statement = .ok (.finding dotted) := by decide +kernel
  refine ⟨⟨hunmatched, ?_⟩, hdotted, ?_⟩
  · rintro ⟨outcome, hdraft, hfinding⟩
    cases hunmatched.symm.trans hdraft
    have hmeant := (hfinding unmatched rfl).1.terms "retry_limit" (by decide +kernel)
    exact absurd hmeant (by decide +kernel)
  · rintro ⟨outcome, hdraft, hfinding⟩
    cases hdotted.symm.trans hdraft
    exact absurd ((hfinding dotted rfl).1.normalized "file") (by decide +kernel)

end HarnessLabs.PlanGraph.Intake
