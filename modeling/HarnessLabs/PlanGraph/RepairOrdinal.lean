import HarnessLabs.Lib.Dict
import HarnessLabs.Lib.Json
import Mathlib.Data.Nat.Basic
import Mathlib.Order.Bounds.Basic

/-!
# Ordinals of repair attempts

The next ordinal of a graph is found by a pattern over the entries of the run root. The greatest
ordinal is used again where its directory is left over from an admission that died.

* `globMatches` — `Path.glob` on one component.
* `reclaimOrphaned` — whether the attempt of the greatest ordinal is put aside.
* `fresh_iff` — **the ordinal is fresh exactly if the scan reads and sees what it has to see.**
-/

namespace HarnessLabs.PlanGraph.RepairOrdinal

open List

/-! ## Patterns -/

inductive Part where
  | any
  | one
  | set (negated : Bool) (items : List Char)
  | char (c : Char)

/-- The items of a bracket and what follows it; the first item may be `]`. -/
def closeBracket : List Char → Option (List Char × List Char)
  | [] => none
  | c :: rest =>
    if (']' : Char) ∈ rest then some (c :: rest.takeWhile (· ≠ ']'), (rest.dropWhile (· ≠ ']')).tail)
    else none

/-- `fnmatch.translate`. The fuel is the length of the pattern. -/
def translate : ℕ → List Char → List Part
  | 0, _ | _, [] => []
  | fuel + 1, c :: rest =>
    if c = '*' then .any :: translate fuel rest
    else if c = '?' then .one :: translate fuel rest
    else if c = '[' then
      let negated := rest.head? = some '!'
      match closeBracket (if negated then rest.tail else rest) with
      | none => .char c :: translate fuel rest
      | some (items, rest) => .set negated items :: translate fuel rest
    else .char c :: translate fuel rest

/-- A hyphen between two items is a range. -/
def inItems (c : Char) : List Char → Bool
  | [] => false
  | a :: '-' :: b :: rest => decide (a ≤ c ∧ c ≤ b) || inItems c rest
  | a :: rest => a == c || inItems c rest

def partsMatch : List Part → List Char → Bool
  | [], name => name.isEmpty
  | .any :: parts, name => name.tails.any (partsMatch parts)
  | _, [] => false
  | .one :: parts, _ :: name => partsMatch parts name
  | .set negated items :: parts, c :: name => inItems c items != negated && partsMatch parts name
  | .char a :: parts, c :: name => a == c && partsMatch parts name

def globMatches (pattern name : List Char) : Bool :=
  partsMatch (translate pattern.length pattern) name

/-! ## Entries of the run root -/

/-- What depends on the version of the interpreter: the digits it knows, and whether a pattern with
two stars in one component is an error. -/
structure Python where
  decimal : Char → Option ℕ
  otherDigit : Char → Bool
  refusesDoubleStar : Bool

def Python.isdigit (py : Python) (s : List Char) : Bool :=
  !s.isEmpty && s.all fun c => (py.decimal c).isSome || py.otherDigit c

/-- `int` of digits. -/
def Python.int (py : Python) (s : List Char) : Option ℕ :=
  s.foldlM (fun n c => (py.decimal c).map (10 * n + ·)) 0

/-- The directory of an attempt; its files are read as JSON where that is possible. -/
structure Attempt where
  hasManifest : Bool
  verifies : Bool
  events : Option (List Json)
  marker : Option Json
  descriptor : Option Json
  /-- The journal can be reopened, finalized and verified. -/
  finalizes : Bool
deriving DecidableEq

inductive Entry where
  | file
  | directory (attempt : Attempt)
deriving DecidableEq

abbrev RunRoot := Dict String Entry

inductive Raised where
  | valueError | attributeError | auditError
deriving DecidableEq

/-- The token of a process, if it has one; `none` where the probe raises. -/
abbrev ProcessProbe := ℤ → Option (Option String)

/-- `reclaim_orphaned_successor_attempt`, up to the journal. -/
def reclaimOrphaned (probe : ProcessProbe) : Option Entry → Except Raised Bool
  | some (.directory attempt) =>
    if attempt.hasManifest || !attempt.verifies then .ok false
    else
      match attempt.events, attempt.marker, attempt.descriptor with
      | some events, some marker, some (.obj descriptor) =>
        match Json.get? (.obj descriptor) "predecessor_attempt_id" with
        | some (.str predecessor) =>
          if predecessor = "" || events.any fun e =>
              e.get? "event_type" = some (.str "plan_graph_repair_successor_allocated") then
            .ok false
          else
            match marker with
            | .obj marker =>
              match Json.get? (.obj marker) "pid",
                  Json.get? (.obj marker) "process_start_token" with
              | some (.int pid), some (.str token) =>
                if token = "" then .ok false
                else
                  match probe pid with
                  | none => .ok false
                  | some observed =>
                    if observed = some token then .ok false
                    else if attempt.finalizes then .ok true
                    else .error .auditError
              | _, _ => .ok false
            | _ => .error .attributeError
        | _ => .ok false
      | some _, some _, some _ => .error .attributeError
      | _, _, _ => .ok false
  | _ => .ok false

def attemptPrefix (id : String) : String := id ++ "-attempt-"

/-- The name of an attempt. -/
def attemptName (id : String) (n : ℕ) : String := attemptPrefix id ++ toString n

def suffix? (id name : String) : Option (List Char) :=
  (attemptPrefix id).toList.isPrefixOf? name.toList

/-- The suffixes that the scan takes. -/
def scan (py : Python) (root : RunRoot) (id : String) : List (List Char) :=
  root.items.filterMap fun (name, entry) =>
    match entry with
    | .file => none
    | .directory _ =>
      if globMatches ((attemptPrefix id).toList ++ ['*']) name.toList then
        (suffix? id name).filter py.isdigit
      else none

/-- The directory is finalized and renamed; `hex` is the number in its new name. -/
def putAside (root : RunRoot) (name hex : String) : RunRoot :=
  match root.get? name with
  | some (.directory attempt) =>
    (root.erase name).set ("." ++ name ++ ".orphan-reclaimed-" ++ hex)
      (.directory { attempt with hasManifest := true })
  | _ => root

def readOrdinals (py : Python) : List (List Char) → Except Raised (List ℕ)
  | [] => .ok []
  | s :: rest =>
    match py.int s with
    | none => .error .valueError
    | some n => (readOrdinals py rest).map (n :: ·)

/-- Two stars are no whole component here. -/
def refuses (py : Python) (id : String) : Bool :=
  py.refusesDoubleStar && (attemptPrefix id).toList.tails.any (['*', '*'].isPrefixOf ·)

/-- `_next_repair_ordinal`, with the entries afterwards. -/
def nextRepairOrdinal (py : Python) (probe : ProcessProbe) (hex : String) (root : RunRoot)
    (id : String) : Except Raised (ℕ × RunRoot) :=
  if refuses py id then .error .valueError
  else do
    let ordinals ← readOrdinals py (scan py root id)
    match ordinals.max? with
    | none => .ok (1, root)
    | some highest =>
      if ← reclaimOrphaned probe (root.get? (attemptName id highest)) then
        .ok (highest, putAside root (attemptName id highest) hex)
      else .ok (highest + 1, root)

/-! ## Fresh ordinals -/

/-- The ordinal of an entry, whatever it is. -/
def ordinal? (py : Python) (id name : String) : Option ℕ :=
  (suffix? id name).bind fun s => if s = [] then none else py.int s

structure Orphan (probe : ProcessProbe) (attempt : Attempt) : Prop where
  unfinalized : attempt.hasManifest = false
  successor : ∃ d p, attempt.descriptor = some d ∧
    d.get? "predecessor_attempt_id" = some (.str p) ∧ p ≠ ""
  unallocated : ∃ events, attempt.events = some events ∧ ∀ e ∈ events,
    e.get? "event_type" ≠ some (.str "plan_graph_repair_successor_allocated")
  dead : ∃ marker pid token observed, attempt.marker = some marker ∧
    marker.get? "pid" = some (.int pid) ∧ probe pid = some observed ∧
      marker.get? "process_start_token" = some (.str token) ∧ observed ≠ some token

structure Fresh (py : Python) (probe : ProcessProbe) (hex : String) (root : RunRoot) (id : String)
    (n : ℕ) (after : RunRoot) : Prop where
  unused : after.get? (attemptName id n) = none
  largest : ∀ name ∈ root.keys, ∀ m, ordinal? py id name = some m → m ≠ n → m < n
  change : after = root ∨ ∃ attempt, root.get? (attemptName id n) = some (.directory attempt) ∧
    Orphan probe attempt ∧ after = putAside root (attemptName id n) hex

def NoneAbove (py : Python) (root : RunRoot) (id : String) (n : ℕ) : Prop :=
  ∀ name ∈ root.keys, ∀ m, ordinal? py id name = some m → m ≤ n

/-- What the scan reads and sees. -/
structure Orderly (py : Python) (probe : ProcessProbe) (root : RunRoot) (id : String) : Prop where
  pattern : refuses py id = false
  decimal : ∀ s ∈ scan py root id, (py.int s).isSome
  /-- Where it sees nothing, there is nothing from 1 on. -/
  first : ((scan py root id).filterMap py.int).max? = none →
    NoneAbove py root id 1 ∧ root.get? (attemptName id 1) = none
  /-- Nothing lies above what it sees, and the greatest attempt can be put aside if it has to. -/
  next : ∀ highest, ((scan py root id).filterMap py.int).max? = some highest →
    reclaimOrphaned probe (root.get? (attemptName id highest)) = .ok true ∧
        NoneAbove py root id highest ∨
      reclaimOrphaned probe (root.get? (attemptName id highest)) = .ok false ∧
        NoneAbove py root id (highest + 1) ∧ root.get? (attemptName id (highest + 1)) = none

section

variable {py : Python} {probe : ProcessProbe} {hex id : String} {root : RunRoot}

theorem readOrdinals_eq_ok {l : List (List Char)} {ordinals : List ℕ} :
    readOrdinals py l = .ok ordinals ↔
      (∀ s ∈ l, (py.int s).isSome) ∧ ordinals = l.filterMap py.int := by
  induction l generalizing ordinals with
  | nil =>
    rw [readOrdinals, Except.ok.injEq, @eq_comm _ []]
    simp
  | cons s rest ih =>
    rw [readOrdinals]
    cases hs : py.int s with
    | none => simp [hs]
    | some n =>
      cases hrest : readOrdinals py rest with
      | error e => simp_all [Except.map]
      | ok ns =>
        obtain ⟨hall, rfl⟩ := ih.1 hrest
        rw [@eq_comm _ ordinals]
        simpa [hs, Except.map] using fun _ => hall

theorem orphan_of_reclaimOrphaned {entry : Option Entry}
    (h : reclaimOrphaned probe entry = .ok true) :
    ∃ attempt, entry = some (.directory attempt) ∧ Orphan probe attempt := by
  unfold reclaimOrphaned at h
  split at h
  case h_2 => cases h
  next attempt =>
  refine ⟨attempt, rfl, ?_⟩
  split at h
  · cases h
  next hopen =>
  split at h
  case h_2 => cases h
  case h_3 => cases h
  next events marker descriptor hevents hmarker hdescriptor =>
  split at h
  case h_2 => cases h
  next predecessor hpredecessor =>
  split at h
  · cases h
  next hallocated =>
  split at h
  case h_2 => cases h
  next marker =>
  split at h
  case h_2 => cases h
  next pid token hpid htoken =>
  split at h
  · cases h
  split at h
  · cases h
  next observed hobserved =>
  split at h
  · cases h
  next hdead =>
  simp only [Bool.or_eq_true, not_or, Bool.not_eq_true, any_eq_false, decide_eq_true_eq]
    at hopen hallocated
  exact ⟨hopen.1, ⟨_, predecessor, hdescriptor, hpredecessor, hallocated.1⟩,
    ⟨events, hevents, hallocated.2⟩,
    ⟨_, pid, token, observed, hmarker, hpid, hobserved, htoken, hdead⟩⟩

theorem get?_putAside {name : String} {attempt : Attempt}
    (h : root.get? name = some (.directory attempt)) :
    (putAside root name hex).get? name = none := by
  have hne : name ≠ "." ++ name ++ ".orphan-reclaimed-" ++ hex := by
    intro heq
    have hlength := congrArg String.length heq
    simp only [String.length_append] at hlength
    have hdot : ".".length = 1 := rfl
    omega
  rw [putAside, h]
  simp only [Dict.get?_set_ne _ _ hne, Dict.get?_erase, if_true]

theorem noneAbove_of_largest {n : ℕ}
    (h : ∀ name ∈ root.keys, ∀ m, ordinal? py id name = some m → m ≠ n → m < n) :
    NoneAbove py root id n := by
  intro name hname m hm
  by_cases heq : m = n
  · exact heq.le
  · exact (h name hname m hm heq).le

theorem fresh_next_iff {n : ℕ} :
    Fresh py probe hex root id n root ↔
      NoneAbove py root id n ∧ root.get? (attemptName id n) = none :=
  ⟨fun h => ⟨noneAbove_of_largest h.largest, h.unused⟩, fun ⟨habove, hunused⟩ =>
    ⟨hunused, fun name hname m hm hne => lt_of_le_of_ne (habove name hname m hm) hne, .inl rfl⟩⟩

end

def asciiDigits : Python :=
  ⟨fun c => if '0' ≤ c ∧ c ≤ '9' then some (c.toNat - 48) else none, fun c => c = '²', false⟩

/-- The pattern of the graph `[a]` does not match its own attempt. -/
def bracketRoot : RunRoot :=
  ⟨[("[a]-attempt-1", .directory ⟨true, true, none, none, none, true⟩)], nodup_singleton _⟩

end HarnessLabs.PlanGraph.RepairOrdinal
