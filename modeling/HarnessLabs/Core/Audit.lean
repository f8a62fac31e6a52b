import HarnessLabs.Lib.Dict
import HarnessLabs.Lib.Lines
import HarnessLabs.Lib.Sha256

/-!
# The audit journal

The events of an audit journal: each names its place and the hash of the one before it, and is
sealed by the hash of its own canonical text. `verifyEventJournal` reads the file line by line and
checks both.

* `AuditEvent.value` — the event as it is written.
* `verifyEventJournal` — the verification of the file.
* `verifyEventJournal_eq_ok` — **the verification accepts an appended list exactly when every
  event meets the schema and its artifacts are there.**
-/

namespace HarnessLabs.Audit

open Lines List

def auditProtocol : String := "harness-audit-event/1"

/-- `_TERMINAL`. -/
def terminalStatuses : List String := ["succeeded", "failed", "blocked", "interrupted"]

def evidenceClasses : List String :=
  ["production_lifecycle", "component", "synthetic", "fabricated_fixture"]

/-! ## Events -/

structure AuditActor where
  id : String
  role : String
  parentId : Option String := none
  deriving DecidableEq

structure AuditArtifact where
  path : String
  sha256 : String
  sizeBytes : ℕ
  mediaType : String
  evidenceClassification : String
  deriving DecidableEq

/-- A mapping of a payload: its members in key order, at every depth. -/
abbrev Payload := {members : List (String × Json) // Json.Keyed (.obj members)}

/-- What `append` is called with, and the clocks' readings at that moment. -/
structure Draft where
  eventType : String
  status : String
  payload : Payload
  actor : AuditActor
  attemptId : Option String := none
  parentAttemptId : Option String := none
  sessionId : Option String := none
  backendId : Option String := none
  durationMs : Option ℤ := none
  artifacts : List AuditArtifact := []
  timestamp : String
  monotonicNs : ℕ

structure AuditEvent extends Draft where
  runId : String
  evidenceClassification : String
  sequence : ℕ
  previousHash : Option String

def textOrNull : Option String → Json
  | none => .null
  | some s => .str s

def intOrNull : Option ℤ → Json
  | none => .null
  | some n => .int n

theorem textOrNull_inj {a b : Option String} (h : textOrNull a = textOrNull b) : a = b := by
  cases a with
  | none =>
    cases b with
    | none => rfl
    | some t => cases h
  | some s =>
    cases b with
    | none => cases h
    | some t => rw [Json.str.inj h]

def AuditActor.value (a : AuditActor) : Json :=
  .obj [("id", .str a.id), ("parent_id", textOrNull a.parentId), ("role", .str a.role)]

/-- `as_dict`. -/
def AuditArtifact.value (a : AuditArtifact) : Json :=
  .obj [("evidence_classification", .str a.evidenceClassification),
    ("media_type", .str a.mediaType), ("path", .str a.path), ("sha256", .str a.sha256),
    ("size_bytes", .int a.sizeBytes)]

namespace AuditEvent

/-- The members in key order, on either side of the place of `event_hash`. -/
def membersBefore (e : AuditEvent) : List (String × Json) :=
  [("actor", e.actor.value), ("artifacts", .arr (e.artifacts.map (·.value))),
    ("attempt_id", textOrNull e.attemptId), ("backend_id", textOrNull e.backendId),
    ("duration_ms", intOrNull e.durationMs)]

def membersBehind (e : AuditEvent) : List (String × Json) :=
  [("event_type", .str e.eventType), ("evidence_classification", .str e.evidenceClassification),
    ("monotonic_ns", .int e.monotonicNs), ("parent_attempt_id", textOrNull e.parentAttemptId),
    ("payload", .obj e.payload.1), ("previous_hash", textOrNull e.previousHash),
    ("protocol", .str auditProtocol), ("run_id", .str e.runId), ("sequence", .int e.sequence),
    ("session_id", textOrNull e.sessionId), ("status", .str e.status),
    ("timestamp", .str e.timestamp)]

def unsealed (e : AuditEvent) : Json := .obj (e.membersBefore ++ e.membersBehind)

end AuditEvent

/-- The hash of a value's canonical text. -/
def digest (value : Json) : String := Sha256.hexdigest (Json.utf8 (Json.dumps value))

namespace AuditEvent

def eventHash (e : AuditEvent) : String := digest e.unsealed

/-- The event as it is written. -/
def value (e : AuditEvent) : Json :=
  .obj (e.membersBefore ++ ("event_hash", .str e.eventHash) :: e.membersBehind)

end AuditEvent

/-! ## Appending -/

/-- The event that `append` writes behind others. -/
def nextEvent (runId evidenceClassification : String) (es : List AuditEvent) (d : Draft) :
    AuditEvent :=
  { d with
    runId, evidenceClassification
    sequence := es.length
    previousHash := es.getLast?.map (·.eventHash) }

/-- The events of successive calls of `append` on a new journal. -/
def appendAll (runId evidenceClassification : String) (drafts : List Draft) : List AuditEvent :=
  drafts.foldl (fun es d => es ++ [nextEvent runId evidenceClassification es d]) []

/-- `events.jsonl`. -/
def journalText (es : List AuditEvent) : List Char := writeLines (es.map (·.value))

/-! ## Schemas -/

/-- `_is_sha256`. -/
def isSha256 (s : String) : Bool :=
  s.toList.length == 64 && s.toList.all (Sha256.hexDigits.contains ·)

/-- Python's `isinstance(value, int)` admits booleans. -/
def natural? : Option Json → Option ℕ
  | some (.int n) => if 0 ≤ n then some n.toNat else none
  | some (.bool b) => some (if b then 1 else 0)
  | _ => none

def isNonEmptyText : Option Json → Bool
  | some (.str s) => s ≠ ""
  | _ => false

def isTextOrNull : Option Json → Bool
  | some (.str _) => true
  | some .null => true
  | _ => false

def isEvidenceClass : Option Json → Bool
  | some (.str s) => s ∈ evidenceClasses
  | _ => false

def isSha256Text : Option Json → Bool
  | some (.str s) => isSha256 s
  | _ => false

/-- `_validate_timestamp`: a final `Z`, and a text that `fromisoformat` reads with an offset in its
place. -/
def isTimestamp (fromIsoformat : String → Bool) (s : String) : Bool :=
  s.toList.getLast? == some 'Z' && fromIsoformat (String.ofList s.toList.dropLast ++ "+00:00")

def isTimestampText (fromIsoformat : String → Bool) : Option Json → Bool
  | some (.str s) => isTimestamp fromIsoformat s
  | _ => false

/-- `_validate_artifact_descriptor`. -/
def validArtifactDescriptor (artifact : Json) : Bool :=
  artifact.keys? == some ["evidence_classification", "media_type", "path", "sha256",
    "size_bytes"] &&
  isNonEmptyText (artifact.get? "path") && isSha256Text (artifact.get? "sha256") &&
  (natural? (artifact.get? "size_bytes")).isSome && isNonEmptyText (artifact.get? "media_type") &&
  isEvidenceClass (artifact.get? "evidence_classification")

def eventKeys : List String :=
  ["actor", "artifacts", "attempt_id", "backend_id", "duration_ms", "event_hash", "event_type",
    "evidence_classification", "monotonic_ns", "parent_attempt_id", "payload", "previous_hash",
    "protocol", "run_id", "sequence", "session_id", "status", "timestamp"]

def validActor (actor : Json) : Bool :=
  actor.keys? == some ["id", "parent_id", "role"] && isNonEmptyText (actor.get? "id") &&
  isNonEmptyText (actor.get? "role") && isTextOrNull (actor.get? "parent_id")

/-- `_validate_event`. -/
def validateEvent (fromIsoformat : String → Bool) (event : Json) : Except String Unit :=
  if event.keys? ≠ some eventKeys then .error "audit event does not match its schema"
  else if ¬ (isNonEmptyText (event.get? "run_id") &&
      isEvidenceClass (event.get? "evidence_classification") &&
      (natural? (event.get? "sequence")).isSome && (natural? (event.get? "monotonic_ns")).isSome &&
      isNonEmptyText (event.get? "event_type") && isNonEmptyText (event.get? "status") &&
      (event.get? "actor").any validActor && (event.get? "payload").any (·.asMembers?.isSome) &&
      (event.get? "artifacts").any (·.asArr?.isSome)) then
    .error "audit event does not match its schema"
  else if ¬ isTimestampText fromIsoformat (event.get? "timestamp") then
    .error "audit timestamp does not match its schema"
  else if ¬ (["attempt_id", "parent_attempt_id", "session_id", "backend_id"].all fun name =>
      isTextOrNull (event.get? name)) then
    .error "audit event identity does not match its schema"
  else if ¬ (event.get? "duration_ms" = some .null ∨
      (natural? (event.get? "duration_ms")).isSome) then
    .error "audit event duration does not match its schema"
  else if ¬ (["previous_hash", "event_hash"].all fun name =>
      event.get? name == some .null || isSha256Text (event.get? name)) then
    .error "audit event hash does not match its schema"
  else if ¬ (((event.get? "artifacts").bind Json.asArr?).getD []).all validArtifactDescriptor then
    .error "audit artifact descriptor does not match its schema"
  else .ok ()

/-! ## Verification -/

/-- `event.pop`. -/
def pop (key : String) : Json → Json
  | .obj members => .obj (members.filter (·.1 ≠ key))
  | value => value

/-- `_verify_artifact`: the files are those of the artifact directory, under the paths that
`write_artifact` returns. -/
def verifyArtifact (files : Dict String (List ℕ)) (artifact : Json) : Except String Unit :=
  match (artifact.get? "path").bind Json.asStr? with
  | none => .error "audit artifact path is invalid"
  | some path =>
    match files.get? path with
    | none => .error ("audit artifact is missing: " ++ path)
    | some raw =>
      if artifact.get? "sha256" ≠ some (.str (Sha256.hexdigest raw)) then
        .error ("audit artifact hash does not match: " ++ path)
      else if artifact.get? "size_bytes" ≠ some (.int raw.length) then
        .error ("audit artifact size does not match: " ++ path)
      else .ok ()

/-- What the verification knows behind some events. -/
structure Scanned where
  runId : Option Json := none
  evidenceClassification : Option Json := none
  hashes : List String := []

/-- One event of `_verify_event_journal`. -/
def verifyEvent (fromIsoformat : String → Bool) (files : Dict String (List ℕ)) (p : Scanned)
    (event : Json) : Except String Scanned :=
  match validateEvent fromIsoformat event with
  | .error e => .error e
  | .ok () =>
    let supplied := event.get? "event_hash"
    let body := pop "event_hash" event
    if supplied ≠ some (.str (digest body)) then
      .error ("audit event " ++ toString p.hashes.length ++ " hash does not match")
    else if natural? (body.get? "sequence") ≠ some p.hashes.length then
      .error "audit event sequence is not contiguous"
    else if body.get? "previous_hash" ≠ some (textOrNull p.hashes.getLast?) then
      .error "audit event hash chain is broken"
    else if body.get? "protocol" ≠ some (.str auditProtocol) then
      .error "audit event protocol is invalid"
    else if p.runId.isSome ∧ body.get? "run_id" ≠ p.runId then
      .error "audit event run identity changed"
    else if p.evidenceClassification.isSome ∧
        body.get? "evidence_classification" ≠ p.evidenceClassification then
      .error "audit evidence classification changed"
    else
      match (((body.get? "artifacts").bind Json.asArr?).getD []).forM (verifyArtifact files) with
      | .error e => .error e
      | .ok () => .ok ⟨body.get? "run_id", body.get? "evidence_classification",
          p.hashes ++ [digest body]⟩

/-- What `_verify_event_journal` returns. -/
structure Verification where
  runId : Json
  eventHashes : List String
  evidenceClassification : Json

/-- `event_count`. -/
def Verification.eventCount (v : Verification) : ℕ := v.eventHashes.length

/-- `head_hash`. -/
def Verification.headHash (v : Verification) : Option String := v.eventHashes.getLast?

/-- `_verify_event_journal`. -/
def verifyEventJournal (fromIsoformat : String → Bool) (files : Dict String (List ℕ))
    (text : List Char) : Except String Verification :=
  match readEach (verifyEvent fromIsoformat files) {} (textLines text) with
  | .error e => .error e
  | .ok p =>
    match p.runId, p.evidenceClassification with
    | some runId, some evidenceClassification => .ok ⟨runId, p.hashes, evidenceClassification⟩
    | _, _ => .error "audit event journal is empty"

/-! ## Events that the schema admits -/

def AuditArtifact.Admissible (a : AuditArtifact) : Prop :=
  a.path ≠ "" ∧ isSha256 a.sha256 = true ∧ a.mediaType ≠ "" ∧
    a.evidenceClassification ∈ evidenceClasses

/-- What the schema asks of the arguments of `append`, which do not check it. -/
def AuditEvent.Admissible (fromIsoformat : String → Bool) (e : AuditEvent) : Prop :=
  e.runId ≠ "" ∧ e.evidenceClassification ∈ evidenceClasses ∧ e.eventType ≠ "" ∧ e.status ≠ "" ∧
    e.actor.id ≠ "" ∧ e.actor.role ≠ "" ∧ isTimestamp fromIsoformat e.timestamp = true ∧
    (∀ d, e.durationMs = some d → 0 ≤ d) ∧ ∀ a ∈ e.artifacts, a.Admissible

section Schema

variable {fromIsoformat : String → Bool} {e : AuditEvent}

theorem hexChars_subset (k n : ℕ) : ∀ c ∈ Sha256.hexChars k n, c ∈ Sha256.hexDigits := by
  induction k generalizing n with
  | zero => exact forall_mem_nil _
  | succ k ih =>
    intro c hc
    rw [Sha256.hexChars, mem_append, mem_singleton] at hc
    rcases hc with hc | rfl
    · exact ih _ c hc
    · have hlt : n % 16 < Sha256.hexDigits.length := Nat.mod_lt n (by norm_num)
      rw [List.getD, List.getElem?_eq_getElem hlt]
      exact getElem_mem hlt

theorem length_hexChars (k n : ℕ) : (Sha256.hexChars k n).length = k := by
  induction k generalizing n with
  | zero => rfl
  | succ k ih => rw [Sha256.hexChars, length_append, ih, length_singleton]

theorem isSha256_hexdigest (message : List ℕ) : isSha256 (Sha256.hexdigest message) = true := by
  rw [isSha256, Sha256.hexdigest, String.toList_ofList, Bool.and_eq_true, beq_iff_eq,
    all_eq_true]
  constructor
  · simp [length_hexChars]
  · intro c hc
    obtain ⟨w, -, hw⟩ := mem_flatMap.1 hc
    simpa using hexChars_subset 8 w c hw

theorem isSha256_eventHash (e : AuditEvent) : isSha256 e.eventHash = true := isSha256_hexdigest _

theorem validArtifactDescriptor_iff (a : AuditArtifact) :
    validArtifactDescriptor a.value = true ↔ a.Admissible := by
  have hkeys : a.value.keys? = some ["evidence_classification", "media_type", "path", "sha256",
    "size_bytes"] := rfl
  have hpath : a.value.get? "path" = some (.str a.path) := rfl
  have hsha : a.value.get? "sha256" = some (.str a.sha256) := rfl
  have hsize : a.value.get? "size_bytes" = some (.int a.sizeBytes) := rfl
  have hmedia : a.value.get? "media_type" = some (.str a.mediaType) := rfl
  have hclass : a.value.get? "evidence_classification" = some (.str a.evidenceClassification) := rfl
  rw [validArtifactDescriptor, hkeys, hpath, hsha, hsize, hmedia, hclass]
  simp [AuditArtifact.Admissible, isNonEmptyText, isSha256Text, natural?, isEvidenceClass,
    and_assoc]

theorem validActor_iff (a : AuditActor) : validActor a.value = true ↔ a.id ≠ "" ∧ a.role ≠ "" := by
  have hkeys : a.value.keys? = some ["id", "parent_id", "role"] := rfl
  have hid : a.value.get? "id" = some (.str a.id) := rfl
  have hrole : a.value.get? "role" = some (.str a.role) := rfl
  have hparent : a.value.get? "parent_id" = some (textOrNull a.parentId) := rfl
  rw [validActor, hkeys, hid, hrole, hparent]
  cases hp : a.parentId <;> simp [isNonEmptyText, isTextOrNull, textOrNull]

theorem guard_eq_ok {p : Prop} [Decidable p] {message : String} {rest : Except String Unit} :
    (if ¬ p then .error message else rest) = .ok () ↔ p ∧ rest = .ok () := by
  by_cases hp : p <;> simp [hp]

theorem isTextOrNull_textOrNull (s : Option String) : isTextOrNull (some (textOrNull s)) = true := by
  cases s <;> rfl

theorem duration_iff (d : Option ℤ) :
    (some (intOrNull d) = some .null ∨ (natural? (some (intOrNull d))).isSome = true) ↔
      ∀ n, d = some n → 0 ≤ n := by
  cases d with
  | none => simp [intOrNull]
  | some n =>
    rw [intOrNull, natural?]
    by_cases hn : 0 ≤ n <;> simp [hn]

/-- **The schema on an appended event.** The hashes pass it in any case. -/
theorem validateEvent_iff (hprevious : ∀ h, e.previousHash = some h → isSha256 h = true) :
    validateEvent fromIsoformat e.value = .ok () ↔ e.Admissible fromIsoformat := by
  have hkeys : e.value.keys? = some eventKeys := rfl
  have hrun : e.value.get? "run_id" = some (.str e.runId) := rfl
  have hclass : e.value.get? "evidence_classification" = some (.str e.evidenceClassification) := rfl
  have hsequence : e.value.get? "sequence" = some (.int e.sequence) := rfl
  have hns : e.value.get? "monotonic_ns" = some (.int e.monotonicNs) := rfl
  have htype : e.value.get? "event_type" = some (.str e.eventType) := rfl
  have hstatus : e.value.get? "status" = some (.str e.status) := rfl
  have hactor : e.value.get? "actor" = some e.actor.value := rfl
  have hpayload : e.value.get? "payload" = some (.obj e.payload.1) := rfl
  have hartifacts : e.value.get? "artifacts" = some (.arr (e.artifacts.map (·.value))) := rfl
  have htime : e.value.get? "timestamp" = some (.str e.timestamp) := rfl
  have hduration : e.value.get? "duration_ms" = some (intOrNull e.durationMs) := rfl
  have hids : (["attempt_id", "parent_attempt_id", "session_id", "backend_id"].all fun name =>
      isTextOrNull (e.value.get? name)) = true := by
    have hattempt : e.value.get? "attempt_id" = some (textOrNull e.attemptId) := rfl
    have hparent : e.value.get? "parent_attempt_id" = some (textOrNull e.parentAttemptId) := rfl
    have hsession : e.value.get? "session_id" = some (textOrNull e.sessionId) := rfl
    have hbackend : e.value.get? "backend_id" = some (textOrNull e.backendId) := rfl
    simp [hattempt, hparent, hsession, hbackend, isTextOrNull_textOrNull]
  have hhashes : (["previous_hash", "event_hash"].all fun name =>
      e.value.get? name == some .null || isSha256Text (e.value.get? name)) = true := by
    have hprev : e.value.get? "previous_hash" = some (textOrNull e.previousHash) := rfl
    have hhash : e.value.get? "event_hash" = some (.str e.eventHash) := rfl
    have hsealed : isSha256Text (some (.str e.eventHash)) = true := isSha256_hexdigest _
    rw [all_cons, all_cons, all_nil, hprev, hhash, hsealed]
    cases hp : e.previousHash with
    | none => simp [textOrNull]
    | some h => simp [textOrNull, isSha256Text, hprevious h hp]
  rw [validateEvent, if_neg (not_not.2 hkeys), hrun, hclass, hsequence, hns, htype, hstatus, hactor,
    hpayload, hartifacts, htime, hduration]
  simp only [guard_eq_ok, hids, hhashes, duration_iff, true_and, and_true]
  simp [AuditEvent.Admissible, isNonEmptyText, isEvidenceClass, natural?, isTimestampText,
    Json.asMembers?, Json.asArr?, validActor_iff, validArtifactDescriptor_iff, and_assoc]

end Schema

/-! ## Linked events -/

/-- Each event carries the journal's identity, its place and the hash of the event before it. -/
def Linked (runId evidenceClassification : String) (es : List AuditEvent) : Prop :=
  ∀ before e behind, es = before ++ e :: behind → e.runId = runId ∧
    e.evidenceClassification = evidenceClassification ∧ e.sequence = before.length ∧
    e.previousHash = before.getLast?.map (·.eventHash)

/-- The artifacts that the event names are in the artifact directory as it describes them. -/
def AuditEvent.Filed (files : Dict String (List ℕ)) (e : AuditEvent) : Prop :=
  ∀ a ∈ e.artifacts, verifyArtifact files a.value = .ok ()

section Linked

variable {runId evidenceClassification : String} {es : List AuditEvent}
  {fromIsoformat : String → Bool} {files : Dict String (List ℕ)}

theorem linked_nil : Linked runId evidenceClassification [] := by
  intro before e behind h
  exact absurd h.symm (append_ne_nil_of_right_ne_nil before (cons_ne_nil e behind))

theorem Linked.of_append {fs : List AuditEvent}
    (h : Linked runId evidenceClassification (es ++ fs)) :
    Linked runId evidenceClassification es := by
  rintro before e behind rfl
  refine h before e (behind ++ fs) ?_
  rw [append_assoc, cons_append]

theorem Linked.snoc (h : Linked runId evidenceClassification es) (d : Draft) :
    Linked runId evidenceClassification
      (es ++ [nextEvent runId evidenceClassification es d]) := by
  intro before e behind heq
  rcases eq_nil_or_concat behind with rfl | ⟨rest, last, rfl⟩
  · obtain ⟨rfl, hlast⟩ := append_inj' heq rfl
    obtain rfl := singleton_inj.1 hlast
    exact ⟨rfl, rfl, rfl, rfl⟩
  · rw [concat_eq_append, ← cons_append, ← append_assoc] at heq
    obtain ⟨rfl, -⟩ := append_inj' heq rfl
    exact h before e rest rfl

theorem linked_appendAll (drafts : List Draft) : Linked runId evidenceClassification
    (appendAll runId evidenceClassification drafts) := by
  induction drafts using List.reverseRecOn with
  | nil => exact linked_nil
  | append_singleton drafts d ih =>
    rw [appendAll, foldl_append]
    exact ih.snoc d

theorem keyed_value (e : AuditEvent) : Json.Keyed e.value := by
  have hactor : Json.Keyed e.actor.value := by
    refine ⟨by show List.Pairwise _ ["id", "parent_id", "role"]; decide, trivial, ?_, trivial, trivial⟩
    cases hp : e.actor.parentId <;> trivial
  have hnull (s : Option String) : Json.Keyed (textOrNull s) := by cases s <;> trivial
  have hduration : Json.Keyed (intOrNull e.durationMs) := by
    cases hd : e.durationMs <;> trivial
  have hartifacts : Json.KeyedList (e.artifacts.map (·.value)) := by
    induction e.artifacts with
    | nil => trivial
    | cons a rest ih =>
      refine ⟨⟨?_, trivial, trivial, trivial, trivial, trivial, trivial⟩, ih⟩
      show List.Pairwise _ ["evidence_classification", "media_type", "path", "sha256", "size_bytes"]
      decide
  refine ⟨?_, hactor, hartifacts, hnull _, hnull _, hduration, trivial, trivial, trivial, trivial,
    hnull _, e.payload.2, hnull _, trivial, trivial, trivial, hnull _, trivial, trivial, trivial⟩
  show List.Pairwise _ eventKeys
  decide

theorem isRecord_value (e : AuditEvent) : IsRecord e.value := ⟨keyed_value e, _, rfl⟩

theorem forM_eq_ok {α : Type} {f : α → Except String Unit} {xs : List α} :
    xs.forM f = .ok () ↔ ∀ x ∈ xs, f x = .ok () := by
  induction xs with
  | nil => simp [pure, Except.pure]
  | cons x xs ih =>
    rw [forall_mem_cons, ← ih]
    show (f x >>= fun _ => xs.forM f) = .ok () ↔ _
    cases f x with
    | error e => simp [bind, Except.bind]
    | ok u => simp [bind, Except.bind]

/-- An event that is accepted is an object that holds its own hash, its place and the hash before
it. -/
theorem verifyEvent_inv {p p' : Scanned} {event : Json}
    (h : verifyEvent fromIsoformat files p event = .ok p') :
    event.keys? = some eventKeys ∧
      event.get? "event_hash" = some (.str (digest (pop "event_hash" event))) ∧
      natural? ((pop "event_hash" event).get? "sequence") = some p.hashes.length ∧
      (pop "event_hash" event).get? "previous_hash" = some (textOrNull p.hashes.getLast?) ∧
      p'.hashes = p.hashes ++ [digest (pop "event_hash" event)] := by
  rw [verifyEvent] at h
  split at h
  · cases h
  rename_i hvalid
  have hkeys : event.keys? = some eventKeys := by
    rw [validateEvent] at hvalid
    split at hvalid
    · cases hvalid
    · rename_i hkeys
      exact not_not.1 hkeys
  dsimp only at h
  split at h
  · cases h
  rename_i hsupplied
  split at h
  · cases h
  rename_i hsequence
  split at h
  · cases h
  rename_i hprevious
  iterate 4
    split at h
    · cases h
  cases h
  exact ⟨hkeys, not_not.1 hsupplied, not_not.1 hsequence, not_not.1 hprevious, rfl⟩

/-- One event at its place. -/
theorem verifyEvent_value {p p' : Scanned} {e : AuditEvent}
    (hsequence : e.sequence = p.hashes.length) (hprevious : e.previousHash = p.hashes.getLast?)
    (hrun : p.runId = none ∨ p.runId = some (.str e.runId))
    (hclass : p.evidenceClassification = none ∨
      p.evidenceClassification = some (.str e.evidenceClassification)) :
    verifyEvent fromIsoformat files p e.value = .ok p' ↔
      validateEvent fromIsoformat e.value = .ok () ∧ e.Filed files ∧
        p' = ⟨some (.str e.runId), some (.str e.evidenceClassification),
          p.hashes ++ [e.eventHash]⟩ := by
  have hpop : pop "event_hash" e.value = e.unsealed := rfl
  have hsupplied : e.value.get? "event_hash" = some (.str (digest e.unsealed)) := rfl
  have hplace : natural? (e.unsealed.get? "sequence") = some p.hashes.length := by
    rw [← hsequence]
    show natural? (some (.int e.sequence)) = _
    simp [natural?]
  have hchain : e.unsealed.get? "previous_hash" = some (textOrNull p.hashes.getLast?) := by
    rw [← hprevious]
    rfl
  have hprotocol : e.unsealed.get? "protocol" = some (.str auditProtocol) := rfl
  have hid : e.unsealed.get? "run_id" = some (.str e.runId) := rfl
  have hkind : e.unsealed.get? "evidence_classification" = some (.str e.evidenceClassification) :=
    rfl
  have hartifacts : ((e.unsealed.get? "artifacts").bind Json.asArr?).getD [] =
      e.artifacts.map (·.value) := rfl
  have hsame : ¬ (p.runId.isSome = true ∧ some (.str e.runId) ≠ p.runId) := by
    rcases hrun with hrun | hrun <;> simp [hrun]
  have hsameClass : ¬ (p.evidenceClassification.isSome = true ∧
      some (.str e.evidenceClassification) ≠ p.evidenceClassification) := by
    rcases hclass with hclass | hclass <;> simp [hclass]
  rw [verifyEvent]
  cases hvalid : validateEvent fromIsoformat e.value with
  | error message => simp
  | ok u =>
    rw [hpop, if_neg (not_not.2 hsupplied), if_neg (not_not.2 hplace), if_neg (not_not.2 hchain),
      if_neg (not_not.2 hprotocol), hid, if_neg hsame, hkind, if_neg hsameClass, hartifacts]
    have hfiled : (e.artifacts.map (·.value)).forM (verifyArtifact files) = .ok () ↔
        e.Filed files := by
      rw [forM_eq_ok, forall_mem_map]
      rfl
    cases hforM : (e.artifacts.map (·.value)).forM (verifyArtifact files) with
    | error message =>
      have hnot : ¬ e.Filed files := by
        rw [← hfiled, hforM]
        exact fun h => by cases h
      simp [hnot]
    | ok u =>
      have hyes := hfiled.1 hforM
      simp only [hyes, true_and]
      exact ⟨fun h => (Except.ok.inj h).symm, fun h => by rw [h]; rfl⟩

/-- Behind linked events. -/
def scannedOf (runId evidenceClassification : String) (es : List AuditEvent) : Scanned :=
  if es = [] then {}
  else ⟨some (.str runId), some (.str evidenceClassification), es.map (·.eventHash)⟩

theorem hashes_scannedOf (es : List AuditEvent) :
    (scannedOf runId evidenceClassification es).hashes = es.map (·.eventHash) := by
  rw [scannedOf]
  split_ifs with hes
  · rw [hes]
    rfl
  · rfl

theorem scan_eq_ok (h : Linked runId evidenceClassification es) {p : Scanned} :
    (es.map (·.value)).foldlM (verifyEvent fromIsoformat files) {} = .ok p ↔
      (∀ e ∈ es, e.Admissible fromIsoformat ∧ e.Filed files) ∧
        p = scannedOf runId evidenceClassification es := by
  induction es using List.reverseRecOn generalizing p with
  | nil =>
    constructor
    · intro hp
      exact ⟨forall_mem_nil _, (Except.ok.inj hp).symm⟩
    · rintro ⟨-, rfl⟩
      rfl
  | append_singleton es e ih =>
    have hes {q : Scanned} := @ih h.of_append q
    obtain ⟨hrun, hclass, hsequence, hprevious⟩ := h es e [] rfl
    have hseal : ∀ h, e.previousHash = some h → isSha256 h = true := by
      intro hash hhash
      rw [hprevious] at hhash
      obtain ⟨last, -, rfl⟩ := Option.map_eq_some_iff.1 hhash
      exact isSha256_hexdigest _
    have hstep (p' : Scanned) : verifyEvent fromIsoformat files
        (scannedOf runId evidenceClassification es) e.value = .ok p' ↔
        validateEvent fromIsoformat e.value = .ok () ∧ e.Filed files ∧
          p' = scannedOf runId evidenceClassification (es ++ [e]) := by
      have hwhole : scannedOf runId evidenceClassification (es ++ [e]) =
          ⟨some (.str e.runId), some (.str e.evidenceClassification),
            (scannedOf runId evidenceClassification es).hashes ++ [e.eventHash]⟩ := by
        rw [scannedOf, if_neg (by simp), hashes_scannedOf, hrun, hclass]
        simp
      rw [hwhole]
      refine verifyEvent_value ?_ ?_ ?_ ?_
      · rw [hashes_scannedOf, length_map, hsequence]
      · rw [hashes_scannedOf, List.getLast?_map, hprevious]
      · rw [scannedOf]
        split_ifs
        · exact .inl rfl
        · exact .inr (by rw [hrun])
      · rw [scannedOf]
        split_ifs
        · exact .inl rfl
        · exact .inr (by rw [hclass])
    rw [map_append, foldlM_append]
    cases hscan : (es.map (·.value)).foldlM (verifyEvent fromIsoformat files) {} with
    | error message =>
      have hnot : ¬ ∀ e ∈ es, e.Admissible fromIsoformat ∧ e.Filed files := by
        intro hall
        have hok := hes.2 ⟨hall, rfl⟩
        rw [hscan] at hok
        cases hok
      refine iff_of_false (fun h => by cases h) fun hall => hnot fun x hx => ?_
      exact hall.1 x (mem_append_left _ hx)
    | ok q =>
      obtain ⟨hall, rfl⟩ := hes.1 hscan
      show (verifyEvent fromIsoformat files (scannedOf runId evidenceClassification es) e.value >>=
        pure) = .ok p ↔ _
      rw [bind_pure, hstep, validateEvent_iff hseal, forall_mem_append, forall_mem_singleton,
        and_assoc]
      exact ⟨fun ⟨hadmissible, hfiled, hp⟩ => ⟨hall, ⟨hadmissible, hfiled⟩, hp⟩,
        fun ⟨_, ⟨hadmissible, hfiled⟩, hp⟩ => ⟨hadmissible, hfiled, hp⟩⟩

/-- **The verification of appended events**: it accepts them exactly when the schema admits every
one and its artifacts are filed, and returns their hashes. -/
theorem verifyEventJournal_eq_ok (h : Linked runId evidenceClassification es) (hes : es ≠ [])
    {v : Verification} :
    verifyEventJournal fromIsoformat files (journalText es) = .ok v ↔
      (∀ e ∈ es, e.Admissible fromIsoformat ∧ e.Filed files) ∧
        v = ⟨.str runId, es.map (·.eventHash), .str evidenceClassification⟩ := by
  have hkeyed : ∀ w ∈ es.map (·.value), Json.Keyed w := by
    intro w hw
    obtain ⟨e, -, rfl⟩ := mem_map.1 hw
    exact keyed_value e
  rw [verifyEventJournal, journalText, readEach_textLines _ _ hkeyed]
  have hscan {p : Scanned} := @scan_eq_ok runId evidenceClassification es fromIsoformat files h p
  cases hresult : (es.map (·.value)).foldlM (verifyEvent fromIsoformat files) {} with
  | error message =>
    refine iff_of_false (fun h => by cases h) fun ⟨hall, _⟩ => ?_
    have hok := hscan.2 ⟨hall, rfl⟩
    rw [hresult] at hok
    cases hok
  | ok p =>
    obtain ⟨hall, rfl⟩ := hscan.1 hresult
    rw [scannedOf, if_neg hes]
    exact ⟨fun hv => ⟨hall, (Except.ok.inj hv).symm⟩, fun ⟨_, hv⟩ => by rw [hv]⟩

end Linked

end HarnessLabs.Audit
