import HarnessLabs.Core.Audit

/-!
# The journal directory

The directory of an audit journal (its events, its checkpoint, its summary, its manifest and its
artifacts) and the operations of `AuditJournal` on it. An operation is the list of its durable writes
in the order they are made; a crash leaves the first of them.

* `Journal.perform` — the operations of an open journal.
* `openExisting`, `recoverInterrupted` — what a restart does with a directory.
* `verifyDirectory` — the checks of `verify`.
-/

namespace HarnessLabs.Audit

open Lines

/-! ## Payloads -/

namespace Payload

def set (p : Payload) (key : String) (value : {v : Json // Json.Keyed v}) : Payload :=
  ⟨Json.setMember key value.1 p.1, Json.keyed_setMember value.2 p.2⟩

def empty : Payload := ⟨[], List.Pairwise.nil, trivial⟩

def text (s : String) : {v : Json // Json.Keyed v} := ⟨.str s, trivial⟩

def number (n : ℕ) : {v : Json // Json.Keyed v} := ⟨.int n, trivial⟩

def emptyList : {v : Json // Json.Keyed v} := ⟨.arr [], trivial⟩

def object (p : Payload) : {v : Json // Json.Keyed v} := ⟨.obj p.1, p.2⟩

/-- `{**p, **updates}`. -/
def update (p updates : Payload) : Payload :=
  ⟨updates.1.foldl (fun acc m => Json.setMember m.1 m.2 acc) p.1,
    Json.keyed_foldl_setMember p.2 updates.2.2⟩

end Payload

/-! ## Files -/

/-- The text of a file that holds one canonical text, in bytes. -/
def fileBytes (value : Json) : List ℕ := Json.utf8 (Json.dumps value ++ ['\n'])

structure Checkpoint where
  runId : String
  evidenceClassification : String
  revision : ℕ
  status : String
  sequence : ℕ
  headHash : Option String
  startedAt : String
  updatedAt : String
  state : Payload

def Checkpoint.value (c : Checkpoint) : Json :=
  .obj [("evidence_classification", .str c.evidenceClassification),
    ("head_hash", textOrNull c.headHash), ("protocol", .str "harness-audit-checkpoint/1"),
    ("revision", .int c.revision), ("run_id", .str c.runId), ("sequence", .int c.sequence),
    ("started_at", .str c.startedAt), ("state", .obj c.state.1), ("status", .str c.status),
    ("updated_at", .str c.updatedAt)]

structure Manifest where
  runId : String
  evidenceClassification : String
  status : String
  startedAt : String
  finishedAt : String
  eventCount : ℕ
  headHash : Option String
  checkpointSha256 : String
  checkpointRevision : ℕ
  artifacts : List AuditArtifact
  summarySha256 : String
  manifestHash : String

/-- The manifest without its own hash. -/
def Manifest.unsealed (m : Manifest) : Json :=
  .obj [("artifacts", .arr (m.artifacts.map (·.value))),
    ("checkpoint_revision", .int m.checkpointRevision),
    ("checkpoint_sha256", .str m.checkpointSha256), ("event_count", .int m.eventCount),
    ("evidence_classification", .str m.evidenceClassification), ("finished_at", .str m.finishedAt),
    ("head_hash", textOrNull m.headHash), ("protocol", .str "harness-audit-manifest/1"),
    ("run_id", .str m.runId), ("started_at", .str m.startedAt), ("status", .str m.status),
    ("summary_sha256", .str m.summarySha256)]

/-- A run directory. The artifacts are under their paths in it. -/
structure Disk where
  events : List Char
  checkpoint : Option Checkpoint
  summary : Option Json
  manifest : Option Manifest
  files : Dict String (List ℕ)

/-- One durable write. -/
inductive FileWrite where
  | event (event : AuditEvent)
  | checkpoint (checkpoint : Checkpoint)
  | summary (summary : Json)
  | manifest (manifest : Manifest)
  | artifact (path : String) (raw : List ℕ)

def Disk.write (disk : Disk) : FileWrite → Disk
  | .event e => { disk with events := disk.events ++ (Json.dumps e.value ++ ['\n']) }
  | .checkpoint c => { disk with checkpoint := some c }
  | .summary s => { disk with summary := some s }
  | .manifest m => { disk with manifest := some m }
  | .artifact path raw => { disk with files := disk.files.set path raw }

def Disk.writeAll (disk : Disk) (writes : List FileWrite) : Disk := writes.foldl Disk.write disk

/-- What the journal is given from outside: `datetime.fromisoformat` on the texts that it accepts,
and the totals of `build_run_summary` over the events, for a status, a start and an end. -/
structure Host where
  fromIsoformat : String → Bool
  summarize : List Json → String → String → String → Option Json

/-- The readings of both clocks. `_timestamp` gives a text that `_validate_timestamp` accepts. -/
structure Tick (host : Host) where
  timestamp : {s : String // isTimestamp host.fromIsoformat s = true}
  monotonicNs : ℕ

/-! ## Verification -/

/-- `_validate_checkpoint`. -/
def validateCheckpoint (host : Host) (c : Checkpoint) : Except String Unit :=
  if ¬ (c.runId ≠ "" ∧ c.evidenceClassification ∈ evidenceClasses ∧ 1 ≤ c.revision ∧
      1 ≤ c.sequence ∧ c.headHash.any isSha256 ∧ c.status ≠ "") then
    .error "audit checkpoint does not match its schema"
  else if ¬ (isTimestamp host.fromIsoformat c.startedAt ∧
      isTimestamp host.fromIsoformat c.updatedAt) then
    .error "audit timestamp does not match its schema"
  else .ok ()

/-- `_validate_manifest`. -/
def validateManifest (host : Host) (m : Manifest) : Except String Unit :=
  if ¬ (m.runId ≠ "" ∧ m.evidenceClassification ∈ evidenceClasses ∧ m.status ∈ terminalStatuses ∧
      1 ≤ m.eventCount ∧ m.headHash.any isSha256 ∧ isSha256 m.checkpointSha256 ∧
      1 ≤ m.checkpointRevision ∧ isSha256 m.summarySha256 ∧ isSha256 m.manifestHash) then
    .error "audit manifest does not match its schema"
  else if ¬ (isTimestamp host.fromIsoformat m.startedAt ∧
      isTimestamp host.fromIsoformat m.finishedAt) then
    .error "audit timestamp does not match its schema"
  else if ¬ (m.artifacts.map (·.value)).all validArtifactDescriptor then
    .error "audit artifact descriptor does not match its schema"
  else .ok ()

/-- `_artifact_inventory`. -/
def artifactInventory (files : Dict String (List ℕ)) (evidenceClassification : String) :
    List AuditArtifact :=
  (files.items.mergeSort fun a b => a.1 ≤ b.1).map fun f =>
    ⟨f.1, Sha256.hexdigest f.2, f.2.length, "application/octet-stream", evidenceClassification⟩

/-- `_load_json` and `_validate_checkpoint`. -/
def Disk.loadCheckpoint (host : Host) (disk : Disk) : Except String Checkpoint :=
  match disk.checkpoint with
  | none => .error "invalid audit JSON: checkpoint.json"
  | some c => (validateCheckpoint host c).map fun _ => c

/-- `if not condition: raise AuditError(message)`. -/
def require (condition : Prop) [Decidable condition] (message : String) : Except String Unit :=
  if condition then .ok () else .error message

@[simp] theorem require_eq_ok {condition : Prop} [Decidable condition] {message : String} :
    require condition message = .ok () ↔ condition := by
  by_cases h : condition <;> simp [require, h]

theorem bind_eq_ok {α β : Type} {x : Except String α} {f : α → Except String β} {b : β} :
    (x >>= f) = .ok b ↔ ∃ a, x = .ok a ∧ f a = .ok b := by
  cases x with
  | error e => simp [bind, Except.bind]
  | ok a => simp [bind, Except.bind]

theorem unit_bind_eq_ok {α : Type} {x : Except String Unit} {f : Unit → Except String α} {a : α} :
    (x >>= f) = .ok a ↔ x = .ok () ∧ f () = .ok a := by
  rw [bind_eq_ok]
  exact ⟨fun ⟨_, hx, hf⟩ => ⟨hx, hf⟩, fun ⟨hx, hf⟩ => ⟨(), hx, hf⟩⟩

theorem map_eq_ok {α β : Type} {x : Except String α} {f : α → β} {b : β} :
    x.map f = .ok b ↔ ∃ a, x = .ok a ∧ f a = b := by
  cases x with
  | error message => simp [Except.map]
  | ok a => simp [Except.map]

theorem require_bind_eq_ok {β : Type} {condition : Prop} [Decidable condition] {message : String}
    {rest : Except String β} {b : β} :
    (require condition message >>= fun _ => rest) = .ok b ↔ condition ∧ rest = .ok b := by
  by_cases h : condition <;> simp [require, h, bind, Except.bind]

/-- The summary is the one that the manifest was written with. -/
def verifySummary (disk : Disk) (m : Manifest) : Except String Unit :=
  match disk.summary with
  | none => .error "audit manifest summary is missing"
  | some s => require (m.summarySha256 = Sha256.hexdigest (fileBytes s))
      "audit manifest summary hash does not match"

/-- The part of `verify` about a manifest. -/
def verifyManifest (host : Host) (disk : Disk) (v : Verification) (c : Checkpoint) (m : Manifest) :
    Except String Unit := do
  validateManifest host m
  require (m.manifestHash = digest m.unsealed) "audit manifest hash does not match"
  require (m.headHash = v.headHash) "audit manifest does not bind the journal head"
  require (.str m.runId = v.runId) "manifest run identity does not match the journal"
  require (.str m.evidenceClassification = v.evidenceClassification)
    "manifest evidence classification does not match the journal"
  require (m.eventCount = v.eventCount) "manifest event count does not match the journal"
  require (m.checkpointRevision = c.revision) "manifest checkpoint revision does not match"
  require (m.status = c.status) "manifest status does not match the checkpoint"
  require (m.checkpointSha256 = Sha256.hexdigest (fileBytes c.value))
    "audit manifest checkpoint hash does not match"
  verifySummary disk m
  m.artifacts.forM fun a => verifyArtifact disk.files a.value
  require (m.artifacts = artifactInventory disk.files m.evidenceClassification)
    "manifest artifact inventory is incomplete"

/-- The checks on a checkpoint that `verify` and `open_existing` share. -/
def verifyIdentity (v : Verification) (c : Checkpoint) : Except String Unit := do
  require (.str c.runId = v.runId) "checkpoint run identity does not match the journal"
  require (.str c.evidenceClassification = v.evidenceClassification)
    "checkpoint evidence classification does not match the journal"

def verifyTerminal (disk : Disk) (c : Checkpoint) : Except String Unit :=
  require (c.status ∈ terminalStatuses → disk.manifest.isSome)
    "terminal checkpoint is missing its manifest"

/-- `verify`. -/
def verifyDirectory (host : Host) (disk : Disk) : Except String Verification := do
  let v ← verifyEventJournal host.fromIsoformat disk.files disk.events
  let c ← disk.loadCheckpoint host
  verifyIdentity v c
  verifyTerminal disk c
  require (c.headHash = v.headHash) "checkpoint does not bind the journal head"
  require (c.sequence = v.eventCount) "checkpoint sequence does not match the journal"
  match disk.manifest with
  | none => return v
  | some m => (verifyManifest host disk v c m).map fun _ => v

/-! ## Operations -/

/-- An open journal: what `AuditJournal` keeps in memory. -/
structure Journal where
  runId : String
  evidenceClassification : String
  actor : AuditActor
  sequence : ℕ
  headHash : Option String
  revision : ℕ
  artifactNumber : ℕ
  startedAt : String
  finalized : Bool

inductive ArtifactContent where
  | json (value : Json)
  | text (s : String)
  | bytes (raw : List ℕ)

def ArtifactContent.raw : ArtifactContent → List ℕ
  | .json value => fileBytes value
  | .text s => Json.utf8 s.toList
  | .bytes raw => raw

def ArtifactContent.fallbackSuffix : ArtifactContent → String
  | .json _ => "json"
  | .text _ => "txt"
  | .bytes _ => "bin"

def mediaTypeSuffixes : List (String × String) :=
  [("application/json", "json"), ("application/ld+json", "json"),
    ("application/octet-stream", "bin"), ("application/pdf", "pdf"),
    ("application/x-ndjson", "jsonl"), ("image/jpeg", "jpg"), ("image/png", "png"),
    ("image/svg+xml", "svg"), ("text/csv", "csv"), ("text/html", "html"),
    ("text/markdown", "md"), ("text/plain", "txt"), ("text/tab-separated-values", "tsv")]

def trimWith (isOut : Char → Bool) (s : List Char) : List Char :=
  ((s.dropWhile isOut).reverse.dropWhile isOut).reverse

/-- The media type without its parameters. -/
def normalizedMediaType (mediaType : String) : String :=
  String.ofList ((trimWith Char.isWhitespace (mediaType.toList.takeWhile (· ≠ ';'))).map
    Char.toLower)

def isSafeNameChar (c : Char) : Bool := c.isAlphanum || c == '_' || c == '.' || c == '-'

/-- Every run of other characters becomes one hyphen. -/
def replaceUnsafe : Bool → List Char → List Char
  | _, [] => []
  | inRun, c :: rest =>
    if isSafeNameChar c then c :: replaceUnsafe false rest
    else if inRun then replaceUnsafe true rest
    else '-' :: replaceUnsafe true rest

def safeKind (kind : String) : List Char :=
  let name := trimWith (· == '-') (replaceUnsafe false kind.toList)
  if name = [] then "artifact".toList else name

/-- The path of the artifact with the given number. -/
def artifactPath (number : ℕ) (kind mediaType : String) (content : ArtifactContent) : String :=
  let suffix := (mediaTypeSuffixes.lookup (normalizedMediaType mediaType)).getD
    content.fallbackSuffix
  String.ofList ("artifacts/".toList ++ Text.padded 6 number ++ '-' :: safeKind kind ++
    '.' :: suffix.toList)

inductive Answer where
  | artifact (artifact : AuditArtifact)
  | event (event : AuditEvent)
  | checkpoint (checkpoint : Checkpoint)
  | swapped (event : AuditEvent) (checkpoint : Checkpoint)
  | manifest (manifest : Manifest)

/-- What an operation leaves: the journal in memory, what was written, and the answer or the error
raised. -/
structure Outcome where
  journal : Journal
  writes : List FileWrite
  answer : Except String Answer

inductive Operation where
  | writeArtifact (kind : String) (content : ArtifactContent) (mediaType : String)
  | append (draft : Draft)
  | checkpoint (status : String) (state : Payload)
  | mergeCheckpoint (status : String) (updates : Payload)
  | compareAndSwap (expectedRevision : ℤ) (expectedHeadHash : Option String) (status : String)
      (state : Payload) (eventType eventStatus : String) (payload : Payload)
      (actor : Option AuditActor)
  | finalize (status : String) (result : Payload) (state : Option Payload)

namespace Journal

variable {host : Host}

def raises (j : Journal) (message : String) : Outcome := ⟨j, [], .error message⟩

/-- The artifact that `write_artifact` returns. -/
def newArtifact (j : Journal) (kind : String) (content : ArtifactContent) (mediaType : String) :
    AuditArtifact where
  path := artifactPath (j.artifactNumber + 1) kind mediaType content
  sha256 := Sha256.hexdigest content.raw
  sizeBytes := content.raw.length
  mediaType := mediaType
  evidenceClassification := j.evidenceClassification

/-- The event that `append` writes. -/
def newEvent (j : Journal) (tick : Tick host) (d : Draft) : AuditEvent :=
  { d with
    timestamp := tick.timestamp.1
    monotonicNs := tick.monotonicNs
    runId := j.runId
    evidenceClassification := j.evidenceClassification
    sequence := j.sequence
    previousHash := j.headHash }

def afterEvent (j : Journal) (e : AuditEvent) : Journal :=
  { j with headHash := some e.eventHash, sequence := j.sequence + 1 }

/-- The checkpoint that `checkpoint` writes. -/
def newCheckpoint (j : Journal) (tick : Tick host) (status : String) (state : Payload) :
    Checkpoint where
  runId := j.runId
  evidenceClassification := j.evidenceClassification
  revision := j.revision + 1
  status := status
  sequence := j.sequence
  headHash := j.headHash
  startedAt := j.startedAt
  updatedAt := tick.timestamp.1
  state := state

def afterCheckpoint (j : Journal) : Journal := { j with revision := j.revision + 1 }

/-- The state that `merge_checkpoint` writes. -/
def mergedState (disk : Disk) (updates : Payload) : Payload :=
  Payload.update ((disk.checkpoint.map (·.state)).getD Payload.empty) updates

/-- A draft without identities, duration and artifacts. -/
def plainDraft (tick : Tick host) (eventType status : String) (payload : Payload)
    (actor : AuditActor) : Draft :=
  { eventType, status, payload, actor
    timestamp := tick.timestamp.1, monotonicNs := tick.monotonicNs }

/-- `compare_and_swap_checkpoint`: the checkpoint that is expected must bind the head. -/
def compareAndSwap (j : Journal) (clock : ℕ → Tick host) (disk : Disk) (expectedRevision : ℤ)
    (expectedHeadHash : Option String) (status : String) (state : Payload)
    (eventType eventStatus : String) (payload : Payload) (actor : Option AuditActor) : Outcome :=
  if expectedRevision < 0 then
    j.raises "expected checkpoint revision must be non-negative"
  else if j.finalized then j.raises "audit run is already finalized"
  else
    match verifyEventJournal host.fromIsoformat disk.files disk.events with
    | .error e => j.raises e
    | .ok v =>
      match disk.loadCheckpoint host with
      | .error e => j.raises e
      | .ok c =>
        if c.runId ≠ j.runId then
          j.raises "checkpoint run identity does not match the journal"
        else if c.sequence ≠ v.eventCount ∨ c.headHash ≠ v.headHash then
          j.raises "checkpoint does not bind the journal head"
        else if c.revision ≠ expectedRevision then j.raises "audit checkpoint revision changed"
        else if c.headHash ≠ expectedHeadHash then j.raises "audit checkpoint head changed"
        else
          let j := { j with
            sequence := v.eventCount, headHash := v.headHash, revision := c.revision }
          let e := j.newEvent (clock 0)
            (plainDraft (clock 0) eventType eventStatus payload (actor.getD j.actor))
          let j := j.afterEvent e
          let successor := { j.newCheckpoint (clock 1) status state with startedAt := c.startedAt }
          ⟨j.afterCheckpoint, [.event e, .checkpoint successor], .ok (.swapped e successor)⟩

/-- The values that `build_run_summary` reads. -/
def summaryEvents (text : List Char) : Except String (List Json) :=
  readEach (fun values value =>
    .ok (if value.asMembers?.isSome then values ++ [value] else values)) [] (splitlines text)

/-- The manifest that `finalize` writes. -/
def newManifest (j : Journal) (disk : Disk) (c : Checkpoint) (status finishedAt : String)
    (summary : Json) : Manifest :=
  let m : Manifest :=
    { runId := j.runId, evidenceClassification := j.evidenceClassification, status
      startedAt := j.startedAt, finishedAt, eventCount := j.sequence, headHash := j.headHash
      checkpointSha256 := Sha256.hexdigest (fileBytes c.value), checkpointRevision := c.revision
      artifacts := artifactInventory disk.files j.evidenceClassification
      summarySha256 := Sha256.hexdigest (fileBytes summary), manifestHash := "" }
  { m with manifestHash := digest m.unsealed }

/-- The event that `finalize` writes. -/
def finalEvent (j : Journal) (tick : Tick host) (status : String) (artifact : AuditArtifact) :
    AuditEvent :=
  j.newEvent tick
    { plainDraft tick (if status = "succeeded" then "run_completed" else "run_failed") status
        (Payload.empty.set "terminal_status" (Payload.text status)) j.actor with
      artifacts := [artifact] }

/-- The state of the terminal checkpoint. -/
def finalState (state : Option Payload) : Payload :=
  ((state.getD Payload.empty).set "active_children" Payload.emptyList).set "active_sessions"
    Payload.emptyList

/-- What `finalize` does up to its terminal checkpoint: the result, the last event, the
checkpoint. -/
structure Concluded where
  journal : Journal
  checkpoint : Checkpoint
  writes : List FileWrite

def conclude (j : Journal) (clock : ℕ → Tick host) (status : String) (result : Payload)
    (state : Option Payload) : Concluded :=
  let content := ArtifactContent.json (.obj result.1)
  let artifact := j.newArtifact "final-result" content "application/json"
  let j := { j with artifactNumber := j.artifactNumber + 1 }
  let e := j.finalEvent (clock 0) status artifact
  let j := j.afterEvent e
  let c := j.newCheckpoint (clock 1) status (finalState state)
  ⟨j.afterCheckpoint, c, [.artifact artifact.path content.raw, .event e, .checkpoint c]⟩

/-- What `build_run_summary` makes of the events. -/
def runSummary (host : Host) (text : List Char) (status startedAt finishedAt : String) :
    Except String Json :=
  match summaryEvents text with
  | .error message => .error message
  | .ok values =>
    match host.summarize values status startedAt finishedAt with
    | none => .error "the run summary cannot be built"
    | some summary => .ok summary

/-- `finalize`. The summary is made between the terminal checkpoint and the manifest. -/
def finalize (j : Journal) (clock : ℕ → Tick host) (disk : Disk) (status : String)
    (result : Payload) (state : Option Payload) : Outcome :=
  if j.finalized then j.raises "audit run is already finalized"
  else if status ∉ terminalStatuses then j.raises "audit final status must be terminal"
  else
    let done := j.conclude clock status result state
    let disk := disk.writeAll done.writes
    let finishedAt := (clock 2).timestamp.1
    match runSummary host disk.events status done.journal.startedAt finishedAt with
    | .error message => ⟨done.journal, done.writes, .error message⟩
    | .ok summary =>
      let m := done.journal.newManifest disk done.checkpoint status finishedAt summary
      ⟨{ done.journal with finalized := true }, done.writes ++ [.summary summary, .manifest m],
        (verifyDirectory host (disk.writeAll [.summary summary, .manifest m])).map
          fun _ => .manifest m⟩

def perform (j : Journal) (clock : ℕ → Tick host) (disk : Disk) : Operation → Outcome
  | .writeArtifact kind content mediaType =>
    if j.finalized then j.raises "audit run is already finalized"
    else
      let artifact := j.newArtifact kind content mediaType
      ⟨{ j with artifactNumber := j.artifactNumber + 1 }, [.artifact artifact.path content.raw],
        .ok (.artifact artifact)⟩
  | .append d =>
    if j.finalized then j.raises "audit run is already finalized"
    else
      let e := j.newEvent (clock 0) d
      ⟨j.afterEvent e, [.event e], .ok (.event e)⟩
  | .checkpoint status state =>
    if j.finalized then j.raises "audit run is already finalized"
    else
      let c := j.newCheckpoint (clock 0) status state
      ⟨j.afterCheckpoint, [.checkpoint c], .ok (.checkpoint c)⟩
  | .mergeCheckpoint status updates =>
    if j.finalized then j.raises "audit run is already finalized"
    else
      let c := j.newCheckpoint (clock 0) status (mergedState disk updates)
      ⟨j.afterCheckpoint, [.checkpoint c], .ok (.checkpoint c)⟩
  | .compareAndSwap expectedRevision expectedHeadHash status state eventType eventStatus payload
      actor =>
    j.compareAndSwap clock disk expectedRevision expectedHeadHash status state eventType eventStatus
      payload actor
  | .finalize status result state => j.finalize clock disk status result state

end Journal

/-! ## Restarting -/

variable {host : Host}

/-- The checks of `open_existing`. -/
def checkExisting (host : Host) (disk : Disk) : Except String (Verification × Checkpoint) := do
  let v ← verifyEventJournal host.fromIsoformat disk.files disk.events
  let c ← disk.loadCheckpoint host
  verifyIdentity v c
  require (c.sequence ≤ v.eventCount) "checkpoint sequence is ahead of the journal"
  require (c.headHash = (v.eventHashes.take c.sequence).getLast?)
    "checkpoint does not bind its journal position"
  verifyTerminal disk c
  if disk.manifest.isSome then
    (verifyDirectory host disk).bind fun _ =>
      (require (c.sequence = v.eventCount) "finalized audit checkpoint lags its journal").map
        fun _ => (v, c)
  else return (v, c)

/-- The journal that is opened at a checkpoint. -/
def openedJournal (actor : AuditActor) (disk : Disk) (v : Verification) (c : Checkpoint) :
    Journal where
  runId := c.runId
  evidenceClassification := c.evidenceClassification
  actor := actor
  sequence := v.eventCount
  headHash := v.headHash
  revision := c.revision
  artifactNumber := disk.files.items.length
  startedAt := c.startedAt
  finalized := disk.manifest.isSome

/-- The writes that bring a checkpoint up to the journal. -/
def reconcile (clock : ℕ → Tick host) (j : Journal) (c : Checkpoint) : Outcome :=
  let lag := j.sequence - c.sequence
  let recovering := j.newCheckpoint (clock 0) "recovering"
    ((c.state.set "reconciled_from_revision" (Payload.number c.revision)).set
      "reconciled_event_count" (Payload.number lag))
  let j := j.afterCheckpoint
  let e := j.newEvent (clock 1) (Journal.plainDraft (clock 1) "checkpoint_reconciled" "succeeded"
    ((Payload.empty.set "prior_revision" (Payload.number c.revision)).set "reconciled_event_count"
      (Payload.number lag)) j.actor)
  let j := j.afterEvent e
  let running := j.newCheckpoint (clock 2) "running" (Payload.update recovering.state Payload.empty)
  ⟨j.afterCheckpoint, [.checkpoint recovering, .event e, .checkpoint running],
    .ok (.checkpoint running)⟩

/-- `open_existing`: a checkpoint that lags the journal is reconciled. -/
def openExisting (clock : ℕ → Tick host) (actor : AuditActor) (disk : Disk) :
    Except String Outcome :=
  (checkExisting host disk).map fun (v, c) =>
    let j := openedJournal actor disk v c
    if c.sequence = v.eventCount then ⟨j, [], .ok (.checkpoint c)⟩ else reconcile clock j c

/-- What a recovery leaves: its writes, and the manifest or the error raised. -/
structure Recovery where
  writes : List FileWrite
  answer : Except String Manifest

/-- `recover_interrupted`. -/
def recoverInterrupted (clock : ℕ → Tick host) (actor : AuditActor) (reason : String)
    (disk : Disk) : Recovery :=
  match openExisting clock actor disk with
  | .error e => ⟨[], .error e⟩
  | .ok opened =>
    let disk := disk.writeAll opened.writes
    match disk.checkpoint, disk.manifest with
    | none, _ => ⟨opened.writes, .error "invalid audit JSON: checkpoint.json"⟩
    | some c, manifest =>
      if c.status ∈ terminalStatuses then
        match manifest with
        | some m => ⟨opened.writes, .ok m⟩
        | none => ⟨opened.writes, .error "terminal checkpoint is missing its manifest"⟩
      else if opened.journal.finalized then
        ⟨opened.writes, .error "audit run is already finalized"⟩
      else
        let j := opened.journal
        let e := j.newEvent (clock 3) (Journal.plainDraft (clock 3) "recovery" "interrupted"
          (((Payload.empty.set "reason" (Payload.text reason)).set "recovered_checkpoint_revision"
            (Payload.number c.revision)).set "recovered_state" (Payload.object c.state)) j.actor)
        let j := j.afterEvent e
        let interrupted := j.newCheckpoint (clock 4) "interrupted"
          (((Payload.empty.set "active_children" Payload.emptyList).set "active_sessions"
            Payload.emptyList).set "recovered_from_revision" (Payload.number c.revision))
        let j := j.afterCheckpoint
        let writes := [.event e, .checkpoint interrupted]
        let finalized := j.finalize (fun n => clock (n + 5)) (disk.writeAll writes) "interrupted"
          ((Payload.empty.set "status" (Payload.text "interrupted")).set "reason"
            (Payload.text reason)) none
        ⟨opened.writes ++ writes ++ finalized.writes,
          match finalized.answer with
          | .ok (.manifest m) => .ok m
          | .ok _ => .error "no manifest"
          | .error message => .error message⟩

/-- `__init__`. -/
def newJournal (clock : ℕ → Tick host) (actor : AuditActor) (runId evidenceClassification : String) :
    Outcome :=
  let j : Journal :=
    { runId, evidenceClassification, actor, sequence := 0, headHash := none, revision := 0
      artifactNumber := 0, startedAt := (clock 0).timestamp.1, finalized := false }
  let e := j.newEvent (clock 1) (Journal.plainDraft (clock 1) "run_started" "started"
    (Payload.empty.set "audit_protocol" (Payload.text auditProtocol)) actor)
  let j := j.afterEvent e
  let c := j.newCheckpoint (clock 2) "running"
    ((Payload.empty.set "active_children" Payload.emptyList).set "active_sessions"
      Payload.emptyList)
  ⟨j.afterCheckpoint, [.event e, .checkpoint c], .ok (.checkpoint c)⟩

end HarnessLabs.Audit
