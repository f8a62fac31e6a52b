import HarnessLabs.Lib.Dict
import HarnessLabs.Lib.Json
import HarnessLabs.Lib.Sha256

/-!
# Attempts and evidence

The records that every component shares: what an executor returns for an attempt, and the evidence
catalog, which stores a content once under its digest.

* `contentRef` — the catalog's content address of a JSON value.
* `EvidenceCatalog.add` — a content that is already stored keeps its first record.
-/

namespace HarnessLabs

/-! ## Attempts -/

/-- The statuses that `VALID_STATUSES` admits. -/
inductive AttemptStatus where
  | succeeded
  | blocked
  | failed
  | cancelled
  deriving DecidableEq

def AttemptStatus.text : AttemptStatus → String
  | .succeeded => "succeeded"
  | .blocked => "blocked"
  | .failed => "failed"
  | .cancelled => "cancelled"

structure TaskResult where
  attemptId : String
  status : AttemptStatus
  payload : Json
  evidence : List String

/-! ## Evidence -/

/-- The bytes that the catalog stores for a JSON content. -/
def encodeContent (value : Json) : List ℕ := Json.utf8 (Json.dumps value ++ ['\n'])

def artifactRef (digest : String) : String := "artifact:sha256:" ++ digest

/-- `EvidenceCatalog.add`'s reference for a JSON content. -/
def contentRef (value : Json) : String := artifactRef (Sha256.hexdigest (encodeContent value))

structure EvidenceRecord where
  ref : String
  kind : String
  sha256 : String
  mediaType : String
  producerTaskId : String
  deriving DecidableEq

/-- The records by reference, and the JSON value that each stored content decodes to. -/
structure EvidenceCatalog where
  records : Dict String EvidenceRecord
  content : Dict String Json

namespace EvidenceCatalog

def contains (catalog : EvidenceCatalog) (ref : String) : Bool := catalog.records.contains ref

/-- The records that a producer added, as `list` orders them. -/
def producedBy (catalog : EvidenceCatalog) (producer : String) : List String :=
  (catalog.records.values.filter (·.producerTaskId == producer)).map (·.ref)

def add (catalog : EvidenceCatalog) (kind : String) (content : Json)
    (mediaType producerTaskId : String) : EvidenceCatalog × EvidenceRecord :=
  let digest := Sha256.hexdigest (encodeContent content)
  let ref := artifactRef digest
  match catalog.records.get? ref with
  | some existing => (catalog, existing)
  | none =>
    let record := ⟨ref, kind, digest, mediaType, producerTaskId⟩
    (⟨catalog.records.set ref record, catalog.content.set ref content⟩, record)

end EvidenceCatalog

end HarnessLabs
