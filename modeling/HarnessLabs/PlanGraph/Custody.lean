import HarnessLabs.Controller.Resume

/-!
# Reading custody from the journal

The PlanGraph audit reads the candidates that an attempt reused, and the artifacts it recorded, back
from the audit journal. Like the controller it splits the file at every line boundary.

* `reuseReceiptCustody`, `recordsArtifact` — the readers.
* `journal_readers_agree` — **on a journal that verifies, the readers see the appended events
  exactly when no string in them holds a line boundary that canonical texts leave as it is; otherwise
  they raise.**
-/

namespace HarnessLabs.PlanGraph

open Audit Controller Lines

/-! ## Reused candidates -/

/-- `_is_git_commit`: 40 lowercase hexadecimal digits. -/
def isGitCommit (s : String) : Bool :=
  s.toList.length == 40 && s.toList.all (Sha256.hexDigits.contains ·)

def decodeUtf8 (raw : List ℕ) : Option (List Char) :=
  (String.fromUTF8? ⟨(raw.map UInt8.ofNat).toArray⟩).map String.toList

/-- The custody that one artifact of a reuse event gives. -/
def readReuseReceipt (files : Dict String (List ℕ)) (custody : Dict String String)
    (artifact : Json) : Except String (Dict String String) :=
  if artifact.asMembers?.isNone then .ok custody
  else
    match files.get? (textOr artifact "path" "") with
    | none => .error "predecessor reuse custody is invalid"
    | some raw =>
      if artifact.get? "sha256" ≠ some (.str (Sha256.hexdigest raw)) then
        .error "reuse receipt does not match its recorded digest"
      else
        match (decodeUtf8 raw).bind Json.loads with
        | none => .error "predecessor reuse custody is invalid"
        | some receipt =>
          match receipt.get? "node_id", receipt.get? "candidate_commit" with
          | some (.str nodeId), some (.str candidate) =>
            if isGitCommit candidate then .ok (custody.set nodeId candidate) else .ok custody
          | _, _ => .ok custody

def eventArtifacts (event : Json) : Except String (List Json) :=
  match (event.get? "artifacts").getD (.arr []) with
  | .arr artifacts => .ok artifacts
  | _ => .error "TypeError: not iterable"

def visitReuse (files : Dict String (List ℕ)) (custody : Dict String String) (event : Json) :
    Except String (Dict String String) :=
  if event.asMembers?.isNone then .error "AttributeError: get"
  else if event.get? "event_type" ≠ some (.str "plan_graph_node_reused") then .ok custody
  else (eventArtifacts event).bind fun artifacts =>
    artifacts.foldlM (readReuseReceipt files) custody

/-- `_reuse_receipt_custody`. -/
def reuseReceiptCustody (files : Dict String (List ℕ)) (text : List Char) :
    Except String (Dict String String) := loadJournal (visitReuse files) ∅ text

/-! ## Recorded artifacts -/

/-- An artifact of the event has the digest. -/
def recordedBy (digest : String) (event : Json) : Except String Bool :=
  if event.asMembers?.isNone then .error "AttributeError: get"
  else (eventArtifacts event).map fun artifacts =>
    artifacts.any fun a => a.asMembers?.isSome && a.get? "sha256" == some (.str digest)

/-- The search of `_has_recorded_artifact` in the attempt's own journal. It ends at the first event
that has the artifact, and reads no line behind it. -/
def recordsArtifact (digest : String) : List (List Char) → Except String Bool
  | [] => .ok false
  | line :: rest =>
    match Json.loads line with
    | none => .error "predecessor artifact inventory is invalid"
    | some event =>
      match recordedBy digest event with
      | .ok false => recordsArtifact digest rest
      | found => found

/-! ## Agreement -/

section Agreement

variable {fromIsoformat : String → Bool} {files : Dict String (List ℕ)} {es : List AuditEvent}

/-- The first event that has the artifact or cannot be searched. -/
def firstRecorded (digest : String) : List Json → Except String Bool
  | [] => .ok false
  | event :: rest =>
    match recordedBy digest event with
    | .ok false => firstRecorded digest rest
    | found => found

theorem recordsArtifact_of_unbroken (digest : String) (h : ∀ e ∈ es, Unbroken e.value) :
    recordsArtifact digest (splitlines (journalText es)) =
      firstRecorded digest (es.map (·.value)) := by
  rw [splitlines, journalText, translateNewlines_eq_self (carriageReturn_notMem _),
    splitBreaks_writeLines rfl]
  · induction es with
    | nil => rfl
    | cons e es ih =>
      have hload : Json.loads (Json.dumps e.value) = some e.value := by
        simpa using Json.loads_dumps (keyed_value e) (List.forall_mem_nil _)
      have hrest := ih fun x hx => h x (List.mem_cons_of_mem e hx)
      simp only [List.map_cons, recordsArtifact, firstRecorded, hload, hrest]
  · intro v hv c hc
    obtain ⟨e, he, rfl⟩ := List.mem_map.1 hv
    exact isBoundary_of_mem_dumps (h e he) hc

/-- **The readers and the verification.** On a journal that verifies, the loop of every reader runs
over the appended events exactly when no string in them holds a line boundary that canonical texts
leave as it is. Then each reader returns what its loop makes of these events; otherwise the readers
that read the whole file raise. -/
theorem journal_readers_agree {runId evidenceClassification : String} {drafts : List Draft}
    {v : Verification}
    (haccepts : verifyEventJournal fromIsoformat files
      (journalText (appendAll runId evidenceClassification drafts)) = .ok v) :
    let es := appendAll runId evidenceClassification drafts
    v.eventHashes = es.map (·.eventHash) ∧
    ((∀ (σ : Type) (visit : σ → Json → Except String σ) (start : σ),
      loadJournal visit start (journalText es) = visitAll visit start es) ↔
        ∀ e ∈ es, Unbroken e.value) ∧
    ((∀ e ∈ es, Unbroken e.value) →
      loadKernelEvents (journalText es) = visitAll visitKernelEvent [] es ∧
      loadReceiptState (journalText es) = visitAll visitReceipt ∅ es ∧
      reuseReceiptCustody files (journalText es) = visitAll (visitReuse files) ∅ es ∧
      ∀ digest, recordsArtifact digest (splitlines (journalText es)) =
        firstRecorded digest (es.map (·.value))) ∧
    ((∃ e ∈ es, ¬ Unbroken e.value) →
      (∃ m, loadKernelEvents (journalText es) = .error m) ∧
      (∃ m, loadReceiptState (journalText es) = .error m) ∧
      ∃ m, reuseReceiptCustody files (journalText es) = .error m) := by
  intro es
  have hes : es ≠ [] := by
    intro hnil
    change verifyEventJournal fromIsoformat files (journalText es) = .ok v at haccepts
    rw [hnil] at haccepts
    cases haccepts
  obtain ⟨-, rfl⟩ := (verifyEventJournal_eq_ok (linked_appendAll drafts) hes).1 haccepts
  refine ⟨rfl, loadJournal_iff es, fun h => ?_, fun h => ?_⟩
  · exact ⟨loadJournal_of_unbroken _ _ h, loadJournal_of_unbroken _ _ h,
      loadJournal_of_unbroken _ _ h, fun digest => recordsArtifact_of_unbroken digest h⟩
  · exact ⟨loadJournal_of_broken _ _ h, loadJournal_of_broken _ _ h, loadJournal_of_broken _ _ h⟩

/-- An event whose payload holds one text. -/
def noteDraft (text : String) : Draft where
  eventType := "note"
  status := "succeeded"
  payload := ⟨[("text", .str text)], List.pairwise_singleton _ _, trivial, trivial⟩
  actor := ⟨"controller-1", "controller", none⟩
  timestamp := "2024-01-01T00:00:00Z"
  monotonicNs := 0

/-- A journal of one such event. -/
def noteJournal (text : String) : List AuditEvent := appendAll "run" "component" [noteDraft text]

theorem verify_noteJournal (text : String) :
    verifyEventJournal (fun _ => true) ∅ (journalText (noteJournal text)) =
      .ok ⟨.str "run", (noteJournal text).map (·.eventHash), .str "component"⟩ := by
  refine (verifyEventJournal_eq_ok (linked_appendAll [noteDraft text])
    (List.cons_ne_nil _ _)).2 ⟨?_, rfl⟩
  intro e he
  obtain rfl := List.mem_singleton.1 he
  refine ⟨⟨?_, ?_, ?_, ?_, ?_, ?_, ?_, ?_, ?_⟩, ?_⟩
  · simp [nextEvent]
  · simp [nextEvent, evidenceClasses]
  · simp [nextEvent, noteDraft]
  · simp [nextEvent, noteDraft]
  · simp [nextEvent, noteDraft]
  · simp [nextEvent, noteDraft]
  · show isTimestamp _ "2024-01-01T00:00:00Z" = true
    decide
  · exact fun d hd => by cases hd
  · exact List.forall_mem_nil _
  · exact List.forall_mem_nil _

theorem journal_readers_agree_note :
    ((∀ (σ : Type) (visit : σ → Json → Except String σ) (start : σ),
      loadJournal visit start (journalText (noteJournal "ready")) =
        visitAll visit start (noteJournal "ready")) ↔
      ∀ e ∈ noteJournal "ready", Unbroken e.value) :=
  (journal_readers_agree (verify_noteJournal "ready")).2.1

/-- A line separator in a payload: the verification accepts the journal, and neither the controller
nor the PlanGraph audit can read it. -/
theorem readers_raise_at_line_separator :
    (∃ v, verifyEventJournal (fun _ => true) ∅ (journalText (noteJournal "\u2028")) = .ok v) ∧
    (∃ m, loadKernelEvents (journalText (noteJournal "\u2028")) = .error m) ∧
    ∃ m, reuseReceiptCustody ∅ (journalText (noteJournal "\u2028")) = .error m := by
  have hbroken : ∃ e ∈ noteJournal "\u2028", ¬ Unbroken e.value := by
    refine ⟨_, List.mem_singleton_self _, fun h => ?_⟩
    have hpayload : ("payload", Json.obj [("text", .str "\u2028")]) ∈
        (nextEvent "run" "component" [] (noteDraft "\u2028")).membersBehind := by
      simp [AuditEvent.membersBehind, nextEvent, noteDraft]
    have hmem : Char.ofNat 0x2028 ∈ chars (nextEvent "run" "component" []
        (noteDraft "\u2028")).value := by
      refine mem_charsMembers (List.mem_append_right _ (List.mem_cons_of_mem _ hpayload)) ?_
      exact mem_charsMembers (List.mem_singleton_self _) (List.mem_singleton_self _)
    exact absurd (h _ hmem) (by decide)
  exact ⟨⟨_, verify_noteJournal _⟩, loadJournal_of_broken _ _ hbroken,
    loadJournal_of_broken _ _ hbroken⟩

end Agreement

end HarnessLabs.PlanGraph
