import HarnessLabs.Controller.Command
import HarnessLabs.Core.Audit

/-!
# Resuming from the journal

The controller reads its events and its receipts back from the audit journal. It splits the file at
every line boundary, where the verification splits it at line feeds.

* `loadKernelEvents`, `loadReceiptState` — the two readers.
* `loadJournal_iff` — **a reader of this kind sees the appended events exactly when no string of
  theirs holds a line boundary that canonical texts leave as it is.**
-/

namespace HarnessLabs.Controller

open Audit Lines

/-- Read the journal as every reader outside of the verification does: each line of
`read_text().splitlines()` is a JSON text, and `visit` is what the loop does with its value. -/
def loadJournal {σ : Type} (visit : σ → Json → Except String σ) (start : σ) (text : List Char) :
    Except String σ := readEach visit start (splitlines text)

/-! ## Kernel events -/

/-- A `KernelEvent` as it is stored. -/
structure StoredEvent where
  eventId : String
  runId : String
  revision : ℤ
  eventType : String
  actor : AuditActor
  commandId : String
  payload : List (String × Json)

/-- `str(value[name])`. -/
def textMember (value : Json) (name : String) : Except String String :=
  match value.get? name with
  | none => .error ("KeyError: " ++ name)
  | some v => .ok (pyStr v)

/-- `int(value)`, of a text that is a plain numeral. -/
def pyIntOf : Json → Except String ℤ
  | .int n => .ok n
  | .bool b => .ok (if b then 1 else 0)
  | .str s =>
    match s.toInt? with
    | some n => .ok n
    | none => .error "ValueError: invalid literal for int()"
  | _ => .error "TypeError: int() argument"

def readStoredEvent (event : Json) : Except String StoredEvent :=
  match event.get? "actor" with
  | some (.obj members) => do
    let actor := Json.obj members
    let eventId ← textMember event "event_id"
    let runId ← textMember event "run_id"
    let revision ← match event.get? "revision" with
      | none => throw "KeyError: revision"
      | some v => pyIntOf v
    let eventType ← textMember event "event_type"
    let actorId ← textMember actor "id"
    let role ← textMember actor "role"
    let parentId := match actor.get? "parent_id" with
      | none => none
      | some .null => none
      | some v => some (pyStr v)
    let commandId ← textMember event "command_id"
    match event.get? "payload" with
    | some (.obj payload) =>
      return ⟨eventId, runId, revision, eventType, ⟨actorId, role, parentId⟩, commandId, payload⟩
    | none => throw "KeyError: payload"
    | some _ => throw "ValueError: payload"
  | _ => .error "stored controller event actor is invalid"

/-- `value.get("payload", {})` of an object. -/
def payloadOf (value : Json) : Except String Json :=
  match value with
  | .obj _ =>
    match (value.get? "payload").getD (.obj []) with
    | .obj members => .ok (.obj members)
    | _ => .error "AttributeError: get"
  | _ => .error "AttributeError: get"

def visitKernelEvent (events : List StoredEvent) (value : Json) :
    Except String (List StoredEvent) := do
  let payload ← payloadOf value
  match payload.get? "controller_event" with
  | some (.obj members) => return events ++ [← readStoredEvent (.obj members)]
  | _ => return events

/-- `_load_kernel_events`. -/
def loadKernelEvents (text : List Char) : Except String (List StoredEvent) :=
  loadJournal visitKernelEvent [] text

/-! ## Receipts -/

def visitReceipt (receipts : Dict String Json) (value : Json) :
    Except String (Dict String Json) := do
  if value.asMembers?.isNone then throw "AttributeError: get"
  if value.get? "event_type" ≠ some (.str "command_processed") then return receipts
  let payload ← payloadOf value
  match payload.get? "command", payload.get? "receipt" with
  | some (.obj command), some (.obj receipt) =>
    if (Json.obj receipt).get? "status" ≠ some (.str "accepted") then return receipts
    return receipts.set (← textMember (.obj command) "idempotency_key") (.obj receipt)
  | _, _ => throw "stored command receipt is invalid"

/-- `_load_receipt_state`. -/
def loadReceiptState (text : List Char) : Except String (Dict String Json) :=
  loadJournal visitReceipt ∅ text

/-! ## What the readers see -/

section Agreement

variable {σ : Type} {es : List AuditEvent}

/-- The visits to the appended events, in order. -/
def visitAll (visit : σ → Json → Except String σ) (start : σ) (es : List AuditEvent) :
    Except String σ := (es.map (·.value)).foldlM visit start

theorem loadJournal_of_unbroken (visit : σ → Json → Except String σ) (start : σ)
    (h : ∀ e ∈ es, Unbroken e.value) :
    loadJournal visit start (journalText es) = visitAll visit start es := by
  refine readEach_splitlines visit start ?_
  intro v hv
  obtain ⟨e, he, rfl⟩ := List.mem_map.1 hv
  exact ⟨keyed_value e, h e he⟩

theorem loadJournal_of_broken (visit : σ → Json → Except String σ) (start : σ)
    (h : ∃ e ∈ es, ¬ Unbroken e.value) :
    ∃ message, loadJournal visit start (journalText es) = .error message := by
  refine readEach_of_broken visit start ?_ ?_
  · intro v hv
    obtain ⟨e, -, rfl⟩ := List.mem_map.1 hv
    exact isRecord_value e
  · obtain ⟨e, he, hbroken⟩ := h
    exact ⟨e.value, List.mem_map_of_mem he, hbroken⟩

theorem visitAll_snoc (es : List AuditEvent) :
    visitAll (fun seen value => .ok (seen ++ [value])) [] es = .ok (es.map (·.value)) := by
  suffices h : ∀ (values seen : List Json),
      values.foldlM (fun seen value => (.ok (seen ++ [value]) : Except String (List Json))) seen =
        .ok (seen ++ values) from h (es.map AuditEvent.value) []
  intro values
  induction values with
  | nil => simp [pure, Except.pure]
  | cons v values ih =>
    intro seen
    exact (ih (seen ++ [v])).trans (by simp)

/-- **What a reader sees.** Whatever the loop does with a value, it runs over the appended events in
their order, exactly when their strings hold no such boundary. -/
theorem loadJournal_iff (es : List AuditEvent) :
    (∀ (σ : Type) (visit : σ → Json → Except String σ) (start : σ),
      loadJournal visit start (journalText es) = visitAll visit start es) ↔
    ∀ e ∈ es, Unbroken e.value := by
  constructor
  · intro hall
    by_contra hbroken
    push Not at hbroken
    obtain ⟨message, hmessage⟩ := loadJournal_of_broken
      (fun seen value => .ok (seen ++ [value])) ([] : List Json) hbroken
    rw [hall, visitAll_snoc] at hmessage
    cases hmessage
  · intro h σ visit start
    exact loadJournal_of_unbroken visit start h

end Agreement

end HarnessLabs.Controller
