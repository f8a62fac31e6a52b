import HarnessLabs.Controller.Command
import HarnessLabs.Lib.FirstWins
import HarnessLabs.Lib.JsonText

/-!
# Brokered effects

A broker runs browser, network and external effects through injected handlers, once for each
idempotency key, and answers a repeated key with the receipt that it has. Before it replays it
compares the kind, the operation and the target of the effect, but neither its payload nor its
authorization.

* `execute` — one request; `brokered` — the task executor on top of it.
* `Served` — a handler runs once for each key, a denial changes nothing, and what is replayed or
  reported as completed is the effect that was requested.
* `served_iff` — **this holds exactly when no allowed request repeats an executed effect with
  another payload or authorization.**
-/

namespace HarnessLabs.Capability

open HarnessLabs.Controller (isBlank pyStr)

/-- An exception: the name of its type, and its text. -/
structure Failure where
  errorType : String
  error : String

def denied (error : String) : Failure := ⟨"CapabilityDenied", error⟩

def invalid (error : String) : Failure := ⟨"ValueError", error⟩

/-! ## Requests -/

inductive CapabilityKind where
  | browser
  | network
  | externalEffect
  deriving DecidableEq

def CapabilityKind.text : CapabilityKind → String
  | .browser => "browser"
  | .network => "network"
  | .externalEffect => "external_effect"

/-- `CAPABILITY_KINDS`. -/
def capabilityKinds : List CapabilityKind := [.browser, .network, .externalEffect]

def capabilityRequestProtocol : String := "capability-request/1"

def capabilityReceiptProtocol : String := "capability-receipt/1"

structure CapabilityRequest where
  requestId : String
  kind : CapabilityKind
  operation : String
  target : String
  payload : Json
  idempotencyKey : String
  authorizationRef : Option String := none
  deriving DecidableEq

/-- A field as text, or the empty text. -/
def fieldText (value : Json) (name : String) : String := ((value.get? name).map pyStr).getD ""

/-- `CapabilityRequest.from_mapping`, with the checks of `__post_init__`. -/
def CapabilityRequest.fromMapping (value : Json) : Except Failure CapabilityRequest := do
  let payload ← match value.get? "payload" with
    | some (.obj members) => pure (Json.obj members)
    | _ => throw (invalid "capability request payload must be an object")
  let authorizationRef ← match value.get? "authorization_ref" with
    | none => pure none
    | some .null => pure none
    | some (.str ref) => pure (some ref)
    | some _ => throw (invalid "capability request authorization_ref must be a string or null")
  if fieldText value "protocol" ≠ capabilityRequestProtocol then
    throw (invalid "capability request protocol is invalid")
  match capabilityKinds.find? (·.text == fieldText value "kind") with
  | none => throw (invalid "capability request kind is invalid")
  | some kind =>
    match ["request_id", "operation", "target", "idempotency_key"].find? fun name =>
        isBlank (fieldText value name) with
    | some name => throw (invalid ("capability request " ++ name ++ " must be non-empty"))
    | none =>
      return { requestId := fieldText value "request_id", kind
               operation := fieldText value "operation", target := fieldText value "target"
               payload, idempotencyKey := fieldText value "idempotency_key", authorizationRef }

/-- The parts of a URL; a port may be malformed. -/
structure SplitUrl where
  scheme : String
  hostname : Option String
  port : Except Failure (Option ℕ)
  username : Option String
  password : Option String

/-- `urlsplit`, and the text of the error that decoding a malformed JSON text raises. -/
structure Host where
  urlsplit : String → Except Failure SplitUrl
  decodeError : String → String

structure CapabilityPolicy where
  browserOperations : List String := []
  browserOrigins : List String := []
  networkOperations : List String := []
  networkHosts : List String := []
  externalEffectOperations : List String := []
  externalEffectTargets : List String := []

def requireAllowed (value : String) (allowed : List String) : Except Failure Unit :=
  if value ∈ allowed then .ok ()
  else .error (denied ("capability value is not allowed: " ++ value))

/-- `_host`. -/
def hostOf (host : Host) (target : String) : Except Failure String := do
  let parsed ← host.urlsplit target
  if parsed.scheme ∉ ["http", "https"] ∨ parsed.hostname.getD "" = "" then
    throw (denied "network target must be an absolute HTTP(S) URL")
  if parsed.username.getD "" ≠ "" ∨ parsed.password.getD "" ≠ "" then
    throw (denied "network target cannot contain credentials")
  return (parsed.hostname.getD "").toLower

/-- `_origin`. -/
def origin (host : Host) (target : String) : Except Failure String := do
  let parsed ← host.urlsplit target
  let name ← hostOf host target
  let port := (← parsed.port).elim "" fun port => ":" ++ toString port
  return parsed.scheme.toLower ++ "://" ++ name ++ port

/-! ## The broker -/

structure CapabilityReceipt where
  requestId : String
  kind : CapabilityKind
  operation : String
  target : String
  succeeded : Bool
  durationMs : ℕ
  result : Json
  authorizationRef : Option String
  replayed : Bool := false
  deriving DecidableEq

def CapabilityReceipt.status (receipt : CapabilityReceipt) : String :=
  if receipt.succeeded then "succeeded" else "failed"

/-- `as_dict`. -/
def CapabilityReceipt.asDict (receipt : CapabilityReceipt) : Json :=
  .obj [("protocol", .str capabilityReceiptProtocol), ("request_id", .str receipt.requestId),
    ("kind", .str receipt.kind.text), ("operation", .str receipt.operation),
    ("target", .str receipt.target), ("status", .str receipt.status),
    ("duration_ms", .int receipt.durationMs),
    ("authorization_ref", receipt.authorizationRef.elim .null .str),
    ("replayed", .bool receipt.replayed), ("result", receipt.result)]

structure CapabilityBroker where
  host : Host
  policy : CapabilityPolicy
  handlers : List CapabilityKind

/-- What a handler would do if it were run. -/
inductive HandlerReply where
  | returned (members : List (String × Json))
  | notMapping
  | raised (error errorType : String)

/-- The status and the result that a reply leaves in its receipt. -/
def HandlerReply.outcome : HandlerReply → Bool × Json
  | .returned members => (true, .obj members)
  | .notMapping => (false, .obj [("error", .str "capability handler result must be an object"),
      ("error_type", .str "TypeError")])
  | .raised error errorType => (false, .obj [("error", .str error), ("error_type", .str errorType)])

/-- A request, with what its handler would do and how long that would take. -/
structure Call where
  request : CapabilityRequest
  reply : HandlerReply
  durationMs : ℕ

/-- The receipts behind a call, whether the handler ran, and the answer. -/
structure Execution where
  receipts : Dict String CapabilityReceipt
  ran : Bool
  answer : Except Failure CapabilityReceipt

namespace CapabilityBroker

variable (broker : CapabilityBroker)

/-- `_authorize`. -/
def authorize (request : CapabilityRequest) : Except Failure Unit :=
  match request.kind with
  | .browser => do
    requireAllowed request.operation broker.policy.browserOperations
    requireAllowed (← origin broker.host request.target) broker.policy.browserOrigins
  | .network => do
    requireAllowed request.operation.toUpper broker.policy.networkOperations
    requireAllowed (← hostOf broker.host request.target) broker.policy.networkHosts
  | .externalEffect => do
    requireAllowed request.operation broker.policy.externalEffectOperations
    requireAllowed request.target broker.policy.externalEffectTargets
    if request.authorizationRef.getD "" = "" then
      throw (denied "external effects require an explicit authorization reference")

/-- The receipt of an effect that was run. -/
def receiptOf (call : Call) : CapabilityReceipt where
  requestId := call.request.requestId
  kind := call.request.kind
  operation := call.request.operation
  target := call.request.target
  succeeded := call.reply.outcome.1
  durationMs := call.durationMs
  result := call.reply.outcome.2
  authorizationRef := call.request.authorizationRef

/-- `execute`. -/
def execute (receipts : Dict String CapabilityReceipt) (call : Call) : Execution :=
  let request := call.request
  match broker.authorize request with
  | .error failure => ⟨receipts, false, .error failure⟩
  | .ok () =>
    match receipts.get? request.idempotencyKey with
    | some previous =>
      if (previous.kind, previous.operation, previous.target) ≠
          (request.kind, request.operation, request.target) then
        ⟨receipts, false, .error (denied "idempotency key was reused for another effect")⟩
      else ⟨receipts, false, .ok { previous with replayed := true }⟩
    | none =>
      if request.kind ∉ broker.handlers then
        ⟨receipts, false,
          .error (denied ("no controller handler is registered for " ++ request.kind.text))⟩
      else
        ⟨receipts.set request.idempotencyKey (receiptOf call), true, .ok (receiptOf call)⟩

/-- The receipts behind a sequence of calls. -/
def receipts (calls : List Call) : Dict String CapabilityReceipt :=
  calls.foldl (fun receipts call => (broker.execute receipts call).receipts) ∅

/-- The execution of a call behind others. -/
def serve (before : List Call) (call : Call) : Execution :=
  broker.execute (broker.receipts before) call

end CapabilityBroker

/-! ## The task executor -/

/-- What the executor reads of its task. -/
structure CapabilityTask where
  id : String
  context : Json
  requiredCapabilities : List String
  detailsSchema : String

/-- The request that a task is for. -/
def CapabilityTask.request (host : Host) (task : CapabilityTask) :
    Except Failure CapabilityRequest := do
  let context ← match task.context with
    | .str text =>
      match Json.loads text.toList with
      | some value => pure value
      | none => throw ⟨"JSONDecodeError", host.decodeError text⟩
    | value => pure value
  match context with
  | .obj members =>
    match (Json.obj members).get? "capability_request" with
    | some (.obj request) =>
      let request ← CapabilityRequest.fromMapping (.obj request)
      if request.kind.text ∉ task.requiredCapabilities then
        throw (denied "capability request kind is absent from the task grant")
      return request
    | _ => throw (invalid "capability task requires context.capability_request")
  | _ => throw (invalid "capability task context must be an object")

def failureResult (attemptId : String) (failure : Failure) : TaskResult :=
  ⟨attemptId, .failed,
    .obj [("error", .str failure.error), ("error_type", .str failure.errorType)], []⟩

/-- The record of a stored receipt, as the result lists it; `auditPath` is where its journal
wrote it. -/
def artifactDict (record : EvidenceRecord) (content : Json) (auditPath : Option String) : Json :=
  .obj [("ref", .str record.ref), ("kind", .str record.kind), ("sha256", .str record.sha256),
    ("media_type", .str record.mediaType), ("producer_task_id", .str record.producerTaskId),
    ("size_bytes", .int (encodeContent content).length),
    ("audit_path", auditPath.elim .null .str)]

/-- The result of an effect that was run or replayed. -/
def completedResult (attemptId : String) (task : CapabilityTask) (request : CapabilityRequest)
    (receipt : CapabilityReceipt) (record : EvidenceRecord) (auditPath : Option String) :
    TaskResult :=
  ⟨attemptId, .succeeded,
    .obj [("protocol", .str "semantic-task-result/1"),
      ("summary", .str (receipt.kind.text ++ " capability " ++ receipt.operation ++ " completed")),
      ("claims", .arr [.obj [("id", .str ("capability-" ++ request.requestId)),
        ("statement", .str ("Controller broker completed " ++ request.operation ++ " for " ++
          request.target)),
        ("kind", .str "observed"), ("evidence_refs", .arr [.str record.ref])]]),
      ("findings", .arr []), ("artifacts", .arr [artifactDict record receipt.asDict auditPath]),
      ("criterion_coverage", .arr []), ("recommendations", .arr []),
      ("unresolved_questions", .arr []), ("delegation_requests", .arr []),
      ("details_schema", .str task.detailsSchema),
      ("details", .obj [("capability_receipt", receipt.asDict)])],
    [record.ref, "capability-broker:" ++ request.kind.text]⟩

/-- `BrokeredCapabilityExecutor.execute`, behind earlier calls. -/
def CapabilityBroker.brokered (broker : CapabilityBroker) (before : List Call)
    (task : CapabilityTask) (attemptId : String) (catalog : EvidenceCatalog)
    (auditPath : Option String) (reply : HandlerReply) (durationMs : ℕ) : TaskResult :=
  match task.request broker.host with
  | .error failure => failureResult attemptId failure
  | .ok request =>
    match (broker.serve before ⟨request, reply, durationMs⟩).answer with
    | .error failure => failureResult attemptId failure
    | .ok receipt =>
      if isBlank task.id then
        failureResult attemptId ⟨"EvidenceError", "evidence metadata must be non-empty"⟩
      else
        let record := (catalog.add "capability-receipt" receipt.asDict "application/json" task.id).2
        if receipt.succeeded then completedResult attemptId task request receipt record auditPath
        else ⟨attemptId, .failed, .obj [("receipt", receipt.asDict)], [record.ref]⟩

/-! ## What a broker is for -/

/-- The effects are the same, under whatever request id and key. -/
def SameEffect (a b : CapabilityRequest) : Prop :=
  a.kind = b.kind ∧ a.operation = b.operation ∧ a.target = b.target ∧ a.payload = b.payload ∧
    a.authorizationRef = b.authorizationRef

section Served

variable (broker : CapabilityBroker)

/-- The handler ran for one of the calls. -/
def Ran (calls : List Call) (c : Call) : Prop :=
  ∃ before behind, calls = before ++ c :: behind ∧ (broker.serve before c).ran = true

/-- A handler runs once for each key, a denial changes nothing, and what is replayed or reported
as completed is the effect that was requested. -/
structure Served (calls : List Call) : Prop where
  once : ∀ before c between d behind, calls = before ++ c :: between ++ d :: behind →
    (broker.serve before c).ran = true → (broker.serve (before ++ c :: between) d).ran = true →
    c.request.idempotencyKey ≠ d.request.idempotencyKey
  denied : ∀ before c behind failure, calls = before ++ c :: behind →
    (broker.serve before c).answer = .error failure →
    (broker.serve before c).ran = false ∧
      (broker.serve before c).receipts = broker.receipts before
  replayed : ∀ before c behind receipt, calls = before ++ c :: behind →
    (broker.serve before c).answer = .ok receipt → receipt.replayed = true →
    ∃ d, Ran broker before d ∧ d.request.idempotencyKey = c.request.idempotencyKey ∧
      SameEffect d.request c.request
  completed : ∀ before c behind task attemptId catalog auditPath, calls = before ++ c :: behind →
    task.request broker.host = .ok c.request →
    (broker.brokered before task attemptId catalog auditPath c.reply c.durationMs).status =
      .succeeded →
    ∃ d, Ran broker (before ++ [c]) d ∧ d.reply.outcome.1 = true ∧ SameEffect d.request c.request

/-- The request is authorized and its kind has a handler. -/
def allows (request : CapabilityRequest) : Bool :=
  (broker.authorize request).isOk && decide (request.kind ∈ broker.handlers)

/-- The first allowed call with the key. -/
def executed (calls : List Call) (key : String) : Option Call :=
  FirstWins.first (allows broker ·.request) (·.request.idempotencyKey) calls key

/-- No authorized request repeats kind, operation and target of the first allowed request with its
key and differs from it in the payload or the authorization. -/
def Consistent (calls : List Call) : Prop :=
  ∀ before c behind d, calls = before ++ c :: behind → (broker.authorize c.request).isOk = true →
    executed broker before c.request.idempotencyKey = some d →
    d.request.kind = c.request.kind → d.request.operation = c.request.operation →
    d.request.target = c.request.target →
    d.request.payload = c.request.payload ∧
      d.request.authorizationRef = c.request.authorizationRef

end Served

/-! ## What one request does -/

section Execute

variable {broker : CapabilityBroker} {receipts : Dict String CapabilityReceipt}
  {calls before behind : List Call} {c d : Call} {key : String}

theorem execute_keep (broker : CapabilityBroker) (receipts : Dict String CapabilityReceipt)
    (c : Call) :
    (broker.execute receipts c).receipts = FirstWins.keep (allows broker ·.request)
        (·.request.idempotencyKey) CapabilityBroker.receiptOf receipts c ∧
      ((broker.execute receipts c).ran = true ↔ allows broker c.request = true ∧
        receipts.get? c.request.idempotencyKey = none) := by
  rw [CapabilityBroker.execute, FirstWins.keep, allows, Dict.contains]
  cases broker.authorize c.request with
  | error failure => simp [Except.isOk, Except.toBool]
  | ok =>
    cases hget : receipts.get? c.request.idempotencyKey with
    | some previous => simp only [Option.isSome_some]; split_ifs <;> simp_all
    | none => by_cases hkind : c.request.kind ∈ broker.handlers <;>
        simp [hkind, Except.isOk, Except.toBool]

theorem get?_receipts (broker : CapabilityBroker) (calls : List Call) (key : String) :
    (broker.receipts calls).get? key =
      (executed broker calls key).map CapabilityBroker.receiptOf := by
  rw [executed, ← FirstWins.get?_kept, CapabilityBroker.receipts]
  simp only [(execute_keep broker _ _).1]

/-- The handler ran for the first allowed request with the key, and for no other. -/
theorem ran_iff (before : List Call) (c : Call) : (broker.serve before c).ran = true ↔
    allows broker c.request = true ∧ executed broker before c.request.idempotencyKey = none := by
  rw [CapabilityBroker.serve, (execute_keep broker _ c).2, get?_receipts, Option.map_eq_none_iff]

theorem executed_iff : executed broker calls key = some c ↔
    Ran broker calls c ∧ c.request.idempotencyKey = key := by
  rw [executed, FirstWins.first_eq_some_iff]
  constructor
  · rintro ⟨before, behind, hsplit, hallows, rfl, hnone⟩
    exact ⟨⟨before, behind, hsplit, (ran_iff before c).2 ⟨hallows, hnone⟩⟩, rfl⟩
  · rintro ⟨⟨before, behind, hsplit, hran⟩, rfl⟩
    obtain ⟨hallows, hnone⟩ := (ran_iff before c).1 hran
    exact ⟨before, behind, hsplit, hallows, rfl, hnone⟩

/-- **What one request does**: it is denied, it replays the receipt of the executed effect, or its
handler runs. -/
theorem serve_cases (broker : CapabilityBroker) (before : List Call) (c : Call) :
    (∃ failure, broker.serve before c = ⟨broker.receipts before, false, .error failure⟩) ∨
    (∃ d, (broker.authorize c.request).isOk = true ∧
      executed broker before c.request.idempotencyKey = some d ∧
      (d.request.kind = c.request.kind ∧ d.request.operation = c.request.operation ∧
        d.request.target = c.request.target) ∧
      (broker.serve before c).ran = false ∧ (broker.serve before c).answer =
        .ok { CapabilityBroker.receiptOf d with replayed := true }) ∨
    ((broker.serve before c).ran = true ∧
      (broker.serve before c).answer = .ok (CapabilityBroker.receiptOf c)) := by
  rw [CapabilityBroker.serve, CapabilityBroker.execute]
  cases hauthorized : broker.authorize c.request with
  | error failure => exact .inl ⟨failure, rfl⟩
  | ok =>
    rw [get?_receipts]
    cases hd : executed broker before c.request.idempotencyKey with
    | some d =>
      dsimp only [Option.map_some]
      split_ifs with hsame
      · exact .inl ⟨_, rfl⟩
      · refine .inr (.inl ⟨d, rfl, rfl, ?_, rfl, rfl⟩)
        simpa [CapabilityBroker.receiptOf] using hsame
    | none =>
      by_cases hkind : c.request.kind ∈ broker.handlers
      · exact .inr (.inr ⟨by simp [hkind], by simp [hkind]⟩)
      · exact .inl ⟨_, by simp [hkind]; rfl⟩

theorem serve_replay (hauthorized : (broker.authorize c.request).isOk = true)
    (hd : executed broker before c.request.idempotencyKey = some d)
    (hkind : d.request.kind = c.request.kind) (hoperation : d.request.operation = c.request.operation)
    (htarget : d.request.target = c.request.target) :
    (broker.serve before c).answer =
      .ok { CapabilityBroker.receiptOf d with replayed := true } := by
  rw [CapabilityBroker.serve, CapabilityBroker.execute]
  cases hok : broker.authorize c.request with
  | error failure =>
    rw [hok] at hauthorized
    cases hauthorized
  | ok =>
    simp [get?_receipts, hd, CapabilityBroker.receiptOf, hkind, hoperation, htarget]

/-- A task is completed only by a receipt of success for its request. -/
theorem completed_cases {task : CapabilityTask} {attemptId : String} {catalog : EvidenceCatalog}
    {auditPath : Option String} (htask : task.request broker.host = .ok c.request)
    (h : (broker.brokered before task attemptId catalog auditPath c.reply c.durationMs).status =
      .succeeded) :
    ∃ receipt, (broker.serve before c).answer = .ok receipt ∧ receipt.succeeded = true := by
  rw [CapabilityBroker.brokered, htask] at h
  dsimp only at h
  split at h
  · cases h
  · rename_i receipt hanswer
    refine ⟨receipt, hanswer, ?_⟩
    split_ifs at h with hblank hsucceeded
    · cases h
    · exact hsucceeded

end Execute

/-! ## Over all calls -/

/-- **Brokered effects.** Under every policy, all handlers and every sequence of requests, handlers
run once for each key, denials change nothing, and replays and completions are faithful, exactly
when no authorized request repeats an executed effect with another payload or authorization. -/
theorem served_iff (broker : CapabilityBroker) (calls : List Call) :
    Served broker calls ↔ Consistent broker calls := by
  constructor
  · intro h before c behind d hsplit hauthorized hd hkind hoperation htarget
    have hanswer := serve_replay hauthorized hd hkind hoperation htarget
    obtain ⟨d', hran, hkey, hsame⟩ := h.replayed before c behind _ hsplit hanswer rfl
    obtain rfl := Option.some.inj (hd.symm.trans (executed_iff.2 ⟨hran, hkey⟩))
    exact hsame.2.2.2
  · intro h
    have hsame {before : List Call} {c : Call} {behind : List Call} {d : Call}
        (hsplit : calls = before ++ c :: behind)
        (hauthorized : (broker.authorize c.request).isOk = true)
        (hd : executed broker before c.request.idempotencyKey = some d)
        (hfields : d.request.kind = c.request.kind ∧ d.request.operation = c.request.operation ∧
          d.request.target = c.request.target) : SameEffect d.request c.request :=
      ⟨hfields.1, hfields.2.1, hfields.2.2, h before c behind d hsplit hauthorized hd hfields.1
        hfields.2.1 hfields.2.2⟩
    refine ⟨fun before c between d behind _ hc hd hkey => ?_,
      fun before c behind failure _ hanswer => ?_,
      fun before c behind receipt hsplit hanswer hreplayed => ?_,
      fun before c behind task attemptId catalog auditPath hsplit htask hstatus => ?_⟩
    · have hfirst := FirstWins.first_append (executed_iff.2 ⟨⟨before, [], rfl, hc⟩, hkey⟩) between
      rw [List.append_assoc, List.singleton_append, ← executed,
        ((ran_iff _ d).1 hd).2] at hfirst
      cases hfirst
    · obtain ⟨_, hdenied⟩ | ⟨_, -, -, -, -, hok⟩ | ⟨-, hok⟩ := serve_cases broker before c
      · rw [hdenied]
        exact ⟨rfl, rfl⟩
      · rw [hok] at hanswer
        cases hanswer
      · rw [hok] at hanswer
        cases hanswer
    · obtain ⟨_, hdenied⟩ | ⟨d, hauthorized, hd, hfields, -, -⟩ | ⟨-, hok⟩ :=
        serve_cases broker before c
      · rw [hdenied] at hanswer
        cases hanswer
      · obtain ⟨hran, hkey⟩ := executed_iff.1 hd
        exact ⟨d, hran, hkey, hsame hsplit hauthorized hd hfields⟩
      · rw [hok] at hanswer
        cases hanswer
        cases hreplayed
    · obtain ⟨receipt, hanswer, hsucceeded⟩ := completed_cases htask hstatus
      obtain ⟨_, hdenied⟩ | ⟨d, hauthorized, hd, hfields, -, hok⟩ | ⟨hran, hok⟩ :=
        serve_cases broker before c
      · rw [hdenied] at hanswer
        cases hanswer
      · rw [hok] at hanswer
        cases hanswer
        obtain ⟨first, rest, rfl, hran⟩ := (executed_iff.1 hd).1
        exact ⟨d, ⟨first, rest ++ [c], by simp, hran⟩, hsucceeded,
          hsame hsplit hauthorized hd hfields⟩
      · rw [hok] at hanswer
        cases hanswer
        exact ⟨c, ⟨before, [], rfl, hran⟩, hsucceeded, rfl, rfl, rfl, rfl, rfl⟩

/-! ## A second payload under one key -/

def publishBroker : CapabilityBroker where
  host := ⟨fun _ => .error (invalid "not a URL"), fun _ => "Expecting value"⟩
  policy := { externalEffectOperations := ["publish"], externalEffectTargets := ["registry"] }
  handlers := [.externalEffect]

/-- A task that publishes a version, under one key for all versions. -/
def publishTask (version : String) : CapabilityTask where
  id := "task-publish"
  context := .obj [("capability_request", .obj [("protocol", .str capabilityRequestProtocol),
    ("request_id", .str ("request-" ++ version)), ("kind", .str "external_effect"),
    ("operation", .str "publish"), ("target", .str "registry"),
    ("payload", .obj [("version", .str version)]), ("idempotency_key", .str "publish"),
    ("authorization_ref", .str "decision:release")])]
  requiredCapabilities := ["external_effect"]
  detailsSchema := "capability/1"

def publishCall (version : String) : Call :=
  ⟨{ requestId := "request-" ++ version, kind := .externalEffect, operation := "publish"
     target := "registry", payload := .obj [("version", .str version)]
     idempotencyKey := "publish", authorizationRef := some "decision:release" },
    .returned [("published", .str version)], 1⟩

/-- The second version is reported as published, and only the first one was. -/
theorem other_payload_replayed :
    (publishBroker.serve [publishCall "1"] (publishCall "2")).ran = false ∧
    (publishBroker.brokered [publishCall "1"] (publishTask "2") "attempt-1" ⟨∅, ∅⟩ none
      (publishCall "2").reply 1).status = .succeeded ∧
    ¬ Served publishBroker [publishCall "1", publishCall "2"] := by
  refine ⟨by decide +kernel, by decide +kernel, fun h => ?_⟩
  obtain ⟨d, ⟨before, behind, hsplit, -⟩, -, -, -, -, hpayload, -⟩ :=
    h.replayed [publishCall "1"] (publishCall "2") [] _ rfl rfl rfl
  have hd : d = publishCall "1" := by
    cases before with
    | nil => exact (List.cons.inj hsplit).1.symm
    | cons b before => simp at hsplit
  rw [hd] at hpayload
  exact absurd hpayload (by decide +kernel)

end HarnessLabs.Capability
