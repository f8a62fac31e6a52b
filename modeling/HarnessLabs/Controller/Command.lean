import HarnessLabs.Core.Attempts

/-!
# Commands of the controller kernel

The envelope of a command, the receipt that answers it, and the readers of its payload.

* `CommandType`, `allowedCommands` — the commands and the roles that may issue them.
* `payloadText`, `stringList` — the field readers that every handler shares.
-/

namespace HarnessLabs.Controller

/-! ## Actors and commands -/

inductive Role where
  | operator
  | runCoordinator
  | dispatcher
  | worker
  | other (name : String)
  deriving DecidableEq

structure CommandActor where
  id : String
  role : Role
  parentId : Option String := none
  deriving DecidableEq

inductive CommandType where
  | criterionPropose
  | taskDispatch
  | decisionRecord
  | findingDisposition
  | phaseAdvanceRequest
  | retryRequest
  | replanRequest
  | operatorInputRequest
  | runCompleteRequest
  | runBlockRequest
  | runPause
  | runResume
  | runCancel
  | budgetChange
  | permissionGrant
  | permissionRevoke
  | decisionApprove
  | decisionReject
  | coordinatorSchemaRegister
  | coordinatorSessionStart
  | coordinatorSessionEnd
  | unknown (name : String)
  deriving DecidableEq

def coordinatorCommands : List CommandType :=
  [.criterionPropose, .taskDispatch, .decisionRecord, .findingDisposition, .phaseAdvanceRequest,
    .retryRequest, .replanRequest, .operatorInputRequest, .runCompleteRequest, .runBlockRequest]

def operatorCommands : List CommandType :=
  [.runPause, .runResume, .runCancel, .budgetChange, .permissionGrant, .permissionRevoke,
    .decisionApprove, .decisionReject]

def dispatcherCommands : List CommandType :=
  [.coordinatorSchemaRegister, .coordinatorSessionStart, .coordinatorSessionEnd, .runBlockRequest]

def workerCommands : List CommandType := [.taskDispatch, .operatorInputRequest]

/-- The commands that a role may issue. -/
def allowedCommands : Role → Option (List CommandType)
  | .operator => some operatorCommands
  | .runCoordinator => some coordinatorCommands
  | .dispatcher => some dispatcherCommands
  | .worker => some workerCommands
  | .other _ => none

structure CommandEnvelope where
  commandId : String
  runId : String
  type : CommandType
  actor : CommandActor
  expectedRevision : ℕ
  idempotencyKey : String
  payload : Json
  evidenceRefs : List String := []

inductive ReceiptStatus where
  | accepted
  | rejected
  | duplicate
  deriving DecidableEq

structure CommandReceipt where
  commandId : String
  runId : String
  status : ReceiptStatus
  revision : ℕ
  eventIds : List String := []
  effectRefs : List String := []
  errorCode : Option String := none
  message : String := ""
  deriving DecidableEq

/-! ## Payloads -/

/-- A text that `strip` leaves nothing of. -/
def isBlank (s : String) : Bool := s.toList.all (·.isWhitespace)

theorem isBlank_append {s : String} (h : isBlank s = false) (t : String) :
    isBlank (s ++ t) = false := by
  rw [isBlank, String.toList_append, List.all_append, ← isBlank, h]
  rfl

/-- `_payload_text`. -/
def payloadText (item : Json) (name owner : String) : Except String String :=
  match item.get? name with
  | some (.str value) =>
    if isBlank value then .error (owner ++ " " ++ name ++ " must be non-empty") else .ok value
  | _ => .error (owner ++ " " ++ name ++ " must be non-empty")

def nonBlankText : Json → Option String
  | .str value => if isBlank value then none else some value
  | _ => none

theorem mapM_nonBlankText {values : List String} (h : ∀ v ∈ values, isBlank v = false) :
    (values.map Json.str).mapM nonBlankText = some values := by
  induction values with
  | nil => rfl
  | cons v rest ih =>
    obtain ⟨hv, hrest⟩ := List.forall_mem_cons.1 h
    simp [nonBlankText, hv, ih hrest]

/-- `_string_list`: an absent list is empty. -/
def stringList (item : Json) (name : String) : Except String (List String) :=
  match item.get? name with
  | none => .ok []
  | some (.arr values) =>
    match values.mapM nonBlankText with
    | some texts => .ok texts
    | none => .error (name ++ " must be a string list")
  | some _ => .error (name ++ " must be a string list")

/-- Python's `isinstance(value, int)`, which admits booleans. -/
def pyInt? : Json → Option ℤ
  | .int n => some n
  | .bool b => some (if b then 1 else 0)
  | _ => none

/-- `str(value)` of a scalar; of a list or an object its canonical text. -/
def pyStr : Json → String
  | .str s => s
  | .null => "None"
  | .bool true => "True"
  | .bool false => "False"
  | .int n => toString n
  | value => String.ofList (Json.dumps value)

/-- `str(payload.get(name, default))`. -/
def textOr (item : Json) (name default : String) : String := ((item.get? name).map pyStr).getD default

end HarnessLabs.Controller
