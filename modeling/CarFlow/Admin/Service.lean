import CarFlow.Listing.Decisions
import CarFlow.Shared.Retries

/-!
# The admin service and its calls to listing

`services/admin`: an admin approves or rejects a vehicle. The route is guarded by an
`Idempotency-Key`; its `build` first has the listing service decide, over HTTP, and then records an
`AdminAction` in the admin database. `ListingClient` makes a new `uuid.uuid4()` the key of every
call, so to the guard of listing no call is a retry of another.

## Attempts and calls

An attempt is one of `Retries`: the same request under the same key, one attempt after the other,
each possibly cut off. The call it makes is a transaction of listing, which goes on when the
attempt is cut off: it may commit at any time later, or never. Its update waits for the row lock,
so it is flushed and committed in one step here.

The listing database also changes by other transactions. These leave the status of the vehicle
alone (`ListingTransaction.Ok.commit_keeps`), since no other admin decides about it.
-/

namespace CarFlow

/-! ### Models -/

/-- The `action_type` of an admin action. -/
inductive AdminActionType
  | vehicleApproved
  | vehicleRejected
  | killSwitchActivated
  | killSwitchDeactivated
  deriving DecidableEq

/-- A row of `admin_actions`. The payload is always empty, and the timestamp is left out. -/
structure AdminAction where
  adminId : Uuid
  actionType : AdminActionType
  targetType : String := "vehicle"
  targetId : Uuid
  deriving DecidableEq

/-- `record`. -/
def recordAction (actions : List AdminAction) (action : AdminAction) : List AdminAction :=
  actions ++ [action]

/-- The value of the `approval_status` column. -/
def ApprovalStatus.value : ApprovalStatus → String
  | .pending => "pending"
  | .approved => "approved"
  | .rejected => "rejected"

/-- What the two routes differ in. -/
inductive Verdict
  | approve
  | reject
  deriving DecidableEq

namespace Verdict

def verb : Verdict → String
  | approve => "approve"
  | reject => "reject"

def status : Verdict → ApprovalStatus
  | approve => .approved
  | reject => .rejected

def actionType : Verdict → AdminActionType
  | approve => .vehicleApproved
  | reject => .vehicleRejected

def op (vehicleId : Uuid) : Verdict → ListingOperation
  | approve => .approveVehicle vehicleId
  | reject => .rejectVehicle vehicleId

end Verdict

/-- A request to one of the routes. -/
structure DecisionRequest where
  adminId : Uuid
  /-- The `Idempotency-Key`. -/
  key : String
  vehicleId : Uuid
  verdict : Verdict

namespace DecisionRequest

variable (d : DecisionRequest)

/-- The request as the guard sees it. -/
def request : Request where
  consumerId := toString d.adminId
  key := d.key
  method := "POST"
  path := "/admin/vehicles/" ++ toString d.vehicleId ++ "/" ++ d.verdict.verb
  body := []
  statusCode := 200

/-- The operation of listing. -/
def op : ListingOperation := d.verdict.op d.vehicleId

/-- The row that is recorded. -/
def action : AdminAction where
  adminId := d.adminId
  actionType := d.verdict.actionType
  targetId := d.vehicleId

/-- A row about this decision. -/
def isDecision (action : AdminAction) : Bool :=
  action.actionType = d.verdict.actionType ∧ action.targetId = d.vehicleId

/-- What the routes of listing make of an error: the status code and the detail. -/
def refusal : ListingError → ℕ × String
  | .vehicleNotFound _ => (404, "vehicle not found")
  | .notVehicleOwner _ => (403, "not your vehicle")
  | .invalidApprovalTransition status =>
    (409, "cannot " ++ d.verdict.verb ++ " from status '" ++ status.value ++ "'")

end DecisionRequest

/-- The text of a response with a detail, which `UpstreamError` passes on. -/
def responseText (detail : String) : String := "\x7b\"detail\":\"" ++ detail ++ "\"\x7d"

/-! ### The two services -/

/-- Where the call of an attempt is. -/
inductive CallStage
  | start
  /-- The call with this key is at listing. -/
  | waiting (key : ℕ)
  /-- Listing has answered 200. -/
  | accepted (body : String)
  /-- The action is in the session. -/
  | recorded (body : String)
  deriving DecidableEq

/-- The admin service, the listing service, and the calls between them. -/
structure AdminState where
  admin : Retries (List AdminAction) AdminAction
  listing : ListingDb
  /-- The number of calls made, and the key of the next one: a fresh UUID. -/
  calls : ℕ := 0
  /-- The rows of listing's `idempotency_keys` for these calls. -/
  replies : List (ℕ × String) := []
  /-- The calls that listing is working on, each a transaction. -/
  inFlight : List (ℕ × ListingTransaction) := []
  stage : CallStage := .start
  /-- Listing has committed a decision for an attempt that is cut off. Nothing reads this. -/
  orphaned : Bool := false

/-- The attempt under way has the decision of listing, and has not committed. -/
def AdminState.carries (s : AdminState) : Bool :=
  match s.admin.attempt, s.stage with
  | some t, .accepted _ | some t, .recorded _ =>
    match t.phase with
    | .finished _ => false
    | _ => true
  | _, _ => false

inductive AdminStep
  | attempt
  /-- `ListingClient`: listing gets the call, and reads the vehicle. -/
  | call
  /-- Listing flushes and commits a call. -/
  | decide (j : ℕ)
  /-- A call is lost, or aborted at listing. -/
  | drop (j : ℕ)
  | record
  /-- `build` returns `json.dumps(vehicle)`. -/
  | build
  | insert
  | select
  | commit
  | respond
  | cut
  /-- Another request to the admin service commits. -/
  | other (t : WriteSet AdminAction)
  /-- Other transactions of listing commit. -/
  | listing (db : ListingDb)

section Steps

variable (hash : List UInt8 → String) (render : Vehicle → String) (d : DecisionRequest)

end Steps

end CarFlow
