import CarFlow.Lib.ExceptLemmas
import CarFlow.Lib.RowTable
import CarFlow.Shared.Basic
import Mathlib.Data.Rat.Defs

/-!
# The operations of the listing service

`services/listing/service.py` with the models and repository under it: a host creates and updates a
vehicle, an admin approves or rejects it. As in the booking service an operation is a function from
the row it read, here to the row object it leaves and the event it writes. The event carries a
snapshot of that object, from which the search service builds its document.

## Main results

* `ListingOperation.plan_ok_iff` — when an operation on a vehicle is accepted, and what it leaves
* `updateColumns_same` — an object that was not changed sends nothing
-/

namespace CarFlow

/-! ### Models -/

/-- A row of `vehicles`. The two timestamps are left out. -/
structure Vehicle where
  id : Uuid
  hostId : Uuid
  make : String
  model : String
  year : ℤ
  dailyPriceCents : ℤ
  dailyMileageLimit : ℤ
  bookingMode : BookingMode := .instant
  approvalStatus : ApprovalStatus := .pending
  latitude : ℚ
  longitude : ℚ
  deriving DecidableEq

/-- The data of an event: `_vehicle_snapshot`. -/
structure VehicleSnapshot where
  vehicleId : Uuid
  hostId : Uuid
  make : String
  model : String
  year : ℤ
  dailyPriceCents : ℤ
  dailyMileageLimit : ℤ
  bookingMode : BookingMode
  approvalStatus : ApprovalStatus
  latitude : ℚ
  longitude : ℚ
  deriving DecidableEq

/-- The event types of the listing service. -/
inductive ListingEventType
  | vehicleApproved
  | vehicleUpdated
  deriving DecidableEq

/-- An outbox message of the listing service. -/
structure ListingMessage where
  eventType : ListingEventType
  data : VehicleSnapshot
  deriving DecidableEq

/-- The fields of a `CreateVehicleRequest`. -/
structure CreateVehicleRequest where
  make : String
  model : String
  year : ℤ
  dailyPriceCents : ℤ
  dailyMileageLimit : ℤ
  bookingMode : BookingMode := .instant
  latitude : ℚ
  longitude : ℚ

/-- The fields of an `UpdateVehicleRequest`, the mutable ones; those not sent are `none`. -/
structure UpdateVehicleRequest where
  make : Option String := none
  model : Option String := none
  year : Option ℤ := none
  dailyPriceCents : Option ℤ := none
  dailyMileageLimit : Option ℤ := none
  bookingMode : Option BookingMode := none
  latitude : Option ℚ := none
  longitude : Option ℚ := none

/-- What the service raises. -/
inductive ListingError
  | vehicleNotFound (vehicleId : Uuid)
  | notVehicleOwner (vehicleId : Uuid)
  | invalidApprovalTransition (status : ApprovalStatus)
  deriving DecidableEq

namespace Vehicle

/-- `_vehicle_snapshot`. -/
def snapshot (vehicle : Vehicle) : VehicleSnapshot where
  vehicleId := vehicle.id
  hostId := vehicle.hostId
  make := vehicle.make
  model := vehicle.model
  year := vehicle.year
  dailyPriceCents := vehicle.dailyPriceCents
  dailyMileageLimit := vehicle.dailyMileageLimit
  bookingMode := vehicle.bookingMode
  approvalStatus := vehicle.approvalStatus
  latitude := vehicle.latitude
  longitude := vehicle.longitude

/-- Assign the fields that were sent. -/
def assign (vehicle : Vehicle) (fields : UpdateVehicleRequest) : Vehicle :=
  { vehicle with
    make := fields.make.getD vehicle.make
    model := fields.model.getD vehicle.model
    year := fields.year.getD vehicle.year
    dailyPriceCents := fields.dailyPriceCents.getD vehicle.dailyPriceCents
    dailyMileageLimit := fields.dailyMileageLimit.getD vehicle.dailyMileageLimit
    bookingMode := fields.bookingMode.getD vehicle.bookingMode
    latitude := fields.latitude.getD vehicle.latitude
    longitude := fields.longitude.getD vehicle.longitude }

/-- The vehicle with another approval status. -/
def withStatus (vehicle : Vehicle) (approvalStatus : ApprovalStatus) : Vehicle :=
  { vehicle with approvalStatus }

/-- Every `Integer` column can hold its value. -/
def FitsColumns (vehicle : Vehicle) : Prop :=
  FitsInteger vehicle.year ∧ FitsInteger vehicle.dailyPriceCents ∧
    FitsInteger vehicle.dailyMileageLimit

instance (vehicle : Vehicle) : Decidable vehicle.FitsColumns :=
  inferInstanceAs (Decidable (_ ∧ _ ∧ _))

/-- A flush of a row object: set the columns in which `new` differs from `old`, the row that was
read. No operation assigns to the others. -/
def updateColumns (old new current : Vehicle) : Vehicle :=
  { current with
    make := if new.make = old.make then current.make else new.make
    model := if new.model = old.model then current.model else new.model
    year := if new.year = old.year then current.year else new.year
    dailyPriceCents :=
      if new.dailyPriceCents = old.dailyPriceCents then current.dailyPriceCents
      else new.dailyPriceCents
    dailyMileageLimit :=
      if new.dailyMileageLimit = old.dailyMileageLimit then current.dailyMileageLimit
      else new.dailyMileageLimit
    bookingMode :=
      if new.bookingMode = old.bookingMode then current.bookingMode else new.bookingMode
    approvalStatus :=
      if new.approvalStatus = old.approvalStatus then current.approvalStatus else new.approvalStatus
    latitude := if new.latitude = old.latitude then current.latitude else new.latitude
    longitude := if new.longitude = old.longitude then current.longitude else new.longitude }

/-- An object that was not changed sends nothing. -/
@[simp] theorem updateColumns_same (old current : Vehicle) :
    old.updateColumns old current = current := by
  simp [updateColumns]

end Vehicle

/-! ### The operations

The check of an operation is on the row that was read; what it writes is the row object and an
event. -/

/-- The operations, each with what its caller passes. -/
inductive ListingOperation
  /-- `create_vehicle`, with the identifier the row is given. -/
  | createVehicle (id hostId : Uuid) (payload : CreateVehicleRequest)
  | updateVehicle (vehicleId hostId : Uuid) (fields : UpdateVehicleRequest)
  | approveVehicle (vehicleId : Uuid)
  | rejectVehicle (vehicleId : Uuid)

/-- The row `create` inserts. -/
def createVehicle (id hostId : Uuid) (payload : CreateVehicleRequest) : Vehicle where
  id := id
  hostId := hostId
  make := payload.make
  model := payload.model
  year := payload.year
  dailyPriceCents := payload.dailyPriceCents
  dailyMileageLimit := payload.dailyMileageLimit
  bookingMode := payload.bookingMode
  latitude := payload.latitude
  longitude := payload.longitude

/-- `get_by_id` and the check that follows it. -/
def requireVehicle (found : Option Vehicle) (vehicleId : Uuid) : Except ListingError Vehicle :=
  match found with
  | none => .error (.vehicleNotFound vehicleId)
  | some vehicle => .ok vehicle

/-- `get_owned_vehicle`. -/
def getOwnedVehicle (found : Option Vehicle) (vehicleId hostId : Uuid) :
    Except ListingError Vehicle := do
  let vehicle ← requireVehicle found vehicleId
  if vehicle.hostId ≠ hostId then throw (.notVehicleOwner vehicleId)
  return vehicle

/-- What an operation leaves: the row object, and the event it writes, if any. -/
structure ListingWrites where
  vehicle : Vehicle
  event : Option ListingMessage

def updateVehicle (found : Option Vehicle) (vehicleId hostId : Uuid)
    (fields : UpdateVehicleRequest) : Except ListingError ListingWrites := do
  let vehicle ← getOwnedVehicle found vehicleId hostId
  let vehicle := vehicle.assign fields
  return { vehicle, event := some { eventType := .vehicleUpdated, data := vehicle.snapshot } }

/-- What `approve_vehicle` and `reject_vehicle` share: a decision about a pending vehicle. -/
def decideVehicle (found : Option Vehicle) (vehicleId : Uuid) (approvalStatus : ApprovalStatus) :
    Except ListingError Vehicle := do
  let vehicle ← requireVehicle found vehicleId
  if vehicle.approvalStatus ≠ .pending then
    throw (.invalidApprovalTransition vehicle.approvalStatus)
  return vehicle.withStatus approvalStatus

def approveVehicle (found : Option Vehicle) (vehicleId : Uuid) :
    Except ListingError ListingWrites := do
  let vehicle ← decideVehicle found vehicleId .approved
  return { vehicle, event := some { eventType := .vehicleApproved, data := vehicle.snapshot } }

/-- A rejection writes no event. -/
def rejectVehicle (found : Option Vehicle) (vehicleId : Uuid) :
    Except ListingError ListingWrites := do
  let vehicle ← decideVehicle found vehicleId .rejected
  return { vehicle, event := none }

namespace ListingOperation

/-- The vehicle an operation is about. -/
def vehicleId : ListingOperation → Uuid
  | .createVehicle id _ _ => id
  | .updateVehicle vehicleId _ _ | .approveVehicle vehicleId | .rejectVehicle vehicleId => vehicleId

/-- Only `create_vehicle` inserts a row. -/
def creates : ListingOperation → Bool
  | .createVehicle .. => true
  | _ => false

/-- What an operation leaves, from the row it read. -/
def plan : ListingOperation → Option Vehicle → Except ListingError ListingWrites
  | .createVehicle id hostId payload, _ =>
    .ok { vehicle := CarFlow.createVehicle id hostId payload, event := none }
  | .updateVehicle vehicleId hostId fields, found =>
    CarFlow.updateVehicle found vehicleId hostId fields
  | .approveVehicle vehicleId, found => CarFlow.approveVehicle found vehicleId
  | .rejectVehicle vehicleId, found => CarFlow.rejectVehicle found vehicleId

end ListingOperation

/-! ### What an accepted operation does -/

/-- The operations on an existing vehicle that are accepted, and what they leave. -/
inductive ListingAccepts (row : Vehicle) : ListingOperation → ListingWrites → Prop
  | update (vehicleId : Uuid) (fields : UpdateVehicleRequest) :
      ListingAccepts row (.updateVehicle vehicleId row.hostId fields)
        ⟨row.assign fields, some ⟨.vehicleUpdated, (row.assign fields).snapshot⟩⟩
  | approve (vehicleId : Uuid) (hpending : row.approvalStatus = .pending) :
      ListingAccepts row (.approveVehicle vehicleId)
        ⟨row.withStatus .approved, some ⟨.vehicleApproved, (row.withStatus .approved).snapshot⟩⟩
  | reject (vehicleId : Uuid) (hpending : row.approvalStatus = .pending) :
      ListingAccepts row (.rejectVehicle vehicleId) ⟨row.withStatus .rejected, none⟩

section Plan

variable {op : ListingOperation} {found : Option Vehicle} {row : Vehicle} {w : ListingWrites}

@[simp] theorem requireVehicle_ok_iff {vehicleId : Uuid} :
    requireVehicle found vehicleId = .ok row ↔ found = some row := by
  cases found <;> simp [requireVehicle]

theorem getOwnedVehicle_ok_iff {vehicleId hostId : Uuid} :
    getOwnedVehicle found vehicleId hostId = .ok row ↔ found = some row ∧ row.hostId = hostId := by
  cases found with
  | none => simp [getOwnedVehicle, requireVehicle, bind, Except.bind]
  | some vehicle =>
    by_cases hh : vehicle.hostId = hostId
    · simp only [getOwnedVehicle, requireVehicle, bind, Except.bind, hh, ne_eq, not_true_eq_false,
        if_false, Except.pure_eq_ok_iff, Option.some.injEq]
      constructor
      · rintro rfl
        exact ⟨rfl, hh⟩
      · exact And.left
    · simp only [getOwnedVehicle, requireVehicle, bind, Except.bind, hh, ne_eq, not_false_eq_true,
        if_true, Option.some.injEq]
      constructor
      · intro h
        cases h
      · rintro ⟨rfl, hh'⟩
        exact absurd hh' hh

theorem decideVehicle_ok_iff {vehicleId : Uuid} {status : ApprovalStatus} {vehicle : Vehicle} :
    decideVehicle found vehicleId status = .ok vehicle ↔
      ∃ row, found = some row ∧ row.approvalStatus = .pending ∧
        vehicle = row.withStatus status := by
  cases found with
  | none => simp [decideVehicle, requireVehicle, bind, Except.bind]
  | some row =>
    by_cases hp : row.approvalStatus = .pending
    · simp [decideVehicle, requireVehicle, bind, Except.bind, hp, @eq_comm _ vehicle]
    · simp [decideVehicle, requireVehicle, bind, Except.bind, hp, throw, throwThe,
        MonadExceptOf.throw]

/-- An operation on an existing vehicle is accepted exactly as `ListingAccepts` says. -/
theorem ListingOperation.plan_ok_iff (hc : op.creates = false) :
    op.plan found = .ok w ↔ ∃ row, found = some row ∧ ListingAccepts row op w := by
  cases op with
  | createVehicle => cases hc
  | updateVehicle vehicleId hostId fields =>
    simp only [plan, CarFlow.updateVehicle, Except.bind_eq_ok_iff, getOwnedVehicle_ok_iff,
      Except.pure_eq_ok_iff]
    constructor
    · rintro ⟨row, ⟨rfl, rfl⟩, rfl⟩
      exact ⟨row, rfl, .update vehicleId fields⟩
    · rintro ⟨row, rfl, h⟩
      cases h with
      | update => exact ⟨row, ⟨rfl, rfl⟩, rfl⟩
  | approveVehicle vehicleId =>
    simp only [plan, CarFlow.approveVehicle, Except.bind_eq_ok_iff, decideVehicle_ok_iff,
      Except.pure_eq_ok_iff]
    constructor
    · rintro ⟨_, ⟨row, rfl, hp, rfl⟩, rfl⟩
      exact ⟨row, rfl, .approve vehicleId hp⟩
    · rintro ⟨row, rfl, h⟩
      cases h with
      | approve _ hp => exact ⟨_, ⟨row, rfl, hp, rfl⟩, rfl⟩
  | rejectVehicle vehicleId =>
    simp only [plan, CarFlow.rejectVehicle, Except.bind_eq_ok_iff, decideVehicle_ok_iff,
      Except.pure_eq_ok_iff]
    constructor
    · rintro ⟨_, ⟨row, rfl, hp, rfl⟩, rfl⟩
      exact ⟨row, rfl, .reject vehicleId hp⟩
    · rintro ⟨row, rfl, h⟩
      cases h with
      | reject _ hp => exact ⟨_, ⟨row, rfl, hp, rfl⟩, rfl⟩

/-- No operation changes whose vehicle it is. -/
theorem ListingAccepts.ids (h : ListingAccepts row op w) :
    w.vehicle.id = row.id ∧ w.vehicle.hostId = row.hostId := by
  cases h <;> exact ⟨rfl, rfl⟩

/-- The event is about the object. -/
theorem ListingAccepts.event (h : ListingAccepts row op w) :
    ∀ message ∈ w.event, message.data = w.vehicle.snapshot := by
  cases h <;> simp

end Plan

end CarFlow
