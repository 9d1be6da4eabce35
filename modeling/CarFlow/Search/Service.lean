import CarFlow.Listing.Service
import CarFlow.Shared.Outbox

/-!
# The search index

`services/search/service.py` and `documents.py`: the handler of the events of the listing service,
and the document it makes of a snapshot. The index of Elasticsearch is a document for each vehicle
that has one.

## Implementation notes

The code goes from a row to a document in two steps, through the snapshot that the event carries.
`Vehicle.document` says what should come out, column by column, without either of them; statements
about what the index shows use it, and `indexed_snapshot` is where the code is compared with it.

## Main results

* `handleVehicleEvent_apply`, `indexAfter_concat` — the index after one more event
-/

namespace CarFlow

/-- A document of the index. -/
structure Document where
  vehicleId : Uuid
  hostId : Uuid
  make : String
  model : String
  year : ℤ
  dailyPriceCents : ℤ
  dailyMileageLimit : ℤ
  bookingMode : BookingMode
  lat : ℚ
  lon : ℚ
  deriving DecidableEq

/-- `vehicle_to_document`. -/
def vehicleToDocument (data : VehicleSnapshot) : Document where
  vehicleId := data.vehicleId
  hostId := data.hostId
  make := data.make
  model := data.model
  year := data.year
  dailyPriceCents := data.dailyPriceCents
  dailyMileageLimit := data.dailyMileageLimit
  bookingMode := data.bookingMode
  lat := data.latitude
  lon := data.longitude

/-- The document that the index should hold for a vehicle: the columns of its row. -/
def Vehicle.document (vehicle : Vehicle) : Document where
  vehicleId := vehicle.id
  hostId := vehicle.hostId
  make := vehicle.make
  model := vehicle.model
  year := vehicle.year
  dailyPriceCents := vehicle.dailyPriceCents
  dailyMileageLimit := vehicle.dailyMileageLimit
  bookingMode := vehicle.bookingMode
  lat := vehicle.latitude
  lon := vehicle.longitude

/-- What search should show of a row: its document once it is approved, and nothing otherwise. -/
def Vehicle.shown (vehicle : Vehicle) : Option Document :=
  if vehicle.approvalStatus = .approved then some vehicle.document else none

/-- The index: the document of each vehicle. -/
abbrev SearchIndex := Uuid → Option Document

namespace SearchIndex

variable (index : SearchIndex)

/-- `upsert_vehicle`. -/
def upsertVehicle (vehicleId : Uuid) (document : Document) : SearchIndex :=
  fun id => if id = vehicleId then some document else index id

/-- `delete_vehicle`; a vehicle without a document stays without one. -/
def deleteVehicle (vehicleId : Uuid) : SearchIndex :=
  fun id => if id = vehicleId then none else index id

/-- `handle_vehicle_event`: upsert on approval, delete otherwise. -/
def handleVehicleEvent (data : VehicleSnapshot) : SearchIndex :=
  if data.approvalStatus = .approved then
    index.upsertVehicle data.vehicleId (vehicleToDocument data)
  else index.deleteVehicle data.vehicleId

end SearchIndex

/-- The index after some events of the listing service, one after the other. -/
def indexAfter (messages : List ListingMessage) : SearchIndex :=
  messages.foldl (fun index message => index.handleVehicleEvent message.data) fun _ => none

section Index

variable {index : SearchIndex} {data : VehicleSnapshot} {id : Uuid}

/-- What an event leaves for its vehicle. -/
def VehicleSnapshot.indexed (data : VehicleSnapshot) : Option Document :=
  if data.approvalStatus = .approved then some (vehicleToDocument data) else none

/-- The event of a row leaves what search should show of it. -/
theorem indexed_snapshot (vehicle : Vehicle) : vehicle.snapshot.indexed = vehicle.shown := rfl

theorem handleVehicleEvent_apply (index : SearchIndex) (data : VehicleSnapshot) (id : Uuid) :
    index.handleVehicleEvent data id = if id = data.vehicleId then data.indexed else index id := by
  unfold SearchIndex.handleVehicleEvent VehicleSnapshot.indexed
  split <;> rfl

theorem indexAfter_concat (messages : List ListingMessage) (message : ListingMessage) (id : Uuid) :
    indexAfter (messages ++ [message]) id =
      if id = message.data.vehicleId then message.data.indexed else indexAfter messages id := by
  rw [indexAfter, List.foldl_concat, handleVehicleEvent_apply]
  rfl

end Index

end CarFlow
