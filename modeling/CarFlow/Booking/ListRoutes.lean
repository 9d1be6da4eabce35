import CarFlow.Booking.Repository
import CarFlow.Listing.Serial
import CarFlow.Shared.NextOffset
import CarFlow.Shared.Uuid

/-!
# The list routes of bookings and of vehicles

`GET /booking/bookings` and `GET /listing/vehicles`, for an admin: all bookings and all approved
vehicles, in the order of `created_at` and `id`. The column `created_at` is a parameter, as in
`Listing.Serial`, and so are the numbers that the driver can encode.

## Implementation notes

The two routes differ in the table, the check of `approval_status` and the response; the paging is
`listRoute` of `Shared.NextOffset` for both, and is proved there once, for any rows in the order of
their query. That the order is by `created_at` and `id` matters here only: two rows of one time are
kept apart by the second column, so the order is one of the rows, and does not change between
requests.

## Main results

* `list_routes_enumerate_iff` — **when following `next_offset` enumerates a table**
-/

namespace CarFlow

/-- `BookingResponse`. -/
structure BookingResponse where
  id : String
  vehicleId : String
  hostId : String
  renterId : String
  startDate : Date
  endDate : Date
  dailyPriceCents : ℤ
  dailyMileageLimit : ℤ
  bookingMode : BookingMode
  status : BookingStatus
  startOdometer : Option ℤ
  endOdometer : Option ℤ
  startFuelPercent : Option ℤ
  endFuelPercent : Option ℤ
  startPhotoUrl : Option String
  endPhotoUrl : Option String
  overageCents : ℤ
  deriving DecidableEq

/-- `_booking_response`. -/
def bookingResponse (booking : Booking) : BookingResponse where
  id := uuidStr booking.id
  vehicleId := uuidStr booking.vehicleId
  hostId := uuidStr booking.hostId
  renterId := uuidStr booking.renterId
  startDate := booking.startDate
  endDate := booking.endDate
  dailyPriceCents := booking.dailyPriceCents
  dailyMileageLimit := booking.dailyMileageLimit
  bookingMode := booking.bookingMode
  status := booking.status
  startOdometer := booking.startOdometer
  endOdometer := booking.endOdometer
  startFuelPercent := booking.startFuelPercent
  endFuelPercent := booking.endFuelPercent
  startPhotoUrl := booking.startPhotoUrl
  endPhotoUrl := booking.endPhotoUrl
  overageCents := booking.overageCents

/-- `VehicleResponse`. -/
structure VehicleResponse where
  id : String
  hostId : String
  make : String
  model : String
  year : ℤ
  dailyPriceCents : ℤ
  dailyMileageLimit : ℤ
  bookingMode : BookingMode
  approvalStatus : ApprovalStatus
  latitude : ℚ
  longitude : ℚ
  deriving DecidableEq

/-- `_vehicle_response`. -/
def vehicleResponse (vehicle : Vehicle) : VehicleResponse where
  id := uuidStr vehicle.id
  hostId := uuidStr vehicle.hostId
  make := vehicle.make
  model := vehicle.model
  year := vehicle.year
  dailyPriceCents := vehicle.dailyPriceCents
  dailyMileageLimit := vehicle.dailyMileageLimit
  bookingMode := vehicle.bookingMode
  approvalStatus := vehicle.approvalStatus
  latitude := vehicle.latitude
  longitude := vehicle.longitude

section ListRoutes

variable (encodes : ℤ → Bool) (createdAt : Uuid → ℤ)

/-- `list_all`, without its limit and offset. -/
def BookingDb.listAll (db : BookingDb) : List Booking :=
  db.bookings.insertionSort fun b c => listedBefore createdAt b.id c.id

/-- `list_bookings`. -/
def listBookingsRoute (db : BookingDb) (claims : TokenClaims) (limit offset : ℤ) :
    Except HttpException (Page BookingResponse) := do
  requireRole claims ["admin"]
  listRoute encodes (page (db.listAll createdAt)) bookingResponse limit offset

/-- `list_vehicles`, with its checks. -/
def listVehiclesRoute (db : ListingDb) (claims : TokenClaims) (approvalStatus : String)
    (limit offset : ℤ) : Except HttpException (Page VehicleResponse) := do
  requireRole claims ["admin"]
  if approvalStatus ≠ "approved" then
    .error ⟨400, "only approval_status=approved is listable"⟩
  else listRoute encodes (listVehicles createdAt db) vehicleResponse limit offset

variable {encodes createdAt} {claims : TokenClaims}

/-- `ORDER BY created_at, id` sorts the rows. -/
theorem pairwise_insertionSort_listedBefore {α : Type} (key : α → Uuid) (rows : List α) :
    (rows.insertionSort fun v w => listedBefore createdAt (key v) (key w)).Pairwise
      fun v w => listedBefore createdAt (key v) (key w) := by
  have : Std.Total fun v w => listedBefore createdAt (key v) (key w) := ⟨fun _ _ => le_total _ _⟩
  have : IsTrans α fun v w => listedBefore createdAt (key v) (key w) := ⟨fun _ _ _ => le_trans⟩
  exact List.pairwise_insertionSort _ _

theorem listBookingsRoute_admin (hrole : claims.role = "admin") (db : BookingDb) (limit : ℤ) :
    listBookingsRoute encodes createdAt db claims limit =
      listRoute encodes (page (db.listAll createdAt)) bookingResponse limit := by
  funext offset
  exact requireRole_bind (List.mem_singleton.mpr hrole) _

theorem listVehiclesRoute_admin (hrole : claims.role = "admin") (db : ListingDb) (limit : ℤ) :
    listVehiclesRoute encodes createdAt db claims "approved" limit =
      listRoute encodes (page (listApproved createdAt db)) vehicleResponse limit := by
  funext offset
  exact requireRole_bind (List.mem_singleton.mpr hrole) _

/-- **When following `next_offset` enumerates a table**: when the limit is positive, or it is 0 and
the table is empty. What is shown of a row has its identifier. -/
theorem list_routes_enumerate_iff (encodes : ℤ → Bool) (createdAt : Uuid → ℤ)
    (hrole : claims.role = "admin") (limit : ℤ) :
    (∀ db : BookingDb,
      Enumerates (fun b c : Booking => listedBefore createdAt b.id c.id) bookingResponse
          db.bookings (listBookingsRoute encodes createdAt db claims limit) ↔
        Pageable encodes limit db.bookings.length) ∧
    (∀ db : ListingDb,
      Enumerates (fun v w : Vehicle => listedBefore createdAt v.id w.id) vehicleResponse
          (db.vehicles.filter (·.approvalStatus = .approved))
          (listVehiclesRoute encodes createdAt db claims "approved" limit) ↔
        Pageable encodes limit (db.vehicles.filter (·.approvalStatus = .approved)).length) ∧
    (∀ row, (bookingResponse row).id = uuidStr row.id) ∧
    ∀ row, (vehicleResponse row).id = uuidStr row.id := by
  refine ⟨?_, ?_, fun _ => rfl, fun _ => rfl⟩
  · intro db
    rw [listBookingsRoute_admin hrole]
    exact enumerates_listRoute_iff (List.perm_insertionSort _ _)
      (pairwise_insertionSort_listedBefore Booking.id _) bookingResponse
  · intro db
    rw [listVehiclesRoute_admin hrole]
    exact enumerates_listRoute_iff (List.perm_insertionSort _ _)
      (pairwise_insertionSort_listedBefore Vehicle.id _) vehicleResponse

theorem list_routes_enumerate_iff_sampleAdmin :
    (∀ db : BookingDb,
      Enumerates (fun b c : Booking => listedBefore (fun _ => 0) b.id c.id) bookingResponse
          db.bookings (listBookingsRoute (fun n => FitsInteger n) (fun _ => 0) db sampleAdmin 2) ↔
        Pageable (fun n => FitsInteger n) 2 db.bookings.length) ∧
    (∀ db : ListingDb,
      Enumerates (fun v w : Vehicle => listedBefore (fun _ => 0) v.id w.id) vehicleResponse
          (db.vehicles.filter (·.approvalStatus = .approved))
          (listVehiclesRoute (fun n => FitsInteger n) (fun _ => 0) db sampleAdmin "approved" 2) ↔
        Pageable (fun n => FitsInteger n) 2
          (db.vehicles.filter (·.approvalStatus = .approved)).length) ∧
    (∀ row, (bookingResponse row).id = uuidStr row.id) ∧
    ∀ row, (vehicleResponse row).id = uuidStr row.id :=
  list_routes_enumerate_iff (fun n => FitsInteger n) (fun _ => 0) rfl 2

/-- A table with one approved vehicle. -/
def oneVehicle : ListingDb where
  vehicles := [{
    id := 1, hostId := 1, make := "Make", model := "Model", year := 2020, dailyPriceCents := 5000
    dailyMileageLimit := 200, approvalStatus := .approved, latitude := 0, longitude := 0 }]

/-- The limit 0 is accepted, and the client of a table with one vehicle never ends. -/
theorem list_vehicles_never_ends :
    listVehiclesRoute (fun n => FitsInteger n) (fun _ => 0) oneVehicle sampleAdmin "approved" 0 0 =
        .ok { items := [], nextOffset := some 0 } ∧
      ¬ Enumerates (fun v w : Vehicle => listedBefore (fun _ => 0) v.id w.id) vehicleResponse
        (oneVehicle.vehicles.filter (·.approvalStatus = .approved))
        (listVehiclesRoute (fun n => FitsInteger n) (fun _ => 0) oneVehicle sampleAdmin
          "approved" 0) := by
  constructor
  · rw [listVehiclesRoute_admin rfl]
    rfl
  · rw [listVehiclesRoute_admin rfl, listApproved, enumerates_listRoute_iff
      (List.perm_insertionSort _ _) (pairwise_insertionSort_listedBefore Vehicle.id _)]
    rintro ⟨-, -, ⟨hpos, -⟩ | ⟨-, hempty⟩⟩
    · exact absurd hpos (lt_irrefl 0)
    · cases hempty

end ListRoutes

end CarFlow
