import CarFlow.Auth.Sessions
import CarFlow.Booking.Serializability
import CarFlow.Saga.RentalPrice

/-!
# Auth, listing and booking behind their tokens

The three services that users talk to, put together: every request of a host, a renter or an
administrator comes with a header, the route reads the caller's identifier and role off its token,
and the operation begins a transaction of its service. `POST /booking/bookings` calls listing for
the vehicle, with the caller's own header, and begins its transaction later: between the two the
vehicle may change. Transactions then go their way as in `Listing.Transactions` and
`Booking.Transactions`, in any interleaving; the reactions to payment events come without a token.

## The model

* Callers present tokens that were issued to somebody. Any other text is not signed.
* The guard of a route has found no row. What a key does is in `Shared.Idempotency`; here a
  transaction may be aborted at any point.
* A request that is refused changes nothing, and is no step.
-/

namespace CarFlow

/-! ### The vehicle that booking reads -/

/-- `get_vehicle_for_viewer`. -/
def getVehicleForViewer (found : Option Vehicle) (vehicleId viewerId : Uuid)
    (viewerRole : String) : Except ListingError Vehicle := do
  let vehicle ← requireVehicle found vehicleId
  if ¬ (viewerRole = "admin" ∨ vehicle.hostId = viewerId) ∧ vehicle.approvalStatus ≠ .approved then
    throw (.notVehicleOwner vehicleId)
  return vehicle

/-- The response of `GET /listing/vehicles/{vehicle_id}` to what the service raises. -/
def getVehicleError : ListingError → HttpException
  | .vehicleNotFound _ => ⟨404, "vehicle not found"⟩
  | .notVehicleOwner _ => ⟨403, "not your vehicle"⟩
  | .invalidApprovalTransition _ => ⟨500, "Internal Server Error"⟩

/-- `GET /listing/vehicles/{vehicle_id}`. -/
def getVehicleRoute (jwt : PyJwt) (settings : JwtSettings) (db : ListingDb) (vehicleId : Uuid)
    (authorization : Option String) (now : ℤ) : Except HttpException Vehicle := do
  let claims ← Route.listingGetVehicle.authorize jwt settings (.ok ()) authorization now
  match uuidOfString claims.sub with
  | none => throw ⟨500, "Internal Server Error"⟩
  | some viewerId =>
    (getVehicleForViewer (db.getById vehicleId) vehicleId viewerId claims.role).mapError
      getVehicleError

/-- `ListingClient.get_vehicle`: `VehicleNotFoundError` is `none`, and `raise_for_status` an
error. -/
def listingClientGetVehicle (response : Except HttpException Vehicle) :
    Except HttpException (Option VehicleInfo) :=
  match response with
  | .ok vehicle => .ok (some vehicle.info)
  | .error e =>
    if e.statusCode = 404 ∨ e.statusCode = 403 then .ok none
    else .error ⟨500, "Internal Server Error"⟩

/-! ### The operations of a host, and the reactions to payment events -/

inductive HostOperation
  | accept
  | reject
  | handover (payload : HandoverRequest)
  | returnCar (payload : ReturnRequest)

namespace HostOperation

def route : HostOperation → Route
  | accept => .bookingAccept
  | reject => .bookingReject
  | handover _ => .bookingHandover
  | returnCar _ => .bookingReturnCar

/-- The operation that the route calls. -/
def operation (bookingId hostId : Uuid) : HostOperation → BookingOperation
  | accept => .acceptBookingRequest bookingId hostId
  | reject => .rejectBookingRequest bookingId hostId
  | handover payload => .recordHandover bookingId hostId payload
  | returnCar payload => .recordReturn bookingId hostId payload

end HostOperation

/-- The operation that a payment event calls. -/
inductive PaymentReaction : BookingOperation → Prop
  | authorized (bookingId : Uuid) : PaymentReaction (.applyPaymentAuthorized bookingId)
  | authorizationFailed (bookingId : Uuid) :
      PaymentReaction (.applyPaymentAuthorizationFailed bookingId)
  | captured (bookingId : Uuid) : PaymentReaction (.applyPaymentCaptured bookingId)
  | captureFailed (bookingId : Uuid) : PaymentReaction (.applyPaymentCaptureFailed bookingId)

instance : DecidablePred PaymentReaction
  | .applyPaymentAuthorized b => isTrue (.authorized b)
  | .applyPaymentAuthorizationFailed b => isTrue (.authorizationFailed b)
  | .applyPaymentCaptured b => isTrue (.captured b)
  | .applyPaymentCaptureFailed b => isTrue (.captureFailed b)
  | .requestBooking .. => isFalse fun h => by cases h
  | .acceptBookingRequest .. => isFalse fun h => by cases h
  | .rejectBookingRequest .. => isFalse fun h => by cases h
  | .recordHandover .. => isFalse fun h => by cases h
  | .recordReturn .. => isFalse fun h => by cases h

/-! ### The platform -/

/-- A `POST /booking/bookings` under way. -/
structure BookingRequest where
  authorization : String
  renterId : Uuid
  payload : CreateBookingRequest
  /-- What `get_vehicle` has returned, once it has. -/
  vehicle : Option (Option VehicleInfo) := none

/-- The three services, the bookings that are being requested, the rows that listing has shown to
booking, and the decisions that were begun, each as a vehicle and the caller. Nothing reads the last
two. -/
structure Platform where
  auth : AuthServer
  listing : ListingServer := {}
  booking : BookingServer := {}
  requests : List BookingRequest := []
  shown : List Vehicle := []
  decisions : List (Uuid × Uuid) := []

inductive PlatformAction
  | auth (a : AuthAction)
  | createVehicle (authorization : String) (id : Uuid) (payload : CreateVehicleRequest)
  | updateVehicle (authorization : String) (vehicleId : Uuid) (fields : UpdateVehicleRequest)
  | approveVehicle (authorization : String) (vehicleId : Uuid)
  | rejectVehicle (authorization : String) (vehicleId : Uuid)
  /-- A transaction of listing goes on. -/
  | listing (a : ListingAction)
  | askBooking (authorization : String) (payload : CreateBookingRequest)
  /-- The call of `get_vehicle` for a request. -/
  | getVehicle (i : ℕ)
  | requestBooking (i : ℕ) (id : Uuid) (autoflush : Bool)
  | operate (authorization : String) (op : HostOperation) (bookingId : Uuid) (autoflush : Bool)
  | react (op : BookingOperation) (autoflush : Bool)
  /-- A transaction of booking goes on. -/
  | booking (a : ServerAction)

/-- A header with a token that was issued to somebody. -/
def AuthServer.Presents (s : AuthServer) (authorization : String) : Prop :=
  ∃ issued ∈ s.issued, ∃ token, (token = issued.tokens.1 ∨ token = issued.tokens.2) ∧
    bearerToken (some authorization) = .ok token

instance (s : AuthServer) (authorization : String) : Decidable (s.Presents authorization) :=
  decidable_of_iff (∃ issued ∈ s.issued,
      bearerToken (some authorization) = .ok issued.tokens.1 ∨
        bearerToken (some authorization) = .ok issued.tokens.2) <| by
    unfold AuthServer.Presents
    refine exists_congr fun issued => and_congr_right fun _ => ⟨?_, ?_⟩
    · rintro (h | h)
      · exact ⟨_, .inl rfl, h⟩
      · exact ⟨_, .inr rfl, h⟩
    · rintro ⟨token, rfl | rfl, h⟩
      · exact .inl h
      · exact .inr h

section Step

variable (hasher : PasswordHasher) (jwt : PyJwt) (settings : AuthSettings)

/-- The caller of a route, as its token says, if the route lets the request pass. -/
def Platform.caller (s : Platform) (route : Route) (authorization : String) : Option Uuid :=
  if s.auth.Presents authorization then
    match route.authorize jwt settings.toJwtSettings (.ok ()) (some authorization) s.auth.now with
    | .error _ => none
    | .ok claims => uuidOfString claims.sub
  else none

/-- A transaction of listing takes a step. -/
def Platform.stepListing (s : Platform) (a : ListingAction) : Option Platform := do
  let listing ← listingStep s.listing a
  some { s with listing }

/-- A transaction of booking takes a step. -/
def Platform.stepBooking (s : Platform) (a : ServerAction) : Option Platform := do
  let booking ← serverStep s.booking a
  some { s with booking }

/-- A route of listing that decides about a vehicle. -/
def Platform.decide (s : Platform) (route : Route) (authorization : String)
    (op : ListingOperation) : Option Platform := do
  let adminId ← s.caller jwt settings route authorization
  { s with decisions := s.decisions ++ [(op.vehicleId, adminId)] }.stepListing (.begin op)

/-- One step. -/
def platformStep (s : Platform) : PlatformAction → Option Platform
  | .auth a => do
    let auth ← authStep hasher jwt settings s.auth a
    some { s with auth }
  | .createVehicle authorization id payload => do
    let hostId ← s.caller jwt settings .listingCreate authorization
    s.stepListing (.begin (.createVehicle id hostId payload))
  | .updateVehicle authorization vehicleId fields => do
    let hostId ← s.caller jwt settings .listingUpdate authorization
    s.stepListing (.begin (.updateVehicle vehicleId hostId fields))
  | .approveVehicle authorization vehicleId =>
    s.decide jwt settings .listingApprove authorization (.approveVehicle vehicleId)
  | .rejectVehicle authorization vehicleId =>
    s.decide jwt settings .listingReject authorization (.rejectVehicle vehicleId)
  | .listing a => match a with
    | .begin _ => none
    | a => s.stepListing a
  | .askBooking authorization payload => do
    let renterId ← s.caller jwt settings .bookingCreate authorization
    some { s with requests := s.requests ++ [{ authorization, renterId, payload }] }
  | .getVehicle i => do
    let request ← s.requests[i]?
    let response := getVehicleRoute jwt settings.toJwtSettings s.listing.db
      request.payload.vehicleId (some request.authorization) s.auth.now
    match listingClientGetVehicle response with
    | .error _ => some { s with requests := s.requests.eraseIdx i }
    | .ok vehicle => some { s with
        requests := s.requests.set i { request with vehicle := some vehicle }
        shown := s.shown ++ response.toOption.toList }
  | .requestBooking i id autoflush => do
    let request ← s.requests[i]?
    let vehicle ← request.vehicle
    { s with requests := s.requests.eraseIdx i }.stepBooking
      (.begin (.requestBooking id vehicle request.renterId request.payload) autoflush)
  | .operate authorization op bookingId autoflush => do
    let hostId ← s.caller jwt settings op.route authorization
    s.stepBooking (.begin (op.operation bookingId hostId) autoflush)
  | .react op autoflush =>
    if PaymentReaction op then s.stepBooking (.begin op autoflush) else none
  | .booking a => match a with
    | .begin _ _ => none
    | a => s.stepBooking a

/-- The platform, with the administrators that were seeded. -/
def platform (seeded : List UserRow) : TransitionSystem Platform PlatformAction where
  init := { auth := (authServer hasher jwt settings seeded).init }
  step := platformStep hasher jwt settings

end Step

end CarFlow
