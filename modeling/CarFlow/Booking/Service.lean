import CarFlow.Booking.Domain
import CarFlow.Lib.RowTable
import CarFlow.Shared.Outbox

/-!
# The operations of the booking service

`services/booking/service.py` with the models, schemas and repository under it. An operation reads
one row of `bookings`, and from that row alone computes what it writes: the new row, the events to
append at the following versions, and the outbox rows. Here an operation is that computation, a
function from the row it read to its `Writes`; `BookingDb.write` then carries the writes out with
the checks the database makes, and `BookingDb.execute` is the whole transaction run on its own.
`Booking.Transactions` runs the same writes statement by statement, interleaved with those of
other transactions.

## Checks of the database

* a value outside its `Integer` column is refused by the driver (`dataError`);
* `ex_bookings_no_overlap`: two rows of one vehicle whose inclusive date ranges share a day are
  not both live, where cancelled and rejected rows are not live;
* `uq_booking_events_booking_version`: a version of a booking is appended once.

## Implementation notes

That an operation is a function of one row is what the rest of the development rests on, so the
reads of the source that are not of this row are arguments: the vehicle that listing has shown, the
caller, and the new identifier. Checks come in the order of the source, because the first one that
fails is the error. `Writes` has the events in order and the row once, as it is at the end, and the
statements that the session sends are worked out from the two in `Booking.Transactions`.

## Main results

* `*_ok_iff` — when an operation is accepted on the row it read, and what it writes
* `BookingDb.write_ok_iff` — when the database accepts the writes
-/

namespace CarFlow

open Domain

/-! ### Models and schemas -/

/-- A row of `bookings`. The two timestamps are left out: nothing reads them. -/
structure Booking where
  id : Uuid
  vehicleId : Uuid
  hostId : Uuid
  renterId : Uuid
  startDate : Date
  endDate : Date
  dailyPriceCents : ℤ
  dailyMileageLimit : ℤ
  bookingMode : BookingMode
  status : BookingStatus := .requested
  version : ℕ := 1
  startOdometer : Option ℤ := none
  endOdometer : Option ℤ := none
  startFuelPercent : Option ℤ := none
  endFuelPercent : Option ℤ := none
  startPhotoUrl : Option String := none
  endPhotoUrl : Option String := none
  overageCents : ℤ := 0
  deriving DecidableEq

/-- A row of `booking_events`. -/
structure BookingEventRow where
  bookingId : Uuid
  version : ℕ
  event : BookingEvent
  deriving DecidableEq

/-- `CreateBookingRequest`, validated. -/
structure CreateBookingRequest where
  vehicleId : Uuid
  startDate : Date
  endDate : Date
  /-- `check_date_order`. -/
  date_order : startDate.ordinal < endDate.ordinal

/-- `HandoverRequest`, validated. -/
structure HandoverRequest extends Handover where
  odometer_nonneg : 0 ≤ odometer
  fuelPercent_mem : 0 ≤ fuelPercent ∧ fuelPercent ≤ 100
  photoUrl_length : 1 ≤ photoUrl.length ∧ photoUrl.length ≤ 512

/-- `ReturnRequest`, validated: the same fields with the same bounds. -/
abbrev ReturnRequest := HandoverRequest

/-- What `ListingClient.get_vehicle` reads off listing's response. -/
structure VehicleInfo where
  id : Uuid
  hostId : Uuid
  dailyPriceCents : ℤ
  dailyMileageLimit : ℤ
  bookingMode : BookingMode
  approvalStatus : ApprovalStatus
  deriving DecidableEq

/-- The lifecycle events of `_emit_domain_event`. -/
inductive LifecycleEvent
  | bookingRejected
  | bookingConfirmed
  | bookingCancelled
  | bookingCompleted
  | bookingPaymentCaptureFailed
  deriving DecidableEq

/-- The outbox messages of the booking service: the two commands to payment, and the lifecycle
events that ship on the same topic. -/
inductive BookingMessage
  | authorizePaymentRequested (bookingId renterId : Uuid) (amountCents : ℤ)
  | capturePaymentRequested (bookingId hostId : Uuid) (holdAmountCents overageCents : ℤ)
  | lifecycle (event : LifecycleEvent) (bookingId renterId hostId : Uuid) (status : BookingStatus)
  deriving DecidableEq

/-- The `booking_id` in the data of a message. -/
def BookingMessage.bookingId : BookingMessage → Uuid
  | .authorizePaymentRequested bookingId _ _ => bookingId
  | .capturePaymentRequested bookingId _ _ _ => bookingId
  | .lifecycle _ bookingId _ _ _ => bookingId

/-- What the service and its repository raise. -/
inductive BookingError
  | bookingNotFound (bookingId : Uuid)
  | notBookingParty (bookingId : Uuid)
  | vehicleNotBookable (vehicleId : Uuid)
  | domain (error : DomainError)
  | overlappingBooking (vehicleId : Uuid)
  | concurrentBookingUpdate (bookingId : Uuid)
  /-- An `IntegrityError` outside the two places that translate one. -/
  | integrityError
  /-- A value that does not fit its column. -/
  | dataError
  /-- An update that found no row. -/
  | staleData
  deriving DecidableEq

/-! ### The repository's view of a row -/

namespace Booking

/-- `_to_state`. -/
def toState (row : Booking) : BookingState where
  id := row.id
  vehicleId := row.vehicleId
  hostId := row.hostId
  renterId := row.renterId
  startDate := row.startDate
  endDate := row.endDate
  dailyPriceCents := row.dailyPriceCents
  dailyMileageLimit := row.dailyMileageLimit
  bookingMode := row.bookingMode
  status := row.status
  version := row.version
  startOdometer := row.startOdometer
  endOdometer := row.endOdometer
  startFuelPercent := row.startFuelPercent
  endFuelPercent := row.endFuelPercent
  startPhotoUrl := row.startPhotoUrl
  endPhotoUrl := row.endPhotoUrl
  overageCents := row.overageCents

/-- The rows `append_events` inserts: the events at the versions after the row's. -/
def eventRows (row : Booking) (events : List BookingEvent) : List BookingEventRow :=
  events.mapIdx fun offset event =>
    { bookingId := row.id, version := row.version + (offset + 1), event }

/-- What `append_events` leaves in the row. -/
def appendEvents (row : Booking) (events : List BookingEvent) (nextStatus : BookingStatus) :
    Booking :=
  { row with version := row.version + events.length, status := nextStatus }

/-- `_apply_transition`. -/
def applyTransition (row : Booking) (transition : Transition) : Booking :=
  match transition.events with
  | .bookingHandoverRecorded payload :: _ =>
    { row with
      startOdometer := some payload.odometer
      startFuelPercent := some payload.fuelPercent
      startPhotoUrl := some payload.photoUrl }
  | .bookingReturnRecorded payload :: _ =>
    { row with
      endOdometer := some payload.odometer
      endFuelPercent := some payload.fuelPercent
      endPhotoUrl := some payload.photoUrl
      overageCents := payload.overageCents }
  | _ => row

/-- The days a booking is charged for, as the service computes them. -/
def days (row : Booking) : ℤ := max (daysBetween row.endDate row.startDate) 1

/-- Every `Integer` column can hold its value. -/
def FitsColumns (row : Booking) : Prop :=
  FitsInteger row.dailyPriceCents ∧ FitsInteger row.dailyMileageLimit ∧
    FitsInteger row.version ∧ FitsNullable row.startOdometer ∧ FitsNullable row.endOdometer ∧
    FitsNullable row.startFuelPercent ∧ FitsNullable row.endFuelPercent ∧
    FitsInteger row.overageCents

instance (row : Booking) : Decidable row.FitsColumns := by
  unfold FitsColumns
  infer_instance

/-- The predicate of `ex_bookings_no_overlap`. -/
def Live (row : Booking) : Prop := row.status ≠ .cancelled ∧ row.status ≠ .rejected

instance (row : Booking) : Decidable row.Live := inferInstanceAs (Decidable (_ ∧ _))

/-- The inclusive date ranges of two bookings of one vehicle share a day. -/
def Overlaps (row row' : Booking) : Prop :=
  row.vehicleId = row'.vehicleId ∧ row.startDate.ordinal ≤ row'.endDate.ordinal ∧
    row'.startDate.ordinal ≤ row.endDate.ordinal

instance (row row' : Booking) : Decidable (row.Overlaps row') :=
  inferInstanceAs (Decidable (_ ∧ _ ∧ _))

theorem Overlaps.symm {row row' : Booking} (h : row.Overlaps row') : row'.Overlaps row :=
  ⟨h.1.symm, h.2.2, h.2.1⟩

theorem days_eq (row : Booking) : row.days = rentalDays row.toState := rfl

theorem days_pos (row : Booking) : 0 < row.days := row.days_eq ▸ rentalDays_pos row.toState

end Booking

/-! ### The operations

In the order of the source, each with its checks in the order of the source. -/

/-- What an operation writes, given the row it read. -/
structure Writes where
  /-- The row after the operation. -/
  booking : Booking
  /-- The rows appended to `booking_events`. -/
  events : List BookingEventRow
  /-- The outbox messages, in order. -/
  outbox : List BookingMessage

/-- `_emit_authorize_payment_requested`. -/
def emitAuthorizePaymentRequested (booking : Booking) : BookingMessage :=
  .authorizePaymentRequested booking.id booking.renterId (booking.dailyPriceCents * booking.days)

/-- `_emit_domain_event`. -/
def emitDomainEvent (booking : Booking) (event : LifecycleEvent) : BookingMessage :=
  .lifecycle event booking.id booking.renterId booking.hostId booking.status

/-- `get_by_id` and the check that follows it. -/
def requireFound (found : Option Booking) (bookingId : Uuid) : Except BookingError Booking :=
  match found with
  | none => .error (.bookingNotFound bookingId)
  | some booking => .ok booking

/-- The check that the caller is the host. -/
def requireHost (booking : Booking) (hostId : Uuid) : Except BookingError Unit :=
  if booking.hostId ≠ hostId then .error (.notBookingParty booking.id) else .ok ()

/-- The row `create_requested` inserts. -/
def createRequested (id : Uuid) (vehicle : VehicleInfo) (renterId : Uuid)
    (payload : CreateBookingRequest) : Booking where
  id := id
  vehicleId := payload.vehicleId
  hostId := vehicle.hostId
  renterId := renterId
  startDate := payload.startDate
  endDate := payload.endDate
  dailyPriceCents := vehicle.dailyPriceCents
  dailyMileageLimit := vehicle.dailyMileageLimit
  bookingMode := vehicle.bookingMode
  status := .requested
  version := 1

/-- `request_booking`, with the identifier `create_requested` draws and the answer of listing,
`none` for a vehicle it does not show the renter. -/
def requestBooking (id : Uuid) (vehicle : Option VehicleInfo) (renterId : Uuid)
    (payload : CreateBookingRequest) : Except BookingError Writes := do
  match vehicle with
  | none => throw (.vehicleNotBookable payload.vehicleId)
  | some vehicle =>
    if vehicle.approvalStatus ≠ .approved then
      throw (.vehicleNotBookable payload.vehicleId)
    let booking := createRequested id vehicle renterId payload
    let events := booking.eventRows [.bookingRequested]
    let booking := booking.appendEvents [.bookingRequested] .requested
    return { booking, events
             outbox := if vehicle.bookingMode = .instant then
               [emitAuthorizePaymentRequested booking] else [] }

def acceptBookingRequest (found : Option Booking) (bookingId hostId : Uuid) :
    Except BookingError Writes := do
  let booking ← requireFound found bookingId
  requireHost booking hostId
  let transition ← (acceptRequest booking.toState).mapError .domain
  let events := booking.eventRows transition.events
  let booking := booking.appendEvents transition.events transition.nextStatus
  return { booking, events, outbox := [emitAuthorizePaymentRequested booking] }

def rejectBookingRequest (found : Option Booking) (bookingId hostId : Uuid) :
    Except BookingError Writes := do
  let booking ← requireFound found bookingId
  requireHost booking hostId
  let transition ← (rejectRequest booking.toState).mapError .domain
  let events := booking.eventRows transition.events
  let booking := booking.appendEvents transition.events transition.nextStatus
  return { booking, events
           outbox := [emitDomainEvent booking .bookingRejected] }

def recordHandover (found : Option Booking) (bookingId hostId : Uuid) (payload : Handover) :
    Except BookingError Writes := do
  let booking ← requireFound found bookingId
  requireHost booking hostId
  let transition ← (Domain.recordHandover booking.toState payload).mapError .domain
  let booking := booking.applyTransition transition
  let events := booking.eventRows transition.events
  let booking := booking.appendEvents transition.events transition.nextStatus
  return { booking, events, outbox := [] }

def recordReturn (found : Option Booking) (bookingId hostId : Uuid) (payload : Handover) :
    Except BookingError Writes := do
  let booking ← requireFound found bookingId
  requireHost booking hostId
  let (transition, overageCents) ← (Domain.recordReturn booking.toState payload).mapError .domain
  let booking := booking.applyTransition transition
  let events := booking.eventRows transition.events
  let booking := booking.appendEvents transition.events transition.nextStatus
  return { booking, events
           outbox := [.capturePaymentRequested booking.id booking.hostId
             (booking.dailyPriceCents * booking.days) overageCents] }

/-- The four `apply_payment_*` operations: a domain transition and the lifecycle event it is
announced with. -/
def applyPayment (transition : BookingState → Except DomainError Transition)
    (event : LifecycleEvent) (found : Option Booking) (bookingId : Uuid) :
    Except BookingError Writes := do
  let booking ← requireFound found bookingId
  let transition ← (transition booking.toState).mapError .domain
  let events := booking.eventRows transition.events
  let booking := booking.appendEvents transition.events transition.nextStatus
  return { booking, events, outbox := [emitDomainEvent booking event] }

def applyPaymentAuthorized : Option Booking → Uuid → Except BookingError Writes :=
  applyPayment confirmAfterPaymentAuthorized .bookingConfirmed

def applyPaymentAuthorizationFailed : Option Booking → Uuid → Except BookingError Writes :=
  applyPayment cancelAfterPaymentAuthorizationFailed .bookingCancelled

def applyPaymentCaptured : Option Booking → Uuid → Except BookingError Writes :=
  applyPayment completeAfterPaymentCaptured .bookingCompleted

def applyPaymentCaptureFailed : Option Booking → Uuid → Except BookingError Writes :=
  applyPayment notePaymentCaptureFailed .bookingPaymentCaptureFailed

/-! ### One operation of the service -/

/-- The operations, each with what its caller passes. -/
inductive BookingOperation
  | requestBooking (id : Uuid) (vehicle : Option VehicleInfo) (renterId : Uuid)
      (payload : CreateBookingRequest)
  | acceptBookingRequest (bookingId hostId : Uuid)
  | rejectBookingRequest (bookingId hostId : Uuid)
  | recordHandover (bookingId hostId : Uuid) (payload : HandoverRequest)
  | recordReturn (bookingId hostId : Uuid) (payload : ReturnRequest)
  | applyPaymentAuthorized (bookingId : Uuid)
  | applyPaymentAuthorizationFailed (bookingId : Uuid)
  | applyPaymentCaptured (bookingId : Uuid)
  | applyPaymentCaptureFailed (bookingId : Uuid)

namespace BookingOperation

/-- The booking an operation is about. -/
def bookingId : BookingOperation → Uuid
  | .requestBooking id _ _ _ => id
  | .acceptBookingRequest bookingId _ | .rejectBookingRequest bookingId _
  | .recordHandover bookingId _ _ | .recordReturn bookingId _ _
  | .applyPaymentAuthorized bookingId | .applyPaymentAuthorizationFailed bookingId
  | .applyPaymentCaptured bookingId | .applyPaymentCaptureFailed bookingId => bookingId

/-- Only `request_booking` inserts a row; the others read one and update it. -/
def creates : BookingOperation → Bool
  | .requestBooking .. => true
  | _ => false

/-- What an operation writes, from the row it read. -/
def plan : BookingOperation → Option Booking → Except BookingError Writes
  | .requestBooking id vehicle renterId payload, _ =>
    CarFlow.requestBooking id vehicle renterId payload
  | .acceptBookingRequest bookingId hostId, found =>
    CarFlow.acceptBookingRequest found bookingId hostId
  | .rejectBookingRequest bookingId hostId, found =>
    CarFlow.rejectBookingRequest found bookingId hostId
  | .recordHandover bookingId hostId payload, found =>
    CarFlow.recordHandover found bookingId hostId payload.toHandover
  | .recordReturn bookingId hostId payload, found =>
    CarFlow.recordReturn found bookingId hostId payload.toHandover
  | .applyPaymentAuthorized bookingId, found => CarFlow.applyPaymentAuthorized found bookingId
  | .applyPaymentAuthorizationFailed bookingId, found =>
    CarFlow.applyPaymentAuthorizationFailed found bookingId
  | .applyPaymentCaptured bookingId, found => CarFlow.applyPaymentCaptured found bookingId
  | .applyPaymentCaptureFailed bookingId, found =>
    CarFlow.applyPaymentCaptureFailed found bookingId

end BookingOperation

/-! ### What an accepted operation does

`Accepts row op w`: the operation `op`, having read `row`, is accepted and writes `w`. Every
invariant of a booking is a case analysis on it. -/

@[simp] theorem requireFound_ok_iff {found : Option Booking} {bookingId : Uuid} {row : Booking} :
    requireFound found bookingId = .ok row ↔ found = some row := by
  cases found <;> simp [requireFound]

@[simp] theorem requireHost_ok_iff {row : Booking} {hostId : Uuid} {u : Unit} :
    requireHost row hostId = .ok u ↔ row.hostId = hostId := by
  by_cases h : row.hostId = hostId <;> simp [requireHost, h]

/-- The row after a transition that records nothing about the car. -/
def Booking.settle (row : Booking) (n : ℕ) (status : BookingStatus) : Booking :=
  { row with version := row.version + n, status }

/-- The row after a handover. -/
def Booking.handOver (row : Booking) (payload : Handover) : Booking :=
  { row with
    version := row.version + 1
    status := .active
    startOdometer := some payload.odometer
    startFuelPercent := some payload.fuelPercent
    startPhotoUrl := some payload.photoUrl }

/-- The row after a return. -/
def Booking.takeBack (row : Booking) (payload : Handover) (overageCents : ℤ) : Booking :=
  { row with
    version := row.version + 1
    status := .active
    endOdometer := some payload.odometer
    endFuelPercent := some payload.fuelPercent
    endPhotoUrl := some payload.photoUrl
    overageCents }

/-- The overage of a return at an odometer, for a row that was handed over at `startOdometer`. -/
def Booking.overageAt (row : Booking) (startOdometer endOdometer : ℤ) : ℤ :=
  computeOverageCents startOdometer endOdometer row.dailyMileageLimit row.days

/-- What an accepted `request_booking` writes. -/
def requestWrites (id : Uuid) (vehicle : VehicleInfo) (renterId : Uuid)
    (payload : CreateBookingRequest) : Writes where
  booking := (createRequested id vehicle renterId payload).settle 1 .requested
  events := (createRequested id vehicle renterId payload).eventRows [.bookingRequested]
  outbox := if vehicle.bookingMode = .instant then
    [emitAuthorizePaymentRequested (createRequested id vehicle renterId payload)] else []

/-- The operations on an existing row that are accepted, and what they write. -/
inductive Accepts (row : Booking) : BookingOperation → Writes → Prop
  | accept (bookingId : Uuid) (hmode : row.bookingMode = .request)
      (hstatus : row.status = .requested) :
      Accepts row (.acceptBookingRequest bookingId row.hostId)
        ⟨row.settle 1 .requested, row.eventRows [.bookingRequestAccepted],
          [emitAuthorizePaymentRequested row]⟩
  | reject (bookingId : Uuid) (hstatus : row.status = .requested) :
      Accepts row (.rejectBookingRequest bookingId row.hostId)
        ⟨row.settle 1 .rejected, row.eventRows [.bookingRejected],
          [emitDomainEvent (row.settle 1 .rejected) .bookingRejected]⟩
  | handover (bookingId : Uuid) (payload : HandoverRequest) (hstatus : row.status = .confirmed) :
      Accepts row (.recordHandover bookingId row.hostId payload)
        ⟨row.handOver payload.toHandover,
          row.eventRows [.bookingHandoverRecorded payload.toHandover], []⟩
  | return (bookingId : Uuid) (payload : ReturnRequest) (startOdometer : ℤ)
      (hstatus : row.status = .active) (hstart : row.startOdometer = some startOdometer) :
      Accepts row (.recordReturn bookingId row.hostId payload)
        ⟨row.takeBack payload.toHandover (row.overageAt startOdometer payload.odometer),
          row.eventRows [.bookingReturnRecorded ⟨payload.odometer, payload.fuelPercent,
            payload.photoUrl, row.overageAt startOdometer payload.odometer⟩],
          [.capturePaymentRequested row.id row.hostId (row.dailyPriceCents * row.days)
            (row.overageAt startOdometer payload.odometer)]⟩
  | confirm (bookingId : Uuid) (hstatus : row.status = .requested) :
      Accepts row (.applyPaymentAuthorized bookingId)
        ⟨row.settle 2 .confirmed, row.eventRows [.paymentAuthorized, .bookingConfirmed],
          [emitDomainEvent (row.settle 2 .confirmed) .bookingConfirmed]⟩
  | cancel (bookingId : Uuid) (hstatus : row.status = .requested) :
      Accepts row (.applyPaymentAuthorizationFailed bookingId)
        ⟨row.settle 2 .cancelled, row.eventRows [.paymentAuthorizationFailed, .bookingCancelled],
          [emitDomainEvent (row.settle 2 .cancelled) .bookingCancelled]⟩
  | complete (bookingId : Uuid) (hstatus : row.status = .active) :
      Accepts row (.applyPaymentCaptured bookingId)
        ⟨row.settle 2 .completed, row.eventRows [.paymentCaptured, .bookingCompleted],
          [emitDomainEvent (row.settle 2 .completed) .bookingCompleted]⟩
  | noteFailure (bookingId : Uuid) (hstatus : row.status = .active) :
      Accepts row (.applyPaymentCaptureFailed bookingId)
        ⟨row.settle 1 .active, row.eventRows [.paymentCaptureFailed],
          [emitDomainEvent (row.settle 1 .active) .bookingPaymentCaptureFailed]⟩

section Plan

variable {op : BookingOperation} {found : Option Booking} {row : Booking} {w : Writes}

/-- A request is accepted if listing shows the vehicle and it is approved. -/
theorem requestBooking_ok_iff {id : Uuid} {vehicle : Option VehicleInfo} {renterId : Uuid}
    {payload : CreateBookingRequest} :
    requestBooking id vehicle renterId payload = .ok w ↔
      ∃ v, vehicle = some v ∧ v.approvalStatus = .approved ∧
        w = requestWrites id v renterId payload := by
  cases vehicle with
  | none => simp [requestBooking]
  | some v =>
    by_cases ha : v.approvalStatus = .approved
    · simp only [requestBooking, ha, ne_eq, not_true_eq_false, if_false,
        Except.pure_eq_ok_iff, Option.some.injEq, exists_eq_left', true_and, @eq_comm _ w]
      rfl
    · simp [requestBooking, ha]

theorem applyPayment_ok_iff {events : List BookingEvent} {expected nextStatus : BookingStatus}
    {event : LifecycleEvent} {bookingId : Uuid} :
    applyPayment (fun state => transitionFrom state expected events nextStatus) event found
        bookingId = .ok w ↔
      ∃ row, found = some row ∧ row.status = expected ∧
        w = ⟨row.settle events.length nextStatus, row.eventRows events,
          [emitDomainEvent (row.settle events.length nextStatus) event]⟩ := by
  simp only [applyPayment, Except.bind_eq_ok_iff, requireFound_ok_iff, Except.mapError_eq_ok_iff,
    transitionFrom_ok_iff, Except.pure_eq_ok_iff]
  constructor
  · rintro ⟨row, rfl, t, ⟨hs, rfl⟩, rfl⟩
    exact ⟨row, rfl, hs, rfl⟩
  · rintro ⟨row, rfl, hs, rfl⟩
    exact ⟨row, rfl, _, ⟨hs, rfl⟩, rfl⟩

/-- An operation on an existing row is accepted exactly as `Accepts` says. -/
theorem plan_ok_iff (hc : op.creates = false) :
    op.plan found = .ok w ↔ ∃ row, found = some row ∧ Accepts row op w := by
  cases op with
  | requestBooking id vehicle renterId payload => cases hc
  | acceptBookingRequest bookingId hostId =>
    simp only [BookingOperation.plan, acceptBookingRequest, Except.bind_eq_ok_iff,
      requireFound_ok_iff, requireHost_ok_iff, Except.mapError_eq_ok_iff, acceptRequest_ok_iff,
      Except.pure_eq_ok_iff]
    constructor
    · rintro ⟨row, rfl, -, rfl, t, ⟨hm, hs, rfl⟩, rfl⟩
      exact ⟨row, rfl, .accept bookingId hm hs⟩
    · rintro ⟨row, rfl, h⟩
      cases h with
      | accept _ hm hs => exact ⟨row, rfl, (), rfl, _, ⟨hm, hs, rfl⟩, rfl⟩
  | rejectBookingRequest bookingId hostId =>
    simp only [BookingOperation.plan, rejectBookingRequest, rejectRequest, Except.bind_eq_ok_iff,
      requireFound_ok_iff, requireHost_ok_iff, Except.mapError_eq_ok_iff, transitionFrom_ok_iff,
      Except.pure_eq_ok_iff]
    constructor
    · rintro ⟨row, rfl, -, rfl, t, ⟨hs, rfl⟩, rfl⟩
      exact ⟨row, rfl, .reject bookingId hs⟩
    · rintro ⟨row, rfl, h⟩
      cases h with
      | reject _ hs => exact ⟨row, rfl, (), rfl, _, ⟨hs, rfl⟩, rfl⟩
  | recordHandover bookingId hostId payload =>
    simp only [BookingOperation.plan, recordHandover, Domain.recordHandover,
      Except.bind_eq_ok_iff, requireFound_ok_iff, requireHost_ok_iff, Except.mapError_eq_ok_iff,
      transitionFrom_ok_iff, Except.pure_eq_ok_iff]
    constructor
    · rintro ⟨row, rfl, -, rfl, t, ⟨hs, rfl⟩, rfl⟩
      exact ⟨row, rfl, .handover bookingId payload hs⟩
    · rintro ⟨row, rfl, h⟩
      cases h with
      | handover _ _ hs => exact ⟨row, rfl, (), rfl, _, ⟨hs, rfl⟩, rfl⟩
  | recordReturn bookingId hostId payload =>
    simp only [BookingOperation.plan, recordReturn, Except.bind_eq_ok_iff, requireFound_ok_iff,
      requireHost_ok_iff, Except.mapError_eq_ok_iff, recordReturn_ok_iff, Except.pure_eq_ok_iff]
    constructor
    · rintro ⟨row, rfl, -, rfl, _, ⟨hs, o, _, ho, rfl, rfl⟩, rfl⟩
      exact ⟨row, rfl, .return bookingId payload o hs ho⟩
    · rintro ⟨row, rfl, h⟩
      cases h with
      | «return» _ _ o hs ho => exact ⟨row, rfl, (), rfl, _, ⟨hs, o, _, ho, rfl, rfl⟩, rfl⟩
  | applyPaymentAuthorized bookingId =>
    refine applyPayment_ok_iff.trans ⟨?_, ?_⟩
    · rintro ⟨row, rfl, hs, rfl⟩
      exact ⟨row, rfl, .confirm bookingId hs⟩
    · rintro ⟨row, rfl, h⟩
      cases h with
      | confirm _ hs => exact ⟨row, rfl, hs, rfl⟩
  | applyPaymentAuthorizationFailed bookingId =>
    refine applyPayment_ok_iff.trans ⟨?_, ?_⟩
    · rintro ⟨row, rfl, hs, rfl⟩
      exact ⟨row, rfl, .cancel bookingId hs⟩
    · rintro ⟨row, rfl, h⟩
      cases h with
      | cancel _ hs => exact ⟨row, rfl, hs, rfl⟩
  | applyPaymentCaptured bookingId =>
    refine applyPayment_ok_iff.trans ⟨?_, ?_⟩
    · rintro ⟨row, rfl, hs, rfl⟩
      exact ⟨row, rfl, .complete bookingId hs⟩
    · rintro ⟨row, rfl, h⟩
      cases h with
      | complete _ hs => exact ⟨row, rfl, hs, rfl⟩
  | applyPaymentCaptureFailed bookingId =>
    refine applyPayment_ok_iff.trans ⟨?_, ?_⟩
    · rintro ⟨row, rfl, hs, rfl⟩
      exact ⟨row, rfl, .noteFailure bookingId hs⟩
    · rintro ⟨row, rfl, h⟩
      cases h with
      | noteFailure _ hs => exact ⟨row, rfl, hs, rfl⟩

end Plan

/-! ### A sample booking -/

/-- A car of host `1`, at 50.00 a day with 200 miles. -/
def sampleVehicle (bookingMode : BookingMode) : VehicleInfo where
  id := 7
  hostId := 1
  dailyPriceCents := 5000
  dailyMileageLimit := 200
  bookingMode := bookingMode
  approvalStatus := .approved

/-- Three days from the first of January 2024. -/
def sampleDates : CreateBookingRequest where
  vehicleId := 7
  startDate := ⟨738886, by decide, by decide⟩
  endDate := ⟨738889, by decide, by decide⟩
  date_order := by decide

/-- What the host records at an odometer, with a full tank. -/
def sampleHandover (odometer : ℕ) : HandoverRequest where
  odometer := odometer
  fuelPercent := 100
  photoUrl := "photo"
  odometer_nonneg := Int.natCast_nonneg odometer
  fuelPercent_mem := by decide
  photoUrl_length := by decide

end CarFlow
