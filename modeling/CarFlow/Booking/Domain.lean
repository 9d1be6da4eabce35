import CarFlow.Lib.ExceptLemmas
import CarFlow.Shared.Basic

/-!
# The booking state machine

`services/booking/domain.py`: the states of a booking, the events of its log, and the eight
transitions, each a function of the current state that either raises or returns the events to
append and the status they settle on.

## The transitions

| transition | from | events | to |
|---|---|---|---|
| `acceptRequest` | `requested`, request mode | `bookingRequestAccepted` | `requested` |
| `rejectRequest` | `requested` | `bookingRejected` | `rejected` |
| `confirmAfterPaymentAuthorized` | `requested` | two | `confirmed` |
| `cancelAfterPaymentAuthorizationFailed` | `requested` | two | `cancelled` |
| `recordHandover` | `confirmed` | `bookingHandoverRecorded` | `active` |
| `recordReturn` | `active` | `bookingReturnRecorded` | `active` |
| `completeAfterPaymentCaptured` | `active` | two | `completed` |
| `notePaymentCaptureFailed` | `active` | `paymentCaptureFailed` | `active` |

All but three are the same function at other values, `transitionFrom`.

## Main results

* `computeOverageCents_nonneg`, `computeOverageCents_eq_iff` — the overage charge
* `*_ok_iff` — when each transition is accepted, and what it is then
-/

namespace CarFlow

/-- The `status` of a booking. -/
inductive BookingStatus
  | requested
  | confirmed
  | active
  | completed
  | cancelled
  | rejected
  deriving DecidableEq

/-- The stored string of a status. -/
def BookingStatus.toString : BookingStatus → String
  | .requested => "requested"
  | .confirmed => "confirmed"
  | .active => "active"
  | .completed => "completed"
  | .cancelled => "cancelled"
  | .rejected => "rejected"

/-- The statuses no transition leaves. -/
def BookingStatus.Terminal (status : BookingStatus) : Prop :=
  status = .completed ∨ status = .cancelled ∨ status = .rejected

/-- What the host records about the car when handing it over. -/
structure Handover where
  odometer : ℤ
  fuelPercent : ℤ
  photoUrl : String
  deriving DecidableEq

/-- What the host records about the car when it is returned, with the overage due for it. -/
structure Return where
  odometer : ℤ
  fuelPercent : ℤ
  photoUrl : String
  overageCents : ℤ
  deriving DecidableEq

/-- An entry of `booking_events`: the event type with its payload. -/
inductive BookingEvent
  | bookingRequested
  | bookingRequestAccepted
  | bookingRejected
  | paymentAuthorized
  | bookingConfirmed
  | paymentAuthorizationFailed
  | bookingCancelled
  | bookingHandoverRecorded (payload : Handover)
  | bookingReturnRecorded (payload : Return)
  | paymentCaptured
  | bookingCompleted
  | paymentCaptureFailed
  deriving DecidableEq

namespace Domain

/-- Fixed overage rate. -/
def overageRateCentsPerMile : ℤ := 50

/-- `BookingState`: the row of a booking as the domain functions see it. -/
structure BookingState where
  id : Uuid
  vehicleId : Uuid
  hostId : Uuid
  renterId : Uuid
  startDate : Date
  endDate : Date
  dailyPriceCents : ℤ
  dailyMileageLimit : ℤ
  bookingMode : BookingMode
  status : BookingStatus
  version : ℕ
  startOdometer : Option ℤ := none
  endOdometer : Option ℤ := none
  startFuelPercent : Option ℤ := none
  endFuelPercent : Option ℤ := none
  startPhotoUrl : Option String := none
  endPhotoUrl : Option String := none
  overageCents : ℤ := 0

/-- The events to append, in order, and the status they settle on. -/
structure Transition where
  events : List BookingEvent
  nextStatus : BookingStatus
  deriving DecidableEq

/-- What a domain function raises. -/
inductive DomainError
  /-- `InvalidBookingTransitionError`. -/
  | invalidBookingTransition (message : String)
  /-- `TypeError`: arithmetic on an odometer that was never recorded. -/
  | typeError
  deriving DecidableEq

/-- The number of days charged: at least one. -/
def rentalDays (state : BookingState) : ℤ := max (daysBetween state.endDate state.startDate) 1

/-- `_require_status`. -/
def requireStatus (state : BookingState) (expected : BookingStatus) : Except DomainError Unit :=
  if state.status ≠ expected then
    .error (.invalidBookingTransition
      ("cannot do this from status '" ++ state.status.toString ++ "' (expected '"
        ++ expected.toString ++ "')"))
  else .ok ()

/-- The transitions that only check the status. -/
def transitionFrom (state : BookingState) (expected : BookingStatus) (events : List BookingEvent)
    (nextStatus : BookingStatus) : Except DomainError Transition := do
  requireStatus state expected
  return { events, nextStatus }

def acceptRequest (state : BookingState) : Except DomainError Transition := do
  if state.bookingMode ≠ .request then
    throw (.invalidBookingTransition "booking is not in request-to-book mode")
  requireStatus state .requested
  return { events := [.bookingRequestAccepted], nextStatus := .requested }

def rejectRequest (state : BookingState) : Except DomainError Transition :=
  transitionFrom state .requested [.bookingRejected] .rejected

def confirmAfterPaymentAuthorized (state : BookingState) : Except DomainError Transition :=
  transitionFrom state .requested [.paymentAuthorized, .bookingConfirmed] .confirmed

def cancelAfterPaymentAuthorizationFailed (state : BookingState) : Except DomainError Transition :=
  transitionFrom state .requested [.paymentAuthorizationFailed, .bookingCancelled] .cancelled

def recordHandover (state : BookingState) (payload : Handover) : Except DomainError Transition :=
  transitionFrom state .confirmed [.bookingHandoverRecorded payload] .active

def computeOverageCents (startOdometer endOdometer dailyMileageLimit days : ℤ) : ℤ :=
  let milesDriven := endOdometer - startOdometer
  let milesAllowed := dailyMileageLimit * days
  if milesDriven ≤ milesAllowed then 0 else (milesDriven - milesAllowed) * overageRateCentsPerMile

/-- `record_return`. The start odometer is a nullable column, and subtracting `None` raises. -/
def recordReturn (state : BookingState) (payload : Handover) :
    Except DomainError (Transition × ℤ) := do
  requireStatus state .active
  match state.startOdometer with
  | none => throw .typeError
  | some startOdometer =>
    let overageCents := computeOverageCents startOdometer payload.odometer
      state.dailyMileageLimit (rentalDays state)
    return ({ events := [.bookingReturnRecorded
                { odometer := payload.odometer, fuelPercent := payload.fuelPercent,
                  photoUrl := payload.photoUrl, overageCents }],
              nextStatus := .active }, overageCents)

def completeAfterPaymentCaptured (state : BookingState) : Except DomainError Transition :=
  transitionFrom state .active [.paymentCaptured, .bookingCompleted] .completed

def notePaymentCaptureFailed (state : BookingState) : Except DomainError Transition :=
  transitionFrom state .active [.paymentCaptureFailed] .active

/-! ### The overage charge -/

theorem rentalDays_pos (state : BookingState) : 0 < rentalDays state := by
  unfold rentalDays
  omega

theorem computeOverageCents_nonneg (startOdometer endOdometer dailyMileageLimit days : ℤ) :
    0 ≤ computeOverageCents startOdometer endOdometer dailyMileageLimit days := by
  simp only [computeOverageCents, overageRateCentsPerMile]
  split <;> omega

/-- Two end odometers cost the same exactly if they are the same or both within the allowance:
beyond it every mile is charged. -/
theorem computeOverageCents_eq_iff {startOdometer dailyMileageLimit days : ℤ} (end₁ end₂ : ℤ) :
    computeOverageCents startOdometer end₁ dailyMileageLimit days
        = computeOverageCents startOdometer end₂ dailyMileageLimit days ↔
      end₁ = end₂ ∨ end₁ - startOdometer ≤ dailyMileageLimit * days ∧
        end₂ - startOdometer ≤ dailyMileageLimit * days := by
  simp only [computeOverageCents, overageRateCentsPerMile]
  generalize dailyMileageLimit * days = allowed
  split <;> split <;> omega

/-! ### When a transition is accepted -/

@[simp] theorem requireStatus_ok_iff {state : BookingState} {expected : BookingStatus} {u : Unit} :
    requireStatus state expected = .ok u ↔ state.status = expected := by
  by_cases h : state.status = expected <;> simp [requireStatus, h]

theorem transitionFrom_ok_iff {state : BookingState} {expected nextStatus : BookingStatus}
    {events : List BookingEvent} {t : Transition} :
    transitionFrom state expected events nextStatus = .ok t ↔
      state.status = expected ∧ t = ⟨events, nextStatus⟩ := by
  simp [transitionFrom, @eq_comm _ t]

theorem acceptRequest_ok_iff {state : BookingState} {t : Transition} :
    acceptRequest state = .ok t ↔ state.bookingMode = .request ∧ state.status = .requested ∧
      t = ⟨[.bookingRequestAccepted], .requested⟩ := by
  by_cases hm : state.bookingMode = .request <;> simp [acceptRequest, hm, @eq_comm _ t]

theorem recordReturn_ok_iff {state : BookingState} {payload : Handover} {t : Transition × ℤ} :
    recordReturn state payload = .ok t ↔ state.status = .active ∧
      ∃ startOdometer overageCents, state.startOdometer = some startOdometer ∧
        overageCents = computeOverageCents startOdometer payload.odometer
          state.dailyMileageLimit (rentalDays state) ∧
        t = (⟨[.bookingReturnRecorded ⟨payload.odometer, payload.fuelPercent, payload.photoUrl,
          overageCents⟩], .active⟩, overageCents) := by
  cases hs : state.startOdometer with
  | none => simp [recordReturn, hs]
  | some startOdometer =>
    simp only [recordReturn, hs, Except.bind_eq_ok_iff, requireStatus_ok_iff,
      Except.pure_eq_ok_iff, exists_const, Option.some.injEq]
    constructor
    · rintro ⟨h, rfl⟩
      exact ⟨h, startOdometer, _, rfl, rfl, rfl⟩
    · rintro ⟨h, o, _, rfl, rfl, rfl⟩
      exact ⟨h, rfl⟩

/-- The only way to a `TypeError` is a booking that is active without an odometer. -/
theorem recordReturn_typeError {state : BookingState} {payload : Handover}
    (h : recordReturn state payload = .error .typeError) :
    state.status = .active ∧ state.startOdometer = none := by
  by_cases hs : state.status = .active
  · refine ⟨hs, ?_⟩
    cases ho : state.startOdometer with
    | none => rfl
    | some startOdometer => simp [recordReturn, requireStatus, hs, ho, bind, Except.bind, pure,
        Except.pure] at h
  · simp [recordReturn, requireStatus, hs, bind, Except.bind] at h

end Domain

end CarFlow
