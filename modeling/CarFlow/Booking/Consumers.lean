import CarFlow.Booking.Repository
import CarFlow.Payment.Service

/-!
# The booking consumer

`services/booking/consumers.py`: the consumer of the payment topic. Each of the four payment events
has a handler, which applies the reaction to the booking named in the event; claim and reaction are
one transaction. A handler that raises leaves the offset uncommitted, so the record is delivered
again, in front of the rest of its partition.

## Main results

* `processPaymentEvent_ok` — the first delivery of an event, if its transaction commits
* `not_poison_of_accepts`, `poison_of_rejected` — when the handler refuses the event
-/

namespace CarFlow

/-- `PAYMENT_EVENT_HANDLERS`: the reaction to an event. -/
def paymentEventHandlers (message : PaymentMessage) : BookingOperation :=
  match message.eventType with
  | .paymentAuthorized => .applyPaymentAuthorized message.bookingId
  | .paymentAuthorizationFailed => .applyPaymentAuthorizationFailed message.bookingId
  | .paymentCaptured => .applyPaymentCaptured message.bookingId
  | .paymentCaptureFailed => .applyPaymentCaptureFailed message.bookingId

/-- The processor of the consumer, for one record of the payment topic. -/
def processPaymentEvent (row : OutboxRow PaymentMessage) (db : BookingDb) :
    Except BookingError BookingDb :=
  postgresInboxProcessor .ok (some fun db => db.execute (paymentEventHandlers row.payload)) row.id
    db

/-- The handler of the record raises `InvalidBookingTransitionError` or `BookingNotFoundError`. -/
def Poison (row : OutboxRow PaymentMessage) (db : BookingDb) : Prop :=
  ∃ e, processPaymentEvent row db = .error e ∧ ((∃ bookingId, e = .bookingNotFound bookingId) ∨
    ∃ message, e = .domain (.invalidBookingTransition message))

section Process

variable {row : OutboxRow PaymentMessage} {db db' : BookingDb} {booking : Booking}

@[simp] theorem bookingId_paymentEventHandlers (message : PaymentMessage) :
    (paymentEventHandlers message).bookingId = message.bookingId := by
  cases message with
  | mk eventType bookingId => cases eventType <;> rfl

theorem processPaymentEvent_of_mem (h : row.id ∈ db.inbox) : processPaymentEvent row db = .ok db :=
  postgresInboxProcessor_of_mem h

theorem processPaymentEvent_of_notMem (h : row.id ∉ db.inbox) :
    processPaymentEvent row db = BookingDb.execute { db with inbox := row.id :: db.inbox }
      (paymentEventHandlers row.payload) :=
  postgresInboxProcessor_of_notMem h

/-- The first delivery of a record, if its transaction commits. -/
theorem processPaymentEvent_ok (hu : row.id ∉ db.inbox)
    (h : processPaymentEvent row db = .ok db') :
    BookingOutcome { db with inbox := row.id :: db.inbox } (paymentEventHandlers row.payload)
      db' := by
  rw [processPaymentEvent_of_notMem hu] at h
  exact BookingDb.execute_outcome h

theorem creates_paymentEventHandlers (message : PaymentMessage) :
    (paymentEventHandlers message).creates = false := by
  cases message with
  | mk eventType bookingId => cases eventType <;> rfl

/-- The consumer handles an event exactly if it was claimed before, or the booking accepts it and
the database admits what it writes. -/
theorem processPaymentEvent_ok_iff :
    (∃ db', processPaymentEvent row db = .ok db') ↔
      row.id ∈ db.inbox ∨ ∃ booking w, db.getById row.payload.bookingId = some booking ∧
        Accepts booking (paymentEventHandlers row.payload) w ∧ db.Admits false w := by
  by_cases hmem : row.id ∈ db.inbox
  · exact iff_of_true ⟨db, processPaymentEvent_of_mem hmem⟩ (.inl hmem)
  have hcreates := creates_paymentEventHandlers row.payload
  rw [processPaymentEvent_of_notMem hmem]
  simp only [BookingDb.execute_ok_iff, hcreates, plan_ok_iff hcreates, BookingDb.write_ok_iff,
    bookingId_paymentEventHandlers, hmem, false_or]
  constructor
  · rintro ⟨db', w, ⟨booking, hbooking, hacc⟩, hadmits, -⟩
    exact ⟨booking, w, hbooking, hacc, hadmits.fits, hadmits.fresh, hadmits.clear, hadmits.free⟩
  · rintro ⟨booking, w, hbooking, hacc, hadmits⟩
    exact ⟨_, w, ⟨booking, hbooking, hacc⟩,
      ⟨hadmits.fits, hadmits.fresh, hadmits.clear, hadmits.free⟩, rfl⟩

theorem paymentEventHandlers_ne_reject (message : PaymentMessage) (bookingId hostId : Uuid) :
    paymentEventHandlers message ≠ .rejectBookingRequest bookingId hostId := by
  cases message with
  | mk eventType bookingId => cases eventType <;> nofun

/-- An event whose reaction is accepted is not poison. -/
theorem not_poison_of_accepts {w : Writes} (hu : row.id ∉ db.inbox)
    (hrow : (db.view row.payload.bookingId).row = some booking)
    (hacc : Accepts booking (paymentEventHandlers row.payload) w) : ¬ Poison row db := by
  rintro ⟨e, he, hpoison⟩
  rw [processPaymentEvent_of_notMem hu] at he
  have hp : (paymentEventHandlers row.payload).plan (BookingDb.getById
      { db with inbox := row.id :: db.inbox } (paymentEventHandlers row.payload).bookingId)
        = .ok w := by
    rw [bookingId_paymentEventHandlers]
    exact (plan_ok_iff (creates_paymentEventHandlers _)).mpr ⟨booking, hrow, hacc⟩
  obtain ⟨hfound, hdomain⟩ := BookingDb.execute_error hp he
  rcases hpoison with ⟨bookingId, rfl⟩ | ⟨message, rfl⟩
  · exact hfound _ rfl
  · exact hdomain _ rfl

/-- A reaction from a status it does not expect raises `InvalidBookingTransitionError`. -/
theorem applyPayment_of_status_ne {events : List BookingEvent} {expected next : BookingStatus}
    {event : LifecycleEvent} (bookingId : Uuid) (h : booking.status ≠ expected) :
    ∃ message, applyPayment (fun state => Domain.transitionFrom state expected events next) event
      (some booking) bookingId = .error (.domain (.invalidBookingTransition message)) := by
  have hs : Domain.requireStatus booking.toState expected = .error _ := if_pos h
  simp only [applyPayment, requireFound, Domain.transitionFrom, bind, Except.bind, hs]
  exact ⟨_, rfl⟩

/-- No payment event is accepted once a booking is rejected. -/
theorem poison_of_rejected (hu : row.id ∉ db.inbox)
    (hrow : (db.view row.payload.bookingId).row = some booking)
    (hstatus : booking.status = .rejected) : Poison row db := by
  have hplan : ∃ message, (paymentEventHandlers row.payload).plan (some booking)
      = .error (.domain (.invalidBookingTransition message)) := by
    cases hp : row.payload with
    | mk eventType bookingId =>
      cases eventType <;> exact applyPayment_of_status_ne bookingId (by simp [hstatus])
  obtain ⟨message, hplan⟩ := hplan
  have hfound : BookingDb.getById { db with inbox := row.id :: db.inbox } row.payload.bookingId
      = some booking := hrow
  refine ⟨_, ?_, .inr ⟨message, rfl⟩⟩
  rw [processPaymentEvent_of_notMem hu, BookingDb.execute, bookingId_paymentEventHandlers, hfound,
    hplan]
  rfl

end Process

end CarFlow
