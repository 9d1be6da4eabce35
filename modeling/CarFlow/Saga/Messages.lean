import CarFlow.Booking.Service
import CarFlow.Payment.Service
import CarFlow.Shared.Envelope

/-!
# Messages as they are written

The `event_type` and the `data` that the booking and the payment service pass to
`write_outbox_event` for the messages of the saga.
-/

namespace CarFlow

/-- The `event_type` of a lifecycle event. -/
def LifecycleEvent.eventType : LifecycleEvent → String
  | .bookingRejected => "booking_rejected"
  | .bookingConfirmed => "booking_confirmed"
  | .bookingCancelled => "booking_cancelled"
  | .bookingCompleted => "booking_completed"
  | .bookingPaymentCaptureFailed => "booking_payment_capture_failed"

namespace BookingMessage

def eventType : BookingMessage → String
  | .authorizePaymentRequested .. => "authorize_payment_requested"
  | .capturePaymentRequested .. => "capture_payment_requested"
  | .lifecycle event .. => event.eventType

def data : BookingMessage → EventData
  | .authorizePaymentRequested bookingId renterId amountCents =>
    [("booking_id", .text (uuidStr bookingId)), ("renter_id", .text (uuidStr renterId)),
      ("amount_cents", .number amountCents)]
  | .capturePaymentRequested bookingId hostId holdAmountCents overageCents =>
    [("booking_id", .text (uuidStr bookingId)), ("host_id", .text (uuidStr hostId)),
      ("hold_amount_cents", .number holdAmountCents), ("overage_cents", .number overageCents)]
  | .lifecycle _ bookingId renterId hostId status =>
    [("booking_id", .text (uuidStr bookingId)), ("renter_id", .text (uuidStr renterId)),
      ("host_id", .text (uuidStr hostId)), ("status", .text status.toString)]

/-- The identifiers in a message are UUIDs. -/
def Uuids : BookingMessage → Prop
  | .authorizePaymentRequested bookingId renterId _ => bookingId < 16 ^ 32 ∧ renterId < 16 ^ 32
  | .capturePaymentRequested bookingId hostId _ _ => bookingId < 16 ^ 32 ∧ hostId < 16 ^ 32
  | .lifecycle _ bookingId renterId hostId _ =>
    bookingId < 16 ^ 32 ∧ renterId < 16 ^ 32 ∧ hostId < 16 ^ 32

end BookingMessage

/-- The `event_type` of a payment event. -/
def PaymentEventType.text : PaymentEventType → String
  | .paymentAuthorized => "payment_authorized"
  | .paymentAuthorizationFailed => "payment_authorization_failed"
  | .paymentCaptured => "payment_captured"
  | .paymentCaptureFailed => "payment_capture_failed"

def PaymentMessage.data (message : PaymentMessage) : EventData :=
  [("booking_id", .text (uuidStr message.bookingId))]

theorem BookingMessage.nodup_data (message : BookingMessage) :
    (message.data.map Prod.fst).Nodup := by
  cases message with
  | authorizePaymentRequested =>
    exact (by decide : ["booking_id", "renter_id", "amount_cents"].Nodup)
  | capturePaymentRequested =>
    exact (by decide : ["booking_id", "host_id", "hold_amount_cents", "overage_cents"].Nodup)
  | lifecycle => exact (by decide : ["booking_id", "renter_id", "host_id", "status"].Nodup)

theorem PaymentMessage.nodup_data (message : PaymentMessage) :
    (message.data.map Prod.fst).Nodup := List.nodup_singleton _

end CarFlow
