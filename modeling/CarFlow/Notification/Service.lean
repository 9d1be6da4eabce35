import CarFlow.Booking.OutboxImage
import CarFlow.Saga.Messages
import CarFlow.Shared.SideEffects

/-!
# The notification service

`services/notification`: a consumer of the booking topic that tells both parties of a booking what
has become of it. What it sends is a line in its log, one for each channel that the user has not
opted out of, and no transaction takes a line back.

## The model

* The table of preferences is written by somebody else, at any time.
* The handlers read the `data` of an event as it was written. The records that they get it from are
  in `Platform.Records`.

## Main results

* `notificationHandler_eq` — no event of the booking service makes a handler raise, and the calls
  are for both parties
-/

namespace CarFlow

/-! ### Preferences -/

/-- A row of `notification_preferences`. -/
structure NotificationPreference where
  userId : Uuid
  emailEnabled : Bool := true
  smsEnabled : Bool := true

structure ResolvedPreference where
  emailEnabled : Bool
  smsEnabled : Bool

def defaultPreferenceEmailEnabled : Bool := true

def defaultPreferenceSmsEnabled : Bool := true

/-- `resolve_preference`. -/
def resolvePreference (preferences : List NotificationPreference) (userId : Uuid) :
    ResolvedPreference :=
  match RowTable.lookup NotificationPreference.userId preferences userId with
  | none => ⟨defaultPreferenceEmailEnabled, defaultPreferenceSmsEnabled⟩
  | some row => ⟨row.emailEnabled, row.smsEnabled⟩

/-! ### The handlers -/

/-- A call of `notify_user`. The identifier of the booking is the string in the `data`. -/
structure UserNotification where
  userId : Uuid
  eventType : String
  bookingId : String
  deriving DecidableEq

/-- The line in the log for a channel. -/
def UserNotification.wouldSend (call : UserNotification) (channel : String) : String :=
  s!"would_send channel={channel} user_id={uuidStr call.userId} event_type={call.eventType} " ++
    s!"booking_id={call.bookingId}"

/-- `notify_user`. -/
def notifyUser (call : UserNotification) (preferences : List NotificationPreference) :
    List String :=
  let preference := resolvePreference preferences call.userId
  (if preference.emailEnabled then [call.wouldSend "email"] else []) ++
    if preference.smsEnabled then [call.wouldSend "sms"] else []

/-- How a booking identifier in the `data` is formatted. -/
def DataValue.format : DataValue → String
  | .text s => s
  | .number n => toString n

/-- `notify_booking_event`: its calls of `notify_user`, and how it ends. -/
def notifyBookingEvent (eventType : String) (data : EventData) :
    List UserNotification × Except DataError Unit :=
  match getItem data "booking_id" with
  | .error e => ([], .error e)
  | .ok value =>
    match getUuid data "renter_id" with
    | .error e => ([], .error e)
    | .ok renterId =>
      let renter : UserNotification := ⟨renterId, eventType, value.format⟩
      match getUuid data "host_id" with
      | .error e => ([renter], .error e)
      | .ok hostId => ([renter, ⟨hostId, eventType, value.format⟩], .ok ())

/-- `BOOKING_EVENT_TYPES`. -/
def bookingEventTypes : List String :=
  ["booking_confirmed", "booking_cancelled", "booking_completed", "booking_rejected",
    "booking_payment_capture_failed"]

/-- `BOOKING_EVENT_HANDLERS`, of an event. -/
def notificationHandler (message : BookingMessage) :
    Option (List UserNotification × Except DataError Unit) :=
  if message.eventType ∈ bookingEventTypes then
    some (notifyBookingEvent message.eventType message.data)
  else none

/-- The service. A handler writes nothing; whoever else writes the preferences replaces the
table. -/
def notificationService (preferences : List NotificationPreference) :
    CallingService BookingMessage Unit (List NotificationPreference)
      (Option (List NotificationPreference)) DataError UserNotification String where
  tables := preferences
  handlers message := (notificationHandler message).map fun handler _ => handler.2.map fun _ => none
  apply written preferences := written.getD preferences
  calls message := ((notificationHandler message).map Prod.fst).getD []
  lines := notifyUser

/-! ### The handlers do not raise -/

section Handlers

variable {message : BookingMessage}

/-- The calls for a lifecycle event. -/
def lifecycleCalls (event : LifecycleEvent) (bookingId renterId hostId : Uuid) :
    List UserNotification :=
  [⟨renterId, event.eventType, uuidStr bookingId⟩, ⟨hostId, event.eventType, uuidStr bookingId⟩]

theorem eventType_mem (event : LifecycleEvent) : event.eventType ∈ bookingEventTypes := by
  cases event <;> decide

theorem notifyBookingEvent_lifecycle (event : LifecycleEvent) {bookingId renterId hostId : Uuid}
    (hrenter : renterId < 16 ^ 32) (hhost : hostId < 16 ^ 32) (status : BookingStatus) :
    notifyBookingEvent event.eventType
        (BookingMessage.lifecycle event bookingId renterId hostId status).data =
      (lifecycleCalls event bookingId renterId hostId, .ok ()) := by
  have hbookingId : getItem (BookingMessage.lifecycle event bookingId renterId hostId status).data
      "booking_id" = .ok (.text (uuidStr bookingId)) := rfl
  have hrenterId : getUuid (BookingMessage.lifecycle event bookingId renterId hostId status).data
      "renter_id" = .ok renterId := by
    simp [getUuid, getItem, BookingMessage.data, List.lookup_cons, uuidOfString_uuidStr hrenter]
  have hhostId : getUuid (BookingMessage.lifecycle event bookingId renterId hostId status).data
      "host_id" = .ok hostId := by
    simp [getUuid, getItem, BookingMessage.data, List.lookup_cons, uuidOfString_uuidStr hhost]
  simp only [notifyBookingEvent, hbookingId, hrenterId, hhostId]
  rfl

/-- The calls for a message of the booking service, if there is a handler for it. -/
def BookingMessage.notifications? : BookingMessage → Option (List UserNotification)
  | .lifecycle event bookingId renterId hostId _ =>
    some (lifecycleCalls event bookingId renterId hostId)
  | .authorizePaymentRequested .. | .capturePaymentRequested .. => none

theorem notificationHandler_eq (huuids : message.Uuids) :
    notificationHandler message = message.notifications?.map fun calls => (calls, .ok ()) := by
  cases message with
  | authorizePaymentRequested bookingId renterId amountCents =>
    exact if_neg (show "authorize_payment_requested" ∉ bookingEventTypes by decide)
  | capturePaymentRequested bookingId hostId holdAmountCents overageCents =>
    exact if_neg (show "capture_payment_requested" ∉ bookingEventTypes by decide)
  | lifecycle event bookingId renterId hostId status =>
    obtain ⟨-, hrenter, hhost⟩ := huuids
    rw [notificationHandler, BookingMessage.eventType, if_pos (eventType_mem event),
      notifyBookingEvent_lifecycle event hrenter hhost status]
    rfl

variable {preferences : List NotificationPreference}

theorem notificationService_calls (huuids : message.Uuids) :
    (notificationService preferences).calls message = message.notifications?.getD [] := by
  simp only [notificationService, notificationHandler_eq huuids]
  cases message <;> rfl

theorem notificationService_handlers (huuids : message.Uuids) :
    (notificationService preferences).handlers message =
      message.notifications?.map fun _ _ => .ok none := by
  simp only [notificationService, notificationHandler_eq huuids]
  cases message <;> rfl

end Handlers

end CarFlow
