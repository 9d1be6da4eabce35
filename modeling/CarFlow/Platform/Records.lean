import CarFlow.Booking.Consumers
import CarFlow.Notification.Service
import CarFlow.Payment.Consumers

/-!
# Consumers of records

Elsewhere a consumer is handed the message that was written. Here it gets what `run_consumer` gets,
the text of a Kafka record, decodes it, looks its handler up by the event type, and reads the
arguments out of the data.

## The model

* `eventOf` finds the number that stands for an identifier in the models of the databases. It is a
  parameter, as is how those identifiers are spelled.
* Where `run_consumer` raises before `process`, the result is `none`. It is left out, and `none` as
  well, what is done with an `event_id` or `event_type` that is not a string or with `data` that is
  not an object.

## Main results

* `records_processed_as_modelled` — **a consumer does with a record what the models do with its
  message**
-/

namespace CarFlow

/-- A table of handlers. -/
abbrev HandlerTable (α : Type) := List (String × (EventData → α))

/-- `run_consumer` with `postgres_inbox_processor`, of one record. -/
def consumeRecord {δ ρ : Type} [HasInbox δ] (extracts : Json → Bool) (commit : δ → ρ)
    (handlers : HandlerTable (δ → ρ)) (eventOf : String → EventId) (raw : List Char) (db : δ) :
    Option ρ := do
  match ← receive extracts raw with
  | ⟨.str eventId, .str eventType, .obj members⟩ =>
    some <| postgresInboxProcessor commit
      ((handlers.lookup eventType).map fun handler => handler (.ofMembers members))
      (eventOf eventId) db
  | _ => none

/-! ### Payment -/

/-- `authorize`. -/
def authorizeCommand (data : EventData) : Except DataError (PaymentDb → PaymentProgram) := do
  let bookingId ← getUuid data "booking_id"
  let renterId ← getUuid data "renter_id"
  let amountCents ← getNumber data "amount_cents"
  return fun db => handleAuthorizePaymentRequested db bookingId renterId amountCents

/-- `capture`. -/
def captureCommand (data : EventData) : Except DataError (PaymentDb → PaymentProgram) := do
  let bookingId ← getUuid data "booking_id"
  let hostId ← getUuid data "host_id"
  let holdAmountCents ← getNumber data "hold_amount_cents"
  let overageCents ← getNumber data "overage_cents"
  return fun db => handleCapturePaymentRequested db bookingId hostId holdAmountCents overageCents

/-- A handler that reads its arguments first. -/
def reading {δ ρ : Type} (raise : DataError → ρ) (read : EventData → Except DataError (δ → ρ))
    (data : EventData) (db : δ) : ρ :=
  match read data with
  | .error e => raise e
  | .ok handler => handler db

/-- The table of `build_booking_command_handlers`. -/
def bookingCommandTable (raise : DataError → PaymentProgram) :
    HandlerTable (PaymentDb → PaymentProgram) :=
  [("authorize_payment_requested", reading raise authorizeCommand),
    ("capture_payment_requested", reading raise captureCommand)]

/-! ### Booking -/

/-- `_handle`. -/
def paymentEvent (apply : Uuid → BookingOperation) (data : EventData) :
    Except DataError (BookingDb → Except BookingError BookingDb) := do
  let bookingId ← getUuid data "booking_id"
  return fun db => db.execute (apply bookingId)

/-- `PAYMENT_EVENT_HANDLERS`. -/
def paymentEventTable (raise : DataError → Except BookingError BookingDb) :
    HandlerTable (BookingDb → Except BookingError BookingDb) :=
  [("payment_authorized", reading raise (paymentEvent .applyPaymentAuthorized)),
    ("payment_authorization_failed",
      reading raise (paymentEvent .applyPaymentAuthorizationFailed)),
    ("payment_captured", reading raise (paymentEvent .applyPaymentCaptured)),
    ("payment_capture_failed", reading raise (paymentEvent .applyPaymentCaptureFailed))]

/-! ### Notification -/

/-- `BOOKING_EVENT_HANDLERS`. -/
def bookingEventTable : HandlerTable (List UserNotification × Except DataError Unit) :=
  bookingEventTypes.map fun eventType => (eventType, notifyBookingEvent eventType)

/-! ### Data that is read alike -/

section Records

variable {data data' : EventData} {raw : List Char} {extracts : Json → Bool}

theorem getItem_congr (h : ∀ key, data'.lookup key = data.lookup key) :
    getItem data' = getItem data := by
  funext key
  rw [getItem, getItem, h]

theorem getUuid_congr (h : ∀ key, data'.lookup key = data.lookup key) :
    getUuid data' = getUuid data := by
  funext key
  rw [getUuid, getUuid, getItem_congr h]

theorem notifyBookingEvent_congr (h : ∀ key, data'.lookup key = data.lookup key)
    (eventType : String) :
    notifyBookingEvent eventType data' = notifyBookingEvent eventType data := by
  rw [notifyBookingEvent, notifyBookingEvent, getItem_congr h, getUuid_congr h]

/-- An identifier is read as it was written. -/
theorem getUuid_text {key : String} {u : Uuid} (h : data.lookup key = some (.text (uuidStr u)))
    (hu : u < 16 ^ 32) : getUuid data key = .ok u := by
  simp only [getUuid, getItem, h, bind, Except.bind, uuidOfString_uuidStr hu]

theorem getNumber_number {key : String} {n : ℤ} (h : data.lookup key = some (.number n)) :
    getNumber data key = .ok n := by
  simp only [getNumber, getItem, h, bind, Except.bind]

/-- A handler that can read its arguments goes on with them. -/
theorem reading_ok {δ ρ : Type} {raise : DataError → ρ}
    {read : EventData → Except DataError (δ → ρ)} {handler : δ → ρ} (h : read data = .ok handler) :
    reading raise read data = handler := by
  funext db
  rw [reading, h]

/-- The handlers of payment get the arguments that booking has written. -/
theorem bookingCommandTable_lookup (raise : DataError → PaymentProgram) {message : BookingMessage}
    (huuids : message.Uuids) (h : ∀ key, data.lookup key = message.data.lookup key) :
    ((bookingCommandTable raise).lookup message.eventType).map (fun handler => handler data) =
      bookingCommandHandlers message := by
  cases message with
  | authorizePaymentRequested bookingId renterId amountCents =>
    obtain ⟨hbooking, hrenter⟩ := huuids
    have hread : authorizeCommand data = .ok fun db =>
        handleAuthorizePaymentRequested db bookingId renterId amountCents := by
      rw [authorizeCommand, getUuid_text (h "booking_id") hbooking,
        getUuid_text (h "renter_id") hrenter, getNumber_number (h "amount_cents")]
      rfl
    exact congrArg some (reading_ok hread)
  | capturePaymentRequested bookingId hostId holdAmountCents overageCents =>
    obtain ⟨hbooking, hhost⟩ := huuids
    have hread : captureCommand data = .ok fun db =>
        handleCapturePaymentRequested db bookingId hostId holdAmountCents overageCents := by
      rw [captureCommand, getUuid_text (h "booking_id") hbooking, getUuid_text (h "host_id") hhost,
        getNumber_number (h "hold_amount_cents"), getNumber_number (h "overage_cents")]
      rfl
    exact congrArg some (reading_ok hread)
  | lifecycle event => cases event <;> rfl

theorem paymentEventTable_lookup (raise : DataError → Except BookingError BookingDb)
    {message : PaymentMessage} (huuid : message.bookingId < 16 ^ 32)
    (h : ∀ key, data.lookup key = message.data.lookup key) :
    ((paymentEventTable raise).lookup message.eventType.text).map (fun handler => handler data) =
      some fun db => db.execute (paymentEventHandlers message) := by
  have hread : ∀ apply, reading raise (paymentEvent apply) data =
      fun db => db.execute (apply message.bookingId) := by
    intro apply
    refine reading_ok ?_
    rw [paymentEvent, getUuid_text (h "booking_id") huuid]
    rfl
  obtain ⟨eventType, bookingId⟩ := message
  cases eventType with
  | paymentAuthorized => exact congrArg some (hread _)
  | paymentAuthorizationFailed => exact congrArg some (hread _)
  | paymentCaptured => exact congrArg some (hread _)
  | paymentCaptureFailed => exact congrArg some (hread _)

theorem bookingEventTable_lookup {message : BookingMessage}
    (h : ∀ key, data.lookup key = message.data.lookup key) :
    (bookingEventTable.lookup message.eventType).map (fun handler => handler data) =
      notificationHandler message := by
  have htable : ∀ eventType, bookingEventTable.lookup eventType =
      if eventType ∈ bookingEventTypes then some (notifyBookingEvent eventType) else none := by
    intro eventType
    unfold bookingEventTable
    induction bookingEventTypes with
    | nil => rfl
    | cons head tail ih =>
      rw [List.map_cons, List.lookup_cons]
      by_cases heq : eventType = head
      · subst heq
        simp
      · have hbeq : (eventType == head) = false := beq_eq_false_iff_ne.mpr heq
        simp only [hbeq, ih, List.mem_cons, heq, false_or]
  rw [htable, notificationHandler]
  by_cases hmem : message.eventType ∈ bookingEventTypes
  · rw [if_pos hmem, if_pos hmem, Option.map_some, notifyBookingEvent_congr h]
  · rw [if_neg hmem, if_neg hmem, Option.map_none]

/-- A record whose event is dispatched as its message is processed as it is. -/
theorem consumeRecord_of_onWire {δ ρ : Type} [HasInbox δ] {commit : δ → ρ}
    {handlers : HandlerTable (δ → ρ)} {handler : Option (δ → ρ)} {eventOf : String → EventId}
    {eventId eventType : String} {traceContext : List (String × String)}
    (hextracts : ExtractsText extracts) (hnodup : (data.map Prod.fst).Nodup)
    (hraw : OnWire (envelope eventId eventType data traceContext) raw)
    (hhandler : ∀ data' : EventData, (∀ key, data'.lookup key = data.lookup key) →
      (handlers.lookup eventType).map (fun handler => handler data') = handler) (db : δ) :
    consumeRecord extracts commit handlers eventOf raw db =
      some (postgresInboxProcessor commit handler (eventOf eventId) db) := by
  obtain ⟨members, hreceive, hsame⟩ := receive_of_onWire hextracts hnodup hraw
  refine Option.bind_eq_some_iff.mpr ⟨_, hreceive, ?_⟩
  rw [← hhandler _ hsame]

/-- **What a consumer does with a record is what the models do with its message.** A record is any
text that `jsonb` and Debezium make of the envelope, whatever its white space, escapes and order of
members, or the envelope itself, shipped by hand. Of such a record of a booking message, payment
does what `processCommand` does, and notification what `notificationHandler` does; of one of a
payment event, booking does what `processPaymentEvent` does. -/
theorem records_processed_as_modelled (hextracts : ExtractsText extracts)
    {eventOf : String → EventId} {idText : EventId → String}
    (hids : Function.LeftInverse eventOf idText) (traceContext : List (String × String)) :
    (∀ (row : OutboxRow BookingMessage) raw, row.payload.Uuids →
      OnWire (envelope (idText row.id) row.payload.eventType row.payload.data traceContext) raw →
      (∀ raise db, consumeRecord extracts (fun db => .done (.ok db)) (bookingCommandTable raise)
        eventOf raw db = some (processCommand row db)) ∧
      ∃ eventId eventType members,
        receive extracts raw = some ⟨.str eventId, .str eventType, .obj members⟩ ∧
        eventOf eventId = row.id ∧
        (bookingEventTable.lookup eventType).map (fun handler => handler (.ofMembers members)) =
          notificationHandler row.payload) ∧
    ∀ (row : OutboxRow PaymentMessage) raw, row.payload.bookingId < 16 ^ 32 →
      OnWire (envelope (idText row.id) row.payload.eventType.text row.payload.data traceContext)
        raw →
      ∀ raise db, consumeRecord extracts .ok (paymentEventTable raise) eventOf raw db =
        some (processPaymentEvent row db) := by
  refine ⟨fun row raw huuids hraw => ⟨fun raise db => ?_, ?_⟩,
    fun row raw huuid hraw raise db => ?_⟩
  · rw [consumeRecord_of_onWire hextracts row.payload.nodup_data hraw fun data' hsame =>
      bookingCommandTable_lookup raise huuids hsame, hids row.id]
    rfl
  · obtain ⟨members, hreceive, hsame⟩ :=
      receive_of_onWire hextracts row.payload.nodup_data hraw
    exact ⟨_, _, members, hreceive, hids row.id, bookingEventTable_lookup hsame⟩
  · rw [consumeRecord_of_onWire hextracts row.payload.nodup_data hraw fun data' hsame =>
      paymentEventTable_lookup raise huuid hsame, hids row.id]
    rfl

end Records

/-! ### A sample record -/

/-- A row of the booking service. -/
def sampleCommand : OutboxRow BookingMessage where
  id := 3
  aggregateId := 9
  payload := .authorizePaymentRequested 9 6 15000

/-- A spelling of identifiers. -/
def sampleIdText (id : EventId) : String := String.ofList (List.replicate id '0')

theorem sampleIdText_length : Function.LeftInverse String.length sampleIdText := fun id => by
  simp [sampleIdText]

/-- Its envelope. -/
def sampleEnvelope : Json :=
  envelope (sampleIdText sampleCommand.id) sampleCommand.payload.eventType
    sampleCommand.payload.data [("traceparent", "00-ab-cd-01")]

/-- What Debezium ships if `jsonb` keeps the order. -/
def sampleRecord : List Char := Json.dumps (.str (String.ofList (Json.dumps sampleEnvelope)))

/-- The carriers are the objects. -/
def sampleExtracts : Json → Bool
  | .obj _ => true
  | _ => false

theorem sampleRecord_onWire : OnWire sampleEnvelope sampleRecord :=
  ⟨_, _, (Json.text_dumps _).textOf, .refl _,
    .inr ⟨_, (Json.text_dumps _).textOf, (Json.text_dumps _).textOf⟩⟩

theorem records_processed_as_modelled_sampleRecord :
    consumeRecord sampleExtracts (fun db => .done (.ok db))
      (bookingCommandTable fun _ => .done (.error .dataError)) String.length sampleRecord {} =
        some (processCommand sampleCommand {}) := by
  have huuids : sampleCommand.payload.Uuids := ⟨by decide, by decide⟩
  have hextracts : ExtractsText sampleExtracts := fun _ _ => rfl
  have hprocessed := (records_processed_as_modelled hextracts sampleIdText_length
    [("traceparent", "00-ab-cd-01")]).1 sampleCommand sampleRecord huuids sampleRecord_onWire
  exact hprocessed.1 _ {}

end CarFlow
