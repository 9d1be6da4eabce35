import CarFlow.Booking.Consumers
import CarFlow.Lib.TransitionSystem
import CarFlow.Payment.Consumers

/-!
# The booking saga

The booking service and the payment service, composed. They share nothing but their outbox tables:
the booking's commands are the payment consumer's topic, and the payment's events the booking
consumer's. A step is one transaction of one of the two: a request of the renter or the host, the
delivery of a record of the booking topic to payment, or of a record of the payment topic to
booking.

## What the environment chooses

* which request comes next, with any arguments;
* which record is delivered next. Delivery is at least once and keeps the order of the records of
  one booking: a record is delivered only when all earlier ones of its booking have been claimed,
  and one that was claimed may be delivered again;
* what Stripe answers to each call made while a command is handled.

A transaction that raises leaves its database as it was. Redelivery of a record whose handler
raised, or crashed before its commit, is the same record delivered once more.

## Implementation notes

Both services have their operations run one at a time here. For booking that is what interleaved
transactions come to, by `Booking.Serializability`; a handler of payment takes one step, and what a
crash in the middle of it does is in `Payment.Crashes`. The state has the two databases and nothing
else, since both topics can be read off the outbox tables, and what is in flight off the inbox
tables.

## Main results

* `sagaOk_of_reachable` — the two topics are well formed in every reachable state
* `SagaOk.step_view` — what a step of the system does to the view of each booking
-/

namespace CarFlow

/-- The databases of the two services. -/
structure SagaState where
  booking : BookingDb := {}
  payment : PaymentDb := {}

/-- One transaction of the system. -/
inductive SagaAction
  | perform (op : BookingOperation)
  | deliverCommand (i : ℕ) (stripe : StripeCall → StripeReply)
  | deliverPaymentEvent (i : ℕ)

/-- The operations with a route of their own; the others are reactions to payment events. -/
def BookingOperation.ofCaller : BookingOperation → Bool
  | .requestBooking .. | .acceptBookingRequest .. | .rejectBookingRequest .. | .recordHandover ..
  | .recordReturn .. => true
  | .applyPaymentAuthorized .. | .applyPaymentAuthorizationFailed .. | .applyPaymentCaptured ..
  | .applyPaymentCaptureFailed .. => false

/-- One step of the system. -/
def sagaStep (s : SagaState) : SagaAction → Option SagaState
  | .perform op =>
    if op.ofCaller then some { s with booking := committed s.booking (s.booking.execute op) }
    else none
  | .deliverCommand i stripe => do
    let row ← s.booking.outbox[i]?
    if EarlierClaimed s.booking.outbox s.payment.inbox i row then
      some { s with payment := committed s.payment ((processCommand row s.payment).run stripe) }
    else none
  | .deliverPaymentEvent i => do
    let row ← s.payment.outbox[i]?
    if EarlierClaimed s.payment.outbox s.booking.inbox i row then
      some { s with booking := committed s.booking (processPaymentEvent row s.booking) }
    else none

/-- The booking saga. -/
def sagaSystem : TransitionSystem SagaState SagaAction where
  init := {}
  step := sagaStep

/-- Stripe accepts every charge asked for in this step. -/
def SagaAction.Accepting : SagaAction → Prop
  | .deliverCommand _ stripe => ∀ c, stripe c ≠ .stripeError
  | _ => True

/-! ### The view of a booking -/

/-- All the system holds about one booking: the two services' views of it, and the two halves of
its two queues. -/
structure SagaView where
  booking : BookingView := {}
  payment : PaymentView := {}
  handledCommands : List BookingMessage := []
  commands : List BookingMessage := []
  handledEvents : List PaymentEventType := []
  events : List PaymentEventType := []

/-- The view of a booking in a state. -/
def SagaState.view (s : SagaState) (bookingId : Uuid) : SagaView where
  booking := s.booking.view bookingId
  payment := s.payment.view bookingId
  handledCommands := handledFor s.booking.outbox s.payment.inbox bookingId
  commands := queueFor s.booking.outbox s.payment.inbox bookingId
  handledEvents := (handledFor s.payment.outbox s.booking.inbox bookingId).map (·.eventType)
  events := (queueFor s.payment.outbox s.booking.inbox bookingId).map (·.eventType)

/-- What one step does to the view of one booking, with the calls made to Stripe. -/
inductive ViewStep (bookingId : Uuid) (v : SagaView) :
    List (StripeCall × StripeReply) → SagaView → Prop
  | idle : ViewStep bookingId v [] v
  /-- A request of the renter or the host. -/
  | performed (op : BookingOperation) (w : Writes) (hop : op.ofCaller = true)
      (hid : op.bookingId = bookingId) (heffect : BookingEffect v.booking op w) :
      ViewStep bookingId v []
        { v with booking := v.booking.after w, commands := v.commands ++ w.outbox }
  /-- The first delivery of a message to the payment service. -/
  | handled (message : BookingMessage) (rest : List BookingMessage)
      (tr : List (StripeCall × StripeReply)) (payment : PaymentView)
      (events : List PaymentEventType) (hqueue : v.commands = message :: rest)
      (heffect : CommandEffect bookingId v.payment message tr payment events) :
      ViewStep bookingId v tr
        { v with
          payment
          handledCommands := v.handledCommands ++ [message]
          commands := rest
          events := v.events ++ events }
  /-- The first delivery of an event to the booking service. -/
  | reacted (eventType : PaymentEventType) (rest : List PaymentEventType) (w : Writes)
      (hqueue : v.events = eventType :: rest)
      (heffect : BookingEffect v.booking (paymentEventHandlers ⟨eventType, bookingId⟩) w) :
      ViewStep bookingId v []
        { v with
          booking := v.booking.after w
          commands := v.commands ++ w.outbox
          handledEvents := v.handledEvents ++ [eventType]
          events := rest }

/-- The topics of a state are well formed, and their messages name the booking they are keyed
by. -/
structure SagaOk (s : SagaState) : Prop where
  commands : TopicOk s.booking.outbox s.payment.inbox
  events : TopicOk s.payment.outbox s.booking.inbox
  commandKey : ∀ row ∈ s.booking.outbox, row.payload.bookingId = row.aggregateId
  eventKey : ∀ row ∈ s.payment.outbox, row.payload.bookingId = row.aggregateId

section Steps

variable {s s' : SagaState} {b : Uuid}

/-- The ways a step can go: nothing happens, because the transaction raised or the record had been
claimed, or one transaction commits. -/
inductive SagaStep (s : SagaState) : SagaAction → SagaState → Prop
  | idle (a : SagaAction) : SagaStep s a s
  | performed (op : BookingOperation) (db : BookingDb) (hop : op.ofCaller = true)
      (hx : s.booking.execute op = .ok db) : SagaStep s (.perform op) { s with booking := db }
  | handled (i : ℕ) (stripe : StripeCall → StripeReply) (row : OutboxRow BookingMessage)
      (tr : List (StripeCall × StripeReply)) (db : PaymentDb)
      (hi : s.booking.outbox[i]? = some row)
      (he : EarlierClaimed s.booking.outbox s.payment.inbox i row)
      (hu : row.id ∉ s.payment.inbox) (hreply : ∀ e ∈ tr, e.2 = stripe e.1)
      (h : CommandOutcome { s.payment with inbox := row.id :: s.payment.inbox } row.payload tr db) :
      SagaStep s (.deliverCommand i stripe) { s with payment := db }
  | reacted (i : ℕ) (row : OutboxRow PaymentMessage) (db : BookingDb)
      (hi : s.payment.outbox[i]? = some row)
      (he : EarlierClaimed s.payment.outbox s.booking.inbox i row)
      (hu : row.id ∉ s.booking.inbox)
      (h : BookingOutcome { s.booking with inbox := row.id :: s.booking.inbox }
        (paymentEventHandlers row.payload) db) :
      SagaStep s (.deliverPaymentEvent i) { s with booking := db }

theorem sagaStep_cases {a : SagaAction} (h : sagaStep s a = some s') : SagaStep s a s' := by
  cases a with
  | perform op =>
    simp only [sagaStep, Option.ite_none_right_eq_some, Option.some.injEq] at h
    obtain ⟨hop, rfl⟩ := h
    cases hx : s.booking.execute op with
    | error e => exact .idle _
    | ok db => exact .performed op db hop hx
  | deliverCommand i stripe =>
    simp only [sagaStep, Option.bind_eq_bind, Option.bind_eq_some_iff,
      Option.ite_none_right_eq_some, Option.some.injEq] at h
    obtain ⟨row, hi, he, rfl⟩ := h
    by_cases hu : row.id ∈ s.payment.inbox
    · rw [processCommand_of_mem hu]
      exact .idle _
    obtain ⟨tr, hpath, hreply⟩ := CallProgram.path_run stripe (processCommand row s.payment)
    cases hx : (processCommand row s.payment).run stripe with
    | error e => exact .idle _
    | ok db =>
      rw [hx] at hpath
      exact .handled i stripe row tr db hi he hu hreply (processCommand_path hu hpath)
  | deliverPaymentEvent i =>
    simp only [sagaStep, Option.bind_eq_bind, Option.bind_eq_some_iff,
      Option.ite_none_right_eq_some, Option.some.injEq] at h
    obtain ⟨row, hi, he, rfl⟩ := h
    by_cases hu : row.id ∈ s.booking.inbox
    · rw [processPaymentEvent_of_mem hu]
      exact .idle _
    cases hx : processPaymentEvent row s.booking with
    | error e => exact .idle _
    | ok db => exact .reacted i row db hi he hu (processPaymentEvent_ok hu hx)

theorem sagaOk_init : SagaOk {} where
  commands := topicOk_nil
  events := topicOk_nil
  commandKey _ h := by cases h
  eventKey _ h := by cases h

theorem SagaOk.step {a : SagaAction} (hok : SagaOk s) (h : SagaStep s a s') : SagaOk s' := by
  cases h with
  | idle => exact hok
  | performed op db hop hx =>
    have h := BookingDb.execute_outcome hx
    obtain ⟨w, -, -, houtbox, habout⟩ := h.effect
    refine ⟨houtbox ▸ hok.commands.writeAll _ _, h.inbox ▸ hok.events, fun row hrow => ?_,
      hok.eventKey⟩
    rcases mem_writeAll (houtbox ▸ hrow) with hrow | ⟨ha, hp⟩
    · exact hok.commandKey row hrow
    · exact (habout _ hp).trans ha.symm
  | handled i stripe row tr db hi he hu hreply h =>
    obtain ⟨events, -, houtbox⟩ := h.effect
    refine ⟨h.inbox ▸ hok.commands.claim hi he hu, houtbox ▸ hok.events.writeAll _ _,
      hok.commandKey, fun r hr => ?_⟩
    rcases mem_writeAll (houtbox ▸ hr) with hr | ⟨ha, hp⟩
    · exact hok.eventKey r hr
    · obtain ⟨eventType, -, hp⟩ := List.mem_map.mp hp
      rw [← hp, ha]
  | reacted i row db hi he hu h =>
    obtain ⟨w, -, -, houtbox, habout⟩ := h.effect
    refine ⟨houtbox ▸ hok.commands.writeAll _ _, h.inbox ▸ hok.events.claim hi he hu,
      fun r hr => ?_, hok.eventKey⟩
    rcases mem_writeAll (houtbox ▸ hr) with hr | ⟨ha, hp⟩
    · exact hok.commandKey r hr
    · exact (habout _ hp).trans ha.symm

theorem sagaOk_of_reachable (h : sagaSystem.Reachable s) : SagaOk s :=
  h.invariant SagaOk sagaOk_init fun _ _ _ _ hok hstep => hok.step (sagaStep_cases hstep)

/-! ### Steps on views -/

/-- The view after an operation of the booking service that leaves its inbox alone. -/
theorem SagaOk.view_performed (hok : SagaOk s) {db : BookingDb} {w : Writes} (b : Uuid)
    (hview : db.view b = (s.booking.view b).after w)
    (houtbox : db.outbox = writeAll s.booking.outbox b w.outbox)
    (hinbox : db.inbox = s.booking.inbox) :
    SagaState.view { s with booking := db } b =
      { s.view b with
        booking := (s.booking.view b).after w
        commands := (s.view b).commands ++ w.outbox } := by
  simp only [SagaState.view, hview, houtbox, hinbox, handledFor_writeAll hok.commands,
    queueFor_writeAll hok.commands, if_true]

theorem SagaOk.performed_view (hok : SagaOk s) {op : BookingOperation} {db : BookingDb}
    (hop : op.ofCaller = true) (h : BookingOutcome s.booking op db) (b : Uuid) :
    ViewStep b (s.view b) [] (SagaState.view { s with booking := db } b) := by
  obtain ⟨w, heffect, hview, houtbox, -⟩ := h.effect
  by_cases hb : op.bookingId = b
  · subst hb
    rw [hok.view_performed op.bookingId hview houtbox h.inbox]
    exact .performed op w hop rfl heffect
  · have hv : SagaState.view { s with booking := db } b = s.view b := by
      simp only [SagaState.view, h.others b hb, houtbox, h.inbox,
        handledFor_writeAll hok.commands, queueFor_writeAll hok.commands, if_neg hb,
        List.append_nil]
    exact hv ▸ .idle

/-- The view after the first delivery of a message to the payment service. -/
theorem SagaOk.view_handled (hok : SagaOk s) {i : ℕ} {row : OutboxRow BookingMessage}
    {db : PaymentDb} {events : List PaymentEventType} (hi : s.booking.outbox[i]? = some row)
    (he : EarlierClaimed s.booking.outbox s.payment.inbox i row) (hu : row.id ∉ s.payment.inbox)
    (hinbox : db.inbox = row.id :: s.payment.inbox)
    (houtbox : db.outbox = writeAll s.payment.outbox row.aggregateId
      (events.map fun eventType => ⟨eventType, row.aggregateId⟩)) :
    SagaState.view { s with payment := db } row.aggregateId =
      { s.view row.aggregateId with
        payment := db.view row.aggregateId
        handledCommands := (s.view row.aggregateId).handledCommands ++ [row.payload]
        commands := queueFor s.booking.outbox (row.id :: s.payment.inbox) row.aggregateId
        events := (s.view row.aggregateId).events ++ events } := by
  simp [SagaState.view, hinbox, houtbox, handledFor_claim hok.commands hi he hu,
    handledFor_writeAll hok.events, queueFor_writeAll hok.events, Function.comp_def]

theorem SagaOk.handled_view (hok : SagaOk s) {i : ℕ} {row : OutboxRow BookingMessage}
    {tr : List (StripeCall × StripeReply)} {db : PaymentDb}
    (hi : s.booking.outbox[i]? = some row)
    (he : EarlierClaimed s.booking.outbox s.payment.inbox i row) (hu : row.id ∉ s.payment.inbox)
    (h : CommandOutcome { s.payment with inbox := row.id :: s.payment.inbox } row.payload tr db)
    (b : Uuid) :
    (row.aggregateId = b → ViewStep b (s.view b) tr
      (SagaState.view { s with payment := db } b)) ∧
    (row.aggregateId ≠ b → SagaState.view { s with payment := db } b = s.view b) := by
  obtain ⟨events, heffect, houtbox⟩ := h.effect
  have hkey := hok.commandKey row (List.mem_of_getElem? hi)
  rw [hkey] at heffect houtbox
  constructor
  · rintro rfl
    rw [hok.view_handled hi he hu h.inbox houtbox]
    exact .handled row.payload _ tr _ events (queueFor_claim hok.commands hi he hu) heffect
  · intro hb
    have hview : db.view b = s.payment.view b := h.others b (hkey.trans_ne hb)
    simp [SagaState.view, hview, h.inbox, houtbox, handledFor_claim_of_ne hok.commands hi hb,
      queueFor_claim_of_ne hok.commands hi hb, handledFor_writeAll hok.events,
      queueFor_writeAll hok.events, if_neg hb]

theorem SagaOk.reacted_view (hok : SagaOk s) {i : ℕ} {row : OutboxRow PaymentMessage}
    {db : BookingDb} (hi : s.payment.outbox[i]? = some row)
    (he : EarlierClaimed s.payment.outbox s.booking.inbox i row) (hu : row.id ∉ s.booking.inbox)
    (h : BookingOutcome { s.booking with inbox := row.id :: s.booking.inbox }
      (paymentEventHandlers row.payload) db) (b : Uuid) :
    ViewStep b (s.view b) [] (SagaState.view { s with booking := db } b) := by
  obtain ⟨w, heffect, hview, houtbox, -⟩ := h.effect
  have hkey := hok.eventKey row (List.mem_of_getElem? hi)
  have hothers := h.others
  rw [bookingId_paymentEventHandlers] at heffect hview houtbox hothers
  by_cases hb : row.payload.bookingId = b
  · subst hb
    have hq := queueFor_claim hok.events hi he hu
    have hh := handledFor_claim hok.events hi he hu
    rw [← hkey] at hq hh
    have hv : SagaState.view { s with booking := db } row.payload.bookingId =
        { s.view row.payload.bookingId with
          booking := (s.booking.view row.payload.bookingId).after w
          commands := (s.view row.payload.bookingId).commands ++ w.outbox
          handledEvents :=
            (s.view row.payload.bookingId).handledEvents ++ [row.payload.eventType]
          events := (queueFor s.payment.outbox (row.id :: s.booking.inbox)
            row.payload.bookingId).map (·.eventType) } := by
      simp only [SagaState.view, hview, houtbox, h.inbox, hh, handledFor_writeAll hok.commands,
        queueFor_writeAll hok.commands, if_true, List.map_append, List.map_cons, List.map_nil]
      rfl
    refine hv ▸ .reacted row.payload.eventType _ w ?_ heffect
    rw [SagaState.view, hq, List.map_cons]
  · have hne : row.aggregateId ≠ b := hkey ▸ hb
    have hbooking : db.view b = s.booking.view b := hothers b hb
    have hv : SagaState.view { s with booking := db } b = s.view b := by
      simp only [SagaState.view, hbooking, houtbox, h.inbox, handledFor_claim_of_ne hok.events hi
        hne, queueFor_claim_of_ne hok.events hi hne, handledFor_writeAll hok.commands,
        queueFor_writeAll hok.commands, if_neg hb, List.append_nil]
    exact hv ▸ .idle

/-- **A step, as one booking sees it.** The replies are those of the step's Stripe. -/
theorem SagaOk.step_view {a : SagaAction} (hok : SagaOk s) (h : SagaStep s a s') (b : Uuid) :
    ∃ tr, ViewStep b (s.view b) tr (s'.view b) ∧
      (a.Accepting → ∀ e ∈ tr, e.2 ≠ .stripeError) := by
  cases h with
  | idle => exact ⟨[], .idle, by simp⟩
  | performed op db hop hx =>
    exact ⟨[], hok.performed_view hop (BookingDb.execute_outcome hx) b, by simp⟩
  | handled i stripe row tr db hi he hu hreply h =>
    obtain ⟨hself, hother⟩ := hok.handled_view hi he hu h b
    by_cases hb : row.aggregateId = b
    · exact ⟨tr, hself hb, fun hacc e hmem => hreply e hmem ▸ hacc e.1⟩
    · exact ⟨[], hother hb ▸ .idle, by simp⟩
  | reacted i row db hi he hu h => exact ⟨[], hok.reacted_view hi he hu h b, by simp⟩

end Steps

end CarFlow
