import CarFlow.Saga.System

/-!
# The saga invariant

What the two services know about one booking, together with everything in flight between them.
`Coherent` ties the status of the booking to the payment events it has heard, those events and the
ones still queued to the status of the payment, and the payment to the commands payment has
handled. Nothing else is needed to predict how any message will be received, and `Coherent` is
kept by every step.

## Implementation notes

`Coherent` is about the view of one booking: its row and events, its payment, and what is queued for
it in both directions. A message is about one booking, so a step changes one view and leaves all
others as they are, up to what was published; the invariant of the system is that of all views.

The statuses are tied together by what has been heard, not by what has been sent: `Coherent` reads
the status of a booking off the events that it has claimed, then follows the queue to the status of
the payment. That makes the head of the queue the only event that a proof has to look at.

## Main results

* `Coherent.step` — the invariant is kept by every step on a view
* `coherent_of_reachable` — it holds of every booking in every reachable state
* `Coherent.accepts_head` — the payment event a booking is about to hear is accepted, unless the
  booking has been rejected
-/

namespace CarFlow

/-! ### The parts of the invariant

Each part is about two things that are next to each other: the row and the events it has heard, the
events and the payment, the payment and the commands. -/

/-- The events a payment has written, by its status. -/
def PaymentStatus.trail : PaymentStatus → List PaymentEventType
  | .authorized => [.paymentAuthorized]
  | .authorizationFailed => [.paymentAuthorizationFailed]
  | .captured => [.paymentAuthorized, .paymentCaptured]
  | .captureFailed => [.paymentAuthorized, .paymentCaptureFailed]

/-- The events the payment service has written about a booking. -/
def PaymentView.trail (v : PaymentView) : List PaymentEventType :=
  match v.payment with
  | none => []
  | some payment => payment.status.trail

/-- A payment is announced. -/
theorem PaymentView.trail_ne_nil {v : PaymentView} {payment : Payment}
    (h : v.payment = some payment) : v.trail ≠ [] := by
  rw [PaymentView.trail, h]
  cases hs : payment.status <;> simp [hs, PaymentStatus.trail]

/-- The payment events a booking has heard, by its status. -/
def BookingStatus.Heard : BookingStatus → List PaymentEventType → Prop
  | .requested, events => events = []
  | .rejected, events => events = []
  | .confirmed, events => events = [.paymentAuthorized]
  | .active, events =>
    events = [.paymentAuthorized] ∨ events = [.paymentAuthorized, .paymentCaptureFailed]
  | .completed, events => events = [.paymentAuthorized, .paymentCaptured]
  | .cancelled, events => events = [.paymentAuthorizationFailed]

/-- What the handover recorded is there. -/
def Booking.HandedOver (row : Booking) : Prop :=
  row.startOdometer.isSome ∧ row.startFuelPercent.isSome ∧ row.startPhotoUrl.isSome

/-- The car has been returned at least once. -/
def Booking.TakenBack (row : Booking) : Prop :=
  (row.status = .active ∨ row.status = .completed) ∧ row.endOdometer.isSome

/-- The host, the renter and the amount of the hold: what a command carries that no operation
changes. -/
def Booking.terms (row : Booking) : Uuid × Uuid × ℤ :=
  (row.hostId, row.renterId, row.dailyPriceCents * row.days)

/-- A command says what the row says, and there is a return behind each capture. The lifecycle
events start when the booking leaves `requested`. -/
def BookingMessage.Faithful (row : Booking) : BookingMessage → Prop
  | .authorizePaymentRequested _ renterId amountCents =>
    row.terms = (row.hostId, renterId, amountCents)
  | .capturePaymentRequested _ hostId holdAmountCents overageCents =>
    row.terms = (hostId, row.renterId, holdAmountCents) ∧ 0 ≤ overageCents ∧ row.TakenBack
  | .lifecycle .. => row.status ≠ .requested

/-- The message is an authorize command whose amount the payment table can hold; the transaction
of any other authorize command raises. -/
def BookingMessage.Holdable : BookingMessage → Prop
  | .authorizePaymentRequested _ _ amountCents => FitsInteger amountCents
  | _ => False

/-- The message is a capture command. -/
def BookingMessage.isCapture : BookingMessage → Bool
  | .capturePaymentRequested .. => true
  | _ => false

/-- The capture has been tried, with either outcome. -/
def PaymentStatus.Settled (status : PaymentStatus) : Prop :=
  status = .captured ∨ status = .captureFailed

/-- What is in the ledger, and in the payment's overage column, for a payment: the rental and the
overage charged with it once the payment is captured, and nothing before. -/
def Payment.Booked (payment : Payment) (row : Booking) (ledger : List LedgerEntry) : Prop :=
  if payment.status = .captured then
    0 ≤ payment.overageCents ∧ ledger =
      chargePair payment row.id row.hostId (row.dailyPriceCents * row.days) .rental ++
        if 0 < payment.overageCents then
          chargePair payment row.id row.hostId payment.overageCents .mileageOverage else []
  else payment.overageCents = 0 ∧ ledger = []

/-- All messages the booking service has written about a booking. -/
def SagaView.written (v : SagaView) : List BookingMessage := v.handledCommands ++ v.commands

theorem mem_written {s : SagaState} {b : Uuid} {message : BookingMessage} :
    message ∈ (s.view b).written ↔
      ∃ row ∈ s.booking.outbox, row.aggregateId = b ∧ row.payload = message := by
  simp only [SagaView.written, SagaState.view, handledFor, queueFor, ← List.map_append,
    List.mem_map, List.mem_append, FifoTopic.mem_handled, FifoTopic.mem_inflight]
  constructor
  · rintro ⟨row, ⟨hm, hk, -⟩ | ⟨hm, hk, -⟩, hp⟩ <;> exact ⟨row, hm, hk, hp⟩
  · rintro ⟨row, hm, hk, hp⟩
    by_cases hu : row.id ∈ s.payment.inbox
    · exact ⟨row, .inl ⟨hm, hk, hu⟩, hp⟩
    · exact ⟨row, .inr ⟨hm, hk, hu⟩, hp⟩

/-- **The saga invariant**, for the view of one booking. -/
structure Coherent (bookingId : Uuid) (v : SagaView) : Prop where
  /-- Before it is requested, nobody knows the booking. -/
  unopened : v.booking.row = none → v = {}
  /-- The row is the booking's. -/
  id : ∀ row, v.booking.row = some row → row.id = bookingId
  /-- The booking is where the events it has heard put it. -/
  heard : ∀ row, v.booking.row = some row → row.status.Heard v.handledEvents
  /-- An active or completed booking has been handed over. -/
  started : ∀ row, v.booking.row = some row → row.status = .active ∨ row.status = .completed →
    row.HandedOver
  /-- Commands are faithful. -/
  faithful : ∀ row, v.booking.row = some row → ∀ message ∈ v.written, message.Faithful row
  /-- The events written are those of the payment's status. -/
  trail : v.handledEvents ++ v.events = v.payment.trail
  /-- There is a payment as soon as an authorize command is handled. -/
  opened : v.payment.payment.isSome ↔ ∃ message ∈ v.handledCommands, message.Holdable
  /-- It is settled as soon as a capture command is handled. -/
  settled : (∃ payment, v.payment.payment = some payment ∧ payment.status.Settled) ↔
    ∃ message ∈ v.handledCommands, message.isCapture
  /-- A payment is the renter's. -/
  renter : ∀ row payment, v.booking.row = some row → v.payment.payment = some payment →
    payment.renterId = row.renterId
  /-- The ledger shows what was captured. -/
  booked : ∀ row payment, v.booking.row = some row → v.payment.payment = some payment →
    payment.Booked row v.payment.ledger
  /-- And is empty without a payment. -/
  unbooked : v.payment.payment = none → v.payment.ledger = []

section Coherent

variable {b : Uuid} {v v' : SagaView} {row : Booking} {tr : List (StripeCall × StripeReply)}

theorem coherent_init (b : Uuid) : Coherent b {} where
  unopened _ := rfl
  id _ h := by cases h
  heard _ h := by cases h
  started _ h := by cases h
  faithful _ h := by cases h
  trail := rfl
  opened := by simp
  settled := by simp
  renter _ _ h := by cases h
  booked _ _ h := by cases h
  unbooked _ := rfl

/-- A booking with a message in either queue, or a payment, has a row. -/
theorem Coherent.exists_row (h : Coherent b v) (hne : v ≠ {}) : ∃ row, v.booking.row = some row :=
  Option.ne_none_iff_exists'.mp fun hnone => hne (h.unopened hnone)

/-! ### Operations

A request changes the row and writes commands; the payment is as it was. -/

/-- An operation on an existing row keeps the invariant, if it leaves the terms alone and the new
row is in its place. Events may be heard on the way. -/
theorem Coherent.operate (h : Coherent b v) {row' : Booking} {log : List BookingEvent}
    {messages : List BookingMessage} {handledEvents events : List PaymentEventType}
    (hrow : v.booking.row = some row) (hid : row'.id = row.id) (hterms : row'.terms = row.terms)
    (hevents : handledEvents ++ events = v.handledEvents ++ v.events)
    (hheard : row'.status.Heard handledEvents)
    (hstarted : row'.status = .active ∨ row'.status = .completed → row'.HandedOver)
    (hleft : row.status ≠ .requested → row'.status ≠ .requested)
    (hback : row.TakenBack → row'.TakenBack)
    (hnew : ∀ message ∈ messages, message.Faithful row') :
    Coherent b { v with
      booking := ⟨some row', log⟩
      commands := v.commands ++ messages
      handledEvents
      events } where
  unopened hnone := by cases hnone
  id r hr := by
    obtain rfl := Option.some.inj hr
    exact hid.trans (h.id row hrow)
  heard r hr := by
    obtain rfl := Option.some.inj hr
    exact hheard
  started r hr := by
    obtain rfl := Option.some.inj hr
    exact hstarted
  faithful r hr message hm := by
    obtain rfl := Option.some.inj hr
    rw [SagaView.written, ← List.append_assoc] at hm
    rcases List.mem_append.mp hm with hm | hm
    · have hold := h.faithful row hrow message hm
      cases message <;> simp_all [BookingMessage.Faithful, Booking.terms]
    · exact hnew message hm
  trail := hevents.trans h.trail
  opened := h.opened
  settled := h.settled
  renter r payment hr hp := by
    obtain rfl := Option.some.inj hr
    simp only [Booking.terms, Prod.mk.injEq] at hterms
    exact (h.renter row payment hrow hp).trans hterms.2.1.symm
  booked r payment hr hp := by
    obtain rfl := Option.some.inj hr
    have hold := h.booked row payment hrow hp
    simp only [Booking.terms, Prod.mk.injEq] at hterms
    rw [Payment.Booked] at hold ⊢
    rwa [hid, hterms.1, hterms.2.2]
  unbooked := h.unbooked

theorem Coherent.request (h : Coherent b v) (hnone : v.booking.row = none) (vehicle : VehicleInfo)
    (renterId : Uuid) (payload : CreateBookingRequest) :
    Coherent b { v with
      booking := v.booking.after (requestWrites b vehicle renterId payload)
      commands := v.commands ++ (requestWrites b vehicle renterId payload).outbox } := by
  obtain rfl := h.unopened hnone
  have hrow (row : Booking) (hr : some (requestWrites b vehicle renterId payload).booking
      = some row) : row = (requestWrites b vehicle renterId payload).booking :=
    (Option.some.inj hr).symm
  exact {
    unopened := nofun
    id := fun row hr => congrArg Booking.id (hrow row hr)
    heard := fun row hr => hrow row hr ▸ rfl
    started := fun row hr => by
      obtain rfl := hrow row hr
      rintro (h | h) <;> cases h
    faithful := fun row hr message hm => by
      obtain rfl := hrow row hr
      simp only [SagaView.written, requestWrites, List.nil_append] at hm
      split at hm
      · obtain rfl := List.mem_singleton.mp hm
        rfl
      · cases hm
    trail := h.trail
    opened := h.opened
    settled := h.settled
    renter := fun _ _ _ hp => by cases hp
    booked := fun _ _ _ hp => by cases hp
    unbooked := fun _ => rfl }

theorem Coherent.performed (h : Coherent b v) {op : BookingOperation} {w : Writes}
    (hop : op.ofCaller = true) (hid : op.bookingId = b) (heffect : BookingEffect v.booking op w) :
    Coherent b { v with
      booking := v.booking.after w
      commands := v.commands ++ w.outbox } := by
  cases heffect with
  | opened id vehicle renterId payload hnone =>
    obtain rfl := hid
    exact h.request hnone vehicle renterId payload
  | operated _ _ row hrow hacc =>
    have hheard := h.heard row hrow
    cases hacc with
    | accept _ hmode hstatus =>
      rw [hstatus] at hheard
      exact h.operate hrow rfl rfl rfl hheard (by simp [Booking.settle]) (by simp [hstatus])
        (by simp [Booking.TakenBack, hstatus])
        (by simp [emitAuthorizePaymentRequested, BookingMessage.Faithful]; rfl)
    | reject _ hstatus =>
      rw [hstatus] at hheard
      exact h.operate hrow rfl rfl rfl hheard (by simp [Booking.settle]) (by simp [hstatus])
        (by simp [Booking.TakenBack, hstatus])
        (by simp [emitDomainEvent, BookingMessage.Faithful, Booking.settle])
    | handover _ payload hstatus =>
      rw [hstatus] at hheard
      exact h.operate hrow rfl rfl rfl (.inl hheard)
        (by simp [Booking.handOver, Booking.HandedOver]) (by simp [Booking.handOver])
        (by simp [Booking.TakenBack, hstatus]) (by simp)
    | «return» _ payload startOdometer hstatus hstart =>
      rw [hstatus] at hheard
      refine h.operate hrow rfl rfl rfl hheard (fun _ => h.started row hrow (.inl hstatus))
        (by simp [Booking.takeBack]) (by simp [Booking.TakenBack, Booking.takeBack]) ?_
      simp only [List.mem_singleton, forall_eq, BookingMessage.Faithful]
      exact ⟨rfl, Domain.computeOverageCents_nonneg _ _ _ _, .inl rfl, rfl⟩
    | _ => cases hop

/-! ### Commands

A command that is handled changes the payment and writes events. The cases are those of
`CommandEffect`. -/

/-- A capture command in either queue belongs to a booking whose payment was authorized. -/
theorem Coherent.payment_of_capture (h : Coherent b v) {message : BookingMessage}
    (hm : message ∈ v.written) (hc : message.isCapture) :
    ∃ row payment, v.booking.row = some row ∧ v.payment.payment = some payment ∧
      (payment.status = .authorized ∨ payment.status.Settled) := by
  obtain ⟨row, hrow⟩ := h.exists_row (by rintro rfl; cases hm)
  have hback : row.TakenBack := by
    have hf := h.faithful row hrow message hm
    cases message with
    | capturePaymentRequested => exact hf.2.2
    | _ => cases hc
  have hheard := h.heard row hrow
  have htrail := h.trail
  have hne : ∃ rest, v.handledEvents = .paymentAuthorized :: rest := by
    rcases hback.1 with hs | hs
    · rw [hs] at hheard
      rcases hheard with he | he <;> exact ⟨_, he⟩
    · rw [hs] at hheard
      exact ⟨_, hheard⟩
  obtain ⟨rest, hrest⟩ := hne
  rw [hrest, PaymentView.trail] at htrail
  cases hp : v.payment.payment with
  | none =>
    rw [hp] at htrail
    cases htrail
  | some payment =>
    rw [hp] at htrail
    refine ⟨row, payment, hrow, rfl, ?_⟩
    cases hs : payment.status with
    | authorized => exact .inl rfl
    | captured => exact .inr (.inl rfl)
    | captureFailed => exact .inr (.inr rfl)
    | authorizationFailed =>
      simp only [hs, PaymentStatus.trail] at htrail
      cases htrail

/-- Handling a message keeps the invariant, if the payment moves as the message says. -/
theorem Coherent.handle (h : Coherent b v) {message : BookingMessage} {rest : List BookingMessage}
    {payment : PaymentView} {events : List PaymentEventType}
    (hqueue : v.commands = message :: rest) (htrail : payment.trail = v.payment.trail ++ events)
    (hopened : payment.payment.isSome ↔ v.payment.payment.isSome ∨ message.Holdable)
    (hsettled : (∃ p, payment.payment = some p ∧ p.status.Settled) ↔
      (∃ p, v.payment.payment = some p ∧ p.status.Settled) ∨ message.isCapture)
    (hrenter : ∀ row p, v.booking.row = some row → payment.payment = some p →
      p.renterId = row.renterId)
    (hbooked : ∀ row p, v.booking.row = some row → payment.payment = some p →
      p.Booked row payment.ledger)
    (hunbooked : payment.payment = none → payment.ledger = []) :
    Coherent b { v with
      payment
      handledCommands := v.handledCommands ++ [message]
      commands := rest
      events := v.events ++ events } where
  unopened hnone := by
    obtain rfl := h.unopened hnone
    cases hqueue
  id := h.id
  heard := h.heard
  started := h.started
  faithful row hr m hm := by
    refine h.faithful row hr m ?_
    rw [SagaView.written, hqueue]
    simpa [SagaView.written] using hm
  trail := by rw [← List.append_assoc, h.trail, htrail]
  opened := by
    rw [hopened, h.opened]
    simp [or_and_right, exists_or]
  settled := by
    rw [hsettled, h.settled]
    simp [or_and_right, exists_or]
  renter := hrenter
  booked := hbooked
  unbooked := hunbooked

/-- The first authorize command about a booking opens its payment, which is not settled. -/
theorem Coherent.handleAuthorize (h : Coherent b v) {renterId : Uuid} {amountCents : ℤ}
    {rest : List BookingMessage}
    (hqueue : v.commands = .authorizePaymentRequested b renterId amountCents :: rest)
    (hnone : v.payment.payment = none) (hfits : FitsInteger amountCents) {payment : Payment}
    (hrenter : payment.renterId = renterId) (hstatus : ¬ payment.status.Settled)
    (hoverage : payment.overageCents = 0) :
    Coherent b { v with
      payment := { v.payment with payment := some payment }
      handledCommands := v.handledCommands ++ [.authorizePaymentRequested b renterId amountCents]
      commands := rest
      events := v.events ++ payment.status.trail } := by
  refine h.handle hqueue (by simp [PaymentView.trail, hnone])
    (by simp [BookingMessage.Holdable, hfits]) (by simp [BookingMessage.isCapture, hnone, hstatus])
    (fun row p hr hp => ?_) (fun row p _ hp => ?_) fun hp => (by cases hp)
  · obtain rfl := Option.some.inj hp
    have hterms := h.faithful row hr (.authorizePaymentRequested b renterId amountCents)
      (by simp [SagaView.written, hqueue])
    exact hrenter.trans (congrArg (·.2.1) hterms).symm
  obtain rfl := Option.some.inj hp
  have hcaptured : payment.status ≠ .captured := fun hs => hstatus (.inl hs)
  simp [Payment.Booked, hcaptured, hoverage, h.unbooked hnone]

/-- A capture command settles an authorized payment: nothing was booked for it before, and the
command has the terms of the booking. -/
theorem Coherent.handleCapture (h : Coherent b v) {hostId : Uuid}
    {holdAmountCents overageCents : ℤ} {rest : List BookingMessage}
    (hqueue : v.commands =
      .capturePaymentRequested b hostId holdAmountCents overageCents :: rest)
    {payment payment' : Payment} {ledger : List LedgerEntry} {event : PaymentEventType}
    (hfound : v.payment.payment = some payment) (hstatus : payment.status = .authorized)
    (hrenter : payment'.renterId = payment.renterId)
    (htrail : payment'.status.trail = [.paymentAuthorized, event])
    (hsettled : payment'.status.Settled)
    (hbooked : ∀ row, v.booking.row = some row → payment.overageCents = 0 →
      v.payment.ledger = [] → row.terms = (hostId, row.renterId, holdAmountCents) →
      payment'.Booked row ledger) :
    Coherent b { v with
      payment := ⟨some payment', ledger⟩
      handledCommands := v.handledCommands ++
        [.capturePaymentRequested b hostId holdAmountCents overageCents]
      commands := rest
      events := v.events ++ [event] } := by
  have htrail' : payment.status.trail = [.paymentAuthorized] := by
    rw [hstatus]
    rfl
  have hwritten : BookingMessage.capturePaymentRequested b hostId holdAmountCents overageCents
      ∈ v.written := by
    simp [SagaView.written, hqueue]
  refine h.handle hqueue (by simp [PaymentView.trail, hfound, htrail, htrail'])
    (by simp [hfound]) (by simp [BookingMessage.isCapture, hsettled]) (fun row p hr hp => ?_)
    (fun row p hr hp => ?_) fun hp => (by cases hp)
  · obtain rfl := Option.some.inj hp
    exact hrenter.trans (h.renter row payment hr hfound)
  obtain rfl := Option.some.inj hp
  have hold := h.booked row payment hr hfound
  simp only [Payment.Booked, hstatus, reduceCtorEq, if_false] at hold
  have hterms := (h.faithful row hr _ hwritten).1
  exact hbooked row hr hold.1 hold.2 hterms

theorem Coherent.handled (h : Coherent b v) {message : BookingMessage}
    {rest : List BookingMessage} {payment : PaymentView} {events : List PaymentEventType}
    (hqueue : v.commands = message :: rest)
    (heffect : CommandEffect b v.payment message tr payment events) :
    Coherent b { v with
      payment
      handledCommands := v.handledCommands ++ [message]
      commands := rest
      events := v.events ++ events } := by
  have hwritten : message ∈ v.written := by simp [SagaView.written, hqueue]
  cases heffect with
  | announced event renterId hostId status =>
    exact h.handle hqueue (List.append_nil _).symm (by simp [BookingMessage.Holdable])
      (by simp [BookingMessage.isCapture]) h.renter h.booked h.unbooked
  | existing renterId amountCents payment hfound =>
    exact h.handle hqueue (List.append_nil _).symm (by simp [hfound])
      (by simp [BookingMessage.isCapture]) h.renter h.booked h.unbooked
  | authorizeRefused id renterId amountCents hnone hfits =>
    exact h.handleAuthorize hqueue hnone hfits rfl (by simp [PaymentStatus.Settled]) rfl
  | held id renterId amountCents intentId hnone hfits =>
    exact h.handleAuthorize hqueue hnone hfits rfl (by simp [PaymentStatus.Settled]) rfl
  | absent hostId holdAmountCents overageCents hnone =>
    obtain ⟨row, payment, -, hfound, -⟩ := h.payment_of_capture hwritten rfl
    rw [hnone] at hfound
    cases hfound
  | settled hostId holdAmountCents overageCents payment hfound hstatus =>
    obtain ⟨row, payment', -, hfound', hs⟩ := h.payment_of_capture hwritten rfl
    obtain rfl : payment = payment' := Option.some.inj (hfound.symm.trans hfound')
    have hs : payment.status.Settled := hs.resolve_left hstatus
    exact h.handle hqueue (List.append_nil _).symm (by simp [hfound])
      (by simp [BookingMessage.isCapture, hfound, hs]) h.renter h.booked h.unbooked
  | captureRefused hostId holdAmountCents overageCents payment hfound hstatus =>
    refine h.handleCapture hqueue hfound hstatus rfl rfl (.inr rfl)
      fun row _ hoverage hledger _ => ?_
    simp [Payment.Booked, Payment.withStatus, hoverage, hledger]
  | captured hostId holdAmountCents overageCents payment captureId overage hfound hstatus hhold
      hoverage =>
    refine h.handleCapture hqueue hfound hstatus rfl rfl (.inl rfl)
      fun row hr hoverage hledger hterms => ?_
    simp only [Booking.terms, Prod.mk.injEq, true_and] at hterms
    simp [Payment.Booked, Payment.withStatus, hoverage, hledger, hterms.1, hterms.2, h.id row hr,
      chargePair]
  | charged hostId holdAmountCents overageCents payment captureId overageIntentId hfound hstatus
      hhold hoverage =>
    refine h.handleCapture hqueue hfound hstatus rfl rfl (.inl rfl)
      fun row hr _ hledger hterms => ?_
    simp only [Booking.terms, Prod.mk.injEq, true_and] at hterms
    simp [Payment.Booked, Payment.withStatus, Payment.withOverage, hledger, hterms.1, hterms.2,
      h.id row hr, chargePair, hoverage, Int.le_of_lt hoverage]

/-! ### Events

An event that is heard changes the row, and writes an announcement that nobody here reacts to. -/

/-- Where a booking is when it hears the next event: the events before are those of a shorter
trail, and they determine the status. -/
inductive Hears (row : Booking) : PaymentEventType → List PaymentEventType → Prop
  | authorized (hstatus : row.status = .requested ∨ row.status = .rejected) :
      Hears row .paymentAuthorized []
  | authorizationFailed (hstatus : row.status = .requested ∨ row.status = .rejected) :
      Hears row .paymentAuthorizationFailed []
  | captured (hstatus : row.status = .active) :
      Hears row .paymentCaptured [.paymentAuthorized]
  | captureFailed (hstatus : row.status = .active) :
      Hears row .paymentCaptureFailed [.paymentAuthorized]

theorem head_of_singleton {α : Type} {handled rest : List α} {e x : α}
    (h : handled ++ e :: rest = [x]) : handled = [] ∧ e = x := by
  cases handled <;> simp_all

theorem head_of_pair {α : Type} {handled rest : List α} {e x y : α}
    (h : handled ++ e :: rest = [x, y]) : handled = [] ∧ e = x ∨ handled = [x] ∧ e = y := by
  rcases handled with _ | ⟨a, _ | ⟨a', handled⟩⟩ <;> simp_all

/-- Once the payment is settled, the car has been returned. -/
theorem Coherent.takenBack_of_settled (h : Coherent b v) (hrow : v.booking.row = some row)
    {payment : Payment} (hp : v.payment.payment = some payment) (hs : payment.status.Settled) :
    row.TakenBack := by
  obtain ⟨message, hm, hc⟩ := h.settled.mp ⟨payment, hp, hs⟩
  have hf := h.faithful row hrow message (List.mem_append_left _ hm)
  cases message with
  | capturePaymentRequested => exact hf.2.2
  | _ => cases hc

theorem Coherent.hears (h : Coherent b v) {eventType : PaymentEventType}
    {rest : List PaymentEventType} (hqueue : v.events = eventType :: rest) :
    ∃ row, v.booking.row = some row ∧ Hears row eventType v.handledEvents := by
  obtain ⟨row, hrow⟩ := h.exists_row (by rintro rfl; cases hqueue)
  refine ⟨row, hrow, ?_⟩
  have hheard := h.heard row hrow
  have htrail := h.trail
  rw [hqueue, PaymentView.trail] at htrail
  cases hp : v.payment.payment with
  | none =>
    rw [hp] at htrail
    simp at htrail
  | some payment =>
    have hback := h.takenBack_of_settled hrow hp
    rw [hp] at htrail
    replace htrail : v.handledEvents ++ eventType :: rest = payment.status.trail := htrail
    generalize v.handledEvents = handled at htrail hheard ⊢
    have hfirst (he : handled = []) : row.status = .requested ∨ row.status = .rejected := by
      subst he
      cases hs : row.status <;> simp [hs, BookingStatus.Heard] at hheard ⊢
    have hlater (he : handled = [.paymentAuthorized]) (hs : payment.status.Settled) :
        row.status = .active := by
      subst he
      rcases (hback hs).1 with hs | hs
      · exact hs
      · rw [hs] at hheard
        cases hheard
    cases hs : payment.status with
    | authorized =>
      obtain ⟨rfl, rfl⟩ := head_of_singleton (hs ▸ htrail)
      exact .authorized (hfirst rfl)
    | authorizationFailed =>
      obtain ⟨rfl, rfl⟩ := head_of_singleton (hs ▸ htrail)
      exact .authorizationFailed (hfirst rfl)
    | captured =>
      rcases head_of_pair (hs ▸ htrail) with ⟨rfl, rfl⟩ | ⟨he, rfl⟩
      · exact .authorized (hfirst rfl)
      · exact he ▸ .captured (hlater he (.inl hs))
    | captureFailed =>
      rcases head_of_pair (hs ▸ htrail) with ⟨rfl, rfl⟩ | ⟨he, rfl⟩
      · exact .authorized (hfirst rfl)
      · exact he ▸ .captureFailed (hlater he (.inr hs))

/-- **No event is poison, unless the booking was rejected**: the reaction to the next event of a
booking is accepted. -/
theorem Coherent.accepts_head (h : Coherent b v) {eventType : PaymentEventType}
    {rest : List PaymentEventType} (hqueue : v.events = eventType :: rest) :
    ∃ row, v.booking.row = some row ∧ (row.status = .rejected ∨
      ∃ w, Accepts row (paymentEventHandlers ⟨eventType, b⟩) w) := by
  obtain ⟨row, hrow, hhears⟩ := h.hears hqueue
  refine ⟨row, hrow, ?_⟩
  generalize v.handledEvents = handled at hhears
  cases hhears with
  | authorized hstatus => exact hstatus.symm.imp_right fun hs => ⟨_, .confirm b hs⟩
  | authorizationFailed hstatus => exact hstatus.symm.imp_right fun hs => ⟨_, .cancel b hs⟩
  | captured hstatus => exact .inr ⟨_, .complete b hstatus⟩
  | captureFailed hstatus => exact .inr ⟨_, .noteFailure b hstatus⟩

theorem Coherent.reacted (h : Coherent b v) {eventType : PaymentEventType}
    {rest : List PaymentEventType} {w : Writes} (hqueue : v.events = eventType :: rest)
    (heffect : BookingEffect v.booking (paymentEventHandlers ⟨eventType, b⟩) w) :
    Coherent b { v with
      booking := v.booking.after w
      commands := v.commands ++ w.outbox
      handledEvents := v.handledEvents ++ [eventType]
      events := rest } := by
  obtain ⟨row, hrow, hhears⟩ := h.hears hqueue
  obtain ⟨row', hrow', hacc⟩ := heffect.accepts (creates_paymentEventHandlers _)
  obtain rfl : row = row' := Option.some.inj (hrow.symm.trans hrow')
  generalize hhandled : v.handledEvents = handled at hhears ⊢
  have hevents : handled ++ [eventType] ++ rest = v.handledEvents ++ v.events := by
    rw [hhandled, hqueue, List.append_assoc, List.singleton_append]
  cases hhears with
  | authorized hstatus =>
    cases hacc with
    | confirm _ hs =>
      exact h.operate hrow rfl rfl hevents rfl (by simp [Booking.settle]) (by simp [hs])
        (by simp [Booking.TakenBack, hs])
        (by simp [emitDomainEvent, BookingMessage.Faithful, Booking.settle])
  | authorizationFailed hstatus =>
    cases hacc with
    | cancel _ hs =>
      exact h.operate hrow rfl rfl hevents rfl (by simp [Booking.settle]) (by simp [hs])
        (by simp [Booking.TakenBack, hs])
        (by simp [emitDomainEvent, BookingMessage.Faithful, Booking.settle])
  | captured hstatus =>
    cases hacc with
    | complete _ hs =>
      exact h.operate hrow rfl rfl hevents rfl (fun _ => h.started row hrow (.inl hs))
        (by simp [Booking.settle]) (fun hback => ⟨.inr rfl, hback.2⟩)
        (by simp [emitDomainEvent, BookingMessage.Faithful, Booking.settle])
  | captureFailed hstatus =>
    cases hacc with
    | noteFailure _ hs =>
      exact h.operate hrow rfl rfl hevents (.inr rfl) (fun _ => h.started row hrow (.inl hs))
        (by simp [Booking.settle]) (fun hback => ⟨.inl rfl, hback.2⟩)
        (by simp [emitDomainEvent, BookingMessage.Faithful, Booking.settle])

/-- **The invariant is kept by every step.** -/
theorem Coherent.step (h : Coherent b v) (hstep : ViewStep b v tr v') : Coherent b v' := by
  cases hstep with
  | idle => exact h
  | performed op w hop hid heffect => exact h.performed hop hid heffect
  | handled message rest _ payment events hqueue heffect => exact h.handled hqueue heffect
  | reacted eventType rest w hqueue heffect => exact h.reacted hqueue heffect

theorem coherent_of_reachable {s : SagaState} (h : sagaSystem.Reachable s) (b : Uuid) :
    Coherent b (s.view b) := by
  refine h.invariant (fun s => Coherent b (s.view b)) (coherent_init b)
    fun s a s' hr hcoh hstep => ?_
  obtain ⟨tr, hview, -⟩ := (sagaOk_of_reachable hr).step_view (sagaStep_cases hstep) b
  exact hcoh.step hview

end Coherent

end CarFlow
