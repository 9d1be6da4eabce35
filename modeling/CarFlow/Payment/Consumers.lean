import CarFlow.Booking.Service
import CarFlow.Payment.Service

/-!
# The payment consumer

`services/payment/consumers.py`: the consumer of the booking topic, which dispatches the two
commands to their handlers and skips the lifecycle events that ship on the same topic.

## The payment side of a booking

Of the payment database a booking only ever sees its own payment and its own ledger entries, the
`PaymentView`. `CommandEffect` says what handling a message does to the view of its booking, with
the calls made to Stripe and the events written; the views of all other bookings stay as they are.

## Implementation notes

`CommandEffect` has a constructor for each way through the two handlers, with the calls that were
made on this way, the view before and after, and the events. Everything that is proved about
payment later is a case analysis on it, and the handlers themselves are unfolded here only.

## Main results

* `processCommand_of_mem`, `processCommand_path` — a record that was claimed before changes
  nothing, and a first delivery that commits has a `CommandEffect`
* `processCommand_commits` — once a booking has a payment, every first delivery commits
-/

namespace CarFlow

/-- `build_booking_command_handlers`. -/
def bookingCommandHandlers : BookingMessage → Option (PaymentDb → PaymentProgram)
  | .authorizePaymentRequested bookingId renterId amountCents => some fun db =>
    handleAuthorizePaymentRequested db bookingId renterId amountCents
  | .capturePaymentRequested bookingId hostId holdAmountCents overageCents => some fun db =>
    handleCapturePaymentRequested db bookingId hostId holdAmountCents overageCents
  | .lifecycle .. => none

/-- The processor of the consumer, for one record of the booking topic. -/
def processCommand (row : OutboxRow BookingMessage) (db : PaymentDb) : PaymentProgram :=
  postgresInboxProcessor (fun db => .done (.ok db)) (bookingCommandHandlers row.payload) row.id db

/-! ### The view of a booking -/

/-- What the payment database holds about one booking. -/
structure PaymentView where
  payment : Option Payment := none
  ledger : List LedgerEntry := []

namespace PaymentDb

variable {db : PaymentDb} {payment : Payment} {k : Uuid}

/-- The payment and the ledger entries of a booking. -/
def view (db : PaymentDb) (bookingId : Uuid) : PaymentView where
  payment := db.getByBookingId bookingId
  ledger := db.ledgerEntries.filter (·.bookingId = bookingId)

theorem view_addPayment_self (payment : Payment)
    (h : db.getByBookingId payment.bookingId = none) :
    (db.addPayment payment).view payment.bookingId =
      ⟨some payment, (db.view payment.bookingId).ledger⟩ := by
  rw [view, getByBookingId, addPayment, RowTable.lookup_append_self h]
  rfl

theorem view_addPayment_of_ne (payment : Payment) (h : payment.bookingId ≠ k) :
    (db.addPayment payment).view k = db.view k := by
  rw [view, getByBookingId, addPayment, RowTable.lookup_append_of_ne h]
  rfl

theorem view_setPayment_self {old : Payment} (payment : Payment) (hk : payment.bookingId = k)
    (h : (db.view k).payment = some old) :
    (db.setPayment payment).view k = ⟨some payment, (db.view k).ledger⟩ := by
  subst hk
  rw [view, getByBookingId, setPayment, RowTable.lookup_update_self h]
  rfl

theorem view_setPayment_of_ne (payment : Payment) (h : payment.bookingId ≠ k) :
    (db.setPayment payment).view k = db.view k := by
  rw [view, getByBookingId, setPayment, RowTable.lookup_update_of_ne h]
  rfl

theorem view_addEntries_self {entries : List LedgerEntry}
    (h : ∀ entry ∈ entries, entry.bookingId = k) :
    (db.addEntries entries).view k = ⟨(db.view k).payment, (db.view k).ledger ++ entries⟩ := by
  have hf : entries.filter (·.bookingId = k) = entries :=
    List.filter_eq_self.mpr fun entry he => by simpa using h entry he
  simp only [view, addEntries, List.filter_append, hf]
  rfl

theorem view_addEntries_of_ne {entries : List LedgerEntry}
    (h : ∀ entry ∈ entries, entry.bookingId ≠ k) : (db.addEntries entries).view k = db.view k := by
  have hf : entries.filter (·.bookingId = k) = [] :=
    List.filter_eq_nil_iff.mpr fun entry he => by simpa using h entry he
  simp only [view, addEntries, List.filter_append, hf, List.append_nil]
  rfl

@[simp] theorem view_writeEvent (eventType : PaymentEventType) (bookingId k : Uuid) :
    (db.writeEvent eventType bookingId).view k = db.view k := rfl

theorem bookingId_of_mem_chargePair {bookingId hostId : Uuid} {amountCents : ℤ}
    {reason : LedgerReason} {entry : LedgerEntry}
    (h : entry ∈ chargePair payment bookingId hostId amountCents reason) :
    entry.bookingId = bookingId := by
  simp only [chargePair, ledgerPair, List.mem_cons, List.not_mem_nil, or_false] at h
  rcases h with rfl | rfl <;> rfl

/-- Charge a booking and rewrite its payment. -/
theorem view_charge_self (db : PaymentDb) {old : Payment} (payment new : Payment)
    (bookingId hostId : Uuid) (amountCents : ℤ) (reason : LedgerReason)
    (hnew : new.bookingId = bookingId) (hold : (db.view bookingId).payment = some old) :
    ((db.addEntries (chargePair payment bookingId hostId amountCents reason)).setPayment new).view
        bookingId =
      ⟨some new, (db.view bookingId).ledger ++
        chargePair payment bookingId hostId amountCents reason⟩ := by
  have hcharge : (db.addEntries (chargePair payment bookingId hostId amountCents reason)).view
      bookingId = ⟨(db.view bookingId).payment, (db.view bookingId).ledger ++
        chargePair payment bookingId hostId amountCents reason⟩ :=
    view_addEntries_self fun _ => bookingId_of_mem_chargePair
  rw [view_setPayment_self new hnew ((congrArg PaymentView.payment hcharge).trans hold), hcharge]

theorem view_charge_of_ne (db : PaymentDb) (payment new : Payment) {bookingId : Uuid}
    (hostId : Uuid) (amountCents : ℤ) (reason : LedgerReason) (hnew : new.bookingId = bookingId)
    (hk : bookingId ≠ k) :
    ((db.addEntries (chargePair payment bookingId hostId amountCents reason)).setPayment new).view k
      = db.view k :=
  (view_setPayment_of_ne new (hnew.trans_ne hk)).trans
    (view_addEntries_of_ne fun _ he => bookingId_of_mem_chargePair he ▸ hk)

end PaymentDb

/-- What handling a message does to the view `v` of its booking: the calls made to Stripe with
their replies, the view it leaves, and the events it writes. -/
inductive CommandEffect (bookingId : Uuid) (v : PaymentView) :
    BookingMessage → List (StripeCall × StripeReply) → PaymentView → List PaymentEventType → Prop
  | announced (event : LifecycleEvent) (renterId hostId : Uuid) (status : BookingStatus) :
      CommandEffect bookingId v (.lifecycle event bookingId renterId hostId status) [] v []
  | existing (renterId : Uuid) (amountCents : ℤ) (payment : Payment)
      (hfound : v.payment = some payment) :
      CommandEffect bookingId v (.authorizePaymentRequested bookingId renterId amountCents) [] v []
  | authorizeRefused (id renterId : Uuid) (amountCents : ℤ) (hnone : v.payment = none)
      (hfits : FitsInteger amountCents) :
      CommandEffect bookingId v (.authorizePaymentRequested bookingId renterId amountCents)
        [(.authorize amountCents (.authorize bookingId), .stripeError)]
        { v with payment := some { id, bookingId, renterId, holdAmountCents := amountCents
                                   status := .authorizationFailed } }
        [.paymentAuthorizationFailed]
  | held (id renterId : Uuid) (amountCents : ℤ) (intentId : String) (hnone : v.payment = none)
      (hfits : FitsInteger amountCents) :
      CommandEffect bookingId v (.authorizePaymentRequested bookingId renterId amountCents)
        [(.authorize amountCents (.authorize bookingId), .returned intentId)]
        { v with payment := some { id, bookingId, renterId, holdAmountCents := amountCents
                                   status := .authorized
                                   stripePaymentIntentId := some intentId } }
        [.paymentAuthorized]
  | absent (hostId : Uuid) (holdAmountCents overageCents : ℤ) (hnone : v.payment = none) :
      CommandEffect bookingId v
        (.capturePaymentRequested bookingId hostId holdAmountCents overageCents) [] v []
  | settled (hostId : Uuid) (holdAmountCents overageCents : ℤ) (payment : Payment)
      (hfound : v.payment = some payment) (hstatus : payment.status ≠ .authorized) :
      CommandEffect bookingId v
        (.capturePaymentRequested bookingId hostId holdAmountCents overageCents) [] v []
  | captureRefused (hostId : Uuid) (holdAmountCents overageCents : ℤ) (payment : Payment)
      (hfound : v.payment = some payment) (hstatus : payment.status = .authorized) :
      CommandEffect bookingId v
        (.capturePaymentRequested bookingId hostId holdAmountCents overageCents)
        [(.capture payment.stripePaymentIntentId holdAmountCents (.capture bookingId),
          .stripeError)]
        { v with payment := some (payment.withStatus .captureFailed) }
        [.paymentCaptureFailed]
  | captured (hostId : Uuid) (holdAmountCents overageCents : ℤ) (payment : Payment)
      (captureId : String) (overage : List (StripeCall × StripeReply))
      (hfound : v.payment = some payment) (hstatus : payment.status = .authorized)
      (hhold : 0 < holdAmountCents)
      (hoverage : overageCents ≤ 0 ∧ overage = [] ∨ 0 < overageCents ∧ overage =
        [(.authorizeAndCapture overageCents (.overage bookingId), .stripeError)]) :
      CommandEffect bookingId v
        (.capturePaymentRequested bookingId hostId holdAmountCents overageCents)
        ((.capture payment.stripePaymentIntentId holdAmountCents (.capture bookingId),
          .returned captureId) :: overage)
        ⟨some (payment.withStatus .captured),
          v.ledger ++ chargePair payment bookingId hostId holdAmountCents .rental⟩
        [.paymentCaptured]
  | charged (hostId : Uuid) (holdAmountCents overageCents : ℤ) (payment : Payment)
      (captureId overageIntentId : String) (hfound : v.payment = some payment)
      (hstatus : payment.status = .authorized) (hhold : 0 < holdAmountCents)
      (hoverage : 0 < overageCents) :
      CommandEffect bookingId v
        (.capturePaymentRequested bookingId hostId holdAmountCents overageCents)
        [(.capture payment.stripePaymentIntentId holdAmountCents (.capture bookingId),
            .returned captureId),
          (.authorizeAndCapture overageCents (.overage bookingId), .returned overageIntentId)]
        ⟨some ((payment.withOverage overageIntentId overageCents).withStatus .captured),
          v.ledger ++ chargePair payment bookingId hostId holdAmountCents .rental ++
            chargePair payment bookingId hostId overageCents .mileageOverage⟩
        [.paymentCaptured]

/-- What a handler that commits does to the whole database. -/
structure CommandOutcome (db : PaymentDb) (message : BookingMessage)
    (tr : List (StripeCall × StripeReply)) (db' : PaymentDb) : Prop where
  /-- The message has its effect, and its events are written. -/
  effect : ∃ events, CommandEffect message.bookingId (db.view message.bookingId) message tr
      (db'.view message.bookingId) events ∧ db'.outbox = writeAll db.outbox message.bookingId
        (events.map fun eventType => ⟨eventType, message.bookingId⟩)
  /-- Other bookings are not touched. -/
  others : ∀ k, message.bookingId ≠ k → db'.view k = db.view k
  /-- Claims are the processor's business. -/
  inbox : db'.inbox = db.inbox

section Outcomes

variable {db db' : PaymentDb} {bookingId renterId hostId : Uuid}
  {amountCents holdAmountCents overageCents : ℤ} {tr : List (StripeCall × StripeReply)}

/-- A handler that neither writes nor calls. -/
theorem CommandOutcome.unchanged {message : BookingMessage}
    (h : CommandEffect message.bookingId (db.view message.bookingId) message tr
      (db.view message.bookingId) []) : CommandOutcome db message tr db :=
  ⟨⟨[], h, rfl⟩, fun _ _ => rfl, rfl⟩

theorem AuthorizeEffect.outcome (h : AuthorizeEffect db bookingId renterId amountCents tr db') :
    CommandOutcome db (.authorizePaymentRequested bookingId renterId amountCents) tr db' := by
  cases h with
  | existing payment hfound => exact .unchanged (.existing _ _ payment hfound)
  | refused hnone hfits =>
    refine ⟨⟨[.paymentAuthorizationFailed], ?_, rfl⟩,
      fun k hk => PaymentDb.view_addPayment_of_ne _ hk, rfl⟩
    have hview := PaymentDb.view_addPayment_self
      (db.newPayment bookingId renterId amountCents .authorizationFailed none) hnone
    exact hview ▸ .authorizeRefused _ _ _ hnone hfits
  | held intentId hnone hfits =>
    refine ⟨⟨[.paymentAuthorized], ?_, rfl⟩,
      fun k hk => PaymentDb.view_addPayment_of_ne _ hk, rfl⟩
    have hview := PaymentDb.view_addPayment_self
      (db.newPayment bookingId renterId amountCents .authorized (some intentId)) hnone
    exact hview ▸ .held _ _ _ _ hnone hfits

theorem CaptureEffect.outcome
    (h : CaptureEffect db bookingId hostId holdAmountCents overageCents tr db') :
    CommandOutcome db (.capturePaymentRequested bookingId hostId holdAmountCents overageCents) tr
      db' := by
  have hpayment {payment : Payment} (hfound : db.getByBookingId bookingId = some payment) :
      payment.bookingId = bookingId := RowTable.key_of_lookup hfound
  cases h with
  | absent hnone => exact .unchanged (.absent _ _ _ hnone)
  | settled payment hfound hstatus => exact .unchanged (.settled _ _ _ payment hfound hstatus)
  | refused payment hfound hstatus =>
    have hb := hpayment hfound
    refine ⟨⟨[.paymentCaptureFailed], ?_, rfl⟩,
      fun k hk => PaymentDb.view_setPayment_of_ne _ (hb.trans_ne hk), rfl⟩
    have hview := PaymentDb.view_setPayment_self (payment.withStatus .captureFailed)
      hb hfound
    exact hview ▸ .captureRefused _ _ _ payment hfound hstatus
  | captured payment captureId overage hfound hstatus hhold hoverage =>
    have hb := hpayment hfound
    have hview := db.view_charge_self payment (payment.withStatus .captured) bookingId hostId
      holdAmountCents .rental hb hfound
    refine ⟨⟨[.paymentCaptured], ?_, rfl⟩, fun k hk => ?_, rfl⟩
    · exact hview ▸ .captured _ _ _ payment captureId overage hfound hstatus hhold hoverage
    · exact db.view_charge_of_ne payment (payment.withStatus .captured) hostId holdAmountCents
        .rental hb hk
  | charged payment captureId overageIntentId hfound hstatus hhold hoverage =>
    have hb := hpayment hfound
    have hview₁ := db.view_charge_self payment (payment.withOverage overageIntentId overageCents)
      bookingId hostId holdAmountCents .rental hb hfound
    have hview₂ := PaymentDb.view_charge_self ((db.addEntries (chargePair payment bookingId hostId
        holdAmountCents .rental)).setPayment (payment.withOverage overageIntentId overageCents))
      payment ((payment.withOverage overageIntentId overageCents).withStatus .captured) bookingId
      hostId overageCents .mileageOverage hb (congrArg PaymentView.payment hview₁)
    rw [hview₁] at hview₂
    refine ⟨⟨[.paymentCaptured], ?_, rfl⟩, fun k hk => ?_, rfl⟩
    · exact hview₂ ▸ .charged _ _ _ payment captureId overageIntentId hfound hstatus hhold hoverage
    · exact (PaymentDb.view_charge_of_ne _ payment
        ((payment.withOverage overageIntentId overageCents).withStatus .captured) hostId
        overageCents .mileageOverage hb hk).trans
        (db.view_charge_of_ne payment (payment.withOverage overageIntentId overageCents) hostId
          holdAmountCents .rental hb hk)

theorem bookingCommandHandlers_path {message : BookingMessage}
    {handler : PaymentDb → PaymentProgram} (hh : bookingCommandHandlers message = some handler)
    (h : (handler db).Path tr (.ok db')) : CommandOutcome db message tr db' := by
  cases message with
  | authorizePaymentRequested bookingId renterId amountCents =>
    cases hh
    exact (handleAuthorizePaymentRequested_path h).outcome
  | capturePaymentRequested bookingId hostId holdAmountCents overageCents =>
    cases hh
    exact (handleCapturePaymentRequested_path h).outcome
  | lifecycle event bookingId renterId hostId status => cases hh

variable {row : OutboxRow BookingMessage}

theorem processCommand_of_mem (h : row.id ∈ db.inbox) :
    processCommand row db = .done (.ok db) :=
  postgresInboxProcessor_of_mem h

/-- The first delivery of a record, if its transaction commits. -/
theorem processCommand_path (hu : row.id ∉ db.inbox)
    (h : (processCommand row db).Path tr (.ok db')) :
    CommandOutcome { db with inbox := row.id :: db.inbox } row.payload tr db' := by
  rw [processCommand, postgresInboxProcessor_of_notMem hu] at h
  cases hh : bookingCommandHandlers row.payload with
  | some handler =>
    rw [hh] at h
    exact bookingCommandHandlers_path hh h
  | none =>
    rw [hh] at h
    obtain ⟨rfl, hdb⟩ := CallProgram.path_done_iff.mp h
    obtain rfl := Except.ok.inj hdb
    cases hp : row.payload with
    | lifecycle event bookingId renterId hostId status =>
      exact .unchanged (.announced event renterId hostId status)
    | authorizePaymentRequested => rw [hp] at hh; cases hh
    | capturePaymentRequested => rw [hp] at hh; cases hh

/-- The first authorize command of a booking, if its amount fits and Stripe grants the hold. -/
theorem processCommand_held (hu : row.id ∉ db.inbox)
    (hp : row.payload = .authorizePaymentRequested bookingId renterId amountCents)
    (hnone : db.getByBookingId bookingId = none) (hfits : FitsInteger amountCents)
    (intentId : String) :
    ∃ db', (processCommand row db).run (fun _ => .returned intentId) = .ok db' ∧
      ∃ payment, db'.getByBookingId bookingId = some payment ∧ payment.status = .authorized := by
  have hnone' : PaymentDb.getByBookingId { db with inbox := row.id :: db.inbox } bookingId
      = none := hnone
  rw [processCommand, postgresInboxProcessor_of_notMem hu, hp]
  refine ⟨_, (run_handleAuthorizePaymentRequested hnone' _).trans (if_pos hfits), _,
    RowTable.lookup_append_self ?_, rfl⟩
  exact hnone

/-- The amounts of a capture command can be stored and booked. -/
def BookingMessage.Bookable : BookingMessage → Prop
  | .capturePaymentRequested _ _ holdAmountCents overageCents =>
    0 < holdAmountCents ∧ FitsInteger holdAmountCents ∧ FitsInteger overageCents
  | .authorizePaymentRequested .. | .lifecycle .. => True

/-- Once a booking has a payment, the first delivery of a message about it commits, whatever Stripe
answers. -/
theorem processCommand_commits {payment : Payment} (hu : row.id ∉ db.inbox)
    (hfound : db.getByBookingId row.payload.bookingId = some payment)
    (hfits : FitsInteger payment.overageCents) (hm : row.payload.Bookable)
    (stripe : StripeCall → StripeReply) :
    ∃ tr db', (processCommand row db).run stripe = .ok db' ∧ (∀ e ∈ tr, e.2 = stripe e.1) ∧
      CommandOutcome { db with inbox := row.id :: db.inbox } row.payload tr db' := by
  have hfound' : PaymentDb.getByBookingId { db with inbox := row.id :: db.inbox }
      row.payload.bookingId = some payment := hfound
  have hrun : ∃ db', (processCommand row db).run stripe = .ok db' := by
    rw [processCommand, postgresInboxProcessor_of_notMem hu]
    cases hp : row.payload with
    | lifecycle => exact ⟨_, rfl⟩
    | authorizePaymentRequested bookingId renterId amountCents =>
      rw [hp] at hfound'
      exact ⟨_, congrArg (CallProgram.run stripe)
        (handleAuthorizePaymentRequested_of_found hfound')⟩
    | capturePaymentRequested bookingId hostId holdAmountCents overageCents =>
      rw [hp] at hfound' hm
      obtain ⟨hpos, hhold, hoverage⟩ := hm
      exact handleCapturePaymentRequested_commits hfound' hfits hpos hhold hoverage stripe
  obtain ⟨db', hrun⟩ := hrun
  obtain ⟨tr, hpath, hreply⟩ := CallProgram.path_run stripe (processCommand row db)
  rw [hrun] at hpath
  exact ⟨tr, db', hrun, hreply, processCommand_path hu hpath⟩

end Outcomes

end CarFlow
