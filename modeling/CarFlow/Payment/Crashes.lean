import CarFlow.Lib.TransitionSystem
import CarFlow.Payment.Consumers

/-!
# The payment consumer and Stripe, across crashes

`run_consumer` over the booking topic, with the handlers of the payment service in it. The handler
of a record is one transaction with calls to Stripe in the middle; only its writes can be rolled
back. So a crash may leave Stripe ahead of the database, by the calls of the attempt that got
furthest, until the record is handled again.

## The model

A record in hand is a transaction under way (`Stage.handling`, with what is left of the handler)
or one whose transaction has committed but whose offset has not (`Stage.processed`). The process
may crash, or the transaction be rolled back, at any point: between any two steps. Stripe remembers
its reply to each idempotency key, and a call that raised moved no money.

Kafka hands out the records of one booking in order, each until its offset is committed, and the
records of different bookings in any order.

## Implementation notes

A handler is a program whose nodes are calls to Stripe, and Stripe's memory a list of calls with
their replies. To handle a record again is to run the program again: it asks the same questions with
the same keys, and so walks along the replies that are there. `Upto` says that a program has got
somewhere by these, and the books are in balance *up to* the calls of the attempt that has come
furthest (`Balanced`).

Nothing here is said about the time for which Stripe keeps a key, nor about the responses that do
not arrive; the latter are in `Payment.LostResponses`.

## Main results

* `Balanced.step` — handling a message keeps the books of the payment service and Stripe in balance
* `money_moves_exactly_once` — **at most one hold, one capture and one overage charge** for each
  booking, and books in balance whenever the last attempted command of the booking has committed
-/

namespace CarFlow

/-! ### The consumer -/

/-- What became of the record in hand. -/
inductive Stage
  | handling (program : PaymentProgram)
  | processed

/-- The payment consumer, its database and topic, and Stripe. -/
structure ConsumerState where
  topic : List (OutboxRow BookingMessage) := []
  db : PaymentDb := {}
  /-- The calls Stripe has carried out, with its replies. -/
  stripe : List (StripeCall × StripeReply) := []
  /-- The records whose offsets are committed. -/
  offsets : List EventId := []
  /-- The record in hand. -/
  inHand : Option (OutboxRow BookingMessage × Stage) := none
  /-- The records whose handling was ever begun, in that order. Nothing reads this. -/
  attempts : List (OutboxRow BookingMessage) := []

/-- The steps of the consumer and its environment. -/
inductive ConsumerAction
  | publish (message : BookingMessage)
  | fetch (i : ℕ)
  /-- Stripe's answer to the call the handler is at. -/
  | answer (outcome : StripeReply)
  | commit
  | commitOffset
  | crash

/-- One step. -/
def consumerStep (s : ConsumerState) : ConsumerAction → Option ConsumerState
  | .publish message => some { s with topic := writeOutboxEvent s.topic message.bookingId message }
  | .fetch i => do
    let row ← s.topic[i]?
    if s.inHand.isNone ∧ EarlierClaimed s.topic s.offsets i row ∧ row.id ∉ s.offsets then
      some { s with
        inHand := some (row, .handling (processCommand row s.db))
        attempts := s.attempts ++ [row] }
    else none
  | .answer outcome =>
    match s.inHand with
    | some (row, .handling (.call c next)) =>
      let (reply, stripe) := CallProgram.respond StripeCall.idempotencyKey s.stripe c outcome
      some { s with stripe, inHand := some (row, .handling (next reply)) }
    | _ => none
  | .commit =>
    match s.inHand with
    | some (row, .handling (.done (.ok db))) => some { s with db, inHand := some (row, .processed) }
    | _ => none
  | .commitOffset =>
    match s.inHand with
    | some (row, .processed) => some { s with offsets := row.id :: s.offsets, inHand := none }
    | _ => none
  | .crash => some { s with inHand := none }

/-- The payment consumer. -/
def consumerSystem : TransitionSystem ConsumerState ConsumerAction where
  init := {}
  step := consumerStep

/-! ### What a message asks of Stripe

`BookingMessage.calls` is the program of calls for a message, by the payment there is. The handlers
make these calls and no others. -/

/-- The booking an idempotency key belongs to. -/
def IdempotencyKey.bookingId : IdempotencyKey → Uuid
  | .authorize bookingId | .capture bookingId | .overage bookingId => bookingId

/-- Each kind of call has a kind of key. -/
def StripeCall.WellKeyed : StripeCall → Prop
  | .authorize _ idempotencyKey => ∃ b, idempotencyKey = .authorize b
  | .capture _ _ idempotencyKey => ∃ b, idempotencyKey = .capture b
  | .authorizeAndCapture _ idempotencyKey => ∃ b, idempotencyKey = .overage b

/-- The calls made for a message about a booking, given the payment there is. -/
def BookingMessage.calls (payment : Option Payment) :
    BookingMessage → CallProgram StripeCall StripeReply Unit
  | .authorizePaymentRequested bookingId _ amountCents =>
    match payment with
    | some _ => .done ()
    | none => .call (.authorize amountCents (.authorize bookingId)) fun _ => .done ()
  | .capturePaymentRequested bookingId _ holdAmountCents overageCents =>
    match payment with
    | none => .done ()
    | some payment =>
      if payment.status ≠ .authorized then .done ()
      else .call (.capture payment.stripePaymentIntentId holdAmountCents (.capture bookingId)) fun
        | .stripeError => .done ()
        | .returned _ =>
          if FitsInteger holdAmountCents ∧ 0 < holdAmountCents ∧ 0 < overageCents then
            .call (.authorizeAndCapture overageCents (.overage bookingId)) fun _ => .done ()
          else .done ()
  | .lifecycle .. => .done ()

section Calls

variable {db : PaymentDb} {row : OutboxRow BookingMessage}

theorem handleAuthorizePaymentRequested_calls (db : PaymentDb) (bookingId renterId : Uuid)
    (amountCents : ℤ) :
    (handleAuthorizePaymentRequested db bookingId renterId amountCents).map (fun _ => ()) =
      BookingMessage.calls (db.getByBookingId bookingId)
        (.authorizePaymentRequested bookingId renterId amountCents) := by
  cases hg : db.getByBookingId bookingId with
  | some payment =>
    simp [handleAuthorizePaymentRequested, hg, BookingMessage.calls, CallProgram.map]
  | none =>
    simp only [handleAuthorizePaymentRequested, hg, BookingMessage.calls, CallProgram.map]
    congr 1
    funext r
    cases r <;> rfl

theorem chargeOverage_calls (db : PaymentDb) (payment : Payment) (bookingId hostId : Uuid)
    (overageCents : ℤ) :
    (chargeOverage db payment bookingId hostId overageCents).map (fun _ => ()) =
      if 0 < overageCents then
        .call (.authorizeAndCapture overageCents (.overage bookingId)) fun _ => .done ()
      else .done () := by
  by_cases ho : 0 < overageCents
  · simp only [chargeOverage, gt_iff_lt, ho, if_true, CallProgram.map]
    congr 1
    funext r
    cases r <;> rfl
  · simp [chargeOverage, ho, CallProgram.map]

theorem handleCapturePaymentRequested_calls (db : PaymentDb) (bookingId hostId : Uuid)
    (holdAmountCents overageCents : ℤ) :
    (handleCapturePaymentRequested db bookingId hostId holdAmountCents overageCents).map
        (fun _ => ()) =
      BookingMessage.calls (db.getByBookingId bookingId)
        (.capturePaymentRequested bookingId hostId holdAmountCents overageCents) := by
  cases hg : db.getByBookingId bookingId with
  | none => simp [handleCapturePaymentRequested, hg, BookingMessage.calls, CallProgram.map]
  | some payment =>
    simp only [handleCapturePaymentRequested, hg, BookingMessage.calls]
    by_cases hs : payment.status = .authorized
    swap
    · simp [hs, CallProgram.map]
    simp only [hs, ne_eq, not_true_eq_false, if_false, CallProgram.map]
    congr 1
    funext r
    cases r with
    | stripeError => rfl
    | returned captureId =>
      by_cases hf : FitsInteger holdAmountCents
      · by_cases hp : 0 < holdAmountCents
        · simp [PaymentDb.writeLedgerPair, hf, hp, chargeOverage_calls]
        · simp [PaymentDb.writeLedgerPair, hf, hp, CallProgram.map]
      · simp [PaymentDb.writeLedgerPair, hf, CallProgram.map]

/-- What a first delivery asks of Stripe depends on nothing but the payment of its booking. -/
theorem processCommand_calls (hu : row.id ∉ db.inbox) :
    (processCommand row db).map (fun _ => ()) =
      row.payload.calls (db.getByBookingId row.payload.bookingId) := by
  rw [processCommand, postgresInboxProcessor_of_notMem hu]
  cases hp : row.payload with
  | authorizePaymentRequested bookingId renterId amountCents =>
    exact handleAuthorizePaymentRequested_calls _ _ _ _
  | capturePaymentRequested bookingId hostId holdAmountCents overageCents =>
    exact handleCapturePaymentRequested_calls _ _ _ _ _
  | lifecycle => rfl

/-- The calls made for a message use the keys of its booking. -/
theorem BookingMessage.calls_keys (payment : Option Payment) (message : BookingMessage) :
    (message.calls payment).Calls fun c =>
      c.idempotencyKey.bookingId = message.bookingId ∧ c.WellKeyed := by
  cases message with
  | authorizePaymentRequested bookingId renterId amountCents =>
    cases payment with
    | some _ => trivial
    | none => exact ⟨⟨rfl, _, rfl⟩, fun _ => trivial⟩
  | capturePaymentRequested bookingId hostId holdAmountCents overageCents =>
    cases payment with
    | none => trivial
    | some payment =>
      simp only [BookingMessage.calls]
      split
      · trivial
      · refine ⟨⟨rfl, _, rfl⟩, fun r => ?_⟩
        cases r with
        | stripeError => trivial
        | returned captureId =>
          dsimp only
          split
          · exact ⟨⟨rfl, _, rfl⟩, fun _ => trivial⟩
          · trivial
  | lifecycle => trivial

end Calls

/-! ### Books in balance

What Stripe has done about a booking is what its rows say, but for the calls of attempts that were
not committed. -/

/-- The payment service and Stripe agree about a booking: the view of the booking, and all the
calls Stripe has carried out for it. -/
inductive Balanced (bookingId : Uuid) : PaymentView → List (StripeCall × StripeReply) → Prop
  | unopened : Balanced bookingId ⟨none, []⟩ []
  | refused (payment : Payment) (amountCents : ℤ) (hstatus : payment.status = .authorizationFailed)
      (hintent : payment.stripePaymentIntentId = none)
      (hoverage : payment.stripeOverageIntentId = none) :
      Balanced bookingId ⟨some payment, []⟩
        [(.authorize amountCents (.authorize bookingId), .stripeError)]
  | held (payment : Payment) (amountCents : ℤ) (intentId : String)
      (hstatus : payment.status = .authorized)
      (hintent : payment.stripePaymentIntentId = some intentId)
      (hoverage : payment.stripeOverageIntentId = none) :
      Balanced bookingId ⟨some payment, []⟩
        [(.authorize amountCents (.authorize bookingId), .returned intentId)]
  | captureRefused (payment : Payment) (amountCents holdAmountCents : ℤ) (intentId : String)
      (hstatus : payment.status = .captureFailed)
      (hintent : payment.stripePaymentIntentId = some intentId)
      (hoverage : payment.stripeOverageIntentId = none) :
      Balanced bookingId ⟨some payment, []⟩
        [(.authorize amountCents (.authorize bookingId), .returned intentId),
          (.capture (some intentId) holdAmountCents (.capture bookingId), .stripeError)]
  | captured (payment : Payment) (hostId : Uuid) (amountCents holdAmountCents : ℤ)
      (intentId captureId : String) (overage : List (StripeCall × StripeReply))
      (hstatus : payment.status = .captured)
      (hintent : payment.stripePaymentIntentId = some intentId)
      (hoverage : payment.stripeOverageIntentId = none)
      (hcalls : overage = [] ∨ ∃ overageCents, overage =
        [(.authorizeAndCapture overageCents (.overage bookingId), .stripeError)]) :
      Balanced bookingId
        ⟨some payment, chargePair payment bookingId hostId holdAmountCents .rental⟩
        ((.authorize amountCents (.authorize bookingId), .returned intentId) ::
          (.capture (some intentId) holdAmountCents (.capture bookingId), .returned captureId) ::
          overage)
  | charged (payment : Payment) (hostId : Uuid) (amountCents holdAmountCents overageCents : ℤ)
      (intentId captureId overageIntentId : String) (hstatus : payment.status = .captured)
      (hintent : payment.stripePaymentIntentId = some intentId)
      (hoverage : payment.stripeOverageIntentId = some overageIntentId) :
      Balanced bookingId
        ⟨some payment, chargePair payment bookingId hostId holdAmountCents .rental ++
          chargePair payment bookingId hostId overageCents .mileageOverage⟩
        [(.authorize amountCents (.authorize bookingId), .returned intentId),
          (.capture (some intentId) holdAmountCents (.capture bookingId), .returned captureId),
          (.authorizeAndCapture overageCents (.overage bookingId), .returned overageIntentId)]

section Balanced

variable {b : Uuid} {v v' : PaymentView} {message : BookingMessage}
  {memory tr : List (StripeCall × StripeReply)} {events : List PaymentEventType}

/-- With an authorized payment, Stripe has carried out the hold and nothing else. -/
theorem Balanced.of_authorized (h : Balanced b v memory) {payment : Payment}
    (hfound : v.payment = some payment) (hstatus : payment.status = .authorized) :
    ∃ amountCents intentId, v.ledger = [] ∧ payment.stripePaymentIntentId = some intentId ∧
      payment.stripeOverageIntentId = none ∧
      memory = [(.authorize amountCents (.authorize b), .returned intentId)] := by
  cases h with
  | held p amountCents intentId hs hintent hoverage =>
    obtain rfl := Option.some.inj hfound
    exact ⟨amountCents, intentId, rfl, hintent, hoverage, rfl⟩
  | unopened => cases hfound
  | refused _ _ hs => cases hfound; rw [hstatus] at hs; cases hs
  | captureRefused _ _ _ _ hs => cases hfound; rw [hstatus] at hs; cases hs
  | captured _ _ _ _ _ _ _ hs => cases hfound; rw [hstatus] at hs; cases hs
  | charged _ _ _ _ _ _ _ _ hs => cases hfound; rw [hstatus] at hs; cases hs

/-- Without a payment, it has carried out nothing. -/
theorem Balanced.of_none (h : Balanced b v memory) (hnone : v.payment = none) :
    v.ledger = [] ∧ memory = [] := by
  cases h with
  | unopened => exact ⟨rfl, rfl⟩
  | _ => cases hnone

/-- **Handling a message keeps the books in balance**, with the calls it made. -/
theorem Balanced.step (h : Balanced b v memory) (heffect : CommandEffect b v message tr v' events) :
    Balanced b v' (memory ++ tr) := by
  cases heffect with
  | announced => rwa [List.append_nil]
  | existing => rwa [List.append_nil]
  | absent => rwa [List.append_nil]
  | settled => rwa [List.append_nil]
  | authorizeRefused id renterId amountCents hnone hfits =>
    obtain ⟨hledger, rfl⟩ := h.of_none hnone
    rw [hledger]
    exact .refused _ amountCents rfl rfl rfl
  | held id renterId amountCents intentId hnone hfits =>
    obtain ⟨hledger, rfl⟩ := h.of_none hnone
    rw [hledger]
    exact .held _ amountCents intentId rfl rfl rfl
  | captureRefused hostId holdAmountCents overageCents payment hfound hstatus =>
    obtain ⟨amountCents, intentId, hledger, hintent, hover, rfl⟩ := h.of_authorized hfound hstatus
    rw [hledger, hintent]
    exact .captureRefused _ amountCents holdAmountCents intentId rfl hintent hover
  | captured hostId holdAmountCents overageCents payment captureId overage hfound hstatus hhold
      hoverage =>
    obtain ⟨amountCents, intentId, hledger, hintent, hover, rfl⟩ := h.of_authorized hfound hstatus
    rw [hledger, hintent]
    exact .captured (payment.withStatus .captured) hostId amountCents holdAmountCents intentId
      captureId overage rfl hintent hover (hoverage.imp (·.2) fun h => ⟨overageCents, h.2⟩)
  | charged hostId holdAmountCents overageCents payment captureId overageIntentId hfound hstatus
      hhold hoverage =>
    obtain ⟨amountCents, intentId, hledger, hintent, hover, rfl⟩ := h.of_authorized hfound hstatus
    rw [hledger, hintent]
    exact .charged ((payment.withOverage overageIntentId overageCents).withStatus .captured) hostId
      amountCents holdAmountCents overageCents intentId captureId overageIntentId rfl hintent rfl

/-- Handling a message uses no key that was used before. -/
theorem Balanced.distinct (h : Balanced b v memory) (hb : message.bookingId = b) :
    (message.calls v.payment).Distinct StripeCall.idempotencyKey
      fun k => ∃ e ∈ memory, e.1.idempotencyKey = k := by
  cases message with
  | authorizePaymentRequested bookingId renterId amountCents =>
    cases hp : v.payment with
    | some payment => trivial
    | none =>
      obtain ⟨-, rfl⟩ := h.of_none hp
      exact ⟨by simp, fun _ => trivial⟩
  | capturePaymentRequested bookingId hostId holdAmountCents overageCents =>
    obtain rfl : bookingId = b := hb
    cases hp : v.payment with
    | none => trivial
    | some payment =>
      simp only [BookingMessage.calls]
      split
      · trivial
      · rename_i hs
        obtain ⟨amountCents, intentId, -, -, -, rfl⟩ := h.of_authorized hp (not_not.mp hs)
        refine ⟨by simp [StripeCall.idempotencyKey], fun r => ?_⟩
        cases r with
        | stripeError => trivial
        | returned captureId =>
          dsimp only
          split
          · exact ⟨by simp [StripeCall.idempotencyKey], fun _ => trivial⟩
          · trivial
  | lifecycle => trivial

/-! ### What balanced books say -/

/-- The sum of the credits of a ledger. -/
def credits (ledger : List LedgerEntry) : ℤ :=
  ((ledger.filter (·.direction = .credit)).map (·.amountCents)).sum

/-- The money a call captured. One that raised moved none, and a hold moves none. -/
def capturedCents : StripeCall × StripeReply → ℤ
  | (.capture _ amountCents _, .returned _) => amountCents
  | (.authorizeAndCapture amountCents _, .returned _) => amountCents
  | _ => 0

/-- The intent id of the hold among some calls. -/
def holdIntentId (calls : List (StripeCall × StripeReply)) : Option String :=
  calls.findSome? fun
    | (.authorize .., .returned intentId) => some intentId
    | _ => none

/-- The intent id of the overage charge among some calls. -/
def overageIntentId (calls : List (StripeCall × StripeReply)) : Option String :=
  calls.findSome? fun
    | (.authorizeAndCapture .., .returned intentId) => some intentId
    | _ => none

theorem credits_chargePair (payment : Payment) (bookingId hostId : Uuid) (amountCents : ℤ)
    (reason : LedgerReason) :
    credits (chargePair payment bookingId hostId amountCents reason) = amountCents := by
  simp [credits, chargePair, PaymentDb.ledgerPair]

theorem credits_append (ledger ledger' : List LedgerEntry) :
    credits (ledger ++ ledger') = credits ledger + credits ledger' := by
  simp [credits]

/-- The credits are what Stripe captured. -/
theorem Balanced.credits_eq (h : Balanced b v memory) :
    credits v.ledger = (memory.map capturedCents).sum := by
  cases h with
  | unopened => rfl
  | refused => rfl
  | held => rfl
  | captureRefused => rfl
  | captured payment hostId amountCents holdAmountCents intentId captureId overage _ _ _ hcalls =>
    rcases hcalls with rfl | ⟨overageCents, rfl⟩ <;> simp [credits_chargePair, capturedCents]
  | charged => simp [credits_append, credits_chargePair, capturedCents]

/-- The payment stores the intent ids Stripe returned. -/
theorem Balanced.intentIds (h : Balanced b v memory) :
    v.payment.bind (·.stripePaymentIntentId) = holdIntentId memory ∧
      v.payment.bind (·.stripeOverageIntentId) = overageIntentId memory := by
  cases h with
  | unopened => exact ⟨rfl, rfl⟩
  | refused _ _ _ hintent hoverage => simp [hintent, hoverage, holdIntentId, overageIntentId]
  | held _ _ _ _ hintent hoverage => simp [hintent, hoverage, holdIntentId, overageIntentId]
  | captureRefused _ _ _ _ _ hintent hoverage =>
    simp [hintent, hoverage, holdIntentId, overageIntentId]
  | captured _ _ _ _ _ _ _ _ hintent hoverage hcalls =>
    rcases hcalls with rfl | ⟨overageCents, rfl⟩ <;>
      simp [hintent, hoverage, holdIntentId, overageIntentId]
  | charged _ _ _ _ _ _ _ _ _ hintent hoverage =>
    simp [hintent, hoverage, holdIntentId, overageIntentId]

end Balanced

/-! ### The invariant of the consumer

For each booking the attempt that has come furthest is known. A new attempt for its record walks the
same way, so it is never at a call that Stripe has not seen before it is as far as that one was. -/

namespace ConsumerState

/-- The calls Stripe has carried out for a booking. -/
def callsFor (s : ConsumerState) (b : Uuid) : List (StripeCall × StripeReply) :=
  s.stripe.filter fun e => e.1.idempotencyKey.bookingId = b

/-- The record of a booking whose handling was begun last. -/
def lastAttempt (s : ConsumerState) (b : Uuid) : Option (OutboxRow BookingMessage) :=
  (s.attempts.filter (·.aggregateId = b)).getLast?

/-- Where the payment service and Stripe stand about a booking. Either the last attempt has
committed and the books are in balance, or it has not, and Stripe is ahead by the calls `tr` of the
attempt that got furthest. -/
inductive Standing (s : ConsumerState) (b : Uuid) : Prop
  | settled (hlast : ∀ row, s.lastAttempt b = some row → row.id ∈ s.db.inbox)
      (hbalanced : Balanced b (s.db.view b) (s.callsFor b))
  | ahead (row : OutboxRow BookingMessage) (memory tr : List (StripeCall × StripeReply))
      (q : CallProgram StripeCall StripeReply Unit) (hlast : s.lastAttempt b = some row)
      (hu : row.id ∉ s.db.inbox) (hcalls : s.callsFor b = memory ++ tr)
      (hbalanced : Balanced b (s.db.view b) memory)
      (hupto : (row.payload.calls (s.db.view b).payment).Upto tr q)
      (hhand : ∀ row' p, s.inHand = some (row', .handling p) → row'.aggregateId = b →
        ∃ tr₁ tr₂, tr = tr₁ ++ tr₂ ∧ (processCommand row' s.db).Upto tr₁ p)

/-- The record can be fetched, as far as the records before it are concerned. -/
def Reached (s : ConsumerState) (row : OutboxRow BookingMessage) : Prop :=
  ∃ i, s.topic[i]? = some row ∧ EarlierClaimed s.topic s.offsets i row

end ConsumerState

/-- **The invariant of the consumer.** -/
structure ConsumerOk (s : ConsumerState) : Prop where
  topic : TopicOk s.topic s.db.inbox
  keys : ∀ row ∈ s.topic, row.payload.bookingId = row.aggregateId
  /-- An offset is committed after the transaction. -/
  offsets : ∀ eventId ∈ s.offsets, eventId ∈ s.db.inbox
  /-- Every record attempted could be fetched. -/
  reached : ∀ row ∈ s.attempts, s.Reached row
  /-- The record in hand was attempted last. -/
  inHand : ∀ row stage, s.inHand = some (row, stage) → s.attempts.getLast? = some row
  processed : ∀ row, s.inHand = some (row, .processed) → row.id ∈ s.db.inbox
  /-- The handler of a record that was claimed before has nothing left to do. -/
  claimed : ∀ row p, s.inHand = some (row, .handling p) → row.id ∈ s.db.inbox →
    p = .done (.ok s.db)
  /-- The handler in hand calls with the keys of its booking. -/
  calls : ∀ row p, s.inHand = some (row, .handling p) →
    p.Calls fun c => c.idempotencyKey.bookingId = row.aggregateId ∧ c.WellKeyed
  wellKeyed : ∀ e ∈ s.stripe, e.1.WellKeyed
  nodup : (s.stripe.map fun e => e.1.idempotencyKey).Nodup
  standing : ∀ b, s.Standing b

section Consumer

variable {s s' : ConsumerState} {b : Uuid} {row : OutboxRow BookingMessage}

theorem consumerOk_init : ConsumerOk {} where
  topic := topicOk_nil
  keys _ h := by cases h
  offsets _ h := by cases h
  reached _ h := by cases h
  inHand _ _ h := by cases h
  processed _ h := by cases h
  claimed _ _ h := by cases h
  calls _ _ h := by cases h
  wellKeyed _ h := by cases h
  nodup := List.nodup_nil
  standing _ := .settled (fun _ h => by cases h) .unopened

theorem lastAttempt_of_getLast (h : s.attempts.getLast? = some row) :
    s.lastAttempt row.aggregateId = some row := by
  obtain ⟨rows, hrows⟩ := List.getLast?_eq_some_iff.mp h
  rw [ConsumerState.lastAttempt, hrows, List.filter_append]
  simp

theorem mem_of_lastAttempt (h : s.lastAttempt b = some row) :
    row ∈ s.attempts ∧ row.aggregateId = b := by
  have hm := List.mem_of_getLast? h
  simpa using List.mem_filter.mp hm

/-- Two records of a booking that can both be fetched, neither offset committed, are one. -/
theorem ConsumerState.Reached.unique {row' : OutboxRow BookingMessage} (h : s.Reached row)
    (h' : s.Reached row')
    (hb : row.aggregateId = row'.aggregateId) (hu : row.id ∉ s.offsets)
    (hu' : row'.id ∉ s.offsets) : row = row' := by
  obtain ⟨i, hi, he⟩ := h
  obtain ⟨j, hj, he'⟩ := h'
  have hmem {i j : ℕ} {r : OutboxRow BookingMessage} (hr : s.topic[i]? = some r) (hij : i < j) :
      r ∈ s.topic.take j := by
    have ht : (s.topic.take j)[i]? = some r := (List.getElem?_take_of_lt hij).trans hr
    exact List.mem_of_getElem? ht
  rcases Nat.lt_trichotomy i j with hij | rfl | hij
  · exact absurd (he' row (hmem hi hij) hb) hu
  · exact Option.some.inj (hi.symm.trans hj)
  · exact absurd (he row' (hmem hj hij) hb.symm) hu'

theorem ConsumerState.Reached.publish (h : s.Reached row) (message : BookingMessage) :
    ConsumerState.Reached
      { s with topic := writeOutboxEvent s.topic message.bookingId message } row := by
  obtain ⟨i, hi, he⟩ := h
  have hlt : i < s.topic.length := (List.getElem?_eq_some_iff.mp hi).1
  exact ⟨i, (List.getElem?_append_left hlt).trans hi, he.write hi _ _⟩

theorem ConsumerState.Reached.commitOffset (h : s.Reached row) (eventId : EventId)
    (inHand : Option (OutboxRow BookingMessage × Stage)) :
    ConsumerState.Reached { s with offsets := eventId :: s.offsets, inHand } row := by
  obtain ⟨i, hi, he⟩ := h
  exact ⟨i, hi, he.cons eventId⟩

/-- A step that only concerns other bookings. -/
theorem ConsumerState.Standing.of_unchanged (h : s.Standing b)
    (hlast : s'.lastAttempt b = s.lastAttempt b)
    (hinbox : ∀ row, s.lastAttempt b = some row →
      (row.id ∈ s'.db.inbox ↔ row.id ∈ s.db.inbox))
    (hcalls : s'.callsFor b = s.callsFor b) (hview : s'.db.view b = s.db.view b)
    (hhand : ∀ row p, s'.inHand = some (row, .handling p) → row.aggregateId ≠ b) :
    s'.Standing b := by
  cases h with
  | settled hsettled hbalanced =>
    refine .settled (fun row hrow => ?_) (by rwa [hview, hcalls])
    rw [hlast] at hrow
    exact (hinbox row hrow).mpr (hsettled row hrow)
  | ahead row memory tr q hlast' hu hcalls' hbalanced hupto _ =>
    refine .ahead row memory tr q (hlast.trans hlast') (fun hin => hu ?_) (hcalls.trans hcalls')
      (by rwa [hview]) (by rwa [hview]) fun row' p hp hb => absurd hb (hhand row' p hp)
    exact (hinbox row hlast').mp hin

/-- While a first delivery of a booking is handled, Stripe is ahead of its books. -/
theorem ConsumerOk.ahead (h : ConsumerOk s) {p : PaymentProgram}
    (hhand : s.inHand = some (row, .handling p)) (hu : row.id ∉ s.db.inbox) :
    ∃ memory tr₁ tr₂ q, s.callsFor row.aggregateId = memory ++ (tr₁ ++ tr₂) ∧
      Balanced row.aggregateId (s.db.view row.aggregateId) memory ∧
      (processCommand row s.db).Upto tr₁ p ∧
      (row.payload.calls (s.db.view row.aggregateId).payment).Upto (tr₁ ++ tr₂) q := by
  have hlast := lastAttempt_of_getLast (h.inHand _ _ hhand)
  cases h.standing row.aggregateId with
  | settled hsettled _ => exact absurd (hsettled row hlast) hu
  | ahead row' memory tr q hlast' _ hcalls hbalanced hupto hp =>
    obtain rfl : row = row' := Option.some.inj (hlast.symm.trans hlast')
    obtain ⟨tr₁, tr₂, rfl, hupto₁⟩ := hp row p hhand rfl
    exact ⟨memory, tr₁, tr₂, q, hcalls, hbalanced, hupto₁, hupto⟩

/-- The calls of a first delivery, in the terms of its booking. -/
theorem ConsumerOk.calls_upto (h : ConsumerOk s) (hmem : row ∈ s.topic) (hu : row.id ∉ s.db.inbox)
    {tr : List (StripeCall × StripeReply)} {p : PaymentProgram}
    (hp : (processCommand row s.db).Upto tr p) :
    (row.payload.calls (s.db.view row.aggregateId).payment).Upto tr (p.map fun _ => ()) := by
  have hupto := hp.map fun _ => ()
  rwa [processCommand_calls hu, h.keys row hmem] at hupto

theorem ConsumerOk.mem_topic (h : ConsumerOk s) {stage : Stage}
    (hhand : s.inHand = some (row, stage)) : row ∈ s.topic := by
  obtain ⟨i, hi, -⟩ := h.reached row (List.mem_of_getLast? (h.inHand _ _ hhand))
  exact List.mem_of_getElem? hi

/-! ### Each step keeps the invariant

A step is about one booking: about the record that is in hand. For the others the invariant is what
it was, by the frame lemmas. -/

theorem ConsumerOk.publish (h : ConsumerOk s) (message : BookingMessage) :
    ConsumerOk { s with topic := writeOutboxEvent s.topic message.bookingId message } where
  topic := h.topic.write _ _
  keys row hrow := by
    rcases List.mem_append.mp hrow with hrow | hrow
    · exact h.keys row hrow
    · obtain rfl := List.mem_singleton.mp hrow
      rfl
  offsets := h.offsets
  reached row hrow := (h.reached row hrow).publish message
  inHand := h.inHand
  processed := h.processed
  claimed := h.claimed
  calls := h.calls
  wellKeyed := h.wellKeyed
  nodup := h.nodup
  standing b := by
    cases h.standing b with
    | settled hlast hbalanced => exact .settled hlast hbalanced
    | ahead row memory tr q hlast hu hcalls hbalanced hupto hhand =>
      exact .ahead row memory tr q hlast hu hcalls hbalanced hupto hhand

theorem ConsumerOk.crash (h : ConsumerOk s) : ConsumerOk { s with inHand := none } where
  topic := h.topic
  keys := h.keys
  offsets := h.offsets
  reached := h.reached
  inHand _ _ hhand := by cases hhand
  processed _ hhand := by cases hhand
  claimed _ _ hhand := by cases hhand
  calls _ _ hhand := by cases hhand
  wellKeyed := h.wellKeyed
  nodup := h.nodup
  standing b := (h.standing b).of_unchanged rfl (fun _ _ => .rfl) rfl rfl
    fun _ _ hhand => by cases hhand

theorem ConsumerOk.commitOffset (h : ConsumerOk s) (hhand : s.inHand = some (row, .processed)) :
    ConsumerOk { s with offsets := row.id :: s.offsets, inHand := none } where
  topic := h.topic
  keys := h.keys
  offsets eventId hin := by
    rcases List.mem_cons.mp hin with rfl | hin
    · exact h.processed row hhand
    · exact h.offsets eventId hin
  reached row' hrow := (h.reached row' hrow).commitOffset row.id none
  inHand _ _ hhand := by cases hhand
  processed _ hhand := by cases hhand
  claimed _ _ hhand := by cases hhand
  calls _ _ hhand := by cases hhand
  wellKeyed := h.wellKeyed
  nodup := h.nodup
  standing b := (h.standing b).of_unchanged rfl (fun _ _ => .rfl) rfl rfl
    fun _ _ hhand => by cases hhand

/-- A record is fetched: its handling begins, for the first time or again. -/
theorem ConsumerOk.fetch (h : ConsumerOk s) {i : ℕ} (hi : s.topic[i]? = some row)
    (he : EarlierClaimed s.topic s.offsets i row) (hu : row.id ∉ s.offsets) :
    ConsumerOk { s with
      inHand := some (row, .handling (processCommand row s.db))
      attempts := s.attempts ++ [row] } where
  topic := h.topic
  keys := h.keys
  offsets := h.offsets
  reached row' hrow := by
    rcases List.mem_append.mp hrow with hrow | hrow
    · exact h.reached row' hrow
    · obtain rfl := List.mem_singleton.mp hrow
      exact ⟨i, hi, he⟩
  inHand row' stage hhand := by
    cases hhand
    exact List.getLast?_concat
  processed _ hhand := by cases hhand
  claimed row' p hhand hin := by
    cases hhand
    exact processCommand_of_mem hin
  calls row' p hhand := by
    cases hhand
    by_cases hin : row.id ∈ s.db.inbox
    · rw [processCommand_of_mem hin]
      trivial
    · refine .of_map (fun _ => ()) ?_
      rw [processCommand_calls hin, ← h.keys row (List.mem_of_getElem? hi)]
      exact BookingMessage.calls_keys _ _
  wellKeyed := h.wellKeyed
  nodup := h.nodup
  standing b := by
    by_cases hb : row.aggregateId = b
    swap
    · refine (h.standing b).of_unchanged ?_ (fun _ _ => .rfl) rfl rfl fun row' p hhand => ?_
      · simp [ConsumerState.lastAttempt, hb]
      · cases hhand
        exact hb
    subst hb
    have hlast : ConsumerState.lastAttempt { s with
        inHand := some (row, .handling (processCommand row s.db))
        attempts := s.attempts ++ [row] } row.aggregateId = some row :=
      lastAttempt_of_getLast List.getLast?_concat
    cases h.standing row.aggregateId with
    | settled _ hbalanced =>
      by_cases hin : row.id ∈ s.db.inbox
      · refine .settled (fun row' hrow => ?_) hbalanced
        obtain rfl := Option.some.inj (hlast.symm.trans hrow)
        exact hin
      · refine .ahead row _ [] _ hlast hin (List.append_nil _).symm hbalanced (.refl _) ?_
        rintro row' p hhand -
        cases hhand
        exact ⟨[], [], rfl, .refl _⟩
    | ahead row' memory tr q hlast' hu' hcalls hbalanced hupto _ =>
      -- the record whose handling was not finished is the only one that can be fetched
      obtain ⟨hmem, hb⟩ := mem_of_lastAttempt hlast'
      obtain rfl : row' = row := (h.reached row' hmem).unique ⟨i, hi, he⟩ hb
        (fun hin => hu' (h.offsets _ hin)) hu
      refine .ahead row' memory tr q hlast hu' hcalls hbalanced hupto ?_
      rintro row p hhand -
      cases hhand
      exact ⟨[], tr, rfl, .refl _⟩

/-- Stripe answers a call: carries it out, or remembers it. -/
theorem ConsumerOk.answer (h : ConsumerOk s) {c : StripeCall} {next : StripeReply → PaymentProgram}
    (hhand : s.inHand = some (row, .handling (.call c next))) (outcome : StripeReply) :
    ConsumerOk { s with
      stripe := (CallProgram.respond StripeCall.idempotencyKey s.stripe c outcome).2
      inHand := some (row, .handling
        (next (CallProgram.respond StripeCall.idempotencyKey s.stripe c outcome).1)) } := by
  have hu : row.id ∉ s.db.inbox := fun hin => by cases h.claimed row _ hhand hin
  obtain ⟨⟨hb, hkeyed⟩, hnext⟩ := h.calls row _ hhand
  refine { h with inHand := ?_, processed := ?_, claimed := ?_, calls := ?_, wellKeyed := ?_,
                  nodup := CallProgram.nodup_respond h.nodup c outcome, standing := fun b => ?_ }
  · intro row' stage hhand'
    cases hhand'
    exact h.inHand row _ hhand
  · intro row' hhand'
    cases hhand'
  · intro row' p hhand' hin
    cases hhand'
    exact absurd hin hu
  · intro row' p hhand'
    cases hhand'
    exact hnext _
  · intro e he
    rcases CallProgram.mem_respond he with he | he
    · exact h.wellKeyed e he
    · rwa [he]
  by_cases hrow : row.aggregateId = b
  swap
  · -- the keys of another booking are not touched
    refine (h.standing b).of_unchanged rfl (fun _ _ => .rfl) ?_ rfl fun row' p hhand' => ?_
    · have hne : ¬ decide (c.idempotencyKey.bookingId = b) := by simpa [hb] using hrow
      exact @CallProgram.respond_filter_of_not _ _ _ _ _ _
        (fun k : IdempotencyKey => k.bookingId = b) _ hne _
    · cases hhand'
      exact hrow
  subst hrow
  obtain ⟨memory, tr₁, tr₂, q, hcalls, hbalanced, hp, hupto⟩ := h.ahead hhand hu
  have hmem := h.mem_topic hhand
  obtain ⟨r, tr', q', hrespond, hupto'⟩ := CallProgram.respond_of_upto
    (hbalanced.distinct (h.keys row hmem)) (h.calls_upto hmem hu hp) hupto outcome
  have hself : decide (c.idempotencyKey.bookingId = row.aggregateId) := by simpa using hb
  have hfilter := @CallProgram.respond_filter _ _ _ _ _ s.stripe
    (fun k : IdempotencyKey => k.bookingId = row.aggregateId) _ hself outcome
  rw [← hcalls] at hrespond
  obtain ⟨hreply, hcalls'⟩ := Prod.mk.inj (hfilter.symm.trans hrespond)
  refine .ahead row memory _ q' (lastAttempt_of_getLast (h.inHand row _ hhand)) hu hcalls'
    hbalanced hupto' ?_
  rintro row' p hhand' -
  cases hhand'
  exact ⟨_, tr', rfl, hreply ▸ hp.snoc _⟩

/-- The transaction of a handler commits. -/
theorem ConsumerOk.commit (h : ConsumerOk s) {db : PaymentDb}
    (hhand : s.inHand = some (row, .handling (.done (.ok db)))) :
    ConsumerOk { s with db, inHand := some (row, .processed) } := by
  have hlast := lastAttempt_of_getLast (h.inHand row _ hhand)
  by_cases hin : row.id ∈ s.db.inbox
  · -- a record that was claimed before: nothing is written
    have hdb : db = s.db := by simpa using h.claimed row _ hhand hin
    subst hdb
    refine { h with inHand := ?_, processed := ?_, claimed := ?_, calls := ?_,
                    standing := fun b => ?_ }
    · intro row' stage hhand'
      cases hhand'
      exact h.inHand row _ hhand
    · intro row' hhand'
      cases hhand'
      exact hin
    · intro _ _ hhand'
      cases hhand'
    · intro _ _ hhand'
      cases hhand'
    · exact (h.standing b).of_unchanged rfl (fun _ _ => .rfl) rfl rfl
        fun _ _ hhand' => by cases hhand'
  obtain ⟨memory, tr₁, tr₂, q, hcalls, hbalanced, hp, hupto⟩ := h.ahead hhand hin
  have hmem := h.mem_topic hhand
  -- the attempt has made all calls there are to make
  obtain rfl : tr₂ = [] := ((h.calls_upto hmem hin hp).split hupto).nil_of_done
  rw [List.append_nil] at hcalls
  obtain ⟨⟨events, heffect, -⟩, hothers, hinbox⟩ := processCommand_path hin hp.path
  obtain ⟨i, hi, he⟩ := h.reached row (List.mem_of_getLast? (h.inHand row _ hhand))
  rw [h.keys row hmem] at heffect hothers
  have hclaim : TopicOk s.topic db.inbox := by
    rw [hinbox]
    exact h.topic.claim hi (fun r hr hb => h.offsets _ (he r hr hb)) hin
  have hids : ∀ r ∈ s.topic, r.id = row.id → r = row := fun r hr =>
    List.inj_on_of_nodup_map h.topic.ordered.nodup hr hmem
  refine { h with topic := hclaim, offsets := ?_, inHand := ?_, processed := ?_, claimed := ?_,
                  calls := ?_, standing := fun b => ?_ }
  · intro eventId ho
    rw [hinbox]
    exact List.mem_cons_of_mem _ (h.offsets eventId ho)
  · intro row' stage hhand'
    cases hhand'
    exact h.inHand row _ hhand
  · intro row' hhand'
    cases hhand'
    rw [hinbox]
    exact List.mem_cons_self
  · intro _ _ hhand'
    cases hhand'
  · intro _ _ hhand'
    cases hhand'
  by_cases hrow : row.aggregateId = b
  · subst hrow
    refine .settled (fun row' hlast' => ?_) (hcalls ▸ hbalanced.step heffect)
    obtain rfl : row = row' := Option.some.inj (hlast.symm.trans hlast')
    rw [hinbox]
    exact List.mem_cons_self
  · refine (h.standing b).of_unchanged rfl (fun r hr => ?_) rfl (hothers b hrow)
      fun _ _ hhand' => by cases hhand'
    obtain ⟨hr, hb⟩ := mem_of_lastAttempt hr
    obtain ⟨j, hj, -⟩ := h.reached r hr
    have hne : r.id ≠ row.id := fun hid =>
      hrow ((congrArg OutboxRow.aggregateId (hids r (List.mem_of_getElem? hj) hid)).symm.trans hb)
    rw [hinbox]
    simp [hne]

/-- **Every step keeps the invariant.** -/
theorem ConsumerOk.step (h : ConsumerOk s) {a : ConsumerAction}
    (hstep : consumerStep s a = some s') :
    ConsumerOk s' := by
  cases a with
  | publish message =>
    cases hstep
    exact h.publish message
  | fetch i =>
    simp only [consumerStep, Option.bind_eq_bind, Option.bind_eq_some_iff] at hstep
    obtain ⟨row, hi, hstep⟩ := hstep
    split at hstep
    · rename_i hguard
      cases hstep
      exact h.fetch hi hguard.2.1 hguard.2.2
    · cases hstep
  | answer outcome =>
    simp only [consumerStep] at hstep
    split at hstep
    · rename_i row c next hhand
      cases hstep
      exact h.answer hhand outcome
    · cases hstep
  | commit =>
    simp only [consumerStep] at hstep
    split at hstep
    · rename_i row db hhand
      cases hstep
      exact h.commit hhand
    · cases hstep
  | commitOffset =>
    simp only [consumerStep] at hstep
    split at hstep
    · rename_i row hhand
      cases hstep
      exact h.commitOffset hhand
    · cases hstep
  | crash =>
    cases hstep
    exact h.crash

theorem consumerOk_of_reachable (h : consumerSystem.Reachable s) : ConsumerOk s :=
  h.invariant ConsumerOk consumerOk_init fun _ _ _ _ hok hstep => hok.step hstep

end Consumer

/-! ### Money moves exactly once -/

/-- The kinds of calls that move money. -/
inductive ChargeKind
  | hold
  | capture
  | overage
  deriving DecidableEq

/-- The kind of a call. -/
def StripeCall.kind : StripeCall → ChargeKind
  | .authorize .. => .hold
  | .capture .. => .capture
  | .authorizeAndCapture .. => .overage

/-- The key of a kind of call for a booking. -/
def ChargeKind.key (bookingId : Uuid) : ChargeKind → IdempotencyKey
  | .hold => .authorize bookingId
  | .capture => .capture bookingId
  | .overage => .overage bookingId

theorem StripeCall.WellKeyed.idempotencyKey_eq {c : StripeCall} (h : c.WellKeyed) :
    c.idempotencyKey = c.kind.key c.idempotencyKey.bookingId := by
  cases c <;> (obtain ⟨b, rfl⟩ := h; rfl)

/-- The last attempted command of a booking. Other records of the topic are skipped. -/
def ConsumerState.lastCommand (s : ConsumerState) (b : Uuid) : Option (OutboxRow BookingMessage) :=
  (s.attempts.filter fun row =>
    row.aggregateId = b ∧ (bookingCommandHandlers row.payload).isSome).getLast?

section Consumer

variable {s : ConsumerState} {b : Uuid} {row : OutboxRow BookingMessage}

theorem lastCommand_of_lastAttempt (h : s.lastAttempt b = some row)
    (hcommand : (bookingCommandHandlers row.payload).isSome) : s.lastCommand b = some row := by
  obtain ⟨rows, hrows⟩ := List.getLast?_eq_some_iff.mp h
  have hfilter : (s.attempts.filter fun row =>
      row.aggregateId = b ∧ (bookingCommandHandlers row.payload).isSome) =
        (s.attempts.filter (·.aggregateId = b)).filter
          fun row => (bookingCommandHandlers row.payload).isSome := by
    rw [List.filter_filter]
    refine List.filter_congr fun row _ => ?_
    simp [Bool.and_comm]
  rw [ConsumerState.lastCommand, hfilter, hrows, List.filter_append, List.filter_singleton,
    hcommand]
  simp

/-- Records that are skipped make no calls. -/
theorem BookingMessage.calls_of_skipped {message : BookingMessage} (payment : Option Payment)
    (h : ¬ (bookingCommandHandlers message).isSome) : message.calls payment = .done () := by
  cases message with
  | lifecycle => rfl
  | authorizePaymentRequested => exact absurd rfl h
  | capturePaymentRequested => exact absurd rfl h

/-- When the last attempted command has committed, the books are in balance. -/
theorem ConsumerOk.balanced (h : ConsumerOk s)
    (hcommitted : ∀ row, s.lastCommand b = some row → row.id ∈ s.db.inbox) :
    Balanced b (s.db.view b) (s.callsFor b) := by
  cases h.standing b with
  | settled _ hbalanced => exact hbalanced
  | ahead row memory tr q hlast hu hcalls hbalanced hupto _ =>
    by_cases hcommand : (bookingCommandHandlers row.payload).isSome
    · exact absurd (hcommitted row (lastCommand_of_lastAttempt hlast hcommand)) hu
    · rw [BookingMessage.calls_of_skipped _ hcommand] at hupto
      rwa [hcalls, hupto.nil_of_done, List.append_nil]

/-- **Money moves exactly once.** However often handlers crash and records are handed over again,
Stripe holds, captures and charges the overage of a booking at most once each. And when the last
attempted command of the booking has committed, the ledger credits the money Stripe captured, and
the payment has the intent ids Stripe returned. -/
theorem money_moves_exactly_once (h : consumerSystem.Reachable s) (b : Uuid) :
    (∀ kind, ((s.callsFor b).filter (·.1.kind = kind)).length ≤ 1) ∧
      ((∀ row, s.lastCommand b = some row → row.id ∈ s.db.inbox) →
        credits (s.db.ledgerEntries.filter (·.bookingId = b)) =
            ((s.callsFor b).map capturedCents).sum ∧
          (s.db.getByBookingId b).bind (·.stripePaymentIntentId) = holdIntentId (s.callsFor b) ∧
          (s.db.getByBookingId b).bind (·.stripeOverageIntentId) =
            overageIntentId (s.callsFor b)) := by
  have hok := consumerOk_of_reachable h
  refine ⟨fun kind => ?_, fun hcommitted => ?_⟩
  · refine CallProgram.length_filter_le_one (kind.key b)
      (hok.nodup.sublist (List.filter_sublist.map _)) fun e he hkind => ?_
    obtain ⟨he, hb⟩ := List.mem_filter.mp he
    rw [(hok.wellKeyed e he).idempotencyKey_eq, of_decide_eq_true hb, of_decide_eq_true hkind]
  · have hbalanced := hok.balanced hcommitted
    exact ⟨hbalanced.credits_eq, hbalanced.intentIds⟩

end Consumer

/-- A hold of 150.00 and then a capture with 50.00 of overage. Both handlers crash once: after
their last call to Stripe, and after the first of two. -/
def sampleCrashes : List ConsumerAction :=
  [.publish (.authorizePaymentRequested 0 2 15000), .fetch 0, .answer (.returned "pi_hold"), .crash,
    .fetch 0, .answer .stripeError, .commit, .commitOffset,
    .publish (.capturePaymentRequested 0 1 15000 5000), .fetch 1, .answer (.returned "pi_hold"),
    .crash, .fetch 1, .answer .stripeError, .answer (.returned "pi_overage"), .commit]

theorem money_moves_exactly_once_sampleCrashes :
    ∃ s, consumerSystem.run {} sampleCrashes = some s ∧
      (s.callsFor 0).map capturedCents = [0, 15000, 5000] ∧
      credits (s.db.ledgerEntries.filter (·.bookingId = 0)) =
        ((s.callsFor 0).map capturedCents).sum ∧
      (s.db.getByBookingId 0).bind (·.stripePaymentIntentId) = holdIntentId (s.callsFor 0) := by
  have hend : (consumerSystem.run {} sampleCrashes).map (fun s =>
      ((s.callsFor 0).map capturedCents, (s.lastCommand 0).map (·.id), s.db.inbox)) =
        some ([0, 15000, 5000], some 1, [1, 0]) := by decide
  obtain ⟨s, hrun, hs⟩ := Option.map_eq_some_iff.mp hend
  obtain ⟨hcalls, hs⟩ := Prod.mk.inj hs
  obtain ⟨hlast, hinbox⟩ := Prod.mk.inj hs
  have hcommitted : ∀ row, s.lastCommand 0 = some row → row.id ∈ s.db.inbox := by
    intro row hrow
    rw [hrow, Option.map_some, Option.some_inj] at hlast
    simp [hlast, hinbox]
  have hmoney := (money_moves_exactly_once (TransitionSystem.reachable_of_run .init hrun) 0).2
    hcommitted
  exact ⟨s, hrun, hcalls, hmoney.1, hmoney.2.1⟩

end CarFlow
