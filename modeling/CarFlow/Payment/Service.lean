import CarFlow.Lib.CallProgram
import CarFlow.Lib.ExceptLemmas
import CarFlow.Lib.RowTable
import CarFlow.Shared.Outbox

/-!
# The payment service

`services/payment/service.py` with the models and repository under it: the two handlers of the
booking's commands. Each is one transaction on the payment database with up to two calls to Stripe
in the middle, so a handler is a `CallProgram` over Stripe's interface whose result is the database
to commit, or the exception that rolls the transaction back. Database writes of an unfinished
handler are only in the continuation, which is how uncommitted writes are invisible.

## Checks of the database

* a value outside its `Integer` column is refused by the driver (`dataError`);
* `payments.booking_id` is unique, and ledger amounts are positive (`integrityError`).

## Implementation notes

A handler is written as the source is, in the order of its statements, with `raise` as the end of
the program. The calls are the nodes of the program, so what is above a call has happened before it
and what is in the continuation after. `handle…_path` turn this into one statement for each handler:
which calls were made, what was answered, and which database is committed.

## Main results

* `handleAuthorizePaymentRequested_path`, `handleCapturePaymentRequested_path` — what each handler
  commits, with the calls it made and the replies it got
* `handleCapturePaymentRequested_commits` — when a capture is certain to commit
-/

namespace CarFlow

/-! ### Models -/

/-- The `status` of a payment. -/
inductive PaymentStatus
  | authorized
  | authorizationFailed
  | captured
  | captureFailed
  deriving DecidableEq

/-- A row of `payments`. -/
structure Payment where
  id : Uuid
  bookingId : Uuid
  renterId : Uuid
  holdAmountCents : ℤ
  overageCents : ℤ := 0
  status : PaymentStatus
  stripePaymentIntentId : Option String := none
  stripeOverageIntentId : Option String := none
  deriving DecidableEq

/-- A ledger account, `renter:<id>` or `host:<id>`. -/
inductive Account
  | renter (id : Uuid)
  | host (id : Uuid)
  deriving DecidableEq

/-- The `direction` of a ledger entry. -/
inductive Direction
  | debit
  | credit
  deriving DecidableEq

/-- The `reason` of a ledger entry. -/
inductive LedgerReason
  | rental
  | mileageOverage
  deriving DecidableEq

/-- A row of `ledger_entries`. -/
structure LedgerEntry where
  paymentId : Uuid
  bookingId : Uuid
  account : Account
  direction : Direction
  amountCents : ℤ
  reason : LedgerReason
  deriving DecidableEq

/-- The event types of the payment service. -/
inductive PaymentEventType
  | paymentAuthorized
  | paymentAuthorizationFailed
  | paymentCaptured
  | paymentCaptureFailed
  deriving DecidableEq

/-- An outbox message of the payment service. -/
structure PaymentMessage where
  eventType : PaymentEventType
  bookingId : Uuid
  deriving DecidableEq

/-- What the payment database raises. -/
inductive PaymentError
  | integrityError
  | dataError
  deriving DecidableEq

/-- The tables of the payment service. -/
structure PaymentDb where
  payments : List Payment := []
  ledgerEntries : List LedgerEntry := []
  outbox : List (OutboxRow PaymentMessage) := []
  inbox : List EventId := []
  deriving DecidableEq

instance : HasInbox PaymentDb where
  inbox db := db.inbox
  withInbox db inbox := { db with inbox }

/-! ### Stripe's interface -/

/-- The idempotency keys of the handlers: `authorize:<id>`, `capture:<id>` and `overage:<id>`. -/
inductive IdempotencyKey
  | authorize (bookingId : Uuid)
  | capture (bookingId : Uuid)
  | overage (bookingId : Uuid)
  deriving DecidableEq

/-- The calls of `StripeClient`. -/
inductive StripeCall
  | authorize (amountCents : ℤ) (idempotencyKey : IdempotencyKey)
  | capture (paymentIntentId : Option String) (amountCents : ℤ) (idempotencyKey : IdempotencyKey)
  | authorizeAndCapture (amountCents : ℤ) (idempotencyKey : IdempotencyKey)
  deriving DecidableEq

/-- The idempotency key a call is made with. -/
def StripeCall.idempotencyKey : StripeCall → IdempotencyKey
  | .authorize _ idempotencyKey | .capture _ _ idempotencyKey
  | .authorizeAndCapture _ idempotencyKey => idempotencyKey

/-- The outcome of a call: it returns a payment intent id, or it raises `StripeError`. `capture`
returns nothing, so its caller ignores the id. -/
inductive StripeReply
  | returned (intentId : String)
  | stripeError
  deriving DecidableEq

/-- A handler: calls to Stripe, then the database to commit or an exception. -/
abbrev PaymentProgram := CallProgram StripeCall StripeReply (Except PaymentError PaymentDb)

/-! ### Repository -/

namespace PaymentDb

/-- `get_by_booking_id`. -/
def getByBookingId (db : PaymentDb) (bookingId : Uuid) : Option Payment :=
  RowTable.lookup Payment.bookingId db.payments bookingId

/-- The row `create` adds. A fresh UUID is the number of rows written before. -/
def newPayment (db : PaymentDb) (bookingId renterId : Uuid) (holdAmountCents : ℤ)
    (status : PaymentStatus) (stripePaymentIntentId : Option String) : Payment :=
  { id := db.payments.length, bookingId, renterId, holdAmountCents, status, stripePaymentIntentId }

/-- Add a row to `payments`. -/
def addPayment (db : PaymentDb) (payment : Payment) : PaymentDb :=
  { db with payments := db.payments ++ [payment] }

/-- Rewrite a row of `payments`. -/
def setPayment (db : PaymentDb) (payment : Payment) : PaymentDb :=
  { db with payments := RowTable.update Payment.bookingId db.payments payment }

/-- Add rows to `ledger_entries`. -/
def addEntries (db : PaymentDb) (entries : List LedgerEntry) : PaymentDb :=
  { db with ledgerEntries := db.ledgerEntries ++ entries }

/-- `create`, with the unique `booking_id`. -/
def create (db : PaymentDb) (bookingId renterId : Uuid) (holdAmountCents : ℤ)
    (status : PaymentStatus) (stripePaymentIntentId : Option String) :
    Except PaymentError PaymentDb :=
  if ¬ FitsInteger holdAmountCents then .error .dataError
  else if (db.getByBookingId bookingId).isSome then .error .integrityError
  else .ok (db.addPayment
    (db.newPayment bookingId renterId holdAmountCents status stripePaymentIntentId))

/-- `save`: flush the changed columns of a payment. -/
def save (db : PaymentDb) (payment : Payment) : Except PaymentError PaymentDb :=
  if ¬ FitsInteger payment.overageCents then .error .dataError else .ok (db.setPayment payment)

/-- The two entries of `write_ledger_pair`. -/
def ledgerPair (paymentId bookingId : Uuid) (debitAccount creditAccount : Account)
    (amountCents : ℤ) (reason : LedgerReason) : List LedgerEntry :=
  [{ paymentId, bookingId, account := debitAccount, direction := .debit, amountCents, reason },
   { paymentId, bookingId, account := creditAccount, direction := .credit, amountCents, reason }]

/-- `write_ledger_pair`, with `ck_ledger_entries_amount_positive`. -/
def writeLedgerPair (db : PaymentDb) (paymentId bookingId : Uuid)
    (debitAccount creditAccount : Account) (amountCents : ℤ) (reason : LedgerReason) :
    Except PaymentError PaymentDb :=
  if ¬ FitsInteger amountCents then .error .dataError
  else if ¬ 0 < amountCents then .error .integrityError
  else .ok (db.addEntries
    (ledgerPair paymentId bookingId debitAccount creditAccount amountCents reason))

/-- `write_outbox_event` of an event about a booking. -/
def writeEvent (db : PaymentDb) (eventType : PaymentEventType) (bookingId : Uuid) : PaymentDb :=
  { db with outbox := writeOutboxEvent db.outbox bookingId { eventType, bookingId } }

end PaymentDb

/-! ### The handlers -/

def handleAuthorizePaymentRequested (db : PaymentDb) (bookingId renterId : Uuid)
    (amountCents : ℤ) : PaymentProgram :=
  match db.getByBookingId bookingId with
  | some _ => .done (.ok db)
  | none =>
    .call (.authorize amountCents (.authorize bookingId)) fun
      | .stripeError => .done do
        let db ← db.create bookingId renterId amountCents .authorizationFailed none
        return db.writeEvent .paymentAuthorizationFailed bookingId
      | .returned intentId => .done do
        let db ← db.create bookingId renterId amountCents .authorized (some intentId)
        return db.writeEvent .paymentAuthorized bookingId

/-- The end of `handle_capture_payment_requested`: the payment is captured. -/
def settleCaptured (db : PaymentDb) (payment : Payment) (bookingId : Uuid) :
    Except PaymentError PaymentDb := do
  let db ← db.save { payment with status := .captured }
  return db.writeEvent .paymentCaptured bookingId

/-- The second half of `handle_capture_payment_requested`, once the hold is captured: charge the
overage, if there is any, and settle the payment. The overage is a second, separate charge, since
a hold can be captured up to its own amount only. -/
def chargeOverage (db : PaymentDb) (payment : Payment) (bookingId hostId : Uuid)
    (overageCents : ℤ) : PaymentProgram :=
  if overageCents > 0 then
    .call (.authorizeAndCapture overageCents (.overage bookingId)) fun
      | .stripeError => .done (settleCaptured db payment bookingId)
      | .returned overageIntentId => .done do
        let payment :=
          { payment with stripeOverageIntentId := some overageIntentId, overageCents }
        let db ← db.save payment
        let db ← db.writeLedgerPair payment.id bookingId (.renter payment.renterId)
          (.host hostId) overageCents .mileageOverage
        settleCaptured db payment bookingId
  else .done (settleCaptured db payment bookingId)

def handleCapturePaymentRequested (db : PaymentDb) (bookingId hostId : Uuid)
    (holdAmountCents overageCents : ℤ) : PaymentProgram :=
  match db.getByBookingId bookingId with
  | none => .done (.ok db)
  | some payment =>
    if payment.status ≠ .authorized then .done (.ok db)
    else
      .call (.capture payment.stripePaymentIntentId holdAmountCents (.capture bookingId)) fun
        | .stripeError => .done do
          let db ← db.save { payment with status := .captureFailed }
          return db.writeEvent .paymentCaptureFailed bookingId
        | .returned _ =>
          match db.writeLedgerPair payment.id bookingId (.renter payment.renterId) (.host hostId)
              holdAmountCents .rental with
          | .error e => .done (.error e)
          | .ok db => chargeOverage db payment bookingId hostId overageCents

/-! ### What a committing handler does

Each `Effect` lists the ways through a handler that commit: the database it read, the calls it
made with their replies, and the database it leaves. -/

/-- The ways through `handleAuthorizePaymentRequested`. -/
inductive AuthorizeEffect (db : PaymentDb) (bookingId renterId : Uuid) (amountCents : ℤ) :
    List (StripeCall × StripeReply) → PaymentDb → Prop
  | existing (payment : Payment) (hfound : db.getByBookingId bookingId = some payment) :
      AuthorizeEffect db bookingId renterId amountCents [] db
  | refused (hnone : db.getByBookingId bookingId = none) (hfits : FitsInteger amountCents) :
      AuthorizeEffect db bookingId renterId amountCents
        [(.authorize amountCents (.authorize bookingId), .stripeError)]
        ((db.addPayment (db.newPayment bookingId renterId amountCents .authorizationFailed
          none)).writeEvent .paymentAuthorizationFailed bookingId)
  | held (intentId : String) (hnone : db.getByBookingId bookingId = none)
      (hfits : FitsInteger amountCents) :
      AuthorizeEffect db bookingId renterId amountCents
        [(.authorize amountCents (.authorize bookingId), .returned intentId)]
        ((db.addPayment (db.newPayment bookingId renterId amountCents .authorized
          (some intentId))).writeEvent .paymentAuthorized bookingId)

/-- The ledger pair of a charge between the renter of a payment and a host. -/
def chargePair (payment : Payment) (bookingId hostId : Uuid) (amountCents : ℤ)
    (reason : LedgerReason) : List LedgerEntry :=
  PaymentDb.ledgerPair payment.id bookingId (.renter payment.renterId) (.host hostId) amountCents
    reason

/-- What a charge must leave in the ledger on the renter's side: `amountCents` off the account. -/
def renterDebit (paymentId bookingId renterId : Uuid) (amountCents : ℤ) (reason : LedgerReason) :
    LedgerEntry where
  paymentId
  bookingId
  account := .renter renterId
  direction := .debit
  amountCents
  reason

/-- And on the host's side: the same amount to the account. -/
def hostCredit (paymentId bookingId hostId : Uuid) (amountCents : ℤ) (reason : LedgerReason) :
    LedgerEntry where
  paymentId
  bookingId
  account := .host hostId
  direction := .credit
  amountCents
  reason

/-- What `write_ledger_pair` writes for a charge is what the charge must leave. -/
theorem chargePair_eq (payment : Payment) (bookingId hostId : Uuid) (amountCents : ℤ)
    (reason : LedgerReason) :
    chargePair payment bookingId hostId amountCents reason =
      [renterDebit payment.id bookingId payment.renterId amountCents reason,
        hostCredit payment.id bookingId hostId amountCents reason] := rfl

/-- The payment once its overage is charged. -/
def Payment.withOverage (payment : Payment) (overageIntentId : String) (overageCents : ℤ) :
    Payment :=
  { payment with stripeOverageIntentId := some overageIntentId, overageCents }

/-- The payment with another status. -/
def Payment.withStatus (payment : Payment) (status : PaymentStatus) : Payment :=
  { payment with status }

/-- The ways through `handleCapturePaymentRequested`. -/
inductive CaptureEffect (db : PaymentDb) (bookingId hostId : Uuid)
    (holdAmountCents overageCents : ℤ) : List (StripeCall × StripeReply) → PaymentDb → Prop
  | absent (hnone : db.getByBookingId bookingId = none) :
      CaptureEffect db bookingId hostId holdAmountCents overageCents [] db
  | settled (payment : Payment) (hfound : db.getByBookingId bookingId = some payment)
      (hstatus : payment.status ≠ .authorized) :
      CaptureEffect db bookingId hostId holdAmountCents overageCents [] db
  | refused (payment : Payment) (hfound : db.getByBookingId bookingId = some payment)
      (hstatus : payment.status = .authorized) :
      CaptureEffect db bookingId hostId holdAmountCents overageCents
        [(.capture payment.stripePaymentIntentId holdAmountCents (.capture bookingId),
          .stripeError)]
        ((db.setPayment (payment.withStatus .captureFailed)).writeEvent .paymentCaptureFailed
          bookingId)
  | captured (payment : Payment) (captureId : String) (overage : List (StripeCall × StripeReply))
      (hfound : db.getByBookingId bookingId = some payment)
      (hstatus : payment.status = .authorized) (hhold : 0 < holdAmountCents)
      (hoverage : overageCents ≤ 0 ∧ overage = [] ∨ 0 < overageCents ∧ overage =
        [(.authorizeAndCapture overageCents (.overage bookingId), .stripeError)]) :
      CaptureEffect db bookingId hostId holdAmountCents overageCents
        ((.capture payment.stripePaymentIntentId holdAmountCents (.capture bookingId),
          .returned captureId) :: overage)
        (((db.addEntries (chargePair payment bookingId hostId holdAmountCents
          .rental)).setPayment (payment.withStatus .captured)).writeEvent .paymentCaptured
          bookingId)
  | charged (payment : Payment) (captureId overageIntentId : String)
      (hfound : db.getByBookingId bookingId = some payment)
      (hstatus : payment.status = .authorized) (hhold : 0 < holdAmountCents)
      (hoverage : 0 < overageCents) :
      CaptureEffect db bookingId hostId holdAmountCents overageCents
        [(.capture payment.stripePaymentIntentId holdAmountCents (.capture bookingId),
            .returned captureId),
          (.authorizeAndCapture overageCents (.overage bookingId), .returned overageIntentId)]
        (((((db.addEntries (chargePair payment bookingId hostId holdAmountCents
          .rental)).setPayment (payment.withOverage overageIntentId overageCents)).addEntries
          (chargePair payment bookingId hostId overageCents .mileageOverage)).setPayment
          ((payment.withOverage overageIntentId overageCents).withStatus .captured)).writeEvent
          .paymentCaptured bookingId)

section Effects

variable {db db' : PaymentDb} {bookingId renterId hostId : Uuid}
  {amountCents holdAmountCents overageCents : ℤ} {tr : List (StripeCall × StripeReply)}

namespace PaymentDb

theorem create_ok_iff {status : PaymentStatus} {intentId : Option String} :
    db.create bookingId renterId amountCents status intentId = .ok db' ↔
      FitsInteger amountCents ∧ db.getByBookingId bookingId = none ∧
        db' = db.addPayment (db.newPayment bookingId renterId amountCents status intentId) := by
  by_cases hf : FitsInteger amountCents
  · cases hg : db.getByBookingId bookingId <;> simp [create, hf, hg, @eq_comm _ db']
  · simp [create, hf]

theorem save_ok_iff {payment : Payment} :
    db.save payment = .ok db' ↔
      FitsInteger payment.overageCents ∧ db' = db.setPayment payment := by
  by_cases hf : FitsInteger payment.overageCents <;> simp [save, hf, @eq_comm _ db']

theorem writeLedgerPair_ok_iff {paymentId : Uuid} {debitAccount creditAccount : Account}
    {reason : LedgerReason} :
    db.writeLedgerPair paymentId bookingId debitAccount creditAccount amountCents reason
        = .ok db' ↔ FitsInteger amountCents ∧ 0 < amountCents ∧ db' = db.addEntries
          (ledgerPair paymentId bookingId debitAccount creditAccount amountCents reason) := by
  by_cases hf : FitsInteger amountCents
  · by_cases hp : 0 < amountCents <;> simp [writeLedgerPair, hf, hp, @eq_comm _ db']
  · simp [writeLedgerPair, hf]

end PaymentDb

theorem handleAuthorizePaymentRequested_path
    (h : (handleAuthorizePaymentRequested db bookingId renterId amountCents).Path tr (.ok db')) :
    AuthorizeEffect db bookingId renterId amountCents tr db' := by
  unfold handleAuthorizePaymentRequested at h
  cases hg : db.getByBookingId bookingId with
  | some payment =>
    rw [hg] at h
    obtain ⟨rfl, hdb⟩ := CallProgram.path_done_iff.mp h
    obtain rfl := Except.ok.inj hdb
    exact .existing payment hg
  | none =>
    rw [hg] at h
    obtain ⟨r, tr', rfl, h'⟩ := CallProgram.path_call_iff.mp h
    cases r with
    | stripeError =>
      obtain ⟨rfl, hdb⟩ := CallProgram.path_done_iff.mp h'
      obtain ⟨d, hd, hdb⟩ := Except.bind_eq_ok_iff.mp hdb.symm
      obtain ⟨hf, -, rfl⟩ := PaymentDb.create_ok_iff.mp hd
      obtain rfl := Except.pure_eq_ok_iff.mp hdb
      exact .refused hg hf
    | returned intentId =>
      obtain ⟨rfl, hdb⟩ := CallProgram.path_done_iff.mp h'
      obtain ⟨d, hd, hdb⟩ := Except.bind_eq_ok_iff.mp hdb.symm
      obtain ⟨hf, -, rfl⟩ := PaymentDb.create_ok_iff.mp hd
      obtain rfl := Except.pure_eq_ok_iff.mp hdb
      exact .held intentId hg hf

variable (db bookingId renterId amountCents) in
/-- What the first authorize command of a booking leaves, by Stripe's reply. -/
def PaymentDb.afterAuthorize : StripeReply → PaymentDb
  | .stripeError =>
    (db.addPayment (db.newPayment bookingId renterId amountCents .authorizationFailed
      none)).writeEvent .paymentAuthorizationFailed bookingId
  | .returned intentId =>
    (db.addPayment (db.newPayment bookingId renterId amountCents .authorized
      (some intentId))).writeEvent .paymentAuthorized bookingId

/-- The first authorize command of a booking: on both branches everything depends on whether the
amount fits. -/
theorem run_handleAuthorizePaymentRequested (hnone : db.getByBookingId bookingId = none)
    (stripe : StripeCall → StripeReply) :
    (handleAuthorizePaymentRequested db bookingId renterId amountCents).run stripe =
      if FitsInteger amountCents then
        .ok (db.afterAuthorize bookingId renterId amountCents
          (stripe (.authorize amountCents (.authorize bookingId))))
      else .error .dataError := by
  simp only [handleAuthorizePaymentRequested, hnone, CallProgram.run_call]
  by_cases hf : FitsInteger amountCents <;>
    cases stripe (.authorize amountCents (.authorize bookingId)) <;>
      simp [PaymentDb.create, hf, hnone, PaymentDb.afterAuthorize, bind, Except.bind, pure,
        Except.pure]

theorem settleCaptured_ok {payment : Payment}
    (h : settleCaptured db payment bookingId = .ok db') :
    db' = (db.setPayment (payment.withStatus .captured)).writeEvent .paymentCaptured
      bookingId := by
  obtain ⟨d, hd, hdb⟩ := Except.bind_eq_ok_iff.mp h
  obtain ⟨-, rfl⟩ := PaymentDb.save_ok_iff.mp hd
  exact (Except.pure_eq_ok_iff.mp hdb).symm

theorem chargeOverage_path {payment : Payment} {captureId : String}
    (hg : db.getByBookingId bookingId = some payment) (hs : payment.status = .authorized)
    (hhold : 0 < holdAmountCents)
    (h : (chargeOverage (db.addEntries (chargePair payment bookingId hostId holdAmountCents
      .rental)) payment bookingId hostId overageCents).Path tr (.ok db')) :
    CaptureEffect db bookingId hostId holdAmountCents overageCents
      ((.capture payment.stripePaymentIntentId holdAmountCents (.capture bookingId),
        .returned captureId) :: tr) db' := by
  unfold chargeOverage at h
  by_cases ho : overageCents > 0
  swap
  · rw [if_neg ho] at h
    obtain ⟨rfl, hdb⟩ := CallProgram.path_done_iff.mp h
    obtain rfl := settleCaptured_ok hdb.symm
    exact .captured payment captureId [] hg hs hhold (.inl ⟨Int.not_lt.mp ho, rfl⟩)
  rw [if_pos ho] at h
  obtain ⟨r, tr', rfl, h'⟩ := CallProgram.path_call_iff.mp h
  cases r with
  | stripeError =>
    obtain ⟨rfl, hdb⟩ := CallProgram.path_done_iff.mp h'
    obtain rfl := settleCaptured_ok hdb.symm
    exact .captured payment captureId _ hg hs hhold (.inr ⟨ho, rfl⟩)
  | returned overageIntentId =>
    obtain ⟨rfl, hdb⟩ := CallProgram.path_done_iff.mp h'
    obtain ⟨d, hd, hdb⟩ := Except.bind_eq_ok_iff.mp hdb.symm
    obtain ⟨-, rfl⟩ := PaymentDb.save_ok_iff.mp hd
    obtain ⟨d, hd, hdb⟩ := Except.bind_eq_ok_iff.mp hdb
    obtain ⟨-, -, rfl⟩ := PaymentDb.writeLedgerPair_ok_iff.mp hd
    obtain rfl := settleCaptured_ok hdb
    exact .charged payment captureId overageIntentId hg hs hhold ho

theorem handleCapturePaymentRequested_path
    (h : (handleCapturePaymentRequested db bookingId hostId holdAmountCents overageCents).Path tr
      (.ok db')) :
    CaptureEffect db bookingId hostId holdAmountCents overageCents tr db' := by
  unfold handleCapturePaymentRequested at h
  cases hg : db.getByBookingId bookingId with
  | none =>
    rw [hg] at h
    obtain ⟨rfl, hdb⟩ := CallProgram.path_done_iff.mp h
    obtain rfl := Except.ok.inj hdb
    exact .absent hg
  | some payment =>
    rw [hg] at h
    dsimp only at h
    by_cases hs : payment.status = .authorized
    swap
    · rw [if_pos hs] at h
      obtain ⟨rfl, hdb⟩ := CallProgram.path_done_iff.mp h
      obtain rfl := Except.ok.inj hdb
      exact .settled payment hg hs
    rw [if_neg (not_not.mpr hs)] at h
    obtain ⟨r, tr', rfl, h'⟩ := CallProgram.path_call_iff.mp h
    cases r with
    | stripeError =>
      obtain ⟨rfl, hdb⟩ := CallProgram.path_done_iff.mp h'
      obtain ⟨d, hd, hdb⟩ := Except.bind_eq_ok_iff.mp hdb.symm
      obtain ⟨-, rfl⟩ := PaymentDb.save_ok_iff.mp hd
      obtain rfl := Except.pure_eq_ok_iff.mp hdb
      exact .refused payment hg hs
    | returned captureId =>
      dsimp only at h'
      cases hl : db.writeLedgerPair payment.id bookingId (.renter payment.renterId)
          (.host hostId) holdAmountCents .rental with
      | error e =>
        rw [hl] at h'
        obtain ⟨-, hdb⟩ := CallProgram.path_done_iff.mp h'
        cases hdb
      | ok d =>
        rw [hl] at h'
        obtain ⟨-, hhold, rfl⟩ := PaymentDb.writeLedgerPair_ok_iff.mp hl
        exact chargeOverage_path hg hs hhold h'

/-! ### Handlers that commit -/

variable {payment : Payment}

/-- A booking that has a payment is not authorized again. -/
theorem handleAuthorizePaymentRequested_of_found
    (hfound : db.getByBookingId bookingId = some payment) :
    handleAuthorizePaymentRequested db bookingId renterId amountCents = .done (.ok db) := by
  rw [handleAuthorizePaymentRequested, hfound]

theorem settleCaptured_commits (db : PaymentDb) (bookingId : Uuid)
    (hfits : FitsInteger payment.overageCents) :
    ∃ db', settleCaptured db payment bookingId = .ok db' := by
  rw [settleCaptured, PaymentDb.save, if_neg (not_not.mpr hfits)]
  exact ⟨_, rfl⟩

theorem chargeOverage_commits (db : PaymentDb) (bookingId hostId : Uuid)
    (hfits : FitsInteger payment.overageCents) (hoverage : FitsInteger overageCents)
    (stripe : StripeCall → StripeReply) :
    ∃ db', (chargeOverage db payment bookingId hostId overageCents).run stripe = .ok db' := by
  rw [chargeOverage]
  by_cases ho : overageCents > 0
  swap
  · rw [if_neg ho]
    exact settleCaptured_commits db bookingId hfits
  rw [if_pos ho, CallProgram.run_call]
  cases stripe (.authorizeAndCapture overageCents (.overage bookingId)) with
  | stripeError => exact settleCaptured_commits db bookingId hfits
  | returned overageIntentId =>
    simp only [CallProgram.run_done, PaymentDb.save, PaymentDb.writeLedgerPair, hoverage, ho,
      not_true_eq_false, if_false]
    exact settleCaptured_commits _ bookingId hoverage

/-- With amounts that can be stored, the capture handler commits whatever Stripe answers. -/
theorem handleCapturePaymentRequested_commits (hfound : db.getByBookingId bookingId = some payment)
    (hfits : FitsInteger payment.overageCents) (hpos : 0 < holdAmountCents)
    (hhold : FitsInteger holdAmountCents) (hoverage : FitsInteger overageCents)
    (stripe : StripeCall → StripeReply) :
    ∃ db', (handleCapturePaymentRequested db bookingId hostId holdAmountCents overageCents).run
      stripe = .ok db' := by
  rw [handleCapturePaymentRequested, hfound]
  dsimp only
  by_cases hs : payment.status = .authorized
  swap
  · rw [if_pos hs]
    exact ⟨db, rfl⟩
  rw [if_neg (not_not.mpr hs), CallProgram.run_call]
  cases stripe (.capture payment.stripePaymentIntentId holdAmountCents (.capture bookingId)) with
  | stripeError =>
    rw [CallProgram.run_done, PaymentDb.save, if_neg (not_not.mpr hfits)]
    exact ⟨_, rfl⟩
  | returned captureId =>
    rw [PaymentDb.writeLedgerPair, if_neg (not_not.mpr hhold), if_neg (not_not.mpr hpos)]
    exact chargeOverage_commits _ bookingId hostId hfits hoverage stripe

end Effects

end CarFlow
