import CarFlow.Lib.Interleavings
import CarFlow.Payment.Ledger
import Mathlib.Algebra.BigOperators.Group.List.Basic
import Mathlib.Data.List.Induction

/-!
# The payment consumer under interleavings

Kafka keeps the order of the commands of one booking and no other: the commands of different
bookings reach the payment service in any order, and each of them possibly more than once. All of
them share the tables, the inbox and the accounts of renters and hosts.

The `footprint` of a booking is what the tables hold about it up to generated ids: its payment, its
ledger entries and its events. What a command does to the footprint of its booking depends on that
footprint only, and it leaves all others alone. So each booking ends up as if its commands had been
the only ones.

## Implementation notes

The identifier of a payment is drawn when its row is inserted, so it depends on the order of the
commands, and the ledger entries carry it. The footprint leaves it out. It has everything else that
the tables hold of a booking, and the results are stated with it rather than with the tables.

A command whose handler raises is rolled back, and its record stays where it is. In a run of
`processRecords` it may come again, after any commands of other bookings, and by
`RefusedCommand.processRecord` it has no effect then either.

## Main results

* `footprint_handleRecord`, `footprint_handleRecord_of_ne` — a command sees and changes the
  footprint of its booking only
* `RefusedCommand.processRecord` — a command that raised has no effect later either
* `footprint_processRecords` — **each booking ends up as if its commands had been the only ones**
* `interleavings_agree` — **the order of the commands of different bookings does not matter**
-/

namespace CarFlow

/-! ### Footprints

Equality of footprints is what all results here are about. The lemmas say what each write of the
repository does to the footprint of its booking, and that it leaves the others. -/

/-- The payment with another id. -/
@[simps] def Payment.withId (payment : Payment) (id : Uuid) : Payment := { payment with id }

theorem Payment.eq_withId {payment payment' : Payment} (h : payment.withId 0 = payment'.withId 0) :
    payment' = payment.withId payment'.id := by
  cases payment
  cases payment'
  simpa [withId] using h.symm

/-- The entry of a payment with another id. -/
def LedgerEntry.withPaymentId (entry : LedgerEntry) (paymentId : Uuid) : LedgerEntry :=
  { entry with paymentId }

/-- What the payment database holds about one booking, with its generated ids erased. -/
structure Footprint where
  payment : Option Payment
  ledger : List LedgerEntry
  events : List PaymentMessage

namespace PaymentDb

variable {db d : PaymentDb} {payment : Payment} {b : Uuid}

/-- The footprint of a booking. -/
def footprint (db : PaymentDb) (bookingId : Uuid) : Footprint where
  payment := (db.view bookingId).payment.map (·.withId 0)
  ledger := (db.view bookingId).ledger.map (·.withPaymentId 0)
  events := writtenFor db.outbox bookingId

theorem footprint_addPayment (payment : Payment) (h : db.getByBookingId payment.bookingId = none) :
    (db.addPayment payment).footprint payment.bookingId =
      { db.footprint payment.bookingId with payment := some (payment.withId 0) } := by
  rw [footprint, view_addPayment_self payment h]
  rfl

theorem footprint_setPayment (payment : Payment) (hb : payment.bookingId = b) :
    (db.setPayment payment).footprint b =
      { db.footprint b with
        payment := (db.footprint b).payment.map fun _ => payment.withId 0 } := by
  have hlookup : (db.setPayment payment).getByBookingId b =
      (db.getByBookingId b).map fun _ => payment := by
    rw [getByBookingId, setPayment, RowTable.lookup_update, if_pos hb]
    rfl
  simp only [footprint, view, hlookup, Option.map_map]
  rfl

theorem footprint_addEntries {entries : List LedgerEntry}
    (h : ∀ entry ∈ entries, entry.bookingId = b) :
    (db.addEntries entries).footprint b =
      { db.footprint b with
        ledger := (db.footprint b).ledger ++ entries.map (·.withPaymentId 0) } := by
  rw [footprint, view_addEntries_self h, List.map_append]
  rfl

theorem footprint_writeEvent (eventType : PaymentEventType) (b : Uuid) :
    (db.writeEvent eventType b).footprint b =
      { db.footprint b with events := (db.footprint b).events ++ [⟨eventType, b⟩] } := by
  rw [footprint, writeEvent, writtenFor_write, if_pos rfl]
  rfl

/-! ### What the repository makes of a footprint

Each operation, on two databases with the same footprint of a booking: it raises the same exception
on both, or leaves the same footprint in both. -/

section Congruence

variable (h : db.footprint b = d.footprint b)
include h

theorem footprint_congr_payment :
    db.getByBookingId b = none ∧ d.getByBookingId b = none ∨
      ∃ payment id, db.getByBookingId b = some payment ∧
        d.getByBookingId b = some (payment.withId id) := by
  have hpayment : (db.getByBookingId b).map (·.withId 0) = (d.getByBookingId b).map (·.withId 0) :=
    congrArg Footprint.payment h
  cases hdb : db.getByBookingId b with
  | none =>
    rw [hdb] at hpayment
    exact .inl ⟨rfl, Option.map_eq_none_iff.mp hpayment.symm⟩
  | some payment =>
    rw [hdb] at hpayment
    obtain ⟨payment', hd, hsame⟩ := Option.map_eq_some_iff.mp hpayment.symm
    exact .inr ⟨payment, payment'.id, rfl, hd.trans (congrArg some (Payment.eq_withId hsame.symm))⟩

theorem writeEvent_congr (eventType : PaymentEventType) :
    (db.writeEvent eventType b).footprint b = (d.writeEvent eventType b).footprint b := by
  rw [footprint_writeEvent, footprint_writeEvent, h]

theorem create_congr (renterId : Uuid) (holdAmountCents : ℤ) (status : PaymentStatus)
    (stripePaymentIntentId : Option String) :
    (db.create b renterId holdAmountCents status stripePaymentIntentId).map (·.footprint b) =
      (d.create b renterId holdAmountCents status stripePaymentIntentId).map (·.footprint b) := by
  by_cases hf : FitsInteger holdAmountCents
  swap
  · rw [create, create, if_pos hf, if_pos hf]
  rw [create, create, if_neg (not_not.mpr hf), if_neg (not_not.mpr hf)]
  rcases footprint_congr_payment h with ⟨hdb, hd⟩ | ⟨payment, id, hdb, hd⟩
  · have hadd := footprint_addPayment
      (db.newPayment b renterId holdAmountCents status stripePaymentIntentId) hdb
    have hadd' := footprint_addPayment
      (d.newPayment b renterId holdAmountCents status stripePaymentIntentId) hd
    rw [hdb, hd]
    refine congrArg Except.ok (hadd.trans (Eq.trans ?_ hadd'.symm))
    rw [show (db.newPayment b renterId holdAmountCents status stripePaymentIntentId).bookingId = b
      from rfl, h]
    rfl
  · rw [hdb, hd]
    rfl

theorem save_congr (payment : Payment) (id : Uuid) (hb : payment.bookingId = b) :
    (db.save payment).map (·.footprint b) = (d.save (payment.withId id)).map (·.footprint b) := by
  have hset :
      (db.setPayment payment).footprint b = (d.setPayment (payment.withId id)).footprint b := by
    rw [footprint_setPayment payment hb, footprint_setPayment (payment.withId id) hb, h]
    rfl
  simp only [save, Payment.withId_overageCents]
  split
  · rfl
  · exact congrArg Except.ok hset

theorem writeLedgerPair_congr (paymentId paymentId' : Uuid) (debitAccount creditAccount : Account)
    (amountCents : ℤ) (reason : LedgerReason) :
    (db.writeLedgerPair paymentId b debitAccount creditAccount amountCents reason).map
        (·.footprint b) =
      (d.writeLedgerPair paymentId' b debitAccount creditAccount amountCents reason).map
        (·.footprint b) := by
  have habout (paymentId : Uuid) : ∀ entry ∈ ledgerPair paymentId b debitAccount creditAccount
      amountCents reason, entry.bookingId = b := by
    simp [ledgerPair]
  have hadd : (db.addEntries (ledgerPair paymentId b debitAccount creditAccount amountCents
      reason)).footprint b = (d.addEntries (ledgerPair paymentId' b debitAccount creditAccount
      amountCents reason)).footprint b := by
    rw [footprint_addEntries (habout paymentId), footprint_addEntries (habout paymentId'), h]
    rfl
  simp only [writeLedgerPair]
  split
  · rfl
  · split
    · rfl
    · exact congrArg Except.ok hadd

end Congruence

end PaymentDb

/-! ### What the handlers make of a footprint

A handler reads nothing but the footprint of its booking, so what it leaves depends on that
alone. -/

section Handlers

variable {db d : PaymentDb} {b : Uuid} (stripe : StripeCall → StripeReply)

theorem run_handleAuthorizePaymentRequested_congr (h : db.footprint b = d.footprint b)
    (renterId : Uuid) (amountCents : ℤ) :
    ((handleAuthorizePaymentRequested db b renterId amountCents).run stripe).map
        (·.footprint b) =
      ((handleAuthorizePaymentRequested d b renterId amountCents).run stripe).map
        (·.footprint b) := by
  unfold handleAuthorizePaymentRequested
  rcases PaymentDb.footprint_congr_payment h with ⟨hdb, hd⟩ | ⟨payment, id, hdb, hd⟩
  swap
  · rw [hdb, hd]
    exact congrArg Except.ok h
  rw [hdb, hd, CallProgram.run_call, CallProgram.run_call]
  cases stripe (.authorize amountCents (.authorize b)) with
  | stripeError =>
    exact Except.map_bind_congr (PaymentDb.create_congr h renterId amountCents
      .authorizationFailed none) fun _ _ hfootprint =>
        congrArg Except.ok (PaymentDb.writeEvent_congr hfootprint .paymentAuthorizationFailed)
  | returned intentId =>
    exact Except.map_bind_congr (PaymentDb.create_congr h renterId amountCents .authorized
      (some intentId)) fun _ _ hfootprint =>
        congrArg Except.ok (PaymentDb.writeEvent_congr hfootprint .paymentAuthorized)

theorem settleCaptured_congr (h : db.footprint b = d.footprint b) (payment : Payment) (id : Uuid)
    (hb : payment.bookingId = b) :
    (settleCaptured db payment b).map (·.footprint b) =
      (settleCaptured d (payment.withId id) b).map (·.footprint b) :=
  Except.map_bind_congr (PaymentDb.save_congr h { payment with status := .captured } id hb)
    fun _ _ hfootprint =>
      congrArg Except.ok (PaymentDb.writeEvent_congr hfootprint .paymentCaptured)

theorem run_chargeOverage_congr (h : db.footprint b = d.footprint b) (payment : Payment) (id : Uuid)
    (hb : payment.bookingId = b) (hostId : Uuid) (overageCents : ℤ) :
    ((chargeOverage db payment b hostId overageCents).run stripe).map (·.footprint b) =
      ((chargeOverage d (payment.withId id) b hostId overageCents).run stripe).map
        (·.footprint b) := by
  unfold chargeOverage
  by_cases ho : overageCents > 0
  swap
  · rw [if_neg ho, if_neg ho]
    exact settleCaptured_congr h payment id hb
  rw [if_pos ho, if_pos ho, CallProgram.run_call, CallProgram.run_call]
  cases stripe (.authorizeAndCapture overageCents (.overage b)) with
  | stripeError => exact settleCaptured_congr h payment id hb
  | returned overageIntentId =>
    refine Except.map_bind_congr (PaymentDb.save_congr h
      (payment.withOverage overageIntentId overageCents) id hb) fun db₁ d₁ h₁ => ?_
    refine Except.map_bind_congr (PaymentDb.writeLedgerPair_congr h₁ payment.id id
      (.renter payment.renterId) (.host hostId) overageCents .mileageOverage) fun db₂ d₂ h₂ => ?_
    exact settleCaptured_congr h₂ (payment.withOverage overageIntentId overageCents) id hb

theorem run_handleCapturePaymentRequested_congr (h : db.footprint b = d.footprint b) (hostId : Uuid)
    (holdAmountCents overageCents : ℤ) :
    ((handleCapturePaymentRequested db b hostId holdAmountCents overageCents).run stripe).map
        (·.footprint b) =
      ((handleCapturePaymentRequested d b hostId holdAmountCents overageCents).run stripe).map
        (·.footprint b) := by
  unfold handleCapturePaymentRequested
  rcases PaymentDb.footprint_congr_payment h with ⟨hdb, hd⟩ | ⟨payment, id, hdb, hd⟩
  · rw [hdb, hd]
    exact congrArg Except.ok h
  have hb : payment.bookingId = b := RowTable.key_of_lookup hdb
  simp only [hdb, hd, Payment.withId_status, Payment.withId_stripePaymentIntentId]
  by_cases hs : payment.status = .authorized
  swap
  · rw [if_pos hs, if_pos hs]
    exact congrArg Except.ok h
  rw [if_neg (not_not.mpr hs), if_neg (not_not.mpr hs), CallProgram.run_call, CallProgram.run_call]
  cases stripe (.capture payment.stripePaymentIntentId holdAmountCents (.capture b)) with
  | stripeError =>
    exact Except.map_bind_congr (PaymentDb.save_congr h (payment.withStatus .captureFailed) id hb)
      fun _ _ hfootprint =>
        congrArg Except.ok (PaymentDb.writeEvent_congr hfootprint .paymentCaptureFailed)
  | returned captureId =>
    have hpair := PaymentDb.writeLedgerPair_congr h payment.id id (.renter payment.renterId)
      (.host hostId) holdAmountCents .rental
    cases hl : db.writeLedgerPair payment.id b (.renter payment.renterId) (.host hostId)
        holdAmountCents .rental with
    | error e =>
      cases hl' : d.writeLedgerPair id b (.renter payment.renterId) (.host hostId)
          holdAmountCents .rental with
      | error e' =>
        rw [hl, hl'] at hpair
        simpa [hl, hl'] using hpair
      | ok d₁ =>
        rw [hl, hl'] at hpair
        cases hpair
    | ok db₁ =>
      cases hl' : d.writeLedgerPair id b (.renter payment.renterId) (.host hostId)
          holdAmountCents .rental with
      | error e' =>
        rw [hl, hl'] at hpair
        cases hpair
      | ok d₁ =>
        rw [hl, hl'] at hpair
        simpa [hl, hl'] using run_chargeOverage_congr stripe (Except.ok.inj hpair) payment id hb
          hostId overageCents

theorem bookingCommandHandlers_congr {message : BookingMessage}
    {handler : PaymentDb → PaymentProgram} (hh : bookingCommandHandlers message = some handler)
    (h : db.footprint message.bookingId = d.footprint message.bookingId) :
    ((handler db).run stripe).map (·.footprint message.bookingId) =
      ((handler d).run stripe).map (·.footprint message.bookingId) := by
  cases message with
  | authorizePaymentRequested bookingId renterId amountCents =>
    cases hh
    exact run_handleAuthorizePaymentRequested_congr stripe h renterId amountCents
  | capturePaymentRequested bookingId hostId holdAmountCents overageCents =>
    cases hh
    exact run_handleCapturePaymentRequested_congr stripe h hostId holdAmountCents overageCents
  | lifecycle => cases hh

end Handlers

/-! ### Deliveries

A stream of records, some of them more than once. A record that was claimed does nothing. -/

section Deliveries

variable (stripe : StripeCall → StripeReply)

/-- Deliver one record. A handler that raises is rolled back with its claim, and its record may be
delivered again. -/
def processRecord (db : PaymentDb) (row : OutboxRow BookingMessage) : PaymentDb :=
  committed db ((processCommand row db).run stripe)

/-- Deliver some records to an empty database. -/
def processRecords (rows : List (OutboxRow BookingMessage)) : PaymentDb :=
  rows.foldl (processRecord stripe) {}

/-- The effect of a record alone, without the inbox. -/
def handleRecord (db : PaymentDb) (row : OutboxRow BookingMessage) : PaymentDb :=
  match bookingCommandHandlers row.payload with
  | none => db
  | some handler => committed db ((handler db).run stripe)

variable {db d : PaymentDb} {b : Uuid} {row : OutboxRow BookingMessage}

theorem footprint_eq_of_outcome {message : BookingMessage} {tr : List (StripeCall × StripeReply)}
    (h : CommandOutcome db message tr d) (hb : message.bookingId ≠ b) :
    d.footprint b = db.footprint b := by
  obtain ⟨events, -, houtbox⟩ := h.effect
  rw [PaymentDb.footprint, PaymentDb.footprint, h.others b hb, houtbox, writtenFor_writeAll,
    if_neg hb, List.append_nil]

theorem footprint_committed {x y : Except PaymentError PaymentDb}
    (h : db.footprint b = d.footprint b) (hxy : x.map (·.footprint b) = y.map (·.footprint b)) :
    (committed db x).footprint b = (committed d y).footprint b := by
  cases x with
  | error e =>
    cases y with
    | error e' => exact h
    | ok d' => cases hxy
  | ok db' =>
    cases y with
    | error e' => cases hxy
    | ok d' => exact Except.ok.inj hxy

theorem handleRecord_of_none (hh : bookingCommandHandlers row.payload = none) :
    handleRecord stripe db row = db := by
  rw [handleRecord, hh]

theorem handleRecord_of_some {handler : PaymentDb → PaymentProgram}
    (hh : bookingCommandHandlers row.payload = some handler) :
    handleRecord stripe db row = committed db ((handler db).run stripe) := by
  rw [handleRecord, hh]

/-- A record leaves the other bookings alone. -/
theorem footprint_handleRecord_of_ne (hb : row.payload.bookingId ≠ b) :
    (handleRecord stripe db row).footprint b = db.footprint b := by
  cases hh : bookingCommandHandlers row.payload with
  | none => rw [handleRecord_of_none stripe hh]
  | some handler =>
    rw [handleRecord_of_some stripe hh]
    obtain ⟨tr, hpath, -⟩ := CallProgram.path_run stripe (handler db)
    cases hrun : (handler db).run stripe with
    | error e => rfl
    | ok db' =>
      rw [hrun] at hpath
      exact footprint_eq_of_outcome (bookingCommandHandlers_path hh hpath) hb

/-- What a record makes of a footprint depends on that footprint only. -/
theorem footprint_handleRecord (h : db.footprint b = d.footprint b) :
    (handleRecord stripe db row).footprint b = (handleRecord stripe d row).footprint b := by
  by_cases hb : row.payload.bookingId = b
  swap
  · rw [footprint_handleRecord_of_ne stripe hb, footprint_handleRecord_of_ne stripe hb, h]
  subst hb
  cases hh : bookingCommandHandlers row.payload with
  | none => rw [handleRecord_of_none stripe hh, handleRecord_of_none stripe hh, h]
  | some handler =>
    rw [handleRecord_of_some stripe hh, handleRecord_of_some stripe hh]
    exact footprint_committed h (bookingCommandHandlers_congr stripe hh h)

/-- A record whose event is claimed changes nothing. -/
theorem processRecord_of_mem (h : row.id ∈ db.inbox) : processRecord stripe db row = db := by
  rw [processRecord, processCommand_of_mem h]
  rfl

/-- A record whose event is not claimed has its effect. -/
theorem footprint_processRecord_of_notMem (h : row.id ∉ db.inbox) :
    (processRecord stripe db row).footprint b = (handleRecord stripe db row).footprint b := by
  -- the handler runs with the claim in the inbox, which no footprint shows
  have hclaim : db.footprint b =
      PaymentDb.footprint { db with inbox := row.id :: db.inbox } b := rfl
  rw [footprint_handleRecord stripe hclaim, processRecord, processCommand,
    postgresInboxProcessor_of_notMem h]
  cases hh : bookingCommandHandlers row.payload with
  | none =>
    rw [handleRecord_of_none stripe hh]
    rfl
  | some handler =>
    rw [handleRecord_of_some stripe hh]
    exact footprint_committed hclaim rfl

/-- Delivering a new record raises or has an outcome. -/
theorem processRecord_cases (h : row.id ∉ db.inbox) :
    (∃ e, (processCommand row db).run stripe = .error e ∧ processRecord stripe db row = db) ∨
      ∃ tr, CommandOutcome { db with inbox := row.id :: db.inbox } row.payload tr
        (processRecord stripe db row) := by
  obtain ⟨tr, hpath, -⟩ := CallProgram.path_run stripe (processCommand row db)
  rw [processRecord]
  cases hrun : (processCommand row db).run stripe with
  | error e => exact .inl ⟨e, rfl, rfl⟩
  | ok db' =>
    rw [hrun] at hpath
    exact .inr ⟨tr, processCommand_path h hpath⟩

/-! ### Commands that were refused

A command whose handler raised is not claimed, and is handled again when it is delivered again. By
then other commands of its booking may have been handled. It still has no effect: an amount that
does not fit will not fit later, and a payment that could not be captured is as it was or settled.
-/

/-- The commands that have no effect any more. -/
def RefusedCommand (db : PaymentDb) : BookingMessage → Prop
  | .authorizePaymentRequested _ _ amountCents => ¬ FitsInteger amountCents
  | .capturePaymentRequested bookingId hostId holdAmountCents overageCents =>
    ∃ payment, db.getByBookingId bookingId = some payment ∧ (payment.status = .authorized →
      ∃ e, (handleCapturePaymentRequested db bookingId hostId holdAmountCents overageCents).run
        stripe = .error e)
  | .lifecycle .. => False

theorem RefusedCommand.handleRecord_eq (h : RefusedCommand stripe db row.payload) :
    handleRecord stripe db row = db := by
  cases hp : row.payload with
  | lifecycle => rw [hp] at h; cases h
  | authorizePaymentRequested bookingId renterId amountCents =>
    rw [hp] at h
    rw [handleRecord_of_some stripe (congrArg bookingCommandHandlers hp)]
    cases hfound : db.getByBookingId bookingId with
    | some payment =>
      rw [handleAuthorizePaymentRequested_of_found hfound]
      rfl
    | none =>
      rw [run_handleAuthorizePaymentRequested hfound, if_neg h]
      rfl
  | capturePaymentRequested bookingId hostId holdAmountCents overageCents =>
    rw [hp] at h
    rw [handleRecord_of_some stripe (congrArg bookingCommandHandlers hp)]
    obtain ⟨payment, hfound, hraises⟩ := h
    by_cases hs : payment.status = .authorized
    · obtain ⟨e, he⟩ := hraises hs
      rw [he]
      rfl
    · rw [handleCapturePaymentRequested, hfound]
      dsimp only
      rw [if_pos hs]
      rfl

/-- A command that raised is refused ... -/
theorem refusedCommand_of_error {message : BookingMessage} {handler : PaymentDb → PaymentProgram}
    {e : PaymentError} (hh : bookingCommandHandlers message = some handler)
    (he : (handler db).run stripe = .error e) : RefusedCommand stripe db message := by
  cases message with
  | lifecycle => cases hh
  | authorizePaymentRequested bookingId renterId amountCents =>
    cases hh
    dsimp only at he
    intro hf
    cases hfound : db.getByBookingId bookingId with
    | some payment =>
      rw [handleAuthorizePaymentRequested_of_found hfound] at he
      cases he
    | none =>
      rw [run_handleAuthorizePaymentRequested hfound, if_pos hf] at he
      cases he
  | capturePaymentRequested bookingId hostId holdAmountCents overageCents =>
    cases hh
    dsimp only at he
    cases hfound : db.getByBookingId bookingId with
    | some payment => exact ⟨payment, hfound, fun _ => ⟨e, he⟩⟩
    | none =>
      rw [handleCapturePaymentRequested, hfound] at he
      cases he

theorem RefusedCommand.congr {message : BookingMessage} (h : RefusedCommand stripe db message)
    (hfootprint : db.footprint message.bookingId = d.footprint message.bookingId) :
    RefusedCommand stripe d message := by
  cases message with
  | authorizePaymentRequested => exact h
  | lifecycle => exact h
  | capturePaymentRequested bookingId hostId holdAmountCents overageCents =>
    obtain ⟨payment, hfound, hraises⟩ := h
    rcases PaymentDb.footprint_congr_payment hfootprint with
      ⟨hnone, -⟩ | ⟨payment', id, hfound', hd⟩
    · cases hnone.symm.trans hfound
    · obtain rfl := Option.some.inj (hfound'.symm.trans hfound)
      refine ⟨_, hd, fun hs => ?_⟩
      obtain ⟨e, he⟩ := hraises hs
      exact ⟨e, Except.eq_error_of_map_eq (run_handleCapturePaymentRequested_congr stripe hfootprint
        hostId holdAmountCents overageCents) he⟩

/-- ... also when it is the consumer that handled it. -/
theorem refusedCommand_of_raised {e : PaymentError} (hnew : row.id ∉ db.inbox)
    (he : (processCommand row db).run stripe = .error e) :
    RefusedCommand stripe db row.payload := by
  rw [processCommand, postgresInboxProcessor_of_notMem hnew] at he
  cases hh : bookingCommandHandlers row.payload with
  | none => rw [hh] at he; cases he
  | some handler =>
    rw [hh] at he
    exact (refusedCommand_of_error stripe hh he).congr stripe rfl

/-- Handling a message about a booking that has a payment changes nothing, or it settles the
payment. -/
theorem CommandEffect.settles {v v' : PaymentView} {message : BookingMessage}
    {tr : List (StripeCall × StripeReply)} {events : List PaymentEventType}
    (h : CommandEffect b v message tr v' events) {payment : Payment}
    (hfound : v.payment = some payment) :
    v' = v ∧ events = [] ∨
      ∃ payment', v'.payment = some payment' ∧ payment'.status ≠ .authorized := by
  cases h with
  | announced | existing | absent | settled => exact .inl ⟨rfl, rfl⟩
  | authorizeRefused _ _ _ hnone => cases hnone.symm.trans hfound
  | held _ _ _ _ hnone => cases hnone.symm.trans hfound
  | captureRefused | captured | charged => exact .inr ⟨_, rfl, fun hs => by cases hs⟩

/-- A command that is refused stays so. -/
theorem RefusedCommand.processRecord {message : BookingMessage}
    (h : RefusedCommand stripe db message) :
    RefusedCommand stripe (processRecord stripe db row) message := by
  by_cases hmem : row.id ∈ db.inbox
  · rwa [processRecord_of_mem stripe hmem]
  rcases processRecord_cases stripe hmem with ⟨e, -, hsame⟩ | ⟨tr, houtcome⟩
  · rwa [hsame]
  by_cases hb : row.payload.bookingId = message.bookingId
  swap
  · exact h.congr stripe (footprint_eq_of_outcome houtcome hb).symm
  cases message with
  | authorizePaymentRequested => exact h
  | lifecycle => exact h
  | capturePaymentRequested bookingId hostId holdAmountCents overageCents =>
    obtain ⟨payment, hfound, hraises⟩ := h
    obtain ⟨events, heffect, houtbox⟩ := houtcome.effect
    have hfound' : (PaymentDb.view { db with inbox := row.id :: db.inbox }
        row.payload.bookingId).payment = some payment := by
      rw [hb]
      exact hfound
    rcases heffect.settles hfound' with ⟨hview, rfl⟩ | ⟨payment', hpayment', hs⟩
    · refine RefusedCommand.congr stripe ⟨payment, hfound, hraises⟩ ?_
      rw [hb] at hview
      have hwritten : (CarFlow.processRecord stripe db row).outbox = db.outbox := houtbox
      simp only [PaymentDb.footprint, BookingMessage.bookingId] at hview ⊢
      rw [hview, hwritten]
      rfl
    · rw [hb] at hpayment'
      exact ⟨payment', hpayment', fun hs' => absurd hs' hs⟩

end Deliveries

/-! ### Interleavings

By `Lib.Interleavings` it is enough that a command sees and changes one footprint. -/

/-- An event id stands for one record. -/
def IdsIdentify (rows : List (OutboxRow BookingMessage)) : Prop :=
  ∀ row ∈ rows, ∀ row' ∈ rows, row.id = row'.id → row = row'

/-- The commands of a booking in the order of their first deliveries. -/
def commandsOf (bookingId : Uuid) (rows : List (OutboxRow BookingMessage)) :
    List (OutboxRow BookingMessage) :=
  (Interleavings.firsts (·.id) rows).filter fun row =>
    row.payload.bookingId = bookingId ∧ (bookingCommandHandlers row.payload).isSome

section Runs

variable (stripe : StripeCall → StripeReply) {rows rows' : List (OutboxRow BookingMessage)}

/-- What the deliveries so far have come to. -/
structure Delivered (rows : List (OutboxRow BookingMessage)) (db : PaymentDb) : Prop where
  /-- Every footprint is what the first deliveries make of it. -/
  footprints : ∀ b, db.footprint b =
    ((Interleavings.firsts (·.id) rows).foldl (handleRecord stripe) {}).footprint b
  /-- To deliver a row again is of no effect. -/
  claimed : ∀ row ∈ rows, row.id ∈ db.inbox ∨ RefusedCommand stripe db row.payload
  /-- Claims are for rows that were delivered. -/
  inbox : ∀ eventId ∈ db.inbox, ∃ row ∈ rows, row.id = eventId

theorem Delivered.again {db : PaymentDb} (h : Delivered stripe rows db)
    {row : OutboxRow BookingMessage} (hrow : row ∈ rows) (b : Uuid) :
    (processRecord stripe db row).footprint b = db.footprint b := by
  by_cases hmem : row.id ∈ db.inbox
  · rw [processRecord_of_mem stripe hmem]
  · have hrefused := (h.claimed row hrow).resolve_left hmem
    rw [footprint_processRecord_of_notMem stripe hmem, hrefused.handleRecord_eq]

theorem inbox_processRecord (db : PaymentDb) (row : OutboxRow BookingMessage) :
    (processRecord stripe db row).inbox = db.inbox ∨
      (processRecord stripe db row).inbox = row.id :: db.inbox := by
  by_cases hmem : row.id ∈ db.inbox
  · exact .inl (congrArg PaymentDb.inbox (processRecord_of_mem stripe hmem))
  · rcases processRecord_cases stripe hmem with ⟨e, -, hsame⟩ | ⟨tr, houtcome⟩
    · exact .inl (congrArg PaymentDb.inbox hsame)
    · exact .inr houtcome.inbox

theorem claimed_processRecord (db : PaymentDb) (row : OutboxRow BookingMessage) :
    row.id ∈ (processRecord stripe db row).inbox ∨
      RefusedCommand stripe (processRecord stripe db row) row.payload := by
  by_cases hmem : row.id ∈ db.inbox
  · rw [processRecord_of_mem stripe hmem]
    exact .inl hmem
  · rcases processRecord_cases stripe hmem with ⟨e, he, hsame⟩ | ⟨tr, houtcome⟩
    · rw [hsame]
      exact .inr (refusedCommand_of_raised stripe hmem he)
    · rw [houtcome.inbox]
      exact .inl List.mem_cons_self

/-- One more delivery. -/
theorem Delivered.processRecord {db : PaymentDb} (h : Delivered stripe rows db)
    (row : OutboxRow BookingMessage)
    (hid : ∀ row' ∈ rows, row'.id = row.id → row' = row) :
    Delivered stripe (rows ++ [row]) (processRecord stripe db row) where
  footprints b := by
    rw [Interleavings.firsts_concat, List.foldl_append]
    by_cases hagain : ∃ row' ∈ rows, row'.id = row.id
    · rw [if_pos hagain, List.foldl_nil, ← h.footprints]
      obtain ⟨row', hrow', hsame⟩ := hagain
      exact h.again stripe (hid row' hrow' hsame ▸ hrow') b
    · have hnew : row.id ∉ db.inbox := fun hmem => hagain (h.inbox row.id hmem)
      rw [if_neg hagain, footprint_processRecord_of_notMem stripe hnew]
      exact footprint_handleRecord stripe (h.footprints b)
  claimed row' hrow' := by
    rcases List.mem_append.mp hrow' with hrow' | hrow'
    · rcases h.claimed row' hrow' with hmem | hrefused
      · refine .inl ?_
        rcases inbox_processRecord stripe db row with hinbox | hinbox
        · rwa [hinbox]
        · rw [hinbox]
          exact List.mem_cons_of_mem _ hmem
      · exact .inr (hrefused.processRecord stripe)
    · obtain rfl := List.mem_singleton.mp hrow'
      exact claimed_processRecord stripe db row'
  inbox eventId hmem := by
    rcases inbox_processRecord stripe db row with hinbox | hinbox
    · obtain ⟨row', hrow', hsame⟩ := h.inbox eventId (hinbox ▸ hmem)
      exact ⟨row', List.mem_append_left _ hrow', hsame⟩
    · rw [hinbox] at hmem
      rcases List.mem_cons.mp hmem with rfl | hmem
      · exact ⟨row, List.mem_append_right _ (List.mem_singleton_self row), rfl⟩
      · obtain ⟨row', hrow', hsame⟩ := h.inbox eventId hmem
        exact ⟨row', List.mem_append_left _ hrow', hsame⟩

theorem delivered_processRecords (hids : IdsIdentify rows) :
    Delivered stripe rows (processRecords stripe rows) := by
  induction rows using List.reverseRecOn with
  | nil =>
    exact ⟨fun b => rfl, fun _ hrow => absurd hrow List.not_mem_nil,
      fun _ hmem => absurd hmem List.not_mem_nil⟩
  | append_singleton rows row ih =>
    have hrows : IdsIdentify rows := fun r hr r' hr' =>
      hids r (List.mem_append_left _ hr) r' (List.mem_append_left _ hr')
    have hid : ∀ row' ∈ rows, row'.id = row.id → row' = row := fun row' hrow' =>
      hids row' (List.mem_append_left _ hrow') row
        (List.mem_append_right _ (List.mem_singleton_self row))
    rw [processRecords, List.foldl_append]
    exact (ih hrows).processRecord stripe row hid

/-- **Each booking ends up as if its commands had been the only ones**, each delivered once. -/
theorem footprint_processRecords (hids : IdsIdentify rows) (b : Uuid) :
    (processRecords stripe rows).footprint b =
      ((commandsOf b rows).foldl (handleRecord stripe) {}).footprint b := by
  rw [(delivered_processRecords stripe hids).footprints b, commandsOf]
  refine Interleavings.observe_foldl (handleRecord stripe) (·.footprint b) (fun db row hrow => ?_)
    (fun db d row _ => footprint_handleRecord stripe) _ rfl
  by_cases hb : row.payload.bookingId = b
  · have hnone : bookingCommandHandlers row.payload = none := by simpa [hb] using hrow
    rw [handleRecord_of_none stripe hnone]
  · exact footprint_handleRecord_of_ne stripe hb

/-- After all deliveries the ledger of a booking is what its payment says. -/
theorem accounted_processRecords (rows : List (OutboxRow BookingMessage)) (b : Uuid) :
    ((processRecords stripe rows).view b).Accounted b ∧
      ((processRecords stripe rows).view b).Uncharged := by
  induction rows using List.reverseRecOn with
  | nil => exact ⟨rfl, fun _ hpayment => by cases hpayment⟩
  | append_singleton rows row ih =>
    rw [processRecords, List.foldl_append]
    change ((processRecord stripe (processRecords stripe rows) row).view b).Accounted b ∧
      ((processRecord stripe (processRecords stripe rows) row).view b).Uncharged
    by_cases hmem : row.id ∈ (processRecords stripe rows).inbox
    · rwa [processRecord_of_mem stripe hmem]
    rcases processRecord_cases stripe hmem with ⟨e, -, hsame⟩ | ⟨tr, houtcome⟩
    · rwa [hsame]
    by_cases hb : row.payload.bookingId = b
    · obtain ⟨events, heffect, -⟩ := houtcome.effect
      rw [hb] at heffect
      exact ih.1.step ih.2 heffect
    · rw [houtcome.others b hb]
      exact ih

end Runs

/-! ### Views up to ids -/

/-- The view with another id for its payment, also in the ledger. -/
def PaymentView.withId (v : PaymentView) (id : Uuid) : PaymentView where
  payment := v.payment.map (·.withId id)
  ledger := v.ledger.map (·.withPaymentId id)

theorem PaymentView.withId_withId (v : PaymentView) (id id' : Uuid) :
    (v.withId id).withId id' = v.withId id' := by
  simp only [withId, Option.map_map, List.map_map]
  rfl

/-- All entries of a ledger that is what its payment says bear the id of the payment. -/
theorem PaymentView.Accounted.withId_self {v : PaymentView} {b : Uuid} (h : v.Accounted b) :
    ∃ id, v.withId id = v := by
  obtain ⟨payment, ledger⟩ := v
  cases payment with
  | none =>
    obtain rfl : ledger = [] := h
    exact ⟨0, rfl⟩
  | some payment =>
    obtain ⟨hostId, holdAmountCents, hledger⟩ := h
    refine ⟨payment.id, ?_⟩
    have hpair (amountCents : ℤ) (reason : LedgerReason) :
        [renterDebit payment.id b payment.renterId amountCents reason,
          hostCredit payment.id b hostId amountCents reason].map (·.withPaymentId payment.id) =
          [renterDebit payment.id b payment.renterId amountCents reason,
            hostCredit payment.id b hostId amountCents reason] := rfl
    have hledger : ledger = _ := hledger
    have hledger' : ledger.map (·.withPaymentId payment.id) = ledger := by
      rw [hledger, List.map_append, apply_ite (List.map _), apply_ite (List.map _), hpair, hpair]
      rfl
    simp only [withId, hledger']
    rfl

/-- Two views with the same footprint are the same but for the id of the payment. -/
theorem view_eq_withId {db d : PaymentDb} {b : Uuid} (h : db.footprint b = d.footprint b)
    (hd : (d.view b).Accounted b) : ∃ id, d.view b = (db.view b).withId id := by
  obtain ⟨id, hid⟩ := hd.withId_self
  have herased : (d.view b).withId 0 = (db.view b).withId 0 := by
    have hpayment := congrArg Footprint.payment h
    have hledger := congrArg Footprint.ledger h
    rw [PaymentView.withId, PaymentView.withId]
    exact congrArg₂ PaymentView.mk hpayment.symm hledger.symm
  refine ⟨id, ?_⟩
  calc d.view b = (d.view b).withId id := hid.symm
    _ = ((d.view b).withId 0).withId id := ((d.view b).withId_withId 0 id).symm
    _ = (db.view b).withId id := by rw [herased, (db.view b).withId_withId 0 id]

/-! ### Accounts -/

/-- The balance of an account: what was credited less what was debited. -/
def balance (ledger : List LedgerEntry) (account : Account) : ℤ :=
  ((ledger.filter fun entry => entry.account = account).map fun entry =>
    match entry.direction with
    | .debit => -entry.amountCents
    | .credit => entry.amountCents).sum

theorem balance_withPaymentId (ledger : List LedgerEntry) (account : Account) (id : Uuid) :
    balance (ledger.map (·.withPaymentId id)) account = balance ledger account := by
  simp only [balance, List.filter_map, List.map_map]
  rfl

/-- The entries of two ledgers with the same footprints are the same, in another order. -/
theorem perm_ledgerEntries {db d : PaymentDb} (h : ∀ b, db.footprint b = d.footprint b) :
    (db.ledgerEntries.map (·.withPaymentId 0)).Perm (d.ledgerEntries.map (·.withPaymentId 0)) := by
  refine List.perm_iff_count.mpr fun entry => ?_
  have hcount (db : PaymentDb) : (db.ledgerEntries.map (·.withPaymentId 0)).count entry =
      (db.footprint entry.bookingId).ledger.count entry := by
    have hfilter := List.count_filter (l := db.ledgerEntries.map (·.withPaymentId 0))
      (p := fun e => e.bookingId = entry.bookingId) (a := entry) (by simp)
    rw [← hfilter, List.filter_map]
    rfl
  rw [hcount db, hcount d, h]

theorem balance_eq {db d : PaymentDb} (h : ∀ b, db.footprint b = d.footprint b)
    (account : Account) :
    balance db.ledgerEntries account = balance d.ledgerEntries account := by
  rw [← balance_withPaymentId db.ledgerEntries account 0,
    ← balance_withPaymentId d.ledgerEntries account 0]
  exact (((perm_ledgerEntries h).filter _).map _).sum_eq

/-! ### Two interleavings -/

/-- **The order of the commands of different bookings does not matter.** Two sequences of deliveries
that agree on the commands of each booking, but for repetitions, leave the same payment, ledger
entries and events of every booking, up to the generated id of the payment, and the same balance of
every account. Stripe's answer to a call depends on the call alone. -/
theorem interleavings_agree (stripe : StripeCall → StripeReply)
    {rows rows' : List (OutboxRow BookingMessage)} (hids : IdsIdentify rows)
    (hids' : IdsIdentify rows') (hsame : ∀ b, commandsOf b rows = commandsOf b rows') :
    (∀ b, (∃ id, (processRecords stripe rows').view b =
        ((processRecords stripe rows).view b).withId id) ∧
      writtenFor (processRecords stripe rows').outbox b =
        writtenFor (processRecords stripe rows).outbox b) ∧
    ∀ account, balance (processRecords stripe rows').ledgerEntries account =
      balance (processRecords stripe rows).ledgerEntries account := by
  have hfootprint (b : Uuid) :
      (processRecords stripe rows).footprint b = (processRecords stripe rows').footprint b := by
    rw [footprint_processRecords stripe hids, footprint_processRecords stripe hids', hsame]
  refine ⟨fun b => ⟨?_, (congrArg Footprint.events (hfootprint b)).symm⟩,
    fun account => (balance_eq hfootprint account).symm⟩
  exact view_eq_withId (hfootprint b) (accounted_processRecords stripe rows' b).1

/-- The commands of two bookings with one host. -/
def sampleOrder : List (OutboxRow BookingMessage) :=
  [⟨0, 0, .authorizePaymentRequested 0 2 15000⟩, ⟨1, 1, .authorizePaymentRequested 1 3 20000⟩,
    ⟨2, 0, .capturePaymentRequested 0 9 15000 5000⟩, ⟨3, 1, .capturePaymentRequested 1 9 20000 700⟩]

/-- The same commands in another order, two of them repeated. -/
def sampleShuffle : List (OutboxRow BookingMessage) :=
  [⟨1, 1, .authorizePaymentRequested 1 3 20000⟩, ⟨0, 0, .authorizePaymentRequested 0 2 15000⟩,
    ⟨0, 0, .authorizePaymentRequested 0 2 15000⟩, ⟨3, 1, .capturePaymentRequested 1 9 20000 700⟩,
    ⟨1, 1, .authorizePaymentRequested 1 3 20000⟩, ⟨2, 0, .capturePaymentRequested 0 9 15000 5000⟩]

/-- Stripe declines the overage of booking 1 only. -/
def sampleStripe : StripeCall → StripeReply
  | .authorizeAndCapture _ (.overage 1) => .stripeError
  | _ => .returned "pi"

theorem interleavings_agree_sampleShuffle :
    (∃ id, (processRecords sampleStripe sampleShuffle).view 1 =
      ((processRecords sampleStripe sampleOrder).view 1).withId id) ∧
    (processRecords sampleStripe sampleShuffle).view 1 ≠
      (processRecords sampleStripe sampleOrder).view 1 ∧
    writtenFor (processRecords sampleStripe sampleShuffle).outbox 0 =
      [⟨.paymentAuthorized, 0⟩, ⟨.paymentCaptured, 0⟩] ∧
    balance (processRecords sampleStripe sampleShuffle).ledgerEntries (.host 9) = 40000 := by
  have hfirsts : Interleavings.firsts (·.id) sampleOrder = sampleOrder := by decide
  have hfirsts' : Interleavings.firsts (·.id) sampleShuffle =
      [⟨1, 1, .authorizePaymentRequested 1 3 20000⟩, ⟨0, 0, .authorizePaymentRequested 0 2 15000⟩,
        ⟨3, 1, .capturePaymentRequested 1 9 20000 700⟩,
        ⟨2, 0, .capturePaymentRequested 0 9 15000 5000⟩] := by decide
  have hsame (b : Uuid) : commandsOf b sampleOrder = commandsOf b sampleShuffle := by
    by_cases h0 : 0 = b
    · subst h0
      decide
    by_cases h1 : 1 = b
    · subst h1
      decide
    rw [commandsOf, commandsOf, hfirsts, hfirsts']
    simp [sampleOrder, BookingMessage.bookingId, h0, h1]
  have hids : IdsIdentify sampleOrder := by unfold IdsIdentify; decide
  have hids' : IdsIdentify sampleShuffle := by unfold IdsIdentify; decide
  obtain ⟨hbookings, hbalance⟩ := interleavings_agree sampleStripe hids hids' hsame
  refine ⟨(hbookings 1).1, fun hview => ?_, (hbookings 0).2.trans (by decide),
    (hbalance (.host 9)).trans (by decide)⟩
  have hid := congrArg (fun v => v.payment.map (·.id)) hview
  exact absurd hid (by decide)

end CarFlow
