import CarFlow.Booking.EventLog
import CarFlow.Listing.Transactions
import CarFlow.Payment.Crashes
import CarFlow.Saga.Agreement

/-!
# One rental price

The amount of a rental is computed twice, when the hold is asked for and when the car is returned,
and travels in two commands; payment stores it, captures it and books it, each time with the number
it was sent. Nothing compares them. They agree because both computations read columns that no
operation changes, and because every command in flight says what the row says.

Prices are positive: the schemas of the listing service refuse others, and a booking takes its price
from listing's answer.

## Implementation notes

`Listed` is a chain of predicates with one content: of a vehicle, of an operation that has read it,
of a row, and of all rows of a database. A booking gets its price from an operation that is
`Listed`, and no other operation touches the two columns. The amounts are then compared with the
row: `Booking.terms` is what the row asks payment for, and every command in flight, the payment, the
calls to Stripe and the ledger are each shown to say the same.

## Main results

* `Listed.outcome` — a booking keeps the price of its vehicle
* `BookingMessage.calls_holdCents` — the calls made for a command name its amount
* `exists_capture` — a captured payment was captured for the amount that was held
* `one_rental_price` — **in every reachable state** all of these amounts are one and positive
-/

namespace CarFlow

open BookingDb

/-! ### Vehicles that listing shows -/

/-- The bounds of `CreateVehicleRequest` and `UpdateVehicleRequest` that matter to a booking. -/
def VehicleInfo.Listed (vehicle : VehicleInfo) : Prop :=
  0 < vehicle.dailyPriceCents ∧ 0 < vehicle.dailyMileageLimit

/-- What `ListingClient.get_vehicle` makes of listing's row. -/
def Vehicle.info (vehicle : Vehicle) : VehicleInfo where
  id := vehicle.id
  hostId := vehicle.hostId
  dailyPriceCents := vehicle.dailyPriceCents
  dailyMileageLimit := vehicle.dailyMileageLimit
  bookingMode := vehicle.bookingMode
  approvalStatus := vehicle.approvalStatus

/-- Listing keeps the bounds, so what it shows is within them. -/
theorem listed_info {s : ListingServer} (h : listingServer.ReachableWhere (fun _ a => a.Valid) s)
    {vehicleId : Uuid} {vehicle : Vehicle} (hv : s.db.getById vehicleId = some vehicle) :
    vehicle.info.Listed :=
  (listingServer_listed h).vehicles vehicle (RowTable.mem_of_lookup hv)

/-- A vehicle in the request was shown by listing. -/
def BookingOperation.Listed : BookingOperation → Prop
  | .requestBooking _ (some vehicle) _ _ => vehicle.Listed
  | _ => True

/-- The step gets its vehicle from listing. -/
def SagaAction.Listed : SagaAction → Prop
  | .perform op => op.Listed
  | _ => True

/-- The terms of a booking are within the bounds of the listing service. -/
def Booking.Listed (row : Booking) : Prop := 0 < row.dailyPriceCents ∧ 0 < row.dailyMileageLimit

/-- The terms of all bookings are. -/
def BookingDb.Listed (db : BookingDb) : Prop := ∀ b row, db.getById b = some row → row.Listed

section Listed

variable {db db' : BookingDb} {op : BookingOperation} {row : Booking} {w : Writes}

/-- **A booking keeps the terms of its vehicle.** -/
theorem BookingDb.Listed.outcome (h : db.Listed) (hop : op.Listed)
    (hout : BookingOutcome db op db') : db'.Listed := by
  obtain ⟨w, heffect, hself, -⟩ := hout.effect
  intro b row hrow
  by_cases hb : op.bookingId = b
  swap
  · exact h b row ((congrArg BookingView.row (hout.others b hb)).symm.trans hrow)
  subst hb
  obtain rfl : w.booking = row :=
    Option.some.inj ((congrArg BookingView.row hself).symm.trans hrow)
  cases heffect with
  | opened id vehicle renterId payload hnone => exact hop
  | operated _ _ row hrow haccepts =>
    have hlisted : row.opened.Listed := h _ row hrow
    rw [← haccepts.opened_eq] at hlisted
    exact hlisted

theorem listed_paymentEventHandlers (message : PaymentMessage) :
    (paymentEventHandlers message).Listed := by
  obtain ⟨eventType, bookingId⟩ := message
  cases eventType <;> trivial

/-- All bookings of a run that gets its vehicles from listing. -/
theorem listed_of_reachable {s : SagaState}
    (h : sagaSystem.ReachableWhere (fun _ a => a.Listed) s) : s.booking.Listed := by
  refine h.invariant (fun s => s.booking.Listed) (fun _ _ hrow => by cases hrow)
    fun s a s' hr hl hok hstep => ?_
  cases sagaStep_cases hstep with
  | idle => exact hl
  | performed op db hop hx => exact hl.outcome hok (execute_outcome hx)
  | handled => exact hl
  | reacted i row db hi he hu h =>
    have hl' : BookingDb.Listed { s.booking with inbox := row.id :: s.booking.inbox } := hl
    exact hl'.outcome (listed_paymentEventHandlers row.payload) h

end Listed

/-! ### What a command asks of Stripe -/

/-- The amount a call holds or captures. -/
def StripeCall.holdCents? : StripeCall → Option ℤ
  | .authorize amountCents _ | .capture _ amountCents _ => some amountCents
  | .authorizeAndCapture .. => none

/-- The amount a command asks to hold or to capture. -/
def BookingMessage.holdCents? : BookingMessage → Option ℤ
  | .authorizePaymentRequested _ _ amountCents => some amountCents
  | .capturePaymentRequested _ _ holdAmountCents _ => some holdAmountCents
  | .lifecycle .. => none

/-- The calls made for a command name its amount. -/
theorem BookingMessage.calls_holdCents (payment : Option Payment) (message : BookingMessage) :
    (message.calls payment).Calls fun c => ∀ cents ∈ c.holdCents?, message.holdCents? = some cents
    := by
  cases message with
  | authorizePaymentRequested bookingId renterId amountCents =>
    cases payment with
    | some _ => trivial
    | none => exact ⟨fun _ h => h, fun _ => trivial⟩
  | capturePaymentRequested bookingId hostId holdAmountCents overageCents =>
    cases payment with
    | none => trivial
    | some payment =>
      simp only [BookingMessage.calls]
      split
      · trivial
      · refine ⟨fun _ h => h, fun r => ?_⟩
        cases r with
        | stripeError => trivial
        | returned captureId =>
          dsimp only
          split
          · exact ⟨fun _ h => (by cases h), fun _ => trivial⟩
          · trivial
  | lifecycle => trivial

/-- So do the calls of a delivery, whatever Stripe answers and whether it commits or not. -/
theorem holdCents_of_mem_trace {row : OutboxRow BookingMessage} {db : PaymentDb}
    {stripe : StripeCall → StripeReply} {e : StripeCall × StripeReply}
    (he : e ∈ (processCommand row db).trace stripe) :
    ∀ cents ∈ e.1.holdCents?, row.payload.holdCents? = some cents := by
  by_cases hu : row.id ∈ db.inbox
  · rw [processCommand_of_mem hu] at he
    cases he
  · have hcalls := BookingMessage.calls_holdCents (db.getByBookingId row.payload.bookingId)
      row.payload
    rw [← processCommand_calls hu] at hcalls
    exact (hcalls.of_map _).trace stripe e he

/-- The calls made to Stripe in a step, with their replies. -/
def SagaState.stripeCalls (s : SagaState) : SagaAction → List (StripeCall × StripeReply)
  | .deliverCommand i stripe =>
    match s.booking.outbox[i]? with
    | none => []
    | some row => (processCommand row s.payment).trace stripe
  | .perform _ | .deliverPaymentEvent _ => []

/-! ### One price -/

/-- The payment of a booking holds the price of its row. -/
def SagaView.HoldsPrice (v : SagaView) : Prop :=
  ∀ row payment, v.booking.row = some row → v.payment.payment = some payment →
    payment.holdAmountCents = row.dailyPriceCents * row.days

section Price

variable {s s' : SagaState} {b : Uuid} {v v' : SagaView} {row : Booking} {payment : Payment}
  {tr : List (StripeCall × StripeReply)}

/-- A faithful message names the price of the row. -/
theorem BookingMessage.Faithful.holdCents {message : BookingMessage} (h : message.Faithful row) :
    ∀ cents ∈ message.holdCents?, cents = row.dailyPriceCents * row.days := by
  intro cents hcents
  cases message with
  | authorizePaymentRequested bookingId renterId amountCents =>
    obtain rfl := Option.some.inj hcents
    exact (congrArg (·.2.2) h).symm
  | capturePaymentRequested bookingId hostId holdAmountCents overageCents =>
    obtain rfl := Option.some.inj hcents
    exact (congrArg (·.2.2) h.1).symm
  | lifecycle => cases hcents

/-- An operation keeps the price of the row. -/
theorem Accepts.price_eq {op : BookingOperation} {w : Writes} (h : Accepts row op w) :
    w.booking.dailyPriceCents * w.booking.days = row.dailyPriceCents * row.days := by
  have hprice := congrArg (fun r : Booking => r.dailyPriceCents * r.days) h.opened_eq
  exact hprice

theorem SagaView.HoldsPrice.operated (h : v.HoldsPrice) (hcoh : Coherent b v)
    {op : BookingOperation} {w : Writes} (heffect : BookingEffect v.booking op w) :
    ∀ row payment, (v.booking.after w).row = some row → v.payment.payment = some payment →
      payment.holdAmountCents = row.dailyPriceCents * row.days := by
  intro row payment hrow hp
  obtain rfl : w.booking = row := Option.some.inj hrow
  cases heffect with
  | opened id vehicle renterId payload hnone =>
    obtain rfl := hcoh.unopened hnone
    cases hp
  | operated _ _ row hrow haccepts => rw [haccepts.price_eq, h row payment hrow hp]

theorem SagaView.HoldsPrice.handled (h : v.HoldsPrice) (hcoh : Coherent b v)
    {message : BookingMessage} {rest : List BookingMessage} {view : PaymentView}
    {events : List PaymentEventType} (hqueue : v.commands = message :: rest)
    (heffect : CommandEffect b v.payment message tr view events) :
    ∀ row payment, v.booking.row = some row → view.payment = some payment →
      payment.holdAmountCents = row.dailyPriceCents * row.days := by
  intro row payment hrow hp
  have hfaithful := hcoh.faithful row hrow message (by simp [SagaView.written, hqueue])
  cases heffect with
  | announced | existing | absent | settled => exact h row payment hrow hp
  | authorizeRefused | held =>
    obtain rfl := Option.some.inj hp
    exact hfaithful.holdCents _ rfl
  | captureRefused _ _ _ payment hfound | captured _ _ _ payment _ _ hfound
  | charged _ _ _ payment _ _ hfound =>
    obtain rfl := Option.some.inj hp
    exact h row payment hrow hfound

theorem SagaView.HoldsPrice.step (h : v.HoldsPrice) (hcoh : Coherent b v)
    (hstep : ViewStep b v tr v') : v'.HoldsPrice := by
  cases hstep with
  | idle => exact h
  | performed op w hop hid heffect => exact h.operated hcoh heffect
  | handled message rest _ view events hqueue heffect => exact h.handled hcoh hqueue heffect
  | reacted eventType rest w hqueue heffect => exact h.operated hcoh heffect

theorem holdsPrice_of_reachable (h : sagaSystem.Reachable s) (b : Uuid) :
    (s.view b).HoldsPrice := by
  refine h.invariant (fun s => (s.view b).HoldsPrice) (fun _ _ hrow => by cases hrow)
    fun s a s' hr hprice hstep => ?_
  obtain ⟨tr, hview, -⟩ := (sagaOk_of_reachable hr).step_view (sagaStep_cases hstep) b
  exact hprice.step (coherent_of_reachable hr b) hview

/-- A delivery changes nothing in the payment database, or it is the command's outcome, with the
calls made. -/
theorem deliverCommand_outcome {i : ℕ} {stripe : StripeCall → StripeReply}
    (h : sagaStep s (.deliverCommand i stripe) = some s') :
    s' = s ∨ ∃ row, s.booking.outbox[i]? = some row ∧ s'.booking = s.booking ∧
      CommandOutcome { s.payment with inbox := row.id :: s.payment.inbox } row.payload
        (s.stripeCalls (.deliverCommand i stripe)) s'.payment := by
  simp only [sagaStep, Option.bind_eq_bind, Option.bind_eq_some_iff,
    Option.ite_none_right_eq_some, Option.some.injEq] at h
  obtain ⟨row, hi, he, rfl⟩ := h
  by_cases hu : row.id ∈ s.payment.inbox
  · rw [processCommand_of_mem hu]
    exact .inl rfl
  cases hx : (processCommand row s.payment).run stripe with
  | error e => exact .inl rfl
  | ok db =>
    have hpath := CallProgram.path_trace stripe (processCommand row s.payment)
    rw [hx] at hpath
    refine .inr ⟨row, hi, rfl, ?_⟩
    rw [SagaState.stripeCalls, hi]
    exact processCommand_path hu hpath

/-- A command leaves a payment captured if it was before, or if it captured it. -/
theorem CommandEffect.captured_cases {message : BookingMessage} {view view' : PaymentView}
    {events : List PaymentEventType} (h : CommandEffect b view message tr view' events)
    (hp : view'.payment = some payment) (hstatus : payment.status = .captured) :
    view.payment = some payment ∨ ∃ cents captureId, message.holdCents? = some cents ∧
      (.capture payment.stripePaymentIntentId cents (.capture b), .returned captureId) ∈ tr := by
  cases h with
  | announced | existing | absent | settled => exact .inl hp
  | authorizeRefused | held | captureRefused =>
    obtain rfl := Option.some.inj hp
    cases hstatus
  | captured _ holdAmountCents _ _ captureId =>
    obtain rfl := Option.some.inj hp
    exact .inr ⟨holdAmountCents, captureId, rfl, List.mem_cons_self⟩
  | charged _ holdAmountCents _ _ captureId =>
    obtain rfl := Option.some.inj hp
    exact .inr ⟨holdAmountCents, captureId, rfl, List.mem_cons_self⟩

/-- Every captured payment was captured in a step of the run, for the amount that was held. -/
theorem exists_capture {steps : List (SagaState × SagaAction)}
    (h : sagaSystem.Exec sagaSystem.init steps s) :
    ∀ b payment, s.payment.getByBookingId b = some payment → payment.status = .captured →
      ∃ x ∈ steps, ∃ captureId,
        (.capture payment.stripePaymentIntentId payment.holdAmountCents (.capture b),
          .returned captureId) ∈ x.1.stripeCalls x.2 := by
  induction h with
  | nil => exact fun _ _ hp => by cases hp
  | snoc hexec hstep ih =>
    rename_i steps s s' a
    intro b payment hp hstatus
    by_cases hold : s.payment.getByBookingId b = some payment
    · obtain ⟨x, hx, hcaptured⟩ := ih b payment hold hstatus
      exact ⟨x, List.mem_append_left _ hx, hcaptured⟩
    refine ⟨(s, a), List.mem_append_right _ List.mem_cons_self, ?_⟩
    cases a with
    | perform op =>
      simp only [sagaSystem, sagaStep, Option.ite_none_right_eq_some, Option.some.injEq] at hstep
      obtain ⟨-, rfl⟩ := hstep
      exact absurd hp hold
    | deliverPaymentEvent i =>
      simp only [sagaSystem, sagaStep, Option.bind_eq_bind, Option.bind_eq_some_iff,
        Option.ite_none_right_eq_some, Option.some.injEq] at hstep
      obtain ⟨row, -, -, rfl⟩ := hstep
      exact absurd hp hold
    | deliverCommand i stripe =>
      rcases deliverCommand_outcome hstep with rfl | ⟨r, hi, hbooking, hout⟩
      · exact absurd hp hold
      by_cases hb : r.payload.bookingId = b
      swap
      · have hview := congrArg PaymentView.payment (hout.others b hb)
        exact absurd (hview.symm.trans hp) hold
      subst hb
      obtain ⟨events, heffect, -⟩ := hout.effect
      rcases heffect.captured_cases hp hstatus with hkept | ⟨cents, captureId, hcents, hcall⟩
      · exact absurd hkept hold
      -- the command in flight names the price of the row, and so does the payment it captured
      have hr := List.mem_of_getElem? hi
      have hkey := (sagaOk_of_reachable hexec.reachable).commandKey r hr
      have hwritten := mem_written.mpr ⟨r, hr, hkey.symm, rfl⟩
      have hcoh := coherent_of_reachable hexec.reachable r.payload.bookingId
      obtain ⟨row, hrow⟩ := hcoh.exists_row (by
        intro hv
        rw [hv] at hwritten
        cases hwritten)
      have hprice := holdsPrice_of_reachable (hexec.reachable.step hstep) r.payload.bookingId row
        payment ((congrArg (BookingDb.getById · _) hbooking).trans hrow) hp
      rw [(hcoh.faithful row hrow _ hwritten).holdCents cents hcents, ← hprice] at hcall
      exact ⟨captureId, hcall⟩

end Price

/-- One price: the amounts of all commands, calls, holds and ledger entries of a booking. -/
structure OneRentalPrice (s : SagaState) (row : Booking) : Prop where
  positive : 0 < row.dailyPriceCents * row.days
  /-- Commands that were written. -/
  written : ∀ r ∈ s.booking.outbox, r.payload.bookingId = row.id →
    ∀ cents ∈ r.payload.holdCents?, cents = row.dailyPriceCents * row.days
  /-- Calls that a delivery can make, whatever Stripe answers and whether it commits or not. -/
  asked : ∀ r ∈ s.booking.outbox, r.payload.bookingId = row.id → ∀ stripe,
    ∀ e ∈ (processCommand r s.payment).trace stripe,
      ∀ cents ∈ e.1.holdCents?, cents = row.dailyPriceCents * row.days
  held : ∀ payment, s.payment.getByBookingId row.id = some payment →
    payment.holdAmountCents = row.dailyPriceCents * row.days
  booked : ∀ payment, s.payment.getByBookingId row.id = some payment → payment.status = .captured →
    s.payment.ledgerEntries.filter (fun entry => entry.bookingId = row.id ∧
      entry.reason = .rental) =
      [renterDebit payment.id row.id row.renterId (row.dailyPriceCents * row.days) .rental,
        hostCredit payment.id row.id row.hostId (row.dailyPriceCents * row.days) .rental]

/-- **One rental price everywhere.** At the end of every run that gets its vehicles from listing,
every command belongs to a booking, and all its amounts are the price of its row. A captured payment
was captured at Stripe in a step of the run, for the amount that was held. -/
theorem one_rental_price {steps : List (SagaState × SagaAction)} {s : SagaState}
    (h : sagaSystem.Exec sagaSystem.init steps s) (hlisted : ∀ x ∈ steps, x.2.Listed) :
    (∀ r ∈ s.booking.outbox, ∃ row, s.booking.getById r.payload.bookingId = some row) ∧
    ∀ b row, s.booking.getById b = some row → OneRentalPrice s row ∧
      ∀ payment, s.payment.getByBookingId b = some payment → payment.status = .captured →
        ∃ x ∈ steps, ∃ captureId,
          (.capture payment.stripePaymentIntentId (row.dailyPriceCents * row.days) (.capture b),
            .returned captureId) ∈ x.1.stripeCalls x.2 := by
  have hr := h.reachable
  have hkey := (sagaOk_of_reachable hr).commandKey
  have hwritten {r : OutboxRow BookingMessage} (hm : r ∈ s.booking.outbox) :
      r.payload ∈ (s.view r.payload.bookingId).written :=
    mem_written.mpr ⟨r, hm, (hkey r hm).symm, rfl⟩
  refine ⟨fun r hm => ?_, fun b row hrow => ?_⟩
  · refine (coherent_of_reachable hr r.payload.bookingId).exists_row fun hv => ?_
    have hmem := hwritten hm
    rw [hv] at hmem
    cases hmem
  obtain rfl : row.id = b := RowTable.key_of_lookup hrow
  have hcoh := coherent_of_reachable hr row.id
  have hprice := holdsPrice_of_reachable hr row.id row
  have hfaithful {r : OutboxRow BookingMessage} (hm : r ∈ s.booking.outbox)
      (hid : r.payload.bookingId = row.id) :
      ∀ cents ∈ r.payload.holdCents?, cents = row.dailyPriceCents * row.days :=
    (hcoh.faithful row hrow _ (hid ▸ hwritten hm)).holdCents
  refine ⟨⟨?_, fun r hm hid => hfaithful hm hid, fun r hm hid stripe e he cents hcents => ?_,
    fun payment hp => hprice payment hrow hp, fun payment hp hstatus => ?_⟩,
    fun payment hp hstatus => ?_⟩
  · exact Int.mul_pos (listed_of_reachable (h.reachableWhere hlisted) _ row hrow).1 row.days_pos
  · exact hfaithful hm hid cents (holdCents_of_mem_trace he cents hcents)
  · have hbooked := hcoh.booked row payment hrow hp
    rw [Payment.Booked, if_pos hstatus] at hbooked
    simp only [chargePair_eq, hcoh.renter row payment hrow hp] at hbooked
    have hrental := congrArg (List.filter (·.reason = .rental)) hbooked.2
    simp only [SagaState.view, PaymentDb.view, List.filter_filter] at hrental
    refine Eq.trans ?_ (hrental.trans ?_)
    · simp only [Bool.decide_and, Bool.and_comm]
    · split <;> rfl
  · rw [← hprice payment hrow hp]
    exact exists_capture h row.id payment hp hstatus

theorem one_rental_price_sampleTrip :
    ∃ s row payment, sagaSystem.run {} sampleTrip = some s ∧ s.booking.getById 0 = some row ∧
      row.dailyPriceCents * row.days = 15000 ∧
      s.payment.getByBookingId 0 = some payment ∧ payment.status = .captured ∧
      s.payment.ledgerEntries.filter (·.reason = .rental) =
        [⟨0, 0, .renter 2, .debit, 15000, .rental⟩, ⟨0, 0, .host 1, .credit, 15000, .rental⟩] ∧
      OneRentalPrice s row := by
  have hend : (sagaSystem.run {} sampleTrip).map (fun s =>
      ((s.booking.getById 0).map fun row => row.dailyPriceCents * row.days,
        (s.payment.getByBookingId 0).map (·.status),
        s.payment.ledgerEntries.filter (·.reason = .rental))) =
      some (some 15000, some .captured, [⟨0, 0, .renter 2, .debit, 15000, .rental⟩,
        ⟨0, 0, .host 1, .credit, 15000, .rental⟩]) := by decide
  obtain ⟨s, hrun, hs⟩ := Option.map_eq_some_iff.mp hend
  simp only [Prod.mk.injEq, Option.map_eq_some_iff] at hs
  obtain ⟨⟨row, hrow, hprice⟩, ⟨payment, hp, hstatus⟩, hentries⟩ := hs
  obtain ⟨steps, hexec, hactions⟩ := TransitionSystem.exec_of_run hrun
  have hlisted : ∀ a ∈ sampleTrip, a.Listed := by
    simp [sampleTrip, SagaAction.Listed, BookingOperation.Listed, VehicleInfo.Listed,
      sampleVehicle]
  have hone := (one_rental_price hexec fun x hx =>
    hlisted x.2 (hactions ▸ List.mem_map_of_mem hx)).2 0 row hrow
  exact ⟨s, row, payment, hrun, hrow, hprice, hp, hstatus, hentries, hone.1⟩

end CarFlow
