import CarFlow.Saga.Invariant

/-!
# What the two services agree on

The saga invariant read off at the two rows of a booking: in every reachable state, the status of
the booking bounds the status of its payment, and an operation of the host finds the columns it
computes with.

## Implementation notes

Nothing is proved about steps here: both results are `Coherent` of `Saga.Invariant` read off at a
state in which the two rows are looked at. The ledger entries of a captured payment are spelled out,
by account, direction and amount, for the renter and for the host.

## Main results

* `saga_agreement` — the status of a booking and the status of its payment
* `recordReturn_ne_typeError` — the arithmetic of a return never meets a null odometer
-/

namespace CarFlow

section Agreement

variable {s : SagaState} {b : Uuid} {row : Booking}

/-- The payment of a booking that has heard `events`. -/
theorem Coherent.payment_of_heard {v : SagaView} (h : Coherent b v) {e : PaymentEventType}
    {rest : List PaymentEventType} (hheard : v.handledEvents = e :: rest) :
    ∃ payment, v.payment.payment = some payment ∧
      e :: rest ++ v.events = payment.status.trail := by
  have htrail := h.trail
  rw [hheard, PaymentView.trail] at htrail
  cases hp : v.payment.payment with
  | none =>
    rw [hp] at htrail
    cases htrail
  | some payment =>
    rw [hp] at htrail
    exact ⟨payment, rfl, htrail⟩

/-- A trail that starts with a granted hold. -/
theorem status_of_trail_authorized {status : PaymentStatus} {rest : List PaymentEventType}
    (h : .paymentAuthorized :: rest = status.trail) : status = .authorized ∨ status.Settled := by
  cases status with
  | authorized => exact .inl rfl
  | captured => exact .inr (.inl rfl)
  | captureFailed => exact .inr (.inr rfl)
  | authorizationFailed => cases h

theorem Coherent.confirmed {v : SagaView} (h : Coherent b v) (hrow : v.booking.row = some row)
    (hstatus : row.status = .confirmed) :
    ∃ payment, v.payment.payment = some payment ∧ payment.status = .authorized := by
  have hheard := h.heard row hrow
  rw [hstatus] at hheard
  obtain ⟨payment, hp, htrail⟩ := h.payment_of_heard hheard
  refine ⟨payment, hp, (status_of_trail_authorized htrail).resolve_right fun hs => ?_⟩
  rcases (h.takenBack_of_settled hrow hp hs).1 with hs | hs <;> rw [hstatus] at hs <;> cases hs

theorem Coherent.active {v : SagaView} (h : Coherent b v) (hrow : v.booking.row = some row)
    (hstatus : row.status = .active) :
    ∃ payment, v.payment.payment = some payment ∧
      (payment.status = .authorized ∨ payment.status.Settled) := by
  have hheard := h.heard row hrow
  rw [hstatus] at hheard
  rcases hheard with hheard | hheard
  · obtain ⟨payment, hp, htrail⟩ := h.payment_of_heard hheard
    exact ⟨payment, hp, status_of_trail_authorized htrail⟩
  · obtain ⟨payment, hp, htrail⟩ := h.payment_of_heard hheard
    exact ⟨payment, hp, status_of_trail_authorized htrail⟩

theorem Coherent.completed {v : SagaView} (h : Coherent b v) (hrow : v.booking.row = some row)
    (hstatus : row.status = .completed) :
    ∃ payment, v.payment.payment = some payment ∧ payment.status = .captured := by
  have hheard := h.heard row hrow
  rw [hstatus] at hheard
  obtain ⟨payment, hp, htrail⟩ := h.payment_of_heard hheard
  refine ⟨payment, hp, ?_⟩
  cases hs : payment.status with
  | captured => rfl
  | _ => rw [hs] at htrail; cases htrail

theorem Coherent.cancelled {v : SagaView} (h : Coherent b v) (hrow : v.booking.row = some row)
    (hstatus : row.status = .cancelled) :
    ∃ payment, v.payment.payment = some payment ∧ payment.status = .authorizationFailed := by
  have hheard := h.heard row hrow
  rw [hstatus] at hheard
  obtain ⟨payment, hp, htrail⟩ := h.payment_of_heard hheard
  refine ⟨payment, hp, ?_⟩
  cases hs : payment.status with
  | authorizationFailed => rfl
  | _ => rw [hs] at htrail; cases htrail

/-- The rental of a captured payment is in the ledger: the renter of the booking is debited, its
host is credited. -/
theorem Coherent.rental_mem {v : SagaView} (h : Coherent b v) (hrow : v.booking.row = some row)
    {payment : Payment} (hp : v.payment.payment = some payment)
    (hstatus : payment.status = .captured) :
    renterDebit payment.id b row.renterId (row.dailyPriceCents * row.days) .rental
        ∈ v.payment.ledger ∧
      hostCredit payment.id b row.hostId (row.dailyPriceCents * row.days) .rental
        ∈ v.payment.ledger := by
  have hbooked := h.booked row payment hrow hp
  rw [Payment.Booked, if_pos hstatus, h.id row hrow, chargePair_eq, h.renter row payment hrow hp]
    at hbooked
  rw [hbooked.2]
  constructor <;> refine List.mem_append_left _ ?_
  · exact List.mem_cons_self
  · exact List.mem_cons_of_mem _ List.mem_cons_self

/-- A return of a booking that has been handed over, if it is active, computes its overage. -/
theorem recordReturn_ne_typeError (hstarted : row.status = .active → row.HandedOver)
    (hostId : Uuid) (payload : Handover) :
    recordReturn (some row) b hostId payload ≠ .error (.domain .typeError) := by
  intro herror
  simp only [recordReturn, Except.bind_eq_error_iff, requireFound, requireHost] at herror
  rcases herror with herror | ⟨_, hfound, herror⟩
  · cases herror
  obtain rfl := Except.ok.inj hfound
  rcases herror with herror | ⟨_, -, herror⟩
  · split at herror <;> cases herror
  rcases herror with herror | ⟨_, -, herror⟩
  · obtain ⟨e, he, hd⟩ := Except.mapError_eq_error_iff.mp herror
    cases hd
    obtain ⟨hs, hnone⟩ := Domain.recordReturn_typeError he
    have hsome := (hstarted hs).1
    rw [show row.startOdometer = none from hnone] at hsome
    cases hsome
  · cases herror

/-- **Saga agreement.** In every reachable state a confirmed booking has an authorized payment; an
active booking has a payment that is authorized, captured or failed to capture, and the car was
handed over, so that a return has an odometer to subtract; a completed booking has a captured
payment, the rental is debited from its renter and credited to its host, and the car was returned; a
cancelled booking has a payment whose authorization failed. -/
theorem saga_agreement (h : sagaSystem.Reachable s) (hrow : s.booking.getById b = some row) :
    (row.status = .confirmed → ∃ payment, s.payment.getByBookingId b = some payment ∧
      payment.status = .authorized) ∧
    (row.status = .active → (∃ payment, s.payment.getByBookingId b = some payment ∧
        (payment.status = .authorized ∨ payment.status = .captured ∨
          payment.status = .captureFailed)) ∧
      row.startOdometer.isSome ∧ row.startFuelPercent.isSome ∧ row.startPhotoUrl.isSome ∧
      ∀ hostId payload, recordReturn (some row) b hostId payload
        ≠ .error (.domain .typeError)) ∧
    (row.status = .completed → (∃ payment, s.payment.getByBookingId b = some payment ∧
        payment.status = .captured ∧
        renterDebit payment.id b row.renterId (row.dailyPriceCents * row.days) .rental
          ∈ s.payment.ledgerEntries ∧
        hostCredit payment.id b row.hostId (row.dailyPriceCents * row.days) .rental
          ∈ s.payment.ledgerEntries) ∧
      row.endOdometer.isSome) ∧
    (row.status = .cancelled → ∃ payment, s.payment.getByBookingId b = some payment ∧
      payment.status = .authorizationFailed) := by
  have hcoh := coherent_of_reachable h b
  refine ⟨hcoh.confirmed hrow, fun hs => ⟨hcoh.active hrow hs, ?_⟩, fun hs => ?_,
    hcoh.cancelled hrow⟩
  · have hstarted := hcoh.started row hrow
    obtain ⟨hodometer, hfuel, hphoto⟩ := hstarted (.inl hs)
    exact ⟨hodometer, hfuel, hphoto,
      recordReturn_ne_typeError fun hs => hstarted (.inl hs)⟩
  · obtain ⟨payment, hp, hcaptured⟩ := hcoh.completed hrow hs
    obtain ⟨hdebit, hcredit⟩ := hcoh.rental_mem hrow hp hcaptured
    refine ⟨⟨payment, hp, hcaptured, ?_, ?_⟩, ?_⟩
    · exact (List.mem_filter.mp hdebit).1
    · exact (List.mem_filter.mp hcredit).1
    · exact (hcoh.takenBack_of_settled hrow hp (.inl hcaptured)).2

end Agreement

/-! ### A sample booking -/

/-- Renter `2` books the car, and drives 700 of the 600 miles allowed. -/
def sampleTrip : List SagaAction :=
  [.perform (.requestBooking 0 (some (sampleVehicle .instant)) 2 sampleDates),
    .deliverCommand 0 fun _ => .returned "pi_hold",
    .deliverPaymentEvent 0,
    .perform (.recordHandover 0 1 (sampleHandover 1000)),
    .perform (.recordReturn 0 1 (sampleHandover 1700)),
    .deliverCommand 1 fun _ => .returned "not called",
    .deliverCommand 2 fun _ => .returned "pi_overage",
    .deliverPaymentEvent 1]

theorem saga_agreement_sampleTrip :
    ∃ s row, sagaSystem.run {} sampleTrip = some s ∧ s.booking.getById 0 = some row ∧
      row.status = .completed ∧
      s.payment.ledgerEntries = [⟨0, 0, .renter 2, .debit, 15000, .rental⟩,
        ⟨0, 0, .host 1, .credit, 15000, .rental⟩, ⟨0, 0, .renter 2, .debit, 5000, .mileageOverage⟩,
        ⟨0, 0, .host 1, .credit, 5000, .mileageOverage⟩] ∧
      (∃ payment, s.payment.getByBookingId 0 = some payment ∧
        payment.status = .captured ∧
        renterDebit payment.id 0 row.renterId (row.dailyPriceCents * row.days) .rental
          ∈ s.payment.ledgerEntries ∧
        hostCredit payment.id 0 row.hostId (row.dailyPriceCents * row.days) .rental
          ∈ s.payment.ledgerEntries) ∧ row.endOdometer.isSome := by
  have hend : (sagaSystem.run {} sampleTrip).map
      (fun s => (s.payment.ledgerEntries, (s.booking.getById 0).map (·.status))) =
        some ([⟨0, 0, .renter 2, .debit, 15000, .rental⟩, ⟨0, 0, .host 1, .credit, 15000, .rental⟩,
          ⟨0, 0, .renter 2, .debit, 5000, .mileageOverage⟩,
          ⟨0, 0, .host 1, .credit, 5000, .mileageOverage⟩], some .completed) := by decide
  obtain ⟨s, hrun, hs⟩ := Option.map_eq_some_iff.mp hend
  obtain ⟨hentries, hs⟩ := Prod.mk.inj hs
  obtain ⟨row, hrow, hstatus⟩ := Option.map_eq_some_iff.mp hs
  have hreach : sagaSystem.Reachable s := TransitionSystem.reachable_of_run .init hrun
  exact ⟨s, row, hrun, hrow, hstatus, hentries, (saga_agreement hreach hrow).2.2.1 hstatus⟩

end CarFlow
