import CarFlow.Saga.Agreement
import Mathlib.Data.Int.Order.Lemmas

/-!
# The amounts of a booking and the columns that hold them

The price of a day, the dates and the odometers are each checked where they enter, against the
column they are stored in. The amounts computed from them are not: the hold is a price times a
number of days, and the overage fifty cents a mile, and both are sent to payment and stored there
in four-byte columns. An amount that does not fit is refused when the statement is sent, which
aborts the handler of the command, on the branch that records a refused hold too.

## Main results

* `amounts_fit_iff` — the amounts of a booking fit exactly within two bounds on the inputs
-/

namespace CarFlow

/-- The largest value of an `Integer` column. -/
def maxInteger : ℤ := 2 ^ 31 - 1

/-- The miles over the allowance whose charge still fits a column. -/
def maxOverageMiles : ℤ := maxInteger / Domain.overageRateCentsPerMile

/-- The amounts of a booking fit the columns that hold them: the hold, in `hold_amount_cents` and
in the ledger; the overage of a return, in the `overage_cents` of both services and in the ledger;
and so no first authorize command of the booking is refused as out of range, whatever Stripe
answers. -/
structure AmountsFit (row : Booking) (startOdometer endOdometer : ℤ) : Prop where
  hold : FitsInteger (row.dailyPriceCents * row.days)
  overage : FitsInteger (row.overageAt startOdometer endOdometer)
  authorize : ∀ (db : PaymentDb) (stripe : StripeCall → StripeReply),
    db.getByBookingId row.id = none →
      (handleAuthorizePaymentRequested db row.id row.renterId
        (row.dailyPriceCents * row.days)).run stripe ≠ .error .dataError

section Amounts

variable {row : Booking} {startOdometer endOdometer : ℤ}

/-- An authorize command is refused as out of range exactly if its amount is. -/
theorem authorize_ne_dataError_iff {bookingId renterId : Uuid} {amountCents : ℤ} :
    (∀ (db : PaymentDb) (stripe : StripeCall → StripeReply), db.getByBookingId bookingId = none →
      (handleAuthorizePaymentRequested db bookingId renterId amountCents).run stripe
        ≠ .error .dataError) ↔ FitsInteger amountCents := by
  constructor
  · intro h
    by_contra hf
    refine h {} (fun _ => .stripeError) rfl ?_
    rw [run_handleAuthorizePaymentRequested rfl, if_neg hf]
  · intro hf db stripe hnone
    rw [run_handleAuthorizePaymentRequested hnone, if_pos hf]
    nofun

/-- A positive price, over the days of a booking, fits exactly up to a bound on the price. -/
theorem hold_fits_iff (hprice : 0 < row.dailyPriceCents) :
    FitsInteger (row.dailyPriceCents * row.days) ↔
      row.dailyPriceCents ≤ maxInteger / row.days := by
  have hdays := row.days_pos
  have hpos : 0 < row.dailyPriceCents * row.days := Int.mul_pos hprice hdays
  rw [Int.le_ediv_iff_mul_le hdays]
  simp only [FitsInteger, maxInteger]
  omega

/-- The overage fits exactly up to a bound on the miles beyond the allowance. -/
theorem overage_fits_iff :
    FitsInteger (row.overageAt startOdometer endOdometer) ↔
      endOdometer - startOdometer - row.dailyMileageLimit * row.days ≤ maxOverageMiles := by
  simp only [FitsInteger, Booking.overageAt, Domain.computeOverageCents,
    Domain.overageRateCentsPerMile, maxOverageMiles, maxInteger]
  generalize row.dailyMileageLimit * row.days = allowed
  split <;> omega

/-- **The amounts of a booking fit exactly within two bounds**: on the price of a day, by the
number of days, and on the miles driven beyond the allowance. The schemas promise a positive price
and dates in order; that each input fits its own column does not matter. -/
theorem amounts_fit_iff (id renterId : Uuid) (vehicle : VehicleInfo)
    (payload : CreateBookingRequest) (handover : HandoverRequest) (ret : ReturnRequest)
    (hprice : 0 < vehicle.dailyPriceCents) :
    AmountsFit (createRequested id vehicle renterId payload) handover.odometer ret.odometer ↔
      vehicle.dailyPriceCents ≤ maxInteger / daysBetween payload.endDate payload.startDate ∧
        ret.odometer - handover.odometer -
          vehicle.dailyMileageLimit * daysBetween payload.endDate payload.startDate
            ≤ maxOverageMiles := by
  let row := createRequested id vehicle renterId payload
  have hdays : row.days = daysBetween payload.endDate payload.startDate := by
    have hpos := payload.date_order
    simp only [row, Booking.days, createRequested, daysBetween]
    omega
  have hhold : FitsInteger (row.dailyPriceCents * row.days) ↔
      vehicle.dailyPriceCents ≤ maxInteger / daysBetween payload.endDate payload.startDate :=
    hdays ▸ hold_fits_iff hprice
  have hoverage : FitsInteger (row.overageAt handover.odometer ret.odometer) ↔
      ret.odometer - handover.odometer -
        vehicle.dailyMileageLimit * daysBetween payload.endDate payload.startDate
          ≤ maxOverageMiles :=
    hdays ▸ overage_fits_iff
  constructor
  · intro h
    exact ⟨hhold.mp h.hold, hoverage.mp h.overage⟩
  · rintro ⟨hp, hm⟩
    exact ⟨hhold.mpr hp, hoverage.mpr hm, authorize_ne_dataError_iff.mpr (hhold.mpr hp)⟩

theorem amounts_fit_sample :
    AmountsFit (createRequested 0 (sampleVehicle .instant) 2 sampleDates) 1000 1700 :=
  (amounts_fit_iff 0 2 (sampleVehicle .instant) sampleDates (sampleHandover 1000)
    (sampleHandover 1700) (by decide)).mpr (by decide)

/-- A car at the highest price its column can hold, 21474836.47 a day. -/
def sampleDearVehicle : VehicleInfo := { sampleVehicle .instant with dailyPriceCents := 2147483647 }

/-- Booked for three days, it blocks the payment consumer: both branches of the handler raise. -/
theorem amounts_do_not_fit_dear_vehicle :
    0 < sampleDearVehicle.dailyPriceCents ∧ FitsInteger sampleDearVehicle.dailyPriceCents ∧
      ¬ AmountsFit (createRequested 0 sampleDearVehicle 2 sampleDates) 1000 1700 ∧
      (handleAuthorizePaymentRequested {} 0 2 (2147483647 * 3)).run (fun _ => .stripeError)
        = .error .dataError ∧
      (handleAuthorizePaymentRequested {} 0 2 (2147483647 * 3)).run (fun _ => .returned "pi_hold")
        = .error .dataError :=
  ⟨by decide, by decide, fun h => absurd h.hold (by decide), rfl, rfl⟩

end Amounts

end CarFlow
