import Mathlib.Algebra.Ring.Int.Defs
import Mathlib.Tactic.Cases

/-!
# Column types shared by the services

`uuid.UUID` columns are only ever compared, so they are natural numbers here. `Integer` columns
are mathematical integers together with the range a flush accepts: SQLAlchemy's `Integer` is
Postgres' four-byte `integer`, and the driver refuses a value outside it.
-/

namespace CarFlow

/-- A `uuid.UUID`. -/
abbrev Uuid := ℕ

/-- The identifier of an outbox row, and of the Kafka record Debezium makes of it. -/
abbrev EventId := ℕ

/-- The `booking_mode` of a vehicle and of its bookings. -/
inductive BookingMode
  | instant
  | request
  deriving DecidableEq

/-- The `approval_status` of a vehicle. -/
inductive ApprovalStatus
  | pending
  | approved
  | rejected
  deriving DecidableEq

/-- The values an `Integer` column can hold. -/
def FitsInteger (n : ℤ) : Prop := -2 ^ 31 ≤ n ∧ n < 2 ^ 31

instance (n : ℤ) : Decidable (FitsInteger n) := inferInstanceAs (Decidable (_ ∧ _))

/-- A nullable `Integer` column. -/
def FitsNullable (n : Option ℤ) : Prop := ∀ m ∈ n, FitsInteger m

instance (n : Option ℤ) : Decidable (FitsNullable n) := by
  unfold FitsNullable
  infer_instance

/-- A `datetime.date`, by its proleptic Gregorian ordinal: day `1` is `date.min`, the first of
January of year 1, and day `3652059` is `date.max`, the last of December of year 9999. -/
structure Date where
  /-- `date.toordinal()`. -/
  ordinal : ℤ
  /-- Nothing lies before `date.min`. -/
  min_le : 1 ≤ ordinal
  /-- Nothing lies after `date.max`. -/
  le_max : ordinal ≤ 3652059
  deriving DecidableEq

/-- `(later - earlier).days`. -/
def daysBetween (later earlier : Date) : ℤ := later.ordinal - earlier.ordinal

/-- The database after a transaction: what it committed, or the old one if it raised. -/
def committed {ε δ : Type} (db : δ) : Except ε δ → δ
  | .ok db' => db'
  | .error _ => db

end CarFlow
