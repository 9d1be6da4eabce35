import CarFlow.Booking.EventLog
import CarFlow.Lib.ProcessFamily
import CarFlow.Lib.TransitionSystem

/-!
# Concurrent booking transactions

The operations of the booking service as transactions that run side by side under READ COMMITTED. A
transaction reads the row of its booking, computes its writes from it, and then sends its statements
one at a time, between any two of which other transactions may read, write and commit.

## The statements

`request_booking` inserts the row, appends its event and updates the row. The other operations
append their events and then update the row; `record_handover` and `record_return` have by then
changed the row object already, and those columns go to the database with the first event: before
it if the session flushes by itself before an insert, and after it otherwise. Both are allowed here
(`autoflush`). An update sends the columns of the row object that changed, and only these.

## The database

* a written row is locked until its transaction ends;
* a unique key, or a range of dates, that an unfinished transaction has taken makes others wait for
  its end, and a committed one makes the statement fail, which ends the transaction;
* a transaction may also be aborted at any other point.

## Main results

* `Transaction.Ok.commit` — a transaction that gets to its commit has the effect of
  `BookingDb.execute` on the database at that moment
* `bookings_fold_event_log` — **in every reachable state** the row of a booking is the fold of its
  event log, and each transition was computed from the fold of the events before its own
-/

namespace CarFlow

/-! ### Statements

What a session sends: the insert of a row, the update of its columns, and the insert of an event. -/

/-- A statement that writes. -/
inductive Statement
  | insertBooking (row : Booking)
  | insertEvent (row : BookingEventRow)
  | insertOutbox (message : BookingMessage)
  /-- The columns in which `new` differs from `old`. An `IntegrityError` surfaces as
  `integrity`. -/
  | updateBooking (old new : Booking) (integrity : BookingError)

/-- Set the columns in which `new` differs from `old`. No operation assigns to the others. -/
def Booking.updateColumns (old new current : Booking) : Booking :=
  { current with
    status := if new.status = old.status then current.status else new.status
    version := if new.version = old.version then current.version else new.version
    startOdometer :=
      if new.startOdometer = old.startOdometer then current.startOdometer else new.startOdometer
    endOdometer :=
      if new.endOdometer = old.endOdometer then current.endOdometer else new.endOdometer
    startFuelPercent := if new.startFuelPercent = old.startFuelPercent then
      current.startFuelPercent else new.startFuelPercent
    endFuelPercent := if new.endFuelPercent = old.endFuelPercent then
      current.endFuelPercent else new.endFuelPercent
    startPhotoUrl :=
      if new.startPhotoUrl = old.startPhotoUrl then current.startPhotoUrl else new.startPhotoUrl
    endPhotoUrl :=
      if new.endPhotoUrl = old.endPhotoUrl then current.endPhotoUrl else new.endPhotoUrl
    overageCents :=
      if new.overageCents = old.overageCents then current.overageCents else new.overageCents }

/-- The row object that `append_events` gets: the row that was read, with what `_apply_transition`
assigned. -/
def Writes.assigned (w : Writes) (row : Booking) : Booking :=
  { w.booking with status := row.status, version := row.version }

/-- The flush of what `_apply_transition` assigned, if it assigned anything. -/
def Writes.flushAssigned (w : Writes) (row : Booking) : List Statement :=
  if w.assigned row = row then []
  else [.updateBooking row (w.assigned row) (.concurrentBookingUpdate row.id)]

/-- The statements of an operation, in order. -/
def Writes.statements (w : Writes) (read : Option Booking) (autoflush : Bool) : List Statement :=
  match read with
  | none =>
    .insertBooking w.booking.opened :: w.events.map .insertEvent ++ w.outbox.map .insertOutbox ++
      [.updateBooking w.booking.opened w.booking .integrityError]
  | some row =>
    (if autoflush then w.flushAssigned row ++ w.events.map .insertEvent
      else (w.events.take 1).map .insertEvent ++ w.flushAssigned row ++
        (w.events.drop 1).map .insertEvent) ++
      w.outbox.map .insertOutbox ++ [.updateBooking (w.assigned row) w.booking .integrityError]

/-! ### Transactions

A transaction sends its statements one by one. Where the session flushes by itself, before a query,
is up to the run. -/

/-- A transaction under way. What it has written nobody else sees. -/
structure Transaction where
  op : BookingOperation
  /-- The row it read; `request_booking` reads none. -/
  read : Option Booking
  writes : Writes
  /-- The statements it has sent. -/
  sent : List Statement := []
  /-- The statements it has still to send. -/
  pending : List Statement
  /-- Its version of the row, once it has written it. -/
  row : Option Booking := none

/-- A committed transaction. -/
structure Commit where
  op : BookingOperation
  read : Option Booking
  writes : Writes

/-- The committed database, the transactions under way, and those that have committed, in order.
Nothing reads the last. -/
structure BookingServer where
  db : BookingDb := {}
  transactions : List Transaction := []
  history : List Commit := []

/-- The event a statement appends. -/
def Statement.event? : Statement → Option BookingEventRow
  | .insertEvent row => some row
  | _ => none

/-- The outbox message a statement writes. -/
def Statement.message? : Statement → Option BookingMessage
  | .insertOutbox message => some message
  | _ => none

/-- The events a transaction has appended. -/
def Transaction.events (t : Transaction) : List BookingEventRow := t.sent.filterMap Statement.event?

/-- The outbox messages a transaction has written. -/
def Transaction.outbox (t : Transaction) : List BookingMessage :=
  t.sent.filterMap Statement.message?

/-- What becomes of a statement: it waits for another transaction, it raises, or it runs and leaves
the transaction with a version of the row. -/
inductive StatementResult
  | waits
  | raises (error : BookingError)
  | runs (row : Option Booking)

section Exec

variable (db : BookingDb) (others : List Transaction)

/-- Another transaction has written the row. -/
def Locked (bookingId : Uuid) : Prop := ∃ t ∈ others, ∃ r ∈ t.row, r.id = bookingId

instance (bookingId : Uuid) : Decidable (Locked others bookingId) := by
  unfold Locked
  infer_instance

/-- Another transaction has appended this version. -/
def VersionPending (event : BookingEventRow) : Prop :=
  ∃ t ∈ others, ∃ e ∈ t.events, e.bookingId = event.bookingId ∧ e.version = event.version

instance (event : BookingEventRow) : Decidable (VersionPending others event) := by
  unfold VersionPending
  infer_instance

/-- Another transaction has written a row with a day of `row` on which one of the two versions of
that row is live. -/
def Contested (row : Booking) : Prop :=
  row.Live ∧ ∃ t ∈ others, ∃ r ∈ t.row, r.id ≠ row.id ∧ r.Overlaps row ∧
    (r.Live ∨ ∃ c ∈ db.getById r.id, c.Live)

instance (row : Booking) : Decidable (Contested db others row) := by
  unfold Contested
  infer_instance

/-- Run a statement of a transaction whose version of the row is `own`. -/
def Statement.exec (own : Option Booking) : Statement → StatementResult
  | .insertBooking row =>
    if ¬ row.FitsColumns then .raises .dataError
    else if Locked others row.id ∨ Contested db others row then .waits
    else if (db.getById row.id).isSome ∨ db.Overlapped row then
      .raises (.overlappingBooking row.vehicleId)
    else .runs (some row)
  | .insertEvent row =>
    if ¬ FitsInteger row.version then .raises .dataError
    else if VersionPending others row then .waits
    else if db.VersionTaken [row] then .raises (.concurrentBookingUpdate row.bookingId)
    else .runs own
  | .insertOutbox _ => .runs own
  | .updateBooking old new integrity =>
    if Locked others old.id then .waits
    else match own.or (db.getById old.id) with
      | none => .raises .staleData
      | some current =>
        let row := old.updateColumns new current
        if ¬ row.FitsColumns then .raises .dataError
        else if Contested db others row then .waits
        else if db.Overlapped row then .raises integrity
        else .runs (some row)

end Exec

/-- The steps of the server. -/
inductive ServerAction
  /-- A transaction reads its row and computes its writes. -/
  | begin (op : BookingOperation) (autoflush : Bool)
  /-- A transaction sends its next statement. -/
  | run (i : ℕ)
  | commit (i : ℕ)
  | abort (i : ℕ)

/-- The database once a transaction has committed. -/
def BookingDb.commit (db : BookingDb) (t : Transaction) : BookingDb :=
  { db with
    bookings :=
      match t.row with
      | none => db.bookings
      | some row =>
        if t.op.creates then db.bookings ++ [row]
        else RowTable.update Booking.id db.bookings row
    bookingEvents := db.bookingEvents ++ t.events
    outbox := writeAll db.outbox t.op.bookingId t.outbox }

/-- One step. A statement that raises ends its transaction. -/
def serverStep (s : BookingServer) : ServerAction → Option BookingServer
  | .begin op autoflush =>
    let read := if op.creates then none else s.db.getById op.bookingId
    match op.plan read with
    | .error _ => none
    | .ok writes => some { s with
        transactions := s.transactions ++
          [{ op, read, writes, pending := writes.statements read autoflush }] }
  | .run i => do
    let t ← s.transactions[i]?
    match t.pending with
    | [] => none
    | statement :: pending =>
      match statement.exec s.db (s.transactions.eraseIdx i) t.row with
      | .waits => none
      | .raises _ => some { s with transactions := s.transactions.eraseIdx i }
      | .runs row => some { s with
          transactions := s.transactions.set i
            { t with sent := t.sent ++ [statement], pending, row } }
  | .commit i => do
    let t ← s.transactions[i]?
    if t.pending = [] then
      some { db := s.db.commit t
             transactions := s.transactions.eraseIdx i
             history := s.history ++ [{ op := t.op, read := t.read, writes := t.writes }] }
    else none
  | .abort i => do
    let _ ← s.transactions[i]?
    some { s with transactions := s.transactions.eraseIdx i }

/-- The booking service and its database. -/
def bookingServer : TransitionSystem BookingServer ServerAction where
  init := {}
  step := serverStep

/-! ### What the statements of an operation amount to -/

namespace Booking

variable {old new current : Booking}

@[simp] theorem opened_updateColumns (old new current : Booking) :
    (old.updateColumns new current).opened = current.opened := rfl

@[simp] theorem id_updateColumns (old new current : Booking) :
    (old.updateColumns new current).id = current.id := rfl

/-- On the row an object was loaded from, its changes lead to the object. -/
theorem updateColumns_self (h : new.opened = old.opened) : old.updateColumns new old = new := by
  have hset {α : Type} [DecidableEq α] (x y : α) : (if x = y then y else x) = x := by
    split
    · exact Eq.symm ‹_›
    · rfl
  cases old
  cases new
  simp only [opened, mk.injEq] at h
  simp only [updateColumns, hset, mk.injEq, and_true]
  simp [h]

end Booking

/-- What a statement does to the row of its booking. -/
def Statement.apply (current : Option Booking) : Statement → Option Booking
  | .insertBooking row => some row
  | .updateBooking old new _ => current.map (old.updateColumns new)
  | .insertEvent _ | .insertOutbox _ => current

/-- A statement that is about a booking. -/
def Statement.About (bookingId : Uuid) : Statement → Prop
  | .insertBooking row => row.id = bookingId
  | .updateBooking old _ _ => old.id = bookingId
  | .insertEvent row => row.bookingId = bookingId
  | .insertOutbox _ => True

section Statements

variable {w : Writes} {read : Option Booking} {row : Booking} {autoflush : Bool}
  {op : BookingOperation} {b : Uuid}

@[simp] theorem foldl_apply_insertEvent (c : Option Booking) (events : List BookingEventRow) :
    (events.map Statement.insertEvent).foldl Statement.apply c = c := by
  induction events with
  | nil => rfl
  | cons event events ih => exact ih

@[simp] theorem foldl_apply_insertOutbox (c : Option Booking) (messages : List BookingMessage) :
    (messages.map Statement.insertOutbox).foldl Statement.apply c = c := by
  induction messages with
  | nil => rfl
  | cons message messages ih => exact ih

@[simp] theorem event?_comp_insertEvent : Statement.event? ∘ Statement.insertEvent = some := rfl

@[simp] theorem event?_comp_insertOutbox :
    Statement.event? ∘ Statement.insertOutbox = fun _ => none := rfl

@[simp] theorem message?_comp_insertEvent :
    Statement.message? ∘ Statement.insertEvent = fun _ => none := rfl

@[simp] theorem message?_comp_insertOutbox :
    Statement.message? ∘ Statement.insertOutbox = some := rfl

@[simp] theorem event?_flushAssigned (w : Writes) (row : Booking) :
    (w.flushAssigned row).filterMap Statement.event? = [] := by
  unfold Writes.flushAssigned
  split <;> rfl

@[simp] theorem message?_flushAssigned (w : Writes) (row : Booking) :
    (w.flushAssigned row).filterMap Statement.message? = [] := by
  unfold Writes.flushAssigned
  split <;> rfl

/-- All events are appended, in order. -/
theorem events_statements (w : Writes) (read : Option Booking) (autoflush : Bool) :
    (w.statements read autoflush).filterMap Statement.event? = w.events := by
  cases read with
  | none => simp [Writes.statements, Statement.event?, List.filterMap_cons]
  | some row =>
    cases autoflush <;>
      simp [Writes.statements, Statement.event?, List.filterMap_cons, -List.map_take,
        -List.map_drop, -List.drop_one]

/-- All outbox messages are written, in order. -/
theorem outbox_statements (w : Writes) (read : Option Booking) (autoflush : Bool) :
    (w.statements read autoflush).filterMap Statement.message? = w.outbox := by
  cases read with
  | none => simp [Writes.statements, Statement.message?, List.filterMap_cons]
  | some row =>
    cases autoflush <;>
      simp [Writes.statements, Statement.message?, List.filterMap_cons, -List.map_take,
        -List.map_drop, -List.drop_one]

/-- The statements lead from the row that was read to the row of the writes ... -/
theorem apply_statements (h : Accepts row op w) :
    (w.statements (some row) autoflush).foldl Statement.apply (some row) = some w.booking := by
  have hflush : (w.flushAssigned row).foldl Statement.apply (some row)
      = some (w.assigned row) := by
    unfold Writes.flushAssigned
    split
    · exact congrArg some (Eq.symm ‹_›)
    · exact congrArg some (Booking.updateColumns_self h.opened_eq)
  have hfinal : (w.assigned row).updateColumns w.booking (w.assigned row) = w.booking :=
    Booking.updateColumns_self rfl
  cases autoflush <;>
    simp [Writes.statements, hflush, Statement.apply, hfinal, -List.map_take, -List.map_drop,
      -List.drop_one]

/-- ... and those of `request_booking` from nothing. -/
theorem apply_statements_none (c : Option Booking) :
    (w.statements none autoflush).foldl Statement.apply c = some w.booking := by
  have hfinal : w.booking.opened.updateColumns w.booking w.booking.opened = w.booking :=
    Booking.updateColumns_self rfl
  simp [Writes.statements, Statement.apply, hfinal]

/-- They are all about the booking. -/
theorem about_statements (hw : w.About b) (hread : ∀ row ∈ read, row.id = b) :
    ∀ statement ∈ w.statements read autoflush, statement.About b := by
  have hevents {events : List BookingEventRow} (h : ∀ event ∈ events, event ∈ w.events) :
      ∀ statement ∈ events.map Statement.insertEvent, statement.About b := by
    intro statement hm
    obtain ⟨event, he, rfl⟩ := List.mem_map.mp hm
    exact hw.events event (h event he)
  have hmessages : ∀ statement ∈ w.outbox.map Statement.insertOutbox, statement.About b := by
    intro statement hm
    obtain ⟨message, -, rfl⟩ := List.mem_map.mp hm
    trivial
  cases read with
  | none =>
    simp only [Writes.statements, List.forall_mem_append, List.forall_mem_cons]
    exact ⟨⟨⟨hw.booking, hevents fun _ h => h⟩, hmessages⟩, hw.booking, by simp⟩
  | some row =>
    have hflush : ∀ statement ∈ w.flushAssigned row, statement.About b := by
      intro statement hm
      unfold Writes.flushAssigned at hm
      split at hm
      · cases hm
      · obtain rfl := List.mem_singleton.mp hm
        exact hread row rfl
    simp only [Writes.statements, List.forall_mem_append, List.forall_mem_singleton]
    refine ⟨⟨?_, hmessages⟩, hw.booking⟩
    split
    · exact List.forall_mem_append.mpr ⟨hflush, hevents fun _ h => h⟩
    · exact List.forall_mem_append.mpr ⟨List.forall_mem_append.mpr
        ⟨hevents fun _ => List.mem_of_mem_take, hflush⟩, hevents fun _ => List.mem_of_mem_drop⟩

end Statements

end CarFlow
