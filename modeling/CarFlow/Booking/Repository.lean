import CarFlow.Booking.Service

/-!
# The booking database

The tables of the booking service and one whole transaction on them: `BookingDb.execute` reads the
row an operation is about, computes the writes and carries them out, with the checks the database
makes on the way. A transaction that raises is rolled back, so `execute` then returns the
exception and no database.

## The booking side of a booking

A booking only ever sees its own row and its own event log, the `BookingView`. `BookingEffect` says
what a committed operation found there and wrote; the views of all other bookings stay as they
are.

## Main results

* `BookingDb.write_ok_iff`, `BookingDb.execute_ok_iff` — when a transaction commits, and what it
  leaves
* `BookingDb.execute_error` — an exception of a transaction that got past the service's own checks
  is one of the database's
* `BookingDb.execute_outcome` — the effect of a committed operation on every view
-/

namespace CarFlow

/-- The tables of the booking service. -/
structure BookingDb where
  bookings : List Booking := []
  bookingEvents : List BookingEventRow := []
  outbox : List (OutboxRow BookingMessage) := []
  inbox : List EventId := []

instance : HasInbox BookingDb where
  inbox db := db.inbox
  withInbox db inbox := { db with inbox }

namespace BookingDb

variable {db db' : BookingDb} {op : BookingOperation} {w : Writes}

/-- `get_by_id`. -/
def getById (db : BookingDb) (bookingId : Uuid) : Option Booking :=
  RowTable.lookup Booking.id db.bookings bookingId

/-- Another live row of the vehicle shares a day with `row`. -/
def Overlapped (db : BookingDb) (row : Booking) : Prop :=
  row.Live ∧ ∃ r ∈ db.bookings, r.id ≠ row.id ∧ r.Live ∧ r.Overlaps row

instance (db : BookingDb) (row : Booking) : Decidable (db.Overlapped row) :=
  inferInstanceAs (Decidable (_ ∧ _))

/-- A version that one of `rows` appends has been appended already. -/
def VersionTaken (db : BookingDb) (rows : List BookingEventRow) : Prop :=
  ∃ r ∈ rows, ∃ r' ∈ db.bookingEvents, r'.bookingId = r.bookingId ∧ r'.version = r.version

instance (db : BookingDb) (rows : List BookingEventRow) : Decidable (db.VersionTaken rows) := by
  unfold VersionTaken
  infer_instance

/-- Carry out the writes of an operation: insert the row if the operation creates one, append the
events, add the outbox rows, update the row. Values that do not fit are refused when the statement
is sent, before any constraint is looked at. -/
def write (db : BookingDb) (creates : Bool) (w : Writes) : Except BookingError BookingDb :=
  if ¬ w.booking.FitsColumns then .error .dataError
  else if creates ∧ ((db.getById w.booking.id).isSome ∨ db.Overlapped w.booking) then
    .error (.overlappingBooking w.booking.vehicleId)
  else if db.VersionTaken w.events then .error (.concurrentBookingUpdate w.booking.id)
  else if db.Overlapped w.booking then .error .integrityError
  else .ok { db with
    bookings := if creates then db.bookings ++ [w.booking]
      else RowTable.update Booking.id db.bookings w.booking
    bookingEvents := db.bookingEvents ++ w.events
    outbox := writeAll db.outbox w.booking.id w.outbox }

/-- One operation in a transaction of its own. -/
def execute (db : BookingDb) (op : BookingOperation) : Except BookingError BookingDb := do
  let w ← op.plan (db.getById op.bookingId)
  db.write op.creates w

/-- When the database accepts the writes. -/
structure Admits (db : BookingDb) (creates : Bool) (w : Writes) : Prop where
  /-- Every value fits its column. -/
  fits : w.booking.FitsColumns
  /-- An inserted row has a new identifier. -/
  fresh : creates = true → db.getById w.booking.id = none
  /-- The row overlaps no other live row. -/
  clear : ¬ db.Overlapped w.booking
  /-- The versions are free. -/
  free : ¬ db.VersionTaken w.events

theorem write_ok_iff {creates : Bool} :
    db.write creates w = .ok db' ↔ db.Admits creates w ∧ db' = { db with
      bookings := if creates then db.bookings ++ [w.booking]
        else RowTable.update Booking.id db.bookings w.booking
      bookingEvents := db.bookingEvents ++ w.events
      outbox := writeAll db.outbox w.booking.id w.outbox } := by
  unfold write
  constructor
  · intro h
    split at h
    · cases h
    · rename_i hf
      split at h
      · cases h
      · rename_i hc
        split at h
        · cases h
        · rename_i hv
          split at h
          · cases h
          · rename_i ho
            refine ⟨⟨not_not.mp hf, fun hcr => ?_, ho, hv⟩, (Except.ok.inj h).symm⟩
            by_contra hs
            exact hc ⟨hcr, .inl (Option.isSome_iff_ne_none.mpr hs)⟩
  · rintro ⟨⟨hf, hfr, ho, hv⟩, rfl⟩
    have hc : ¬ (creates = true ∧ ((db.getById w.booking.id).isSome ∨
        db.Overlapped w.booking)) := by
      rintro ⟨hcr, hs | hov⟩
      · simp [hfr hcr] at hs
      · exact ho hov
    rw [if_neg (not_not.mpr hf), if_neg hc, if_neg hv, if_neg ho]

theorem execute_ok_iff :
    db.execute op = .ok db' ↔
      ∃ w, op.plan (db.getById op.bookingId) = .ok w ∧ db.write op.creates w = .ok db' := by
  simp [execute]

/-- What the database raises is neither of the two exceptions a caller could have foreseen from
the row. -/
theorem execute_error {e : BookingError} (hp : op.plan (db.getById op.bookingId) = .ok w)
    (he : db.execute op = .error e) :
    (∀ bookingId, e ≠ .bookingNotFound bookingId) ∧ ∀ error, e ≠ .domain error := by
  have he : db.write op.creates w = .error e := by simpa [execute, hp, bind, Except.bind] using he
  unfold write at he
  split at he
  · cases he; simp
  · split at he
    · cases he; simp
    · split at he
      · cases he; simp
      · split at he
        · cases he; simp
        · cases he

end BookingDb

/-! ### The view of a booking -/

/-- What the booking database holds about one booking. -/
structure BookingView where
  row : Option Booking := none
  log : List BookingEvent := []

/-- The row and the event log of a booking. -/
def BookingDb.view (db : BookingDb) (bookingId : Uuid) : BookingView where
  row := db.getById bookingId
  log := (db.bookingEvents.filter (·.bookingId = bookingId)).map (·.event)

/-- The view after the writes of an operation. -/
def BookingView.after (v : BookingView) (w : Writes) : BookingView where
  row := some w.booking
  log := v.log ++ w.events.map (·.event)

/-- What a committed operation found in the view of its booking, and what it wrote. -/
inductive BookingEffect (v : BookingView) : BookingOperation → Writes → Prop
  | opened (id : Uuid) (vehicle : VehicleInfo) (renterId : Uuid) (payload : CreateBookingRequest)
      (hnone : v.row = none) :
      BookingEffect v (.requestBooking id (some vehicle) renterId payload)
        (requestWrites id vehicle renterId payload)
  | operated (op : BookingOperation) (w : Writes) (row : Booking) (hrow : v.row = some row)
      (haccepts : Accepts row op w) : BookingEffect v op w

theorem BookingEffect.accepts {v : BookingView} {op : BookingOperation} {w : Writes}
    (h : BookingEffect v op w) (hc : op.creates = false) :
    ∃ row, v.row = some row ∧ Accepts row op w := by
  cases h with
  | opened => cases hc
  | operated _ _ row hrow haccepts => exact ⟨row, hrow, haccepts⟩

/-- What a committed operation does to the whole database. -/
structure BookingOutcome (db : BookingDb) (op : BookingOperation) (db' : BookingDb) : Prop where
  /-- The operation has its effect. -/
  effect : ∃ w, BookingEffect (db.view op.bookingId) op w ∧
    db'.view op.bookingId = (db.view op.bookingId).after w ∧
    db'.outbox = writeAll db.outbox op.bookingId w.outbox ∧
    ∀ message ∈ w.outbox, message.bookingId = op.bookingId
  /-- Other bookings are not touched. -/
  others : ∀ k, op.bookingId ≠ k → db'.view k = db.view k
  /-- Claims are the consumer's business. -/
  inbox : db'.inbox = db.inbox

section Outcome

variable {row : Booking} {op : BookingOperation} {w : Writes} {db db' : BookingDb} {k : Uuid}

theorem bookingId_of_mem_eventRows {events : List BookingEvent} {r : BookingEventRow}
    (h : r ∈ row.eventRows events) : r.bookingId = row.id := by
  obtain ⟨i, hi, rfl⟩ := List.mem_mapIdx.mp h
  rfl

@[simp] theorem map_event_eventRows (events : List BookingEvent) :
    (row.eventRows events).map (·.event) = events := by
  refine List.ext_getElem? fun i => ?_
  simp [Booking.eventRows, Function.comp_def]

/-- The writes of an operation are all about its booking. -/
structure Writes.About (w : Writes) (bookingId : Uuid) : Prop where
  booking : w.booking.id = bookingId
  events : ∀ r ∈ w.events, r.bookingId = bookingId
  outbox : ∀ message ∈ w.outbox, message.bookingId = bookingId

theorem requestWrites_about (id : Uuid) (vehicle : VehicleInfo) (renterId : Uuid)
    (payload : CreateBookingRequest) : (requestWrites id vehicle renterId payload).About id where
  booking := rfl
  events _ := bookingId_of_mem_eventRows
  outbox message h := by
    simp only [requestWrites] at h
    split at h
    · obtain rfl := List.mem_singleton.mp h
      rfl
    · cases h

theorem Accepts.about (h : Accepts row op w) : w.About row.id := by
  cases h <;>
    exact ⟨rfl, fun _ => bookingId_of_mem_eventRows, by
      simp [emitAuthorizePaymentRequested, emitDomainEvent, BookingMessage.bookingId,
        Booking.settle]⟩

theorem log_append (rows : List BookingEventRow) (hw : w.About k) (j : Uuid) :
    ((rows ++ w.events).filter (·.bookingId = j)).map (·.event) =
      (rows.filter (·.bookingId = j)).map (·.event) ++
        if k = j then w.events.map (·.event) else [] := by
  rw [List.filter_append, List.map_append]
  congr 1
  by_cases hk : k = j
  · rw [if_pos hk, List.filter_eq_self.mpr fun r hr => by simp [hw.events r hr, hk]]
  · rw [if_neg hk, List.filter_eq_nil_iff.mpr fun r hr => by simp [hw.events r hr, hk]]
    rfl

/-- Accepted writes about a booking change its view and no other. -/
theorem BookingDb.view_write {creates : Bool} (hw : w.About k)
    (hfound : creates = false → ∃ r, db.getById k = some r)
    (h : db.write creates w = .ok db') :
    db'.view k = (db.view k).after w ∧ ∀ j, k ≠ j → db'.view j = db.view j := by
  obtain ⟨hadmits, rfl⟩ := write_ok_iff.mp h
  have hid := hw.booking
  refine ⟨?_, fun j hj => ?_⟩
  · rw [view, log_append _ hw, if_pos rfl]
    refine congrArg (BookingView.mk · _) ?_
    cases creates with
    | true =>
      subst hid
      exact RowTable.lookup_append_self (hadmits.fresh rfl)
    | false =>
      subst hid
      obtain ⟨r, hr⟩ := hfound rfl
      exact RowTable.lookup_update_self hr
  · rw [view, log_append _ hw, if_neg hj, List.append_nil]
    refine congrArg (BookingView.mk · _) ?_
    cases creates with
    | true => exact RowTable.lookup_append_of_ne (hid.trans_ne hj)
    | false => exact RowTable.lookup_update_of_ne (hid.trans_ne hj)

/-- The writes of a committed operation are those it planned on the row of its booking. -/
theorem BookingDb.execute_planned (h : db.execute op = .ok db') :
    ∃ w, w.About op.bookingId ∧ BookingEffect (db.view op.bookingId) op w ∧
      db.write op.creates w = .ok db' := by
  obtain ⟨w, hp, hwrite⟩ := execute_ok_iff.mp h
  refine ⟨w, ?_⟩
  cases hc : op.creates with
  | true =>
    cases op with
    | requestBooking id vehicle renterId payload =>
      obtain ⟨v, rfl, -, rfl⟩ := requestBooking_ok_iff.mp hp
      have hadmits := (write_ok_iff.mp hwrite).1
      exact ⟨requestWrites_about id v renterId payload,
        .opened id v renterId payload (hadmits.fresh rfl), hwrite⟩
    | _ => cases hc
  | false =>
    obtain ⟨row, hrow, hacc⟩ := (plan_ok_iff hc).mp hp
    have hid : row.id = op.bookingId := RowTable.key_of_lookup hrow
    exact ⟨hid ▸ hacc.about, .operated op w row hrow hacc, hc ▸ hwrite⟩

/-- **A committed operation** is accepted on the row of its booking, or opens it. -/
theorem BookingDb.execute_writes (h : db.execute op = .ok db') :
    ∃ w, db.Admits op.creates w ∧ w.About op.bookingId ∧
      BookingEffect (db.view op.bookingId) op w ∧
      db'.view op.bookingId = (db.view op.bookingId).after w ∧
      (∀ k, op.bookingId ≠ k → db'.view k = db.view k) ∧
      db'.bookingEvents = db.bookingEvents ++ w.events ∧
      db'.outbox = writeAll db.outbox op.bookingId w.outbox ∧ db'.inbox = db.inbox := by
  obtain ⟨w, hw, heffect, hwrite⟩ := execute_planned h
  obtain ⟨hadmits, hdb⟩ := write_ok_iff.mp hwrite
  have hfound (hc : op.creates = false) : ∃ r, db.getById op.bookingId = some r := by
    obtain ⟨row, hrow, -⟩ := heffect.accepts hc
    exact ⟨row, hrow⟩
  obtain ⟨hself, hothers⟩ := view_write hw hfound hwrite
  refine ⟨w, hadmits, hw, heffect, hself, hothers, ?_⟩
  rw [hdb, ← hw.booking]
  exact ⟨rfl, rfl, rfl⟩

/-- What it does, as seen by the bookings and by the consumer. -/
theorem BookingDb.execute_outcome (h : db.execute op = .ok db') : BookingOutcome db op db' := by
  obtain ⟨w, -, hw, heffect, hself, hothers, -, houtbox, hinbox⟩ := execute_writes h
  exact ⟨⟨w, heffect, hself, houtbox, hw.outbox⟩, hothers, hinbox⟩

end Outcome

end CarFlow
