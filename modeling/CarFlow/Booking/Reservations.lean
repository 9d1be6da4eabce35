import CarFlow.Booking.Constraints
import CarFlow.Booking.Serializability

/-!
# Reservations

The row of a booking reserves its days: `ex_bookings_no_overlap` keeps the live rows of a vehicle
apart, at every insert and every update. When it is violated the repository only sees an
`IntegrityError`, and tells by the place where it catches it: in `create_requested` the dates are
taken, in `append_events` the version is. So its errors are true only if the statements of
`append_events`, and those after it, never run into the dates.

They do not. A transition moves no dates. The updates that are sent before the last event leave the
status alone, and by the last one the row is the one that was read, which was live.

## Implementation notes

What a repository makes of an `IntegrityError` depends on the place, so the invariant follows each
transaction with its history: `Transaction.Ok` of `Booking.Serializability` says which statement
comes next, and here that statement is looked at once more, for the constraint that it can violate.
Whether two live rows overlap is stated over days (`Covers`), and not with the expression of the
constraint.

## Main results

* `Transaction.Ok.not_overlapped` — no update of a booking violates `ex_bookings_no_overlap`
* `ReservationsOk.step` — the invariant
* `reservation_errors_are_truthful` — **no vehicle is booked twice**, a request is refused exactly
  if one of its days is taken, and an update is refused only if its version is
-/

namespace CarFlow

open BookingDb

/-- The days a booking reserves, by their ordinals. -/
def Booking.Covers (row : Booking) (day : ℤ) : Prop :=
  row.startDate.ordinal ≤ day ∧ day ≤ row.endDate.ordinal

/-- The days a request asks for. -/
def CreateBookingRequest.Covers (payload : CreateBookingRequest) (day : ℤ) : Prop :=
  payload.startDate.ordinal ≤ day ∧ day ≤ payload.endDate.ordinal

/-- What becomes of the next statement of a transaction. -/
def BookingServer.next (s : BookingServer) (i : ℕ) : Option StatementResult := do
  let t ← s.transactions[i]?
  let statement ← t.pending.head?
  return statement.exec s.db (s.transactions.eraseIdx i) t.row

/-! ### The updates of a booking -/

/-- The statements of an operation before the last. -/
def Writes.earlier (w : Writes) (read : Option Booking) (autoflush : Bool) : List Statement :=
  match read with
  | none =>
    .insertBooking w.booking.opened :: w.events.map .insertEvent ++ w.outbox.map .insertOutbox
  | some row =>
    (if autoflush then w.flushAssigned row ++ w.events.map .insertEvent
      else (w.events.take 1).map .insertEvent ++ w.flushAssigned row ++
        (w.events.drop 1).map .insertEvent) ++
      w.outbox.map .insertOutbox

/-- The row that the last statement updates. -/
def Writes.loaded (w : Writes) : Option Booking → Booking
  | none => w.booking.opened
  | some row => w.assigned row

section Updates

variable {w : Writes} {read : Option Booking} {row old new current : Booking} {autoflush : Bool}
  {op : BookingOperation} {integrity : BookingError} {db : BookingDb} {t : Transaction}
  {pending : List Statement}

theorem statements_eq (w : Writes) (read : Option Booking) (autoflush : Bool) :
    w.statements read autoflush =
      w.earlier read autoflush ++ [.updateBooking (w.loaded read) w.booking .integrityError] := by
  cases read <;> rfl

/-- Before the last statement the row has what `_apply_transition` assigned ... -/
theorem apply_earlier (h : Accepts row op w) :
    (w.earlier (some row) autoflush).foldl Statement.apply (some row) = some (w.assigned row) := by
  have hflush : (w.flushAssigned row).foldl Statement.apply (some row)
      = some (w.assigned row) := by
    unfold Writes.flushAssigned
    split
    · exact congrArg some (Eq.symm ‹_›)
    · exact congrArg some (Booking.updateColumns_self h.opened_eq)
  cases autoflush <;>
    simp [Writes.earlier, hflush, -List.map_take, -List.map_drop, -List.drop_one]

/-- ... or is the new one. -/
theorem apply_earlier_none (c : Option Booking) :
    (w.earlier none autoflush).foldl Statement.apply c = some w.booking.opened := by
  simp [Writes.earlier, Statement.apply]

/-- An update before the last leaves the status alone. -/
theorem status_of_mem_earlier (h : .updateBooking old new integrity ∈ w.earlier read autoflush) :
    new.status = old.status := by
  cases read with
  | none => simp [Writes.earlier] at h
  | some row =>
    have hflush : .updateBooking old new integrity ∈ w.flushAssigned row := by
      cases autoflush <;>
        simpa [Writes.earlier, -List.map_take, -List.map_drop, -List.drop_one] using h
    unfold Writes.flushAssigned at hflush
    split at hflush
    · cases hflush
    · have heq := List.mem_singleton.mp hflush
      injection heq with hold hnew
      rw [hold, hnew]
      rfl

/-- An element of a list with a known last is that one, or comes before it. -/
theorem append_cons_eq_concat {α : Type*} {sent rest l : List α} {x y : α}
    (h : sent ++ x :: rest = l ++ [y]) : (sent = l ∧ x = y ∧ rest = []) ∨ x ∈ l := by
  rcases List.eq_nil_or_concat rest with rfl | ⟨rest, z, rfl⟩
  · obtain ⟨hl, hxy⟩ := List.append_inj' h rfl
    exact .inl ⟨hl, List.singleton_inj.mp hxy, rfl⟩
  · rw [List.concat_eq_append, ← List.cons_append, ← List.append_assoc] at h
    obtain ⟨rfl, -⟩ := List.append_inj' h rfl
    exact .inr (by simp)

theorem BookingDb.Sound.not_overlapped (h : db.Sound) (hrow : row ∈ db.bookings) :
    ¬ db.Overlapped row := by
  rintro ⟨hlive, r, hr, hne, hlive', ho⟩
  exact h.apart r hr row hrow hne hlive' hlive ho

/-- **No update of a booking violates `ex_bookings_no_overlap`.** -/
theorem Transaction.Ok.not_overlapped (h : t.Ok db) (hsound : db.Sound)
    (hp : t.pending = .updateBooking old new integrity :: pending)
    (hcurrent : t.row.or (db.getById old.id) = some current) :
    ¬ db.Overlapped (old.updateColumns new current) := by
  obtain ⟨autoflush, hstatements⟩ := h.statements
  have hid : old.id = t.op.bookingId := h.statement_about hp
  have hclear : ¬ db.Overlapped current := by
    rcases Option.or_eq_some_iff.mp hcurrent with hr | ⟨-, hr⟩
    · exact h.clear current hr
    · exact hsound.not_overlapped (RowTable.mem_of_lookup hr)
  have hlive : (old.updateColumns new current).Live → current.Live := by
    rw [hp, statements_eq] at hstatements
    rcases append_cons_eq_concat hstatements with ⟨hsent, hlast, hnil⟩ | hmem
    · -- the last statement: what was read is what is committed, and it was live
      intro _
      have hrow := h.row
      rw [← hid, hcurrent, hid, hsent] at hrow
      cases hc : t.op.creates with
      | true =>
        rw [h.creates hc, apply_earlier_none] at hrow
        rw [Option.some.inj hrow]
        exact ⟨BookingStatus.noConfusion, BookingStatus.noConfusion⟩
      | false =>
        obtain ⟨row, hread, hacc⟩ := h.accepts hc
        have hevents : t.events = t.writes.events := by
          have happend := h.events_append
          rwa [hp, hnil, List.filterMap_cons_none rfl, List.filterMap_nil, List.append_nil]
            at happend
        have hcommitted := h.current hc (hevents ▸ h.writes_events_ne_nil)
        rw [hcommitted, hread, apply_earlier hacc] at hrow
        rw [Option.some.inj hrow]
        exact hacc.live
    · -- an earlier one leaves the status alone
      have hstatus := status_of_mem_earlier hmem
      simp [Booking.updateColumns, Booking.Live, hstatus]
  rintro ⟨hl, r, hr, hne, hlr, ho⟩
  exact hclear ⟨hlive hl, r, hr, hne, hlr, ho⟩

end Updates

/-! ### The insert of a booking -/

section Insert

variable {db : BookingDb} {t : Transaction} {r r' : Booking} {id renterId : Uuid}
  {v : VehicleInfo} {payload : CreateBookingRequest}

/-- Two bookings of one vehicle overlap if they have a day in common. -/
theorem Booking.overlaps_iff (h : r.startDate.ordinal ≤ r.endDate.ordinal)
    (h' : r'.startDate.ordinal ≤ r'.endDate.ordinal) :
    r.Overlaps r' ↔ r.vehicleId = r'.vehicleId ∧ ∃ day, r.Covers day ∧ r'.Covers day := by
  refine and_congr_right fun _ => ⟨fun ⟨hr, hr'⟩ => ?_, ?_⟩
  · refine ⟨max r.startDate.ordinal r'.startDate.ordinal, ?_⟩
    unfold Covers
    omega
  · rintro ⟨day, ⟨hlow, hhigh⟩, hlow', hhigh'⟩
    exact ⟨Int.le_trans hlow hhigh', Int.le_trans hlow' hhigh⟩

/-- A request first inserts its row. -/
theorem Transaction.Ok.pending_eq (h : t.Ok db)
    (hop : t.op = .requestBooking id (some v) renterId payload) (hsent : t.sent = []) :
    ∃ rest, t.pending = .insertBooking (createRequested id v renterId payload) :: rest := by
  obtain ⟨autoflush, hstatements⟩ := h.statements
  have hread : t.read = none := h.creates (by rw [hop]; rfl)
  have hplanned := h.planned
  rw [hop, hread, BookingOperation.plan] at hplanned
  obtain ⟨v', hv, -, hw⟩ := requestBooking_ok_iff.mp hplanned
  obtain rfl := Option.some.inj hv
  rw [hsent, hread, hw, List.nil_append] at hstatements
  exact ⟨_, hstatements⟩

variable (renterId v) in
/-- A new row overlaps another exactly if a live booking has taken one of its days. -/
theorem overlapped_createRequested
    (hordered : ∀ r ∈ db.bookings, r.startDate.ordinal ≤ r.endDate.ordinal)
    (hfresh : db.getById id = none) :
    db.Overlapped (createRequested id v renterId payload) ↔
      ∃ r ∈ db.bookings, r.Live ∧ r.vehicleId = payload.vehicleId ∧
        ∃ day, r.Covers day ∧ payload.Covers day := by
  have hoverlaps (r : Booking) (hr : r ∈ db.bookings) :=
    have hnew : (createRequested id v renterId payload).startDate.ordinal ≤
        (createRequested id v renterId payload).endDate.ordinal := Int.le_of_lt payload.date_order
    Booking.overlaps_iff (hordered r hr) hnew
  constructor
  · rintro ⟨-, r, hr, -, hlive, ho⟩
    exact ⟨r, hr, hlive, (hoverlaps r hr).mp ho⟩
  · rintro ⟨r, hr, hlive, hday⟩
    have hne : r.id ≠ id := RowTable.lookup_eq_none_iff.mp hfresh r hr
    exact ⟨⟨BookingStatus.noConfusion, BookingStatus.noConfusion⟩, r, hr, hne, hlive,
      (hoverlaps r hr).mpr hday⟩

end Insert

/-! ### The invariant -/

/-- **The invariant**: the tables are as the checks left them, with one row for each booking, and
every event has been appended by a committed transaction. -/
structure ReservationsOk (s : BookingServer) : Prop where
  sound : s.db.Sound
  /-- `check_date_order`. -/
  ordered : ∀ r ∈ s.db.bookings, r.startDate.ordinal ≤ r.endDate.ordinal
  unique : (s.db.bookings.map (·.id)).Nodup
  events : s.db.bookingEvents = s.history.flatMap fun c => c.writes.events

section Reservations

variable {s s' : BookingServer}

/-- **Every step keeps the invariant.** -/
theorem ReservationsOk.step (h : ReservationsOk s) (hserver : ServerOk s)
    (hstep : ServerStep s s') : ReservationsOk s' := by
  cases hstep with
  | began => exact ⟨h.sound, h.ordered, h.unique, h.events⟩
  | ran => exact ⟨h.sound, h.ordered, h.unique, h.events⟩
  | ended => exact ⟨h.sound, h.ordered, h.unique, h.events⟩
  | committed i t hi hp =>
    have ht := hserver.transactions.each t (List.mem_of_getElem? hi)
    have hrow := ht.row_eq hp
    have hid : t.writes.booking.id = t.op.bookingId := ht.rowId _ hrow
    refine ⟨h.sound.execute (ht.commit hp), fun r hr => ?_, ?_, ?_⟩
    · rcases ht.mem_bookings_commit hp hr with hr | hr
      swap
      · exact h.ordered r hr
      obtain rfl := Option.some.inj (hrow.symm.trans hr)
      cases hc : t.op.creates with
      | true =>
        obtain ⟨vehicle, renterId, payload, hw⟩ := ht.opens hc
        rw [hw]
        exact Int.le_of_lt payload.date_order
      | false =>
        obtain ⟨row, hread, hacc⟩ := ht.accepts hc
        have hplace := hacc.opened_eq
        have hmem := RowTable.mem_of_lookup ((ht.getById_eq hp).trans hread)
        rw [show t.writes.booking.startDate = row.startDate from congrArg (·.startDate) hplace,
          show t.writes.booking.endDate = row.endDate from congrArg (·.endDate) hplace]
        exact h.ordered row hmem
    · simp only [BookingDb.commit, hrow]
      split
      · rename_i hc
        have hfresh := (ht.fresh hc (ht.sent_ne_nil hp)).2
        rw [List.map_append, List.map_singleton, List.nodup_append]
        refine ⟨h.unique, List.nodup_singleton _, fun k hk k' hk' hkk => ?_⟩
        obtain ⟨r, hr, rfl⟩ := List.mem_map.mp hk
        rw [List.mem_singleton.mp hk', hid] at hkk
        exact RowTable.lookup_eq_none_iff.mp hfresh r hr hkk
      · rw [RowTable.map_key_update]
        exact h.unique
    · rw [List.flatMap_append, List.flatMap_singleton, ← ht.events_eq hp, ← h.events]
      rfl

theorem reservationsOk_of_reachable (h : bookingServer.Reachable s) : ReservationsOk s := by
  have hinit : ReservationsOk {} :=
    ⟨sound_empty, fun r hr => (by cases hr), List.nodup_nil, rfl⟩
  exact h.invariant ReservationsOk hinit fun _ _ _ hr hok hstep =>
    hok.step (serverOk_of_reachable hr) (serverStep_cases hstep)

/-! ### The errors -/

/-- What `append_events` calls a concurrent update is one: the version has been appended. -/
theorem ReservationsOk.concurrent (h : ReservationsOk s) (hserver : ServerOk s) {i : ℕ}
    {bookingId : Uuid} (hnext : s.next i = some (.raises (.concurrentBookingUpdate bookingId))) :
    ∃ t event rest, s.transactions[i]? = some t ∧ t.pending = .insertEvent event :: rest ∧
      event.bookingId = bookingId ∧ ∃ c ∈ s.history, ∃ e ∈ c.writes.events,
        e.bookingId = event.bookingId ∧ e.version = event.version := by
  simp only [BookingServer.next, Option.bind_eq_bind, Option.bind_eq_some_iff, Option.pure_def,
    Option.some.injEq] at hnext
  obtain ⟨t, hi, statement, hhead, hexec⟩ := hnext
  obtain ⟨rest, hp⟩ := List.head?_eq_some_iff.mp hhead
  have ht := hserver.transactions.each t (List.mem_of_getElem? hi)
  cases statement with
  | insertEvent event =>
    simp only [Statement.exec] at hexec
    split at hexec
    · cases hexec
    split at hexec
    · cases hexec
    split at hexec
    swap
    · cases hexec
    rename_i htaken
    obtain ⟨e, he, hsame⟩ := versionTaken_singleton.mp htaken
    rw [h.events] at he
    obtain ⟨c, hc, he⟩ := List.mem_flatMap.mp he
    cases hexec
    exact ⟨t, event, rest, hi, hp, rfl, c, hc, e, he, hsame⟩
  | updateBooking old new integrity =>
    simp only [Statement.exec] at hexec
    split at hexec
    · cases hexec
    split at hexec
    · cases hexec
    rename_i current hcurrent
    split at hexec
    · cases hexec
    split at hexec
    · cases hexec
    split at hexec
    · rename_i hoverlapped
      exact absurd hoverlapped (ht.not_overlapped h.sound hp hcurrent)
    · cases hexec
  | insertBooking row =>
    simp only [Statement.exec] at hexec
    split at hexec
    · cases hexec
    split at hexec
    · cases hexec
    split at hexec <;> cases hexec
  | insertOutbox message => cases hexec

/-- `create_requested` refuses a request exactly if one of its days is taken. -/
theorem ReservationsOk.refused_iff (h : ReservationsOk s) (hserver : ServerOk s) {i : ℕ}
    {t : Transaction} {id renterId : Uuid} {v : VehicleInfo} {payload : CreateBookingRequest}
    (hi : s.transactions[i]? = some t)
    (hop : t.op = .requestBooking id (some v) renterId payload) (hsent : t.sent = [])
    (hfresh : s.db.getById id = none)
    (hfits : FitsInteger v.dailyPriceCents ∧ FitsInteger v.dailyMileageLimit)
    (hwaits : s.next i ≠ some .waits) :
    s.next i = some (.raises (.overlappingBooking payload.vehicleId)) ↔
      ∃ r ∈ s.db.bookings, r.Live ∧ r.vehicleId = payload.vehicleId ∧
        ∃ day, r.Covers day ∧ payload.Covers day := by
  have ht := hserver.transactions.each t (List.mem_of_getElem? hi)
  obtain ⟨rest, hp⟩ := ht.pending_eq hop hsent
  have hcolumns : (createRequested id v renterId payload).FitsColumns := by
    refine ⟨hfits.1, hfits.2, ?_⟩
    simp [createRequested, FitsInteger, FitsNullable]
  have hnone : ¬ (s.db.getById (createRequested id v renterId payload).id).isSome := by
    simp [show (createRequested id v renterId payload).id = id from rfl, hfresh]
  rw [← overlapped_createRequested renterId v h.ordered hfresh]
  simp only [BookingServer.next, hi, hp, Statement.exec, Option.bind_eq_bind, Option.bind_some,
    List.head?_cons, Option.pure_def, Option.some.injEq, hcolumns, not_true_eq_false, if_false,
    hnone, Bool.false_eq_true, false_or] at hwaits ⊢
  split at hwaits
  · exact absurd rfl hwaits
  · rename_i hclear
    simp only [hclear, if_false]
    split
    · rename_i ho
      exact iff_of_true rfl ho
    · rename_i ho
      exact iff_of_false (by simp) ho

/-- **The errors of the repository are truthful, and no vehicle is booked twice.** In every
reachable state of the transactions, however they interleave: no two live bookings of one vehicle
reserve the same day; the insert of a request, once it need not wait, is refused as overlapping
exactly if a live booking has taken one of its days; no update of a booking overlaps another one;
and an update is refused as concurrent only if a committed transaction has appended the version it
tries to append. -/
theorem reservation_errors_are_truthful (h : bookingServer.Reachable s) :
    (s.db.bookings.Pairwise fun r r' => r.Live → r'.Live → r.vehicleId = r'.vehicleId →
      ∀ day, r.Covers day → ¬ r'.Covers day) ∧
    (∀ (i : ℕ) (t : Transaction) (id : Uuid) (v : VehicleInfo) (renterId : Uuid)
      (payload : CreateBookingRequest), s.transactions[i]? = some t →
      t.op = .requestBooking id (some v) renterId payload → t.sent = [] →
      s.db.getById id = none → FitsInteger v.dailyPriceCents ∧ FitsInteger v.dailyMileageLimit →
      s.next i ≠ some .waits →
      (s.next i = some (.raises (.overlappingBooking payload.vehicleId)) ↔
        ∃ r ∈ s.db.bookings, r.Live ∧ r.vehicleId = payload.vehicleId ∧
          ∃ day, r.Covers day ∧ payload.Covers day)) ∧
    (∀ (i : ℕ) (t : Transaction) (old new : Booking) (integrity : BookingError)
      (rest : List Statement) (current : Booking), s.transactions[i]? = some t →
      t.pending = .updateBooking old new integrity :: rest →
      t.row.or (s.db.getById old.id) = some current →
      ¬ s.db.Overlapped (old.updateColumns new current)) ∧
    ∀ i bookingId, s.next i = some (.raises (.concurrentBookingUpdate bookingId)) →
      ∃ t event rest, s.transactions[i]? = some t ∧ t.pending = .insertEvent event :: rest ∧
        event.bookingId = bookingId ∧ ∃ c ∈ s.history, ∃ e ∈ c.writes.events,
          e.bookingId = event.bookingId ∧ e.version = event.version := by
  have hok := reservationsOk_of_reachable h
  have hserver := serverOk_of_reachable h
  refine ⟨?_, fun i t id v renterId payload hi hop hsent hfresh hfits hwaits => ?_,
    fun i t old new integrity rest current hi hp hcurrent => ?_,
    fun i bookingId hnext => hok.concurrent hserver hnext⟩
  · have hne := List.pairwise_map.mp hok.unique
    refine hne.imp_of_mem fun {r r'} hr hr' hid hlive hlive' hvehicle day hday hday' => ?_
    refine hok.sound.apart r hr r' hr' hid hlive hlive' ?_
    exact (Booking.overlaps_iff (hok.ordered r hr) (hok.ordered r' hr')).mpr
      ⟨hvehicle, day, hday, hday'⟩
  · exact hok.refused_iff hserver hi hop hsent hfresh hfits hwaits
  · have ht := hserver.transactions.each t (List.mem_of_getElem? hi)
    exact ht.not_overlapped hok.sound hp hcurrent

deriving instance DecidableEq for StatementResult

/-- The confirmation and the rejection of a booking race, and another renter requests the same
days. -/
def sampleRefusals : List ServerAction :=
  [.begin (.requestBooking 0 (some (sampleVehicle .instant)) 2 sampleDates) true,
    .run 0, .run 0, .run 0, .run 0, .commit 0,
    .begin (.applyPaymentAuthorized 0) true, .begin (.rejectBookingRequest 0 1) true,
    .run 0, .run 0, .run 0, .run 0, .commit 0,
    .begin (.requestBooking 1 (some (sampleVehicle .instant)) 3 sampleDates) true]

theorem reservation_errors_are_truthful_sampleRefusals :
    ∃ s, bookingServer.run {} sampleRefusals = some s ∧
      s.next 0 = some (.raises (.concurrentBookingUpdate 0)) ∧
      s.next 1 = some (.raises (.overlappingBooking 7)) ∧
      (∃ r ∈ s.db.bookings, r.Live ∧ r.vehicleId = 7 ∧
        ∃ day, r.Covers day ∧ sampleDates.Covers day) ∧
      ∃ c ∈ s.history, ∃ e ∈ c.writes.events, e.bookingId = 0 := by
  have hend : (bookingServer.run {} sampleRefusals).map (fun s =>
      (s.next 0, s.next 1, (s.transactions[1]?.map fun t => t.sent.isEmpty, s.db.getById 1)))
        = some (some (.raises (.concurrentBookingUpdate 0)),
          some (.raises (.overlappingBooking 7)), some true, none) := by
    decide
  have hops : (bookingServer.run {} sampleRefusals).map (fun s => s.transactions.map (·.op)) =
      some [.rejectBookingRequest 0 1,
        .requestBooking 1 (some (sampleVehicle .instant)) 3 sampleDates] := by
    rfl
  obtain ⟨s, hrun, hs⟩ := Option.map_eq_some_iff.mp hend
  simp only [Prod.mk.injEq, Option.map_eq_some_iff] at hs
  obtain ⟨hconcurrent, hoverlapping, ⟨t, hi, hsent⟩, hfresh⟩ := hs
  rw [hrun] at hops
  have hop : t.op = .requestBooking 1 (some (sampleVehicle .instant)) 3 sampleDates := by
    have hsecond := congrArg (·[1]?) (Option.some.inj hops)
    simpa [hi] using hsecond
  obtain ⟨-, hrefused, -, htaken⟩ :=
    reservation_errors_are_truthful (TransitionSystem.reachable_of_run .init hrun)
  obtain ⟨-, event, -, -, -, hb, c, hc, e, he, heb, -⟩ := htaken 0 0 hconcurrent
  refine ⟨s, hrun, hconcurrent, hoverlapping, ?_, c, hc, e, he, heb.trans hb⟩
  exact (hrefused 1 t 1 (sampleVehicle .instant) 3 sampleDates hi hop (List.isEmpty_iff.mp hsent)
    hfresh (by decide) (by simp [hoverlapping])).mp hoverlapping

end Reservations

end CarFlow
