import CarFlow.Booking.Repository
import Mathlib.Data.List.Induction

/-!
# The event log of a booking

`booking_events` is the record of what happened to a booking, and its row in `bookings` is called a
read-model projection of it. This module says what that projection is, `Booking.replay`, and shows
that the operations of the service, one at a time, keep the row equal to it.

## The projection

A booking is opened with its parties, its dates and its terms, and these never change. The rest of
the row is what the events say: each adds one to the version, some settle a status, and a handover
or a return records what the host saw.

## Main results

* `Accepts.replay` — the events of an accepted operation lead from the row it read to the row it
  writes
* `LogOk.execute` — an operation keeps the row of every booking the fold of its event log, and the
  log without gaps
* `terminal_execute` — the row of a booking that has ended is never written again
-/

namespace CarFlow

/-! ### The projection -/

/-- The status after an event. The first event of a pair settles nothing. -/
def BookingStatus.after (status : BookingStatus) : BookingEvent → BookingStatus
  | .bookingRequested | .bookingRequestAccepted => .requested
  | .bookingRejected => .rejected
  | .bookingConfirmed => .confirmed
  | .bookingCancelled => .cancelled
  | .bookingHandoverRecorded _ | .bookingReturnRecorded _ | .paymentCaptureFailed => .active
  | .bookingCompleted => .completed
  | .paymentAuthorized | .paymentAuthorizationFailed | .paymentCaptured => status

namespace Booking

/-- The row after one more event. -/
def replay (row : Booking) : BookingEvent → Booking
  | .bookingHandoverRecorded payload => row.handOver payload
  | .bookingReturnRecorded payload =>
    row.takeBack ⟨payload.odometer, payload.fuelPercent, payload.photoUrl⟩ payload.overageCents
  | event => row.settle 1 (row.status.after event)

/-- The row as it was when the booking was opened. -/
def opened (row : Booking) : Booking :=
  { row with
    status := .requested
    version := 1
    startOdometer := none
    endOdometer := none
    startFuelPercent := none
    endFuelPercent := none
    startPhotoUrl := none
    endPhotoUrl := none
    overageCents := 0 }

variable {row : Booking} {event : BookingEvent} {log : List BookingEvent}

@[simp] theorem opened_opened (row : Booking) : row.opened.opened = row.opened := rfl

@[simp] theorem opened_replay (row : Booking) (event : BookingEvent) :
    (row.replay event).opened = row.opened := by
  cases event <;> rfl

@[simp] theorem status_replay (row : Booking) (event : BookingEvent) :
    (row.replay event).status = row.status.after event := by
  cases event <;> rfl

@[simp] theorem version_replay (row : Booking) (event : BookingEvent) :
    (row.replay event).version = row.version + 1 := by
  cases event <;> rfl

@[simp] theorem opened_foldl_replay (row : Booking) (log : List BookingEvent) :
    (log.foldl replay row).opened = row.opened := by
  induction log generalizing row with
  | nil => rfl
  | cons event log ih => rw [List.foldl_cons, ih, opened_replay]

theorem status_foldl_replay (row : Booking) (log : List BookingEvent) :
    (log.foldl replay row).status = log.foldl BookingStatus.after row.status := by
  induction log generalizing row with
  | nil => rfl
  | cons event log ih => rw [List.foldl_cons, ih, status_replay, List.foldl_cons]

theorem version_foldl_replay (row : Booking) (log : List BookingEvent) :
    (log.foldl replay row).version = row.version + log.length := by
  induction log generalizing row with
  | nil => rfl
  | cons event log ih =>
    rw [List.foldl_cons, ih, version_replay, List.length_cons]
    omega

end Booking

/-! ### Handovers and returns -/

/-- The payload of a handover. -/
def BookingEvent.handover? : BookingEvent → Option Handover
  | .bookingHandoverRecorded payload => some payload
  | _ => none

/-- The payload of a return. -/
def BookingEvent.return? : BookingEvent → Option Return
  | .bookingReturnRecorded payload => some payload
  | _ => none

/-- The last return of a log. -/
def lastReturn (log : List BookingEvent) : Option Return :=
  (log.filterMap BookingEvent.return?).getLast?

/-- The columns a handover fills: empty before it. -/
def Booking.StartedWith (row : Booking) (payload : Option Handover) : Prop :=
  row.startOdometer = payload.map (·.odometer) ∧
    row.startFuelPercent = payload.map (·.fuelPercent) ∧
    row.startPhotoUrl = payload.map (·.photoUrl)

/-- The columns a return fills: empty before it, and without overage. -/
def Booking.EndedWith (row : Booking) (payload : Option Return) : Prop :=
  row.endOdometer = payload.map (·.odometer) ∧
    row.endFuelPercent = payload.map (·.fuelPercent) ∧
    row.endPhotoUrl = payload.map (·.photoUrl) ∧
    row.overageCents = (payload.map (·.overageCents)).getD 0

section Columns

variable {row : Booking} {event : BookingEvent} {handover : Option Handover}
  {returned : Option Return}

theorem Booking.StartedWith.replay (h : row.StartedWith handover) :
    (row.replay event).StartedWith (event.handover?.or handover) := by
  cases event with
  | bookingHandoverRecorded payload => exact ⟨rfl, rfl, rfl⟩
  | _ => exact h

theorem Booking.EndedWith.replay (h : row.EndedWith returned) :
    (row.replay event).EndedWith (event.return?.or returned) := by
  cases event with
  | bookingReturnRecorded payload => exact ⟨rfl, rfl, rfl, rfl⟩
  | _ => exact h

/-- The columns hold what the last events of their kind recorded. -/
theorem Booking.replay_columns (row : Booking) (log : List BookingEvent) :
    (log.foldl Booking.replay row.opened).StartedWith
        (log.filterMap BookingEvent.handover?).getLast? ∧
      (log.foldl Booking.replay row.opened).EndedWith (lastReturn log) := by
  induction log using List.reverseRecOn with
  | nil => exact ⟨⟨rfl, rfl, rfl⟩, rfl, rfl, rfl, rfl⟩
  | append_singleton log event ih =>
    obtain ⟨hstart, hend⟩ := ih
    have hlast {α : Type} (f : BookingEvent → Option α) :
        ((log ++ [event]).filterMap f).getLast? = (f event).or (log.filterMap f).getLast? := by
      cases hf : f event <;> simp [hf]
    rw [List.foldl_concat, lastReturn, hlast, hlast]
    exact ⟨hstart.replay, hend.replay⟩

end Columns

/-! ### One operation -/

section Operation

variable {row : Booking} {op : BookingOperation} {w : Writes} {v : BookingView}

/-- **The events say what the operation did**: they lead from the row it read to the row it
writes. -/
theorem Accepts.replay (h : Accepts row op w) :
    (w.events.map (·.event)).foldl Booking.replay row = w.booking := by
  cases h with
  | accept _ _ hstatus => simp [Booking.replay, Booking.settle, BookingStatus.after]
  | reject _ hstatus => simp [Booking.replay, Booking.settle, BookingStatus.after]
  | handover => simp [Booking.replay]
  | «return» => simp [Booking.replay]
  | confirm _ hstatus => simp [Booking.replay, Booking.settle, BookingStatus.after]
  | cancel _ hstatus => simp [Booking.replay, Booking.settle, BookingStatus.after]
  | complete _ hstatus => simp [Booking.replay, Booking.settle, BookingStatus.after]
  | noteFailure _ hstatus => simp [Booking.replay, Booking.settle, BookingStatus.after]

/-- An operation leaves the booking as it was opened. -/
theorem Accepts.opened_eq (h : Accepts row op w) : w.booking.opened = row.opened := by
  rw [← h.replay, Booking.opened_foldl_replay]

/-- A handover is recorded from `confirmed` only, and leads to a status from which no way goes
back. -/
theorem Accepts.handovers (h : Accepts row op w) :
    (w.events.map (·.event)).filterMap BookingEvent.handover? = [] ∧
        (row.status = .active ∨ row.status = .completed →
          w.booking.status = .active ∨ w.booking.status = .completed) ∨
      row.status = .confirmed ∧ w.booking.status = .active ∧
        ∃ payload, (w.events.map (·.event)).filterMap BookingEvent.handover? = [payload] := by
  cases h with
  | handover _ payload hstatus =>
    exact .inr ⟨hstatus, rfl, payload.toHandover, by rw [map_event_eventRows]; rfl⟩
  | accept _ _ hstatus => exact .inl ⟨by rw [map_event_eventRows]; rfl, by simp [hstatus]⟩
  | reject _ hstatus => exact .inl ⟨by rw [map_event_eventRows]; rfl, by simp [hstatus]⟩
  | «return» => exact .inl ⟨by rw [map_event_eventRows]; rfl, fun _ => .inl rfl⟩
  | confirm _ hstatus => exact .inl ⟨by rw [map_event_eventRows]; rfl, by simp [hstatus]⟩
  | cancel _ hstatus => exact .inl ⟨by rw [map_event_eventRows]; rfl, by simp [hstatus]⟩
  | complete => exact .inl ⟨by rw [map_event_eventRows]; rfl, fun _ => .inr rfl⟩
  | noteFailure => exact .inl ⟨by rw [map_event_eventRows]; rfl, fun _ => .inl rfl⟩

/-- No operation is accepted on a booking that has ended. -/
theorem Accepts.not_terminal (h : Accepts row op w) : ¬ row.status.Terminal := by
  rintro (hs | hs | hs) <;> cases h <;> simp_all

/-- The events of an operation are the rows at the versions after the one it read. -/
theorem Accepts.events_eq (h : Accepts row op w) :
    w.events = row.eventRows (w.events.map (·.event)) := by
  cases h <;> simp

theorem Accepts.events_ne_nil (h : Accepts row op w) : w.events ≠ [] := by
  cases h <;> simp [Booking.eventRows]

theorem map_version_eventRows (row : Booking) (events : List BookingEvent) :
    (row.eventRows events).map (·.version) = List.range' (row.version + 1) events.length := by
  refine List.ext_getElem? fun i => ?_
  by_cases hi : i < events.length
  · simp [Booking.eventRows, hi]
    omega
  · simp [Booking.eventRows, hi]

/-- The row and the log of a booking agree: there is neither, or the row is the fold of the log, and
the car was handed over at most once. -/
structure BookingView.Logged (v : BookingView) : Prop where
  unopened : v.row = none → v.log = []
  folded : ∀ row, v.row = some row → v.log.foldl Booking.replay row.opened = row
  started : ∀ row, v.row = some row →
    (v.log.filterMap BookingEvent.handover?).length ≤ 1 ∧
      (v.log.filterMap BookingEvent.handover? ≠ [] → row.status = .active ∨ row.status = .completed)

/-- An operation keeps them in agreement. -/
theorem BookingView.Logged.after (h : v.Logged) (heffect : BookingEffect v op w) :
    (v.after w).Logged := by
  cases heffect with
  | opened id vehicle renterId payload hnone =>
    have hlog := h.unopened hnone
    refine ⟨fun hrow => (by cases hrow), fun row hrow => ?_, fun row hrow => ?_⟩ <;>
      obtain rfl := Option.some.inj hrow
    · simp only [BookingView.after, hlog, requestWrites, map_event_eventRows]
      rfl
    · simp only [BookingView.after, hlog, requestWrites, map_event_eventRows]
      exact ⟨Nat.zero_le _, fun h => absurd rfl h⟩
  | operated _ _ row hrow haccepts =>
    refine ⟨fun hrow => (by cases hrow), fun row' hrow' => ?_, fun row' hrow' => ?_⟩ <;>
      obtain rfl := Option.some.inj hrow'
    · rw [haccepts.opened_eq, BookingView.after, List.foldl_append, h.folded row hrow,
        haccepts.replay]
    · obtain ⟨hcount, hstatus⟩ := h.started row hrow
      simp only [BookingView.after, List.filterMap_append]
      rcases haccepts.handovers with ⟨hnone, hkept⟩ | ⟨hconfirmed, hactive, payload, hone⟩
      · rw [hnone, List.append_nil]
        exact ⟨hcount, fun hne => hkept (hstatus hne)⟩
      · -- the first handover: there was none while the booking was confirmed
        have hnone : v.log.filterMap BookingEvent.handover? = [] := by
          by_contra hne
          rcases hstatus hne with hs | hs <;> rw [hconfirmed] at hs <;> cases hs
        rw [hone, hnone]
        exact ⟨Nat.le_refl 1, fun _ => .inl hactive⟩

end Operation

/-! ### The whole database -/

namespace BookingDb

/-- The rows of `booking_events` of a booking. -/
def eventsOf (db : BookingDb) (bookingId : Uuid) : List BookingEventRow :=
  db.bookingEvents.filter (·.bookingId = bookingId)

/-- The rows and the logs of all bookings agree, and the logs have no gaps. -/
structure LogOk (db : BookingDb) : Prop where
  logged : ∀ b, (db.view b).Logged
  versions : ∀ b, (db.eventsOf b).map (·.version) = List.range' 2 (db.eventsOf b).length

variable {db db' : BookingDb} {op : BookingOperation} {b : Uuid} {row : Booking}

theorem logOk_empty : LogOk {} where
  logged _ := ⟨fun _ => rfl, fun _ h => (by cases h), fun _ h => (by cases h)⟩
  versions _ := rfl

theorem log_eq (db : BookingDb) (b : Uuid) : (db.view b).log = (db.eventsOf b).map (·.event) := rfl

/-- The version of a row counts its events. -/
theorem LogOk.version_eq (h : db.LogOk) (hrow : db.getById b = some row) :
    row.version = (db.eventsOf b).length + 1 := by
  have hfold := (h.logged b).folded row hrow
  have hversion := Booking.version_foldl_replay row.opened (db.view b).log
  rw [hfold, log_eq, List.length_map] at hversion
  rw [hversion, Nat.add_comm]
  rfl

theorem eventsOf_append (w : Writes) (hw : w.About op.bookingId)
    (hevents : db'.bookingEvents = db.bookingEvents ++ w.events) :
    db'.eventsOf b = db.eventsOf b ++ if op.bookingId = b then w.events else [] := by
  rw [eventsOf, hevents, List.filter_append, ← eventsOf]
  congr 1
  by_cases hb : op.bookingId = b
  · rw [if_pos hb, List.filter_eq_self.mpr fun r hr => by simp [hw.events r hr, hb]]
  · rw [if_neg hb, List.filter_eq_nil_iff.mpr fun r hr => by simp [hw.events r hr, hb]]

/-- **An operation keeps the rows and the logs in agreement.** -/
theorem LogOk.execute (h : db.LogOk) (hexec : db.execute op = .ok db') : db'.LogOk := by
  obtain ⟨w, -, hw, heffect, hself, hothers, hevents, -, -⟩ := execute_writes hexec
  refine ⟨fun b => ?_, fun b => ?_⟩
  · by_cases hb : op.bookingId = b
    · subst hb
      rw [hself]
      exact (h.logged _).after heffect
    · rw [hothers b hb]
      exact h.logged b
  · rw [eventsOf_append w hw hevents]
    by_cases hb : op.bookingId = b
    swap
    · rw [if_neg hb, List.append_nil]
      exact h.versions b
    subst hb
    rw [if_pos rfl, List.map_append, h.versions, List.length_append, ← List.range'_append_1]
    congr 1
    cases heffect with
    | opened id vehicle renterId payload hnone =>
      have hempty : db.eventsOf id = [] := by
        have hlog := (h.logged id).unopened hnone
        rwa [log_eq, List.map_eq_nil_iff] at hlog
      rw [BookingOperation.bookingId, hempty, requestWrites, map_version_eventRows]
      simp [Booking.eventRows, createRequested]
    | operated _ _ row hrow haccepts =>
      rw [haccepts.events_eq, map_version_eventRows, h.version_eq hrow]
      simp [Booking.eventRows]
      omega

/-- The row of a booking only changes to later versions. -/
theorem getById_execute (hexec : db.execute op = .ok db')
    (hrow : db.getById b = some row) :
    ∃ row', db'.getById b = some row' ∧ (row' = row ∨ row.version < row'.version) := by
  obtain ⟨w, -, hw, heffect, hself, hothers, -⟩ := execute_writes hexec
  by_cases hb : op.bookingId = b
  swap
  · exact ⟨row, (congrArg BookingView.row (hothers b hb)).trans hrow, .inl rfl⟩
  subst hb
  refine ⟨w.booking, congrArg BookingView.row hself, .inr ?_⟩
  cases heffect with
  | opened id vehicle renterId payload hnone => cases hnone.symm.trans hrow
  | operated _ _ row' hrow' haccepts =>
    obtain rfl : row = row' := Option.some.inj (hrow.symm.trans hrow')
    rw [← haccepts.replay, Booking.version_foldl_replay]
    have := List.length_pos_iff.mpr haccepts.events_ne_nil
    simpa using this

/-- **Endings are final**: the row of a booking that has ended is never written again. -/
theorem terminal_execute (hexec : db.execute op = .ok db') (hrow : db.getById b = some row)
    (hended : row.status.Terminal) : db'.getById b = some row := by
  obtain ⟨w, -, -, heffect, -, hothers, -⟩ := execute_writes hexec
  by_cases hb : op.bookingId = b
  swap
  · exact (congrArg BookingView.row (hothers b hb)).trans hrow
  subst hb
  cases heffect with
  | opened id vehicle renterId payload hnone => cases hnone.symm.trans hrow
  | operated _ _ row' hrow' haccepts =>
    obtain rfl : row = row' := Option.some.inj (hrow.symm.trans hrow')
    exact absurd hended haccepts.not_terminal

end BookingDb

end CarFlow
