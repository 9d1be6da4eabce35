import CarFlow.Booking.Serializability

/-!
# The outbox of the booking service is the image of its event log

Each operation of `services/booking/service.py` appends its events and writes its outbox rows with
separate calls. This module says what the rows have to be, as a function of the events alone:
`BookingEvent.message?` is the message an event calls for, given the row the log folds to at its
version, and `outboxImage` maps it over a log.

## Main results

* `Accepts.outbox_eq` — the messages of an accepted operation are the image of its events
* `Mirrored.execute` — an operation keeps the outbox of every booking the image of its log
* `outbox_mirrors_event_log` — **in every reachable state** the outbox rows of a booking are the
  image of its event log, and the outbox holds what the committed transactions wrote and nothing
  else
-/

namespace CarFlow

open BookingDb

/-! ### The image of a log -/

/-- The message an event calls for, with its data. `row` is the row that the log folds to at the
version of the event. -/
def BookingEvent.message? (row : Booking) : BookingEvent → Option BookingMessage
  | .bookingRequested =>
    if row.bookingMode = .instant then
      some (.authorizePaymentRequested row.id row.renterId
        (row.dailyPriceCents * max (daysBetween row.endDate row.startDate) 1))
    else none
  | .bookingRequestAccepted =>
    some (.authorizePaymentRequested row.id row.renterId
      (row.dailyPriceCents * max (daysBetween row.endDate row.startDate) 1))
  | .bookingRejected =>
    some (.lifecycle .bookingRejected row.id row.renterId row.hostId row.status)
  | .bookingConfirmed =>
    some (.lifecycle .bookingConfirmed row.id row.renterId row.hostId row.status)
  | .bookingCancelled =>
    some (.lifecycle .bookingCancelled row.id row.renterId row.hostId row.status)
  | .bookingCompleted =>
    some (.lifecycle .bookingCompleted row.id row.renterId row.hostId row.status)
  | .bookingReturnRecorded payload =>
    some (.capturePaymentRequested row.id row.hostId
      (row.dailyPriceCents * max (daysBetween row.endDate row.startDate) 1) payload.overageCents)
  | .paymentCaptureFailed =>
    some (.lifecycle .bookingPaymentCaptureFailed row.id row.renterId row.hostId row.status)
  | .paymentAuthorized | .paymentAuthorizationFailed | .bookingHandoverRecorded _
  | .paymentCaptured => none

/-- The messages a log calls for, from the row before its first event. -/
def outboxImage (row : Booking) : List BookingEvent → List BookingMessage
  | [] => []
  | event :: log => (event.message? (row.replay event)).toList ++ outboxImage (row.replay event) log

section Image

variable {row : Booking} {op : BookingOperation} {w : Writes}

/-- The image of a log goes on from the row its first part folds to. -/
theorem outboxImage_append (row : Booking) (log log' : List BookingEvent) :
    outboxImage row (log ++ log') =
      outboxImage row log ++ outboxImage (log.foldl Booking.replay row) log' := by
  induction log generalizing row with
  | nil => rfl
  | cons event log ih =>
    rw [List.cons_append, outboxImage, ih, ← List.append_assoc]
    rfl

/-- A lifecycle message in the image carries the status that the log folds to at its event. -/
theorem status_of_message {event : BookingEvent} {lifecycle : LifecycleEvent}
    {bookingId renterId hostId : Uuid} {status : BookingStatus}
    (h : event.message? row = some (.lifecycle lifecycle bookingId renterId hostId status)) :
    status = row.status := by
  cases event <;>
    simp_all [BookingEvent.message?]

/-- **The messages of an operation** are the image of its events. -/
theorem Accepts.outbox_eq (h : Accepts row op w) :
    w.outbox = outboxImage row (w.events.map (·.event)) := by
  cases h with
  | handover => rw [map_event_eventRows]; rfl
  | accept => rw [map_event_eventRows]; rfl
  | reject => rw [map_event_eventRows]; rfl
  | «return» => rw [map_event_eventRows]; rfl
  | confirm => rw [map_event_eventRows]; rfl
  | cancel => rw [map_event_eventRows]; rfl
  | complete => rw [map_event_eventRows]; rfl
  | noteFailure _ hstatus => rw [map_event_eventRows]; rfl

theorem requestWrites_outbox_eq (id : Uuid) (vehicle : VehicleInfo) (renterId : Uuid)
    (payload : CreateBookingRequest) :
    (requestWrites id vehicle renterId payload).outbox =
      outboxImage (createRequested id vehicle renterId payload) [.bookingRequested] := by
  have hmode : ((createRequested id vehicle renterId payload).replay
      .bookingRequested).bookingMode = vehicle.bookingMode := rfl
  simp only [requestWrites, outboxImage, BookingEvent.message?, hmode]
  split <;> rfl

end Image

/-! ### The whole database -/

/-- The image of what the database holds about one booking. -/
def BookingView.image (v : BookingView) : List BookingMessage :=
  match v.row with
  | none => []
  | some row => outboxImage row.opened v.log

/-- The outbox is the image of the event logs. -/
structure BookingDb.Mirrored (db : BookingDb) : Prop where
  image : ∀ b, writtenFor db.outbox b = (db.view b).image
  /-- Every message is about the booking it is written for. -/
  about : ∀ row ∈ db.outbox, row.payload.bookingId = row.aggregateId
  /-- Identifiers are the positions in the table. -/
  ids : db.outbox.map (·.id) = List.range db.outbox.length

section Mirrored

variable {db db' : BookingDb} {op : BookingOperation} {w : Writes} {v : BookingView}

/-- An operation writes the image of the events it appends. -/
theorem BookingView.image_after (hlogged : v.Logged) (heffect : BookingEffect v op w) :
    (v.after w).image = v.image ++ w.outbox := by
  cases heffect with
  | opened id vehicle renterId payload hnone =>
    rw [requestWrites_outbox_eq, image, image, hnone, BookingView.after, hlogged.unopened hnone,
      requestWrites, map_event_eventRows]
    rfl
  | operated _ _ row hrow haccepts =>
    rw [haccepts.outbox_eq, image, image, hrow]
    simp only [BookingView.after]
    rw [haccepts.opened_eq, outboxImage_append, hlogged.folded row hrow]

theorem mirrored_empty : BookingDb.Mirrored {} where
  image _ := rfl
  about _ h := by cases h
  ids := rfl

/-- **An operation keeps the outbox the image of the event logs.** -/
theorem BookingDb.Mirrored.execute (h : db.Mirrored) (hlog : db.LogOk)
    (hexec : db.execute op = .ok db') : db'.Mirrored := by
  obtain ⟨w, -, hw, heffect, hself, hothers, -, houtbox, -⟩ := execute_writes hexec
  refine ⟨fun b => ?_, fun row hrow => ?_, ?_⟩
  · rw [houtbox, writtenFor_writeAll, h.image]
    by_cases hb : op.bookingId = b
    · subst hb
      rw [if_pos rfl, hself, BookingView.image_after (hlog.logged _) heffect]
    · rw [if_neg hb, List.append_nil, hothers b hb]
  · rw [houtbox] at hrow
    rcases mem_writeAll hrow with hrow | ⟨hk, hp⟩
    · exact h.about row hrow
    · rw [hk, hw.outbox _ hp]
  · rw [houtbox]
    exact map_id_writeAll h.ids _ _

end Mirrored

/-! ### The server -/

/-- What the committed transactions wrote to the outbox, in the order of their commits. -/
def BookingServer.messages (s : BookingServer) : List (Uuid × BookingMessage) :=
  s.history.flatMap fun c => c.writes.outbox.map fun message => (c.op.bookingId, message)

/-- The outbox is the image of the event logs, and of the commits. -/
structure BookingServer.Mirrored (s : BookingServer) : Prop where
  db : s.db.Mirrored
  commits : s.db.outbox.map (fun row => (row.aggregateId, row.payload)) = s.messages

section Server

variable {s s' : BookingServer}

theorem BookingServer.Mirrored.step (h : s.Mirrored) (hok : ServerOk s)
    (hstep : ServerStep s s') : s'.Mirrored := by
  cases hstep with
  | began => exact ⟨h.db, h.commits⟩
  | ran => exact ⟨h.db, h.commits⟩
  | ended => exact ⟨h.db, h.commits⟩
  | committed i t hi hp =>
    have ht := hok.transactions.each t (List.mem_of_getElem? hi)
    refine ⟨h.db.execute hok.log (ht.commit hp), ?_⟩
    rw [BookingDb.commit, map_writeAll, h.commits, ht.outbox_eq hp, BookingServer.messages,
      BookingServer.messages, List.flatMap_append]
    simp

theorem mirrored_of_reachable (h : bookingServer.Reachable s) : s.Mirrored :=
  h.invariant BookingServer.Mirrored ⟨mirrored_empty, rfl⟩ fun _ _ _ hr hs hstep =>
    hs.step (serverOk_of_reachable hr) (serverStep_cases hstep)

/-- **The outbox is the image of the event log**, in every reachable state. The events of a booking
are at the versions from `2` to that of its row, and the outbox rows written for it are their image,
each lifecycle message with the status that the log folds to at its event. A booking that was never
opened has no outbox rows. All rows are about the booking they are written for, no identifier is
used twice, and the table is what the committed transactions wrote, in the order of their
commits. -/
theorem outbox_mirrors_event_log (h : bookingServer.Reachable s) :
    (∀ b row, s.db.getById b = some row →
      (s.db.eventsOf b).map (·.version) = List.range' 2 (row.version - 1) ∧
      writtenFor s.db.outbox b = outboxImage row.opened ((s.db.eventsOf b).map (·.event)) ∧
      ∀ pre event post, (s.db.eventsOf b).map (·.event) = pre ++ event :: post →
        ∀ lifecycle bookingId renterId hostId status,
          event.message? ((pre ++ [event]).foldl Booking.replay row.opened) =
            some (.lifecycle lifecycle bookingId renterId hostId status) →
          status = (pre ++ [event]).foldl BookingStatus.after .requested) ∧
    (∀ b, s.db.getById b = none → s.db.eventsOf b = [] ∧ writtenFor s.db.outbox b = []) ∧
    (∀ row ∈ s.db.outbox, row.payload.bookingId = row.aggregateId) ∧
    (s.db.outbox.map (·.id)).Nodup ∧
    s.db.outbox.map (fun row => (row.aggregateId, row.payload)) = s.messages := by
  have hok := serverOk_of_reachable h
  have hmirror := mirrored_of_reachable h
  refine ⟨fun b row hrow => ⟨?_, ?_, ?_⟩, fun b hnone => ⟨?_, ?_⟩, hmirror.db.about, ?_,
    hmirror.commits⟩
  · rw [hok.log.versions, hok.log.version_eq hrow, Nat.add_sub_cancel]
  · have himage := hmirror.db.image b
    rwa [BookingView.image, show (s.db.view b).row = some row from hrow] at himage
  · intro pre event post _ lifecycle bookingId renterId hostId status hmessage
    rw [status_of_message hmessage, Booking.status_foldl_replay]
    rfl
  · have hlog := (hok.log.logged b).unopened hnone
    rwa [log_eq, List.map_eq_nil_iff] at hlog
  · have himage := hmirror.db.image b
    rwa [BookingView.image, show (s.db.view b).row = none from hnone] at himage
  · rw [hmirror.db.ids]
    exact List.nodup_range

end Server

/-! ### A sample -/

/-- A transaction that runs by itself, with this number of statements. -/
def alone (op : BookingOperation) (statements : ℕ) : List ServerAction :=
  .begin op true :: List.replicate statements (.run 0) ++ [.commit 0]

/-- Renter `2` requests the car three times. The host rejects the first request, the payment of the
second fails, and the third becomes a trip. -/
def sampleMessages : List ServerAction :=
  alone (.requestBooking 0 (some (sampleVehicle .request)) 2 sampleDates) 3 ++
  alone (.rejectBookingRequest 0 1) 3 ++
  alone (.requestBooking 1 (some (sampleVehicle .request)) 2 sampleDates) 3 ++
  alone (.acceptBookingRequest 1 1) 3 ++
  alone (.applyPaymentAuthorizationFailed 1) 4 ++
  alone (.requestBooking 2 (some (sampleVehicle .instant)) 2 sampleDates) 4 ++
  alone (.applyPaymentAuthorized 2) 4 ++
  alone (.recordHandover 2 1 (sampleHandover 1000)) 3 ++
  alone (.recordReturn 2 1 (sampleHandover 2000)) 4 ++
  alone (.applyPaymentCaptured 2) 4

/-- The outbox rows of the three bookings, one by one. -/
theorem outbox_mirrors_event_log_sampleMessages :
    ∃ s, bookingServer.Reachable s ∧
      writtenFor s.db.outbox 0 = [.lifecycle .bookingRejected 0 2 1 .rejected] ∧
      writtenFor s.db.outbox 1 = [.authorizePaymentRequested 1 2 15000,
        .lifecycle .bookingCancelled 1 2 1 .cancelled] ∧
      writtenFor s.db.outbox 2 = [.authorizePaymentRequested 2 2 15000,
        .lifecycle .bookingConfirmed 2 2 1 .confirmed, .capturePaymentRequested 2 1 15000 20000,
        .lifecycle .bookingCompleted 2 2 1 .completed] ∧
      ∃ row, s.db.getById 2 = some row ∧ row.status = .completed ∧
        writtenFor s.db.outbox 2 = outboxImage row.opened ((s.db.eventsOf 2).map (·.event)) := by
  have hend : (bookingServer.run {} sampleMessages).map (fun s =>
      ((s.db.getById 2).map (·.status), [0, 1, 2].map (writtenFor s.db.outbox))) =
        some (some .completed, [[.lifecycle .bookingRejected 0 2 1 .rejected],
          [.authorizePaymentRequested 1 2 15000, .lifecycle .bookingCancelled 1 2 1 .cancelled],
          [.authorizePaymentRequested 2 2 15000, .lifecycle .bookingConfirmed 2 2 1 .confirmed,
            .capturePaymentRequested 2 1 15000 20000,
            .lifecycle .bookingCompleted 2 2 1 .completed]]) := by decide +kernel
  obtain ⟨s, hrun, hs⟩ := Option.map_eq_some_iff.mp hend
  simp only [List.map_cons, List.map_nil, Prod.mk.injEq, Option.map_eq_some_iff, List.cons.injEq,
    and_true] at hs
  obtain ⟨⟨row, hrow, hstatus⟩, hrejected, hcancelled, hcompleted⟩ := hs
  have hreach := TransitionSystem.reachable_of_run .init hrun
  exact ⟨s, hreach, hrejected, hcancelled, hcompleted, row, hrow, hstatus,
    ((outbox_mirrors_event_log hreach).1 2 row hrow).2.1⟩

end CarFlow
