import CarFlow.Notification.Service

/-!
# Who is notified of what

The outbox of the booking service is the image of its event logs, and the notification service
calls `notify_user` for the lifecycle rows of it. Between a booking and the lines in the log there
are two services, any number of deliveries and crashes at any point.

## Implementation notes

What a party is told is written out in `userLines`, from the preferences that a row of the table
gives, and not taken from `notifyUser`; that the handler writes these lines is `notifyUser_eq`. The
preferences are those of one committed version of the table, the one that the call has read.

## Main results

* `booking_of_lifecycle`, `exists_announcement` — the lifecycle rows of the outbox are those of the
  bookings' event logs
* `parties_notified` — **both parties of a booking are told of all that has become of it**, and
  nobody is told anything else
-/

namespace CarFlow

/-! ### The lifecycle rows of the outbox -/

/-- The lifecycle event that an event of the log is announced as. -/
def BookingEvent.lifecycle? : BookingEvent → Option LifecycleEvent
  | .bookingRejected => some .bookingRejected
  | .bookingConfirmed => some .bookingConfirmed
  | .bookingCancelled => some .bookingCancelled
  | .bookingCompleted => some .bookingCompleted
  | .paymentCaptureFailed => some .bookingPaymentCaptureFailed
  | .bookingRequested | .bookingRequestAccepted | .paymentAuthorized | .paymentAuthorizationFailed
  | .bookingHandoverRecorded _ | .bookingReturnRecorded _ | .paymentCaptured => none

section Lifecycle

variable {row : Booking} {lifecycle : LifecycleEvent}

theorem BookingEvent.message?_of_lifecycle {event : BookingEvent}
    (h : event.lifecycle? = some lifecycle) :
    event.message? row =
      some (.lifecycle lifecycle row.id row.renterId row.hostId row.status) := by
  cases event <;> cases h <;> rfl

theorem BookingEvent.lifecycle_of_message {event : BookingEvent}
    {bookingId renterId hostId : Uuid} {status : BookingStatus}
    (h : event.message? row = some (.lifecycle lifecycle bookingId renterId hostId status)) :
    event.lifecycle? = some lifecycle ∧ renterId = row.renterId ∧ hostId = row.hostId := by
  cases event <;>
    simp_all [BookingEvent.message?, BookingEvent.lifecycle?]

/-- A message of the image is that of an event of the log. -/
theorem mem_outboxImage {message : BookingMessage} {log : List BookingEvent}
    (h : message ∈ outboxImage row log) :
    ∃ event ∈ log, ∃ row', row'.opened = row.opened ∧ event.message? row' = some message := by
  induction log generalizing row with
  | nil => cases h
  | cons event log ih =>
    rcases List.mem_append.mp h with h | h
    · exact ⟨event, .head _, _, Booking.opened_replay row event, Option.mem_toList.mp h⟩
    · obtain ⟨event', hmem, row', hopened, hmessage⟩ := ih h
      exact ⟨event', .tail _ hmem, row', hopened.trans (Booking.opened_replay row event), hmessage⟩

/-- An event of the log that is announced has its message in the image. -/
theorem exists_message_of_mem {event : BookingEvent} {log : List BookingEvent} (h : event ∈ log)
    (hlifecycle : event.lifecycle? = some lifecycle) :
    ∃ row', row'.opened = row.opened ∧ emitDomainEvent row' lifecycle ∈ outboxImage row log := by
  induction log generalizing row with
  | nil => cases h
  | cons first log ih =>
    rcases List.mem_cons.mp h with rfl | h
    · refine ⟨_, Booking.opened_replay row event, List.mem_append_left _ ?_⟩
      rw [BookingEvent.message?_of_lifecycle hlifecycle]
      exact List.mem_singleton_self _
    · obtain ⟨row', hopened, hmem⟩ := ih h
      exact ⟨row', hopened.trans (Booking.opened_replay row first), List.mem_append_right _ hmem⟩

/-- The lifecycle row of the outbox for a booking and an event. -/
def OutboxRow.Announces (r : OutboxRow BookingMessage) (row : Booking)
    (lifecycle : LifecycleEvent) : Prop :=
  ∃ status, r.payload = .lifecycle lifecycle row.id row.renterId row.hostId status

variable {b : BookingServer}

theorem parties_of_opened {row' : Booking} (h : row'.opened = row.opened) :
    row'.id = row.id ∧ row'.renterId = row.renterId ∧ row'.hostId = row.hostId := by
  have hid := congrArg Booking.id h
  have hrenter := congrArg Booking.renterId h
  have hhost := congrArg Booking.hostId h
  exact ⟨hid, hrenter, hhost⟩

theorem mem_writtenFor_iff {outbox : List (OutboxRow BookingMessage)} {k : Uuid}
    {message : BookingMessage} :
    message ∈ writtenFor outbox k ↔ ∃ r ∈ outbox, r.aggregateId = k ∧ r.payload = message := by
  simp [writtenFor, and_assoc]

/-- A lifecycle row is about an event of a booking, and names its parties. -/
theorem booking_of_lifecycle (hb : bookingServer.Reachable b) {r : OutboxRow BookingMessage}
    (hr : r ∈ b.db.outbox) {bookingId renterId hostId : Uuid} {status : BookingStatus}
    (hpayload : r.payload = .lifecycle lifecycle bookingId renterId hostId status) :
    ∃ row, b.db.getById bookingId = some row ∧ renterId = row.renterId ∧ hostId = row.hostId ∧
      ∃ event ∈ (b.db.eventsOf bookingId).map (·.event), event.lifecycle? = some lifecycle := by
  have hmirror := (mirrored_of_reachable hb).db
  have hid : r.aggregateId = bookingId := by
    rw [← hmirror.about r hr, hpayload]
    rfl
  have hmem : r.payload ∈ writtenFor b.db.outbox bookingId :=
    mem_writtenFor_iff.mpr ⟨r, hr, hid, rfl⟩
  rw [hmirror.image, BookingView.image] at hmem
  split at hmem
  · cases hmem
  · rename_i row hrow
    obtain ⟨event, hevent, row', hopened, hmessage⟩ := mem_outboxImage hmem
    rw [hpayload] at hmessage
    obtain ⟨hlifecycle, hrenter, hhost⟩ := BookingEvent.lifecycle_of_message hmessage
    obtain ⟨-, hrenter', hhost'⟩ := parties_of_opened hopened
    exact ⟨row, hrow, hrenter.trans hrenter', hhost.trans hhost', event, hevent, hlifecycle⟩

/-- An event that is announced has its row in the outbox. -/
theorem exists_announcement (hb : bookingServer.Reachable b) {bookingId : Uuid}
    (hrow : b.db.getById bookingId = some row) {event : BookingEvent}
    (hevent : event ∈ (b.db.eventsOf bookingId).map (·.event))
    (hlifecycle : event.lifecycle? = some lifecycle) :
    ∃ r ∈ b.db.outbox, r.Announces row lifecycle := by
  have himage : writtenFor b.db.outbox bookingId =
      outboxImage row.opened ((b.db.eventsOf bookingId).map (·.event)) := by
    rw [(mirrored_of_reachable hb).db.image bookingId, BookingView.image,
      show (b.db.view bookingId).row = some row from hrow]
    rfl
  obtain ⟨row', hopened, hmem⟩ : ∃ row', row'.opened = row.opened.opened ∧
      emitDomainEvent row' lifecycle ∈ writtenFor b.db.outbox bookingId :=
    himage ▸ exists_message_of_mem hevent hlifecycle
  obtain ⟨r, hr, -, hpayload⟩ := mem_writtenFor_iff.mp hmem
  obtain ⟨hid, hrenter, hhost⟩ := parties_of_opened hopened
  refine ⟨r, hr, row'.status, ?_⟩
  rw [hpayload, emitDomainEvent, hid, hrenter, hhost]
  rfl

end Lifecycle

/-! ### The notifications -/

/-- The consumers of the notification service. -/
abbrev NotificationGroup :=
  CallingGroup BookingMessage (List NotificationPreference) (Option (List NotificationPreference))
    String

/-- The user has not opted out of a channel: no row of theirs says so. -/
def HasOn (preferences : List NotificationPreference) (userId : Uuid)
    (enabled : NotificationPreference → Bool) : Prop :=
  ∀ row, preferences.find? (·.userId = userId) = some row → enabled row = true

instance (preferences : List NotificationPreference) (userId : Uuid)
    (enabled : NotificationPreference → Bool) : Decidable (HasOn preferences userId enabled) :=
  match h : preferences.find? (·.userId = userId) with
  | none => isTrue fun _ hrow => by cases h.symm.trans hrow
  | some row => decidable_of_iff (enabled row = true)
      ⟨fun hon _ hrow => Option.some.inj (h.symm.trans hrow) ▸ hon, fun hon => hon row h⟩

/-- What a user is told about an event of a booking: a line for each channel that they have on. -/
def userLines (preferences : List NotificationPreference) (userId : Uuid)
    (lifecycle : LifecycleEvent) (bookingId : Uuid) : List String :=
  (if HasOn preferences userId (·.emailEnabled) then
    ["would_send channel=email user_id=" ++ uuidStr userId ++ " event_type=" ++
      lifecycle.eventType ++ " booking_id=" ++ uuidStr bookingId] else []) ++
  if HasOn preferences userId (·.smsEnabled) then
    ["would_send channel=sms user_id=" ++ uuidStr userId ++ " event_type=" ++
      lifecycle.eventType ++ " booking_id=" ++ uuidStr bookingId] else []

/-- The user has been told about the event, with the preferences as they were at some time. -/
def NotificationGroup.Notified (s : NotificationGroup) (eventId : EventId) (userId : Uuid)
    (lifecycle : LifecycleEvent) (bookingId : Uuid) : Prop :=
  ∃ c ∈ s.sent, c.eventId = eventId ∧ ∃ preferences ∈ s.versions,
    c.lines = userLines preferences userId lifecycle bookingId

section Notified

variable {preferences : List NotificationPreference} {s : NotificationGroup}

theorem resolvePreference_eq (preferences : List NotificationPreference) (userId : Uuid) :
    resolvePreference preferences userId =
      ⟨HasOn preferences userId (·.emailEnabled), HasOn preferences userId (·.smsEnabled)⟩ := by
  unfold resolvePreference RowTable.lookup
  cases hrow : preferences.find? (·.userId = userId) with
  | none =>
    have hon (enabled : NotificationPreference → Bool) : HasOn preferences userId enabled :=
      fun _ hrow' => by cases hrow.symm.trans hrow'
    simp [hon, defaultPreferenceEmailEnabled, defaultPreferenceSmsEnabled]
  | some row =>
    have hon (enabled : NotificationPreference → Bool) :
        HasOn preferences userId enabled ↔ enabled row = true :=
      ⟨fun h => h row hrow, fun h _ hrow' => Option.some.inj (hrow.symm.trans hrow') ▸ h⟩
    simp [hon]

theorem wouldSend_eq (call : UserNotification) (channel : String) :
    call.wouldSend channel = "would_send channel=" ++ channel ++ " user_id=" ++
      uuidStr call.userId ++ " event_type=" ++ call.eventType ++ " booking_id=" ++
        call.bookingId := by
  unfold UserNotification.wouldSend
  generalize uuidStr call.userId = userId
  show "would_send channel=" ++ channel ++ " user_id=" ++ userId ++ " event_type=" ++
    call.eventType ++ " " ++ ("booking_id=" ++ call.bookingId) = _
  simp only [String.append_assoc]
  rfl

/-- `notify_user` sends the lines for the channels that are on. -/
theorem notifyUser_eq (preferences : List NotificationPreference) (userId : Uuid)
    (lifecycle : LifecycleEvent) (bookingId : Uuid) :
    notifyUser ⟨userId, lifecycle.eventType, uuidStr bookingId⟩ preferences =
      userLines preferences userId lifecycle bookingId := by
  have hemail : "would_send channel=" ++ "email" ++ " user_id=" =
      "would_send channel=email user_id=" := by decide
  have hsms : "would_send channel=" ++ "sms" ++ " user_id=" =
      "would_send channel=sms user_id=" := by decide
  simp only [notifyUser, resolvePreference_eq, decide_eq_true_eq, userLines, wouldSend_eq, hemail,
    hsms]

/-- The calls of the service are for lifecycle events. -/
theorem lifecycle_of_call {message : BookingMessage} (huuids : message.Uuids) {i : ℕ}
    {call : UserNotification}
    (h : ((notificationService preferences).calls message)[i]? = some call) :
    ∃ lifecycle bookingId renterId hostId status,
      message = .lifecycle lifecycle bookingId renterId hostId status ∧
      call ∈ lifecycleCalls lifecycle bookingId renterId hostId := by
  rw [notificationService_calls huuids] at h
  cases message with
  | authorizePaymentRequested => cases h
  | capturePaymentRequested => cases h
  | lifecycle lifecycle bookingId renterId hostId status =>
    exact ⟨lifecycle, bookingId, renterId, hostId, status, rfl, List.mem_of_getElem? h⟩

/-- **Both parties of a booking are told of all that has become of it**, if its announcement is
claimed, as those below a committed offset are. Nobody is told anything else: what was sent is about
an event of a booking's log, to its renter or its host, over the channels they had on.
No event makes a handler raise, so every claim can be committed; a party is told again only after a
claim was lost, and not after one was committed. -/
theorem parties_notified (h : (notificationService preferences).callingGroup.Reachable s)
    {b : BookingServer} (hb : bookingServer.Reachable b) (houtbox : s.group.outbox = b.db.outbox)
    (huuids : ∀ r ∈ b.db.outbox, r.payload.Uuids) :
    (∀ bookingId row lifecycle, b.db.getById bookingId = some row →
      (∃ event ∈ (b.db.eventsOf bookingId).map (·.event), event.lifecycle? = some lifecycle) →
      ∃ r ∈ s.group.outbox, r.Announces row lifecycle ∧ (r.id ∈ s.group.db.inbox →
        s.Notified r.id row.renterId lifecycle row.id ∧
          s.Notified r.id row.hostId lifecycle row.id)) ∧
    (∀ q (o : ℕ) r, (s.group.partitions q)[o]? = some r → o < s.group.offsets q →
      r.id ∈ s.group.db.inbox) ∧
    (∀ c ∈ s.sent, ∃ bookingId row lifecycle, b.db.getById bookingId = some row ∧
      (∃ event ∈ (b.db.eventsOf bookingId).map (·.event), event.lifecycle? = some lifecycle) ∧
      ∃ userId, (userId = row.renterId ∨ userId = row.hostId) ∧ ∃ preferences ∈ s.versions,
        c.lines = userLines preferences userId lifecycle bookingId) ∧
    (∀ (p : ℕ) t r, s.group.processes[p]? = some t → t.inHand = some (r, .claimed) →
      ∃ s', (notificationService preferences).callingGroup.Leads s s' ∧
        r.id ∈ s'.group.db.inbox) ∧
    (∀ eventId i, s.times eventId i ≤ s.claims.count eventId) ∧
    ∀ s', (notificationService preferences).callingGroup.Leads s s' →
      ∀ eventId ∈ s.group.db.inbox,
        s'.sent.filter (·.eventId = eventId) = s.sent.filter (·.eventId = eventId) := by
  obtain ⟨hof, hmade, hoffsets, htimes, hstable⟩ := calls_at_least_once h
  refine ⟨fun bookingId row lifecycle hrow hevent => ?_,
    fun q o r hr ho => (hoffsets q o r hr ho).2, fun c hc => ?_, fun p t r hp hinHand => ?_,
    htimes, hstable⟩
  · obtain ⟨event, hevent, hlifecycle⟩ := hevent
    obtain ⟨r, hr, status, hpayload⟩ := exists_announcement hb hrow hevent hlifecycle
    have huuid := huuids r hr
    rw [← houtbox] at hr
    refine ⟨r, hr, ⟨status, hpayload⟩, fun hmem => ?_⟩
    have hcalls : (notificationService preferences).calls r.payload =
        lifecycleCalls lifecycle row.id row.renterId row.hostId := by
      rw [notificationService_calls huuid, hpayload]
      rfl
    have hnotified {i : ℕ} {userId : Uuid}
        (hi : (lifecycleCalls lifecycle row.id row.renterId row.hostId)[i]? =
          some ⟨userId, lifecycle.eventType, uuidStr row.id⟩) :
        s.Notified r.id userId lifecycle row.id := by
      obtain ⟨c, hc, hid, preferences', hversion, hlines⟩ := hmade r hr hmem i _ (hcalls ▸ hi)
      exact ⟨c, hc, hid, preferences', hversion, hlines.trans (notifyUser_eq ..)⟩
    exact ⟨hnotified (i := 0) rfl, hnotified (i := 1) rfl⟩
  · obtain ⟨r, hr, hid, call, hcall, preferences', hversion, hlines⟩ := hof c hc
    rw [houtbox] at hr
    obtain ⟨lifecycle, bookingId, renterId, hostId, status, hpayload, hmem⟩ :=
      lifecycle_of_call (huuids r hr) hcall
    obtain ⟨row, hrow, rfl, rfl, hevent⟩ := booking_of_lifecycle hb hr hpayload
    refine ⟨bookingId, row, lifecycle, hrow, hevent, ?_⟩
    rcases List.mem_pair.mp hmem with rfl | rfl
    · exact ⟨_, .inl rfl, preferences', hversion, hlines.trans (notifyUser_eq ..)⟩
    · exact ⟨_, .inr rfl, preferences', hversion, hlines.trans (notifyUser_eq ..)⟩
  · refine leads_committed () h hp hinHand fun handler hhandler => ?_
    have hr := (((callsOk_of_reachable h).group.processes.each t
      (List.mem_of_getElem? hp)).inHand r _ hinHand).1
    rw [houtbox] at hr
    rw [Option.mem_def, notificationService_handlers (huuids r hr)] at hhandler
    obtain ⟨calls, -, rfl⟩ := Option.map_eq_some_iff.mp hhandler
    exact ⟨(), none, rfl⟩

end Notified

/-- The host wants no SMS. -/
def sampleOptedOut : List NotificationPreference := [⟨1, true, false⟩]

/-- The confirmation of a booking is delivered twice: the first process crashes when it has told
the renter. -/
def sampleNotifications :
    List (CallingAction BookingMessage Unit (Option (List NotificationPreference))) :=
  [.group (.publish 0 (.authorizePaymentRequested 0 2 15000)),
    .group (.publish 0 (.lifecycle .bookingConfirmed 0 2 1 .confirmed)),
    .group (.ship 0 0), .group (.ship 1 0), .group .start, .group (.assign 0 [0]),
    .group (.fetch 0 0), .group (.claim 0), .group (.handle 0 ()), .group (.commit 0),
    .group (.commitOffset 0), .group (.fetch 0 0), .group (.claim 0), .call 0, .group (.crash 0),
    .group .start, .group (.assign 0 [0]), .group (.fetch 0 0), .group (.claim 0), .call 0,
    .call 0, .group (.handle 0 ()), .group (.commit 0), .group (.commitOffset 0)]

/-- A line about the confirmation, to the user with this last digit. -/
def sampleLine (channel userId : String) : String :=
  "would_send channel=" ++ channel ++ " user_id=00000000-0000-0000-0000-00000000000" ++ userId ++
    " event_type=booking_confirmed booking_id=00000000-0000-0000-0000-000000000000"

/-- The renter, who has all channels on, is told twice by email and by SMS, and the host once, by
email. -/
theorem parties_notified_sampleNotifications :
    ∃ (s : NotificationGroup) (b : BookingServer) (row : Booking),
      (notificationService sampleOptedOut).callingGroup.Reachable s ∧
      bookingServer.Reachable b ∧ s.group.outbox = b.db.outbox ∧
      b.db.getById 0 = some row ∧ row.status = .confirmed ∧ row.renterId = 2 ∧ row.hostId = 1 ∧
      s.sent.map (·.lines) = [[sampleLine "email" "2", sampleLine "sms" "2"],
        [sampleLine "email" "2", sampleLine "sms" "2"], [sampleLine "email" "1"]] ∧
      ∃ r ∈ s.group.outbox, r.Announces row .bookingConfirmed ∧
        s.Notified r.id row.renterId .bookingConfirmed row.id ∧
        s.Notified r.id row.hostId .bookingConfirmed row.id := by
  have hend : ((notificationService sampleOptedOut).callingGroup.run
      (notificationService sampleOptedOut).callingGroup.init sampleNotifications).map (fun s =>
        (s.sent.map (·.lines), s.group.db.inbox, s.group.outbox)) =
      some ([[sampleLine "email" "2", sampleLine "sms" "2"],
        [sampleLine "email" "2", sampleLine "sms" "2"], [sampleLine "email" "1"]],
        [1, 0], [⟨0, 0, .authorizePaymentRequested 0 2 15000⟩,
          ⟨1, 0, .lifecycle .bookingConfirmed 0 2 1 .confirmed⟩]) := by
    decide +kernel
  have hrace : (bookingServer.run {} sampleRace).map (fun b => (b.db.outbox,
      (b.db.getById 0).map (fun row => (row.status, row.renterId, row.hostId)),
      (b.db.eventsOf 0).map (·.event))) =
        some ([⟨0, 0, .authorizePaymentRequested 0 2 15000⟩,
          ⟨1, 0, .lifecycle .bookingConfirmed 0 2 1 .confirmed⟩], some (.confirmed, 2, 1),
          [.bookingRequested, .paymentAuthorized, .bookingConfirmed]) := by
    decide
  obtain ⟨s, hrun, hs⟩ := Option.map_eq_some_iff.mp hend
  obtain ⟨b, hrun', hb⟩ := Option.map_eq_some_iff.mp hrace
  simp only [Prod.mk.injEq] at hs hb
  obtain ⟨hlines, hinbox, houtbox⟩ := hs
  obtain ⟨houtbox', hrow, hevents⟩ := hb
  obtain ⟨row, hrow, hparties⟩ := Option.map_eq_some_iff.mp hrow
  obtain ⟨hstatus, hrenter, hhost⟩ :
      row.status = .confirmed ∧ row.renterId = 2 ∧ row.hostId = 1 := by
    simpa using hparties
  have hreach := TransitionSystem.reachable_of_run .init hrun
  have hreach' := TransitionSystem.reachable_of_run .init hrun'
  obtain ⟨r, hr, hannounces, hnotified⟩ :=
    (parties_notified hreach hreach' (houtbox.trans houtbox'.symm)
      (by simp [houtbox', BookingMessage.Uuids])).1 0 row .bookingConfirmed hrow
        ⟨.bookingConfirmed, by simp [hevents], rfl⟩
  refine ⟨s, b, row, hreach, hreach', houtbox.trans houtbox'.symm, hrow, hstatus, hrenter, hhost,
    hlines, r, hr, hannounces, hnotified ?_⟩
  rw [houtbox] at hr
  rw [hinbox]
  rcases List.mem_pair.mp hr with rfl | rfl <;> decide

end CarFlow
