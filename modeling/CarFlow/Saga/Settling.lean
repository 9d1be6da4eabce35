import CarFlow.Saga.Compensation
import CarFlow.Saga.Completion
import Mathlib

/-!
# The saga settles

What happens when callers stop: records are delivered, in any order, until nothing is in flight.
Deliveries do lead to new records. An authorize or a capture command makes payment write an event,
and the event makes booking announce what became of it. But nothing comes of the announcement, so
there is a bound on how long this goes on.

## What is needed

* No late reject (`RejectsLate`): it leaves an event that booking raises on for ever.
* Vehicles come from listing, the hold of each booking fits its column, and so does the version of
  each after its last two events. Stripe may answer as it likes.

## Implementation notes

That deliveries end is a measure, and that they do not end early is progress; the two are separate,
and only the second one needs the conditions. The measure counts for each message in flight what can
still come of it, so a delivery that writes a new message has to make up for it. Room in the columns
is a condition on the state (`Roomy`) and is kept by deliveries: each event that a booking hears
takes at most two versions, and there are two at most that it has not heard.

## Main results

* `SagaStep.work` — every delivery leaves less to do, or changes nothing
* `exists_delivers` — while anything is in flight, some delivery changes something
* `saga_settles` — **deliveries end, after a bounded number of them, with nothing in flight**, and
  then the two services agree on every booking
-/

namespace CarFlow

/-! ### Deliveries

The measure counts each message with what can come of it. A delivery takes one away and writes
messages that count less. -/

/-- The step is a delivery. -/
def SagaAction.IsDelivery : SagaAction → Prop
  | .perform _ => False
  | .deliverCommand .. | .deliverPaymentEvent _ => True

/-- A delivery that changes something. -/
def Delivers (s t : SagaState) : Prop := ∃ a, a.IsDelivery ∧ sagaSystem.step s a = some t ∧ t ≠ s

/-- How many deliveries come of a message: its own, that of payment's event, and that of what the
booking announces then. -/
def BookingMessage.work : BookingMessage → ℕ
  | .lifecycle .. => 1
  | .authorizePaymentRequested .. | .capturePaymentRequested .. => 3

/-- How many deliveries there can be. -/
def SagaState.work (s : SagaState) : ℕ :=
  ((inFlight s.booking.outbox s.payment.inbox).map BookingMessage.work).sum +
    2 * (inFlight s.payment.outbox s.booking.inbox).length

/-- Nothing is in flight. -/
def SagaState.Drained (s : SagaState) : Prop :=
  inFlight s.booking.outbox s.payment.inbox = [] ∧ inFlight s.payment.outbox s.booking.inbox = []

section Work

variable {s s' : SagaState} {b : Uuid} {row : Booking} {a : SagaAction}
  {tr : List (StripeCall × StripeReply)}

theorem CommandEffect.work {view view' : PaymentView} {message : BookingMessage}
    {events : List PaymentEventType} (h : CommandEffect b view message tr view' events) :
    2 * events.length < message.work := by
  cases h <;> simp [BookingMessage.work]

theorem BookingEffect.work {v : BookingView} {message : PaymentMessage} {w : Writes}
    (h : BookingEffect v (paymentEventHandlers message) w) :
    (w.outbox.map BookingMessage.work).sum = 1 := by
  obtain ⟨row, -, hacc⟩ := h.accepts (creates_paymentEventHandlers _)
  cases message with
  | mk eventType bookingId => cases eventType <;> cases hacc <;> rfl

/-- **Every delivery leaves less to do**, or changes nothing. -/
theorem SagaStep.work (hok : SagaOk s) (h : SagaStep s a s') (ha : a.IsDelivery) :
    s' = s ∨ s'.work < s.work := by
  cases h with
  | idle => exact .inl rfl
  | performed => exact ha.elim
  | handled i stripe row tr db hi he hu hreply h =>
    right
    obtain ⟨events, heffect, houtbox⟩ := h.effect
    have hevents := heffect.work
    have hclaimed := ((inFlight_claim hok.commands hi hu).map BookingMessage.work).sum_nat
    have houtbox : db.outbox = writeAll s.payment.outbox row.payload.bookingId
        (events.map fun eventType => ⟨eventType, row.payload.bookingId⟩) := houtbox
    have hinbox : db.inbox = row.id :: s.payment.inbox := h.inbox
    simp only [List.map_cons, List.sum_cons] at hclaimed
    simp only [SagaState.work, houtbox, hinbox, inFlight_writeAll hok.events, List.length_append,
      List.length_map]
    omega
  | reacted i row db hi he hu h =>
    right
    obtain ⟨w, heffect, -, houtbox, -⟩ := h.effect
    have hwork := heffect.work
    have hclaimed := (inFlight_claim hok.events hi hu).length_eq
    have houtbox : db.outbox = writeAll s.booking.outbox
        (paymentEventHandlers row.payload).bookingId w.outbox := houtbox
    have hinbox : db.inbox = row.id :: s.booking.inbox := h.inbox
    simp only [List.length_cons] at hclaimed
    simp only [SagaState.work, houtbox, hinbox, inFlight_writeAll hok.commands, List.map_append,
      List.sum_append, hwork]
    omega

theorem Delivers.reachable (hd : Delivers s s') (h : sagaSystem.Reachable s) :
    sagaSystem.Reachable s' := by
  obtain ⟨a, -, hstep, -⟩ := hd
  exact h.step hstep

theorem Delivers.work (hd : Delivers s s') (h : sagaSystem.Reachable s) : s'.work < s.work := by
  obtain ⟨a, ha, hstep, hne⟩ := hd
  exact ((sagaStep_cases hstep).work (sagaOk_of_reachable h) ha).resolve_left hne

/-- **Deliveries end.** -/
theorem length_le_work (h : sagaSystem.Reachable s) {run : List SagaState}
    (hrun : List.IsChain Delivers (s :: run)) : run.length ≤ s.work := by
  induction run generalizing s with
  | nil => exact Nat.zero_le _
  | cons t run ih =>
    obtain ⟨hd, hrun⟩ := List.isChain_cons_cons.mp hrun
    have hlater := ih (hd.reachable h) hrun
    have hless := hd.work h
    rw [List.length_cons]
    omega

end Work

/-! ### No delivery is stuck

The first message in flight of a booking can be delivered, and is handled: a command because payment
refuses none that fits the columns, an event because the booking accepts it. -/

section Progress

variable {s t : SagaState} {b : Uuid} {row : Booking} {a : SagaAction}

/-- The amounts of a booking fit their columns, and its version does after every event that it has
still to hear; there are two at most. -/
structure Roomy (v : SagaView) : Prop where
  hold : ∀ row, v.booking.row = some row → FitsInteger (row.dailyPriceCents * row.days)
  version : ∀ row, v.booking.row = some row →
    (row.version : ℤ) + 4 < 2 ^ 31 + 2 * v.handledEvents.length

theorem roomy_of_rows (h : ∀ row ∈ s.booking.bookings,
    FitsInteger (row.dailyPriceCents * row.days) ∧ (row.version : ℤ) + 4 < 2 ^ 31) (b : Uuid) :
    Roomy (s.view b) := by
  have hmem (row : Booking) (hrow : (s.view b).booking.row = some row) :
      row ∈ s.booking.bookings := RowTable.mem_of_lookup hrow
  refine ⟨fun row hrow => (h row (hmem row hrow)).1, fun row hrow => ?_⟩
  have hversion := (h row (hmem row hrow)).2
  omega

/-- Hearing an event takes two versions at most, and leaves the price alone. -/
theorem Accepts.heard {message : PaymentMessage} {w : Writes}
    (h : Accepts row (paymentEventHandlers message) w) :
    ∃ n status, n ≤ 2 ∧ w.booking = row.settle n status := by
  cases message with
  | mk eventType bookingId =>
    cases eventType <;> cases h
    · exact ⟨2, _, Nat.le_refl 2, rfl⟩
    · exact ⟨2, _, Nat.le_refl 2, rfl⟩
    · exact ⟨2, _, Nat.le_refl 2, rfl⟩
    · exact ⟨1, _, Nat.le_succ 1, rfl⟩

/-- Deliveries leave room. -/
theorem Roomy.deliver (h : Roomy (s.view b)) (hok : SagaOk s) (hstep : SagaStep s a t)
    (ha : a.IsDelivery) : Roomy (t.view b) := by
  cases hstep with
  | idle => exact h
  | performed => exact ha.elim
  | handled i stripe row tr db hi he hu hreply hout =>
    obtain ⟨events, -, houtbox⟩ := hout.effect
    have hheard : handledFor db.outbox s.booking.inbox b =
        handledFor s.payment.outbox s.booking.inbox b :=
      houtbox ▸ handledFor_writeAll hok.events _ _ _
    refine ⟨h.hold, fun row hrow => ?_⟩
    have hversion := h.version row hrow
    simp only [SagaState.view, hheard] at hversion ⊢
    exact hversion
  | reacted i prow db hi he hu hout =>
    obtain ⟨w, heffect, hview, -, -⟩ := hout.effect
    have hkey := hok.eventKey prow (List.mem_of_getElem? hi)
    have hinbox : db.inbox = prow.id :: s.booking.inbox := hout.inbox
    have hothers := hout.others
    rw [bookingId_paymentEventHandlers] at heffect hview hothers
    by_cases hb : prow.payload.bookingId = b
    · subst hb
      have hheard := handledFor_claim hok.events hi he hu
      rw [← hkey] at hheard
      obtain ⟨row, hrow, hacc⟩ := heffect.accepts (creates_paymentEventHandlers _)
      have hrow : (s.view prow.payload.bookingId).booking.row = some row := hrow
      obtain ⟨n, status, hn, hbooking⟩ := hacc.heard
      have hrow' : (db.view prow.payload.bookingId).row = some (row.settle n status) := by
        rw [hview, BookingView.after, hbooking]
      have hhold := h.hold row hrow
      have hversion := h.version row hrow
      simp only [SagaState.view, List.length_map] at hversion
      refine ⟨fun r hr => ?_, fun r hr => ?_⟩
      · obtain rfl := Option.some.inj (hrow'.symm.trans hr)
        exact hhold
      · obtain rfl := Option.some.inj (hrow'.symm.trans hr)
        simp only [SagaState.view, hinbox, hheard, Booking.settle, List.length_map,
          List.length_append, List.length_singleton]
        omega
    · have hv : db.view b = s.booking.view b := hothers b hb
      have hheard := handledFor_claim_of_ne hok.events hi (hkey ▸ hb)
      have hrows (r : Booking) (hr : (db.view b).row = some r) : (s.booking.view b).row = some r :=
        hv ▸ hr
      refine ⟨fun r hr => h.hold r (hrows r hr), fun r hr => ?_⟩
      have hversion := h.version r (hrows r hr)
      simp only [SagaState.view, hinbox, hheard] at hversion ⊢
      exact hversion

/-- The first delivery of a command whose handler does not raise changes something. -/
theorem delivers_command {i : ℕ} {orow : OutboxRow BookingMessage} {db : PaymentDb}
    {stripe : StripeCall → StripeReply} (hi : s.booking.outbox[i]? = some orow)
    (he : EarlierClaimed s.booking.outbox s.payment.inbox i orow)
    (hu : orow.id ∉ s.payment.inbox)
    (hrun : (processCommand orow s.payment).run stripe = .ok db) :
    Delivers s { s with payment := db } := by
  obtain ⟨tr, hpath, -⟩ := CallProgram.path_run stripe (processCommand orow s.payment)
  rw [hrun] at hpath
  have hinbox : db.inbox = orow.id :: s.payment.inbox := (processCommand_path hu hpath).inbox
  refine ⟨.deliverCommand i stripe, trivial, ?_, fun heq => ?_⟩
  · simp [sagaSystem, sagaStep, hi, he, hrun, committed]
  · have hpayment : db = s.payment := congrArg SagaState.payment heq
    rw [hpayment] at hinbox
    exact List.cons_ne_self _ _ hinbox.symm

theorem delivers_event {i : ℕ} {prow : OutboxRow PaymentMessage} {db : BookingDb}
    (hi : s.payment.outbox[i]? = some prow)
    (he : EarlierClaimed s.payment.outbox s.booking.inbox i prow)
    (hinbox : db.inbox = prow.id :: s.booking.inbox)
    (hprocess : processPaymentEvent prow s.booking = .ok db) :
    Delivers s { s with booking := db } := by
  refine ⟨.deliverPaymentEvent i, trivial, ?_, fun heq => ?_⟩
  · simp [sagaSystem, sagaStep, hi, he, hprocess, committed]
  · have hbooking : db = s.booking := congrArg SagaState.booking heq
    rw [hbooking] at hinbox
    exact List.cons_ne_self _ _ hinbox.symm

/-- **No command raises**, whatever Stripe answers. -/
theorem processCommand_ok (h : sagaSystem.Reachable s) (hlisted : s.booking.Listed)
    {i : ℕ} {orow : OutboxRow BookingMessage} (hi : s.booking.outbox[i]? = some orow)
    (hu : orow.id ∉ s.payment.inbox) (hroom : Roomy (s.view orow.aggregateId))
    (stripe : StripeCall → StripeReply) :
    ∃ db, (processCommand orow s.payment).run stripe = .ok db := by
  have hcoh := coherent_of_reachable h orow.aggregateId
  have hmem := List.mem_of_getElem? hi
  have hkey := (sagaOk_of_reachable h).commandKey orow hmem
  have hwritten : orow.payload ∈ (s.view orow.aggregateId).written :=
    mem_written.mpr ⟨orow, hmem, rfl, rfl⟩
  obtain ⟨row, hrow⟩ := hcoh.exists_row (by
    intro hempty
    rw [hempty] at hwritten
    cases hwritten)
  have hfaithful := hcoh.faithful row hrow _ hwritten
  have hbooked := hcoh.booked row
  rw [processCommand, postgresInboxProcessor_of_notMem hu]
  -- the handler runs after the claim, which leaves the payments alone
  have hclaim : (HasInbox.withInbox s.payment (orow.id :: HasInbox.inbox s.payment)).getByBookingId
      orow.aggregateId = s.payment.getByBookingId orow.aggregateId := rfl
  generalize HasInbox.withInbox s.payment (orow.id :: HasInbox.inbox s.payment) = db at hclaim ⊢
  cases hp : orow.payload with
  | lifecycle => exact ⟨_, rfl⟩
  | authorizePaymentRequested bookingId renterId amountCents =>
    rw [hp] at hfaithful hkey
    obtain rfl : bookingId = orow.aggregateId := hkey
    obtain rfl := hfaithful.holdCents amountCents rfl
    cases hfound : db.getByBookingId orow.aggregateId with
    | none =>
      refine ⟨_, (run_handleAuthorizePaymentRequested hfound stripe).trans (if_pos ?_)⟩
      exact hroom.hold row hrow
    | some payment =>
      exact ⟨_, congrArg (CallProgram.run stripe)
        (handleAuthorizePaymentRequested_of_found hfound)⟩
  | capturePaymentRequested bookingId hostId holdAmountCents overageCents =>
    obtain ⟨row', payment, -, hfound, -⟩ := hcoh.payment_of_capture hwritten (by rw [hp]; rfl)
    have hbookable := bookable_of_reachable h hlisted hrow hfound hwritten
    rw [hp] at hbookable hkey
    obtain rfl : bookingId = orow.aggregateId := hkey
    have hfound' : db.getByBookingId orow.aggregateId = some payment := hclaim.trans hfound
    by_cases hauth : payment.status = .authorized
    · have hfits : FitsInteger payment.overageCents := by
        have hbooked := hbooked payment hrow hfound
        rw [Payment.Booked, if_neg (by simp [hauth])] at hbooked
        rw [hbooked.1]
        decide
      obtain ⟨hpos, hhold, hoverage⟩ := hbookable
      exact handleCapturePaymentRequested_commits hfound' hfits hpos hhold hoverage stripe
    · -- payment skips the command, whatever its amounts
      have hskip : handleCapturePaymentRequested db orow.aggregateId hostId holdAmountCents
          overageCents = .done (.ok db) := by
        rw [handleCapturePaymentRequested, hfound']
        exact if_pos hauth
      exact ⟨_, congrArg (CallProgram.run stripe) hskip⟩

/-- **No event raises**, without a late reject. -/
theorem processPaymentEvent_accepted
    (h : sagaSystem.ReachableWhere (fun s a => ∀ b, ¬ RejectsLate s a b) s) {i : ℕ}
    {prow : OutboxRow PaymentMessage} (hd : FirstDelivery s i prow)
    (hroom : Roomy (s.view prow.payload.bookingId)) :
    ∃ db, processPaymentEvent prow s.booking = .ok db ∧
      db.inbox = prow.id :: s.booking.inbox := by
  have hcoh := coherent_of_reachable h.reachable prow.payload.bookingId
  have hsound := sound_of_reachable h.reachable
  obtain ⟨rest, hq⟩ := hd.queue h.reachable
  obtain ⟨row, hrow, hrejected | ⟨w, hacc⟩⟩ := hcoh.accepts_head hq
  · -- a rejected booking has no payment, so no event either
    obtain ⟨hnone, -⟩ := quiet_of_reachableWhere h hrow hrejected
    have htrail := hcoh.trail
    rw [hq, PaymentView.trail, hnone] at htrail
    simp at htrail
  obtain ⟨n, status, hn, hbooking⟩ := hacc.heard
  have hversion : (row.version : ℤ) + 2 < 2 ^ 31 := by
    have hlength : (s.view prow.payload.bookingId).handledEvents.length ≤ 1 := by
      obtain ⟨row', -, hhears⟩ := hcoh.hears hq
      generalize (s.view prow.payload.bookingId).handledEvents = handled at hhears
      generalize prow.payload.eventType = eventType at hhears
      cases hhears <;> simp
    have := hroom.version row hrow
    omega
  have hfits : w.booking.FitsColumns := by
    rw [hbooking]
    refine (Booking.fitsColumns_settle (hsound.fits row (RowTable.mem_of_lookup hrow)) n
      status).mpr ?_
    rw [FitsInteger]
    omega
  obtain ⟨db, hexec, -, -, hinbox⟩ := (hsound.claim (prow.id :: s.booking.inbox)).execute_accepts
    (paymentEventHandlers prow.payload) (creates_paymentEventHandlers _)
    (by rw [bookingId_paymentEventHandlers]; exact hrow) hacc hfits
  refine ⟨db, ?_, hinbox⟩
  rw [processPaymentEvent_of_notMem hd.2.2, hexec]

/-- **While anything is in flight, some delivery changes something**, whatever Stripe answers. -/
theorem exists_delivers
    (h : sagaSystem.ReachableWhere (fun s a => a.Listed ∧ ∀ b, ¬ RejectsLate s a b) s)
    (hroom : ∀ b, Roomy (s.view b)) (hflight : ¬ s.Drained) : ∃ t, Delivers s t := by
  by_cases hcommands : inFlight s.booking.outbox s.payment.inbox = []
  · have hevents : inFlight s.payment.outbox s.booking.inbox ≠ [] :=
      fun hnil => hflight ⟨hcommands, hnil⟩
    obtain ⟨i, prow, hi, he, hu⟩ := exists_next_of_inFlight hevents
    obtain ⟨db, hprocess, hinbox⟩ := processPaymentEvent_accepted
      (h.mono fun _ _ hok => hok.2) ⟨hi, he, hu⟩ (hroom _)
    exact ⟨_, delivers_event hi he hinbox hprocess⟩
  · obtain ⟨i, orow, hi, he, hu⟩ := exists_next_of_inFlight hcommands
    have hlisted := listed_of_reachable (h.mono fun _ _ hok => hok.1)
    obtain ⟨db, hrun⟩ := processCommand_ok h.reachable hlisted hi hu (hroom _)
      fun _ => .stripeError
    exact ⟨_, delivers_command hi he hu hrun⟩

end Progress

/-! ### When nothing is in flight

With both queues empty the invariant of the saga ties the two rows together without anything between
them. -/

/-- What the status of a booking says of its payment, when there is nothing left to hear. -/
def BookingStatus.Agrees : BookingStatus → Option PaymentStatus → Prop
  | .requested, status | .rejected, status => status = none
  | .confirmed, status => status = some .authorized
  | .active, status => status = some .authorized ∨ status = some .captureFailed
  | .completed, status => status = some .captured
  | .cancelled, status => status = some .authorizationFailed

/-- A booking that needs no consent has asked for its hold. -/
def InstantAsked (v : SagaView) : Prop :=
  ∀ row, v.booking.row = some row → row.bookingMode = .instant →
    FitsInteger (row.dailyPriceCents * row.days) → ∃ message ∈ v.written, message.Holdable

section Rest

variable {s t : SagaState} {b : Uuid} {row : Booking} {v v' : SagaView}
  {tr : List (StripeCall × StripeReply)}

theorem Coherent.agrees (h : Coherent b v) (hevents : v.events = [])
    (hrow : v.booking.row = some row) :
    row.status.Agrees (v.payment.payment.map (·.status)) := by
  have hheard := h.heard row hrow
  have htrail := h.trail
  rw [hevents, List.append_nil] at htrail
  rw [htrail, PaymentView.trail] at hheard
  cases hp : v.payment.payment with
  | none =>
    rw [hp] at hheard
    generalize row.status = status at hheard ⊢
    cases status <;> simp [BookingStatus.Heard, BookingStatus.Agrees] at hheard ⊢
  | some payment =>
    rw [hp] at hheard
    replace hheard : row.status.Heard payment.status.trail := hheard
    simp only [Option.map_some]
    generalize row.status = status at hheard ⊢
    generalize payment.status = paymentStatus at hheard ⊢
    cases status <;> cases paymentStatus <;>
      simp [BookingStatus.Heard, BookingStatus.Agrees, PaymentStatus.trail] at hheard ⊢

/-- No operation changes how a booking is made, nor its price. -/
theorem Accepts.made {op : BookingOperation} {w : Writes} (h : Accepts row op w) :
    w.booking.bookingMode = row.bookingMode ∧
      w.booking.dailyPriceCents * w.booking.days = row.dailyPriceCents * row.days := by
  cases h <;> exact ⟨rfl, rfl⟩

theorem InstantAsked.operate (h : InstantAsked v) {op : BookingOperation} {w : Writes}
    (heffect : BookingEffect v.booking op w) (hbooking : v'.booking = v.booking.after w)
    (hwritten : v'.written = v.written ++ w.outbox) : InstantAsked v' := by
  intro row' hrow' hmode hfits
  rw [hbooking] at hrow'
  obtain rfl := Option.some.inj hrow'
  rw [hwritten]
  cases heffect with
  | opened id vehicle renterId payload hnone =>
    have hinstant : vehicle.bookingMode = .instant := hmode
    have hmem : emitAuthorizePaymentRequested (createRequested id vehicle renterId payload) ∈
        (requestWrites id vehicle renterId payload).outbox := by
      simp [requestWrites, hinstant]
    exact ⟨_, List.mem_append_right _ hmem, hfits⟩
  | operated _ _ row hrow hacc =>
    obtain ⟨hmode', hprice⟩ := hacc.made
    obtain ⟨message, hm, hh⟩ := h row hrow (hmode' ▸ hmode) (hprice ▸ hfits)
    exact ⟨message, List.mem_append_left _ hm, hh⟩

theorem InstantAsked.step (h : InstantAsked v) (hstep : ViewStep b v tr v') : InstantAsked v' := by
  cases hstep with
  | idle => exact h
  | performed op w hop hid heffect =>
    exact h.operate heffect rfl (by simp [SagaView.written])
  | handled message rest _ payment events hqueue heffect =>
    intro row hrow hmode hfits
    obtain ⟨m, hm, hh⟩ := h row hrow hmode hfits
    refine ⟨m, ?_, hh⟩
    simpa [SagaView.written, hqueue] using hm
  | reacted eventType rest w hqueue heffect =>
    exact h.operate heffect rfl (by simp [SagaView.written])

theorem instantAsked_of_reachable (h : sagaSystem.Reachable s) (b : Uuid) :
    InstantAsked (s.view b) := by
  refine h.invariant (fun s => InstantAsked (s.view b)) (fun _ hrow => by cases hrow)
    fun s a s' hr hasked hstep => ?_
  obtain ⟨tr, hview, -⟩ := (sagaOk_of_reachable hr).step_view (sagaStep_cases hstep) b
  exact hasked.step hview

/-- With nothing in flight, a booking that is still `requested` waits for its host. -/
theorem SagaState.Drained.request_mode (hd : s.Drained) (h : sagaSystem.Reachable s)
    (hroom : Roomy (s.view b)) (hrow : s.booking.getById b = some row)
    (hnone : s.payment.getByBookingId b = none) : row.bookingMode = .request := by
  cases hmode : row.bookingMode with
  | request => rfl
  | instant =>
    obtain ⟨message, hm, hh⟩ :=
      instantAsked_of_reachable h b row hrow hmode (hroom.hold row hrow)
    have hcommands : (s.view b).commands = [] := queueFor_of_inFlight hd.1 b
    rw [SagaView.written, hcommands, List.append_nil] at hm
    have hopened := (coherent_of_reachable h b).opened.mpr ⟨message, hm, hh⟩
    rw [show (s.view b).payment.payment = none from hnone] at hopened
    cases hopened

/-- What deliveries keep: what callers have not done. -/
theorem deliveries_keep
    (h : sagaSystem.ReachableWhere (fun s a => a.Listed ∧ ∀ b, ¬ RejectsLate s a b) s)
    (hroom : ∀ b, Roomy (s.view b)) (hd : Relation.ReflTransGen Delivers s t) :
    sagaSystem.ReachableWhere (fun s a => a.Listed ∧ ∀ b, ¬ RejectsLate s a b) t ∧
      ∀ b, Roomy (t.view b) := by
  induction hd with
  | refl => exact ⟨h, hroom⟩
  | tail _ hdelivers ih =>
    obtain ⟨hreach, hroom⟩ := ih
    obtain ⟨a, ha, hstep, -⟩ := hdelivers
    refine ⟨hreach.step ⟨?_, fun b hlate => ?_⟩ hstep, fun b =>
      (hroom b).deliver (sagaOk_of_reachable hreach.reachable) (sagaStep_cases hstep) ha⟩
    · cases a with
      | perform => exact ha.elim
      | deliverCommand | deliverPaymentEvent => trivial
    · obtain ⟨⟨hostId, db, rfl, -⟩, -⟩ := hlate
      exact ha

/-- **The saga settles.** From a reachable state of a run without a late reject, with vehicles from
listing and room in the columns, there are at most `work` deliveries that change anything, in
whatever order and whatever Stripe answers; and when none is left, nothing is in flight, the status
of each booking says what the status of its payment is, a booking that is still `requested` waits
for its host, and there is no payment without a booking. -/
theorem saga_settles
    (h : sagaSystem.ReachableWhere (fun s a => a.Listed ∧ ∀ b, ¬ RejectsLate s a b) s)
    (hroom : ∀ b, Roomy (s.view b)) :
    (∀ run, List.IsChain Delivers (s :: run) → run.length ≤ s.work) ∧
    ∀ t, Relation.ReflTransGen Delivers s t → (∀ t', ¬ Delivers t t') → t.Drained ∧
      (∀ b row, t.booking.getById b = some row →
        row.status.Agrees ((t.payment.getByBookingId b).map (·.status)) ∧
          (row.status = .requested → row.bookingMode = .request)) ∧
      ∀ b, t.booking.getById b = none → t.payment.getByBookingId b = none := by
  refine ⟨fun run hrun => length_le_work h.reachable hrun, fun t hdelivers hdone => ?_⟩
  obtain ⟨hreach, hroom⟩ := deliveries_keep h hroom hdelivers
  have hdrained : t.Drained := by
    by_contra hflight
    obtain ⟨t', hd⟩ := exists_delivers hreach hroom hflight
    exact hdone t' hd
  refine ⟨hdrained, fun b row hrow => ?_, fun b hnone => ?_⟩
  · have hevents : (t.view b).events = [] :=
      List.map_eq_nil_iff.mpr (queueFor_of_inFlight hdrained.2 b)
    have hagrees := (coherent_of_reachable hreach.reachable b).agrees hevents hrow
    refine ⟨hagrees, fun hstatus => ?_⟩
    rw [hstatus] at hagrees
    exact hdrained.request_mode hreach.reachable (hroom b) hrow (Option.map_eq_none_iff.mp hagrees)
  · have hempty := (coherent_of_reachable hreach.reachable b).unopened hnone
    exact congrArg (·.payment.payment) hempty

/-- A booking has been requested, and nothing delivered yet. -/
theorem saga_settles_sampleTrip :
    ∃ s, sagaSystem.run {} (sampleTrip.take 1) = some s ∧ s.work = 3 ∧
      (∀ run, List.IsChain Delivers (s :: run) → run.length ≤ s.work) ∧
      ∀ t, Relation.ReflTransGen Delivers s t → (∀ t', ¬ Delivers t t') → t.Drained := by
  have hend : (sagaSystem.run {} (sampleTrip.take 1)).map (fun s =>
      (s.work, decide (∀ row ∈ s.booking.bookings,
        FitsInteger (row.dailyPriceCents * row.days) ∧ (row.version : ℤ) + 4 < 2 ^ 31))) =
      some (3, true) := by decide
  obtain ⟨s, hrun, hs⟩ := Option.map_eq_some_iff.mp hend
  obtain ⟨hwork, hrows⟩ := Prod.mk.inj hs
  obtain ⟨steps, hexec, hactions⟩ := TransitionSystem.exec_of_run hrun
  have hreach : sagaSystem.ReachableWhere (fun s a => a.Listed ∧ ∀ b, ¬ RejectsLate s a b) s := by
    refine hexec.reachableWhere fun x hx => ?_
    have hmem : x.2 ∈ sampleTrip.take 1 := hactions ▸ List.mem_map_of_mem hx
    have hx : x.2 = .perform (.requestBooking 0 (some (sampleVehicle .instant)) 2 sampleDates) :=
      List.mem_singleton.mp hmem
    refine ⟨?_, ?_⟩
    · rw [hx]
      exact ⟨by decide, by decide⟩
    · rintro b ⟨⟨hostId, db, ha, -⟩, -⟩
      rw [hx] at ha
      cases ha
  obtain ⟨hends, hdone⟩ := saga_settles hreach (roomy_of_rows (of_decide_eq_true hrows))
  exact ⟨s, hrun, hwork, hends, fun t hd ht => (hdone t hd ht).1⟩

end Rest

end CarFlow
