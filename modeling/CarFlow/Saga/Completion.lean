import CarFlow.Booking.Constraints
import CarFlow.Payment.Ledger
import CarFlow.Saga.RentalPrice

/-!
# From the handover to completion

After the handover a booking is `active` until it hears that its payment was captured. The host
records a return, payment captures the hold, the booking is completed. If Stripe refuses, the
booking stays `active`, and the host may record another return, which asks for the capture again.

But payment skips a capture command unless the payment is `authorized`. The comment there gives the
reason that nothing was ever held, and that is not so for a payment that is `capture_failed`: its
hold stands, and no command ever reaches Stripe again. The booking is `active` for good.

Short of that, an active booking can always be completed, if the `Integer` column of its version has
room for the events this takes: two, after that of the return if the car has not been returned.

## Implementation notes

That a booking *can* be completed is a statement about paths: `LeadsWhere` restricts them to the
returns of the host and to deliveries, with Stripe accepting. The three parts of the way are lemmas
about reachable states, so they can be put together without a look at the messages: each ends in a
state that satisfies what the next one asks for.

`Stuck` is an invariant of the one dead end, and what shows that the condition is exact: from a
state with a refused capture no step leads out, whatever anybody does.

## Main results

* `exists_returned`, `exists_captured`, `exists_completed` — the three parts of the way
* `Stuck.step` — a refused capture is never asked for again
* `leads_of_accepting` — no dead end while Stripe accepts
* `completed_after_handover_iff` — **exactly** which active bookings can be completed
-/

namespace CarFlow

/-- The steps left after the handover, with Stripe accepting: the host records a return, and
messages are delivered. -/
def SagaAction.Onward (b hostId : Uuid) : SagaAction → Prop
  | .perform op => ∃ payload, op = .recordReturn b hostId payload
  | .deliverCommand _ stripe => ∀ c, stripe c ≠ .stripeError
  | .deliverPaymentEvent _ => True

/-- The booking is completed. -/
def SagaState.Completed (s : SagaState) (b : Uuid) : Prop :=
  ∃ row, s.booking.getById b = some row ∧ row.status = .completed

/-- The first version at which a booking can be completed from here. -/
def SagaView.completedVersion (v : SagaView) (row : Booking) : ℕ :=
  row.version + if ∃ message ∈ v.written, message.isCapture then 2 else 3

/-- **What it takes to complete an active booking.** -/
structure SagaState.Completable (s : SagaState) (b : Uuid) (row : Booking) : Prop where
  /-- Its capture was not refused. -/
  unrefused : ∀ payment, s.payment.getByBookingId b = some payment →
    payment.status ≠ .captureFailed
  /-- There is room for its last events. -/
  room : FitsInteger ((s.view b).completedVersion row)

section Ways

variable {s s' : SagaState} {b : Uuid} {v v' : SagaView} {row : Booking} {payment : Payment}
  {tr : List (StripeCall × StripeReply)}

/-- A step leaves the booking database, or it is one operation on it. -/
theorem sagaStep_booking {a : SagaAction} (h : sagaStep s a = some s') :
    s'.booking = s.booking ∨
      ∃ inbox op, BookingDb.execute { s.booking with inbox } op = .ok s'.booking := by
  cases a with
  | perform op =>
    simp only [sagaStep, Option.ite_none_right_eq_some, Option.some.injEq] at h
    obtain ⟨-, rfl⟩ := h
    cases hx : s.booking.execute op with
    | error e => exact .inl rfl
    | ok db => exact .inr ⟨s.booking.inbox, op, hx⟩
  | deliverCommand i stripe =>
    simp only [sagaStep, Option.bind_eq_bind, Option.bind_eq_some_iff,
      Option.ite_none_right_eq_some, Option.some.injEq] at h
    obtain ⟨orow, -, -, rfl⟩ := h
    exact .inl rfl
  | deliverPaymentEvent i =>
    simp only [sagaStep, Option.bind_eq_bind, Option.bind_eq_some_iff,
      Option.ite_none_right_eq_some, Option.some.injEq] at h
    obtain ⟨orow, -, -, rfl⟩ := h
    by_cases hu : orow.id ∈ s.booking.inbox
    · rw [processPaymentEvent_of_mem hu]
      exact .inl rfl
    rw [processPaymentEvent_of_notMem hu]
    cases hx : BookingDb.execute { s.booking with inbox := orow.id :: s.booking.inbox }
        (paymentEventHandlers orow.payload) with
    | error e => exact .inl rfl
    | ok db => exact .inr ⟨_, _, hx⟩

theorem sound_of_reachable (h : sagaSystem.Reachable s) : s.booking.Sound := by
  refine h.invariant (fun s => s.booking.Sound) BookingDb.sound_empty
    fun s a s' _ hsound hstep => ?_
  rcases sagaStep_booking hstep with hb | ⟨inbox, op, hx⟩
  · rw [hb]
    exact hsound
  · exact (hsound.claim inbox).execute hx

/-! ### The capture

From a booking with a return on its way to one whose payment is captured. -/

/-- The hold was stored with the payment, so it fits. -/
theorem Coherent.fits_price (h : Coherent b v) (hrow : v.booking.row = some row)
    (hp : v.payment.payment = some payment) : FitsInteger (row.dailyPriceCents * row.days) := by
  obtain ⟨message, hm, hh⟩ := h.opened.mp (Option.isSome_iff_exists.mpr ⟨payment, hp⟩)
  have hfaithful := h.faithful row hrow message (List.mem_append_left _ hm)
  cases message with
  | authorizePaymentRequested bookingId renterId amountCents =>
    rw [← hfaithful.holdCents amountCents rfl]
    exact hh
  | capturePaymentRequested => exact hh.elim
  | lifecycle => exact hh.elim

/-- The amounts of every command can be stored and booked. -/
theorem bookable_of_reachable (h : sagaSystem.Reachable s) (hlisted : s.booking.Listed)
    (hrow : s.booking.getById b = some row) (hp : s.payment.getByBookingId b = some payment)
    {message : BookingMessage} (hm : message ∈ (s.view b).written) : message.Bookable := by
  have hcoh := coherent_of_reachable h b
  have hrow' : (s.view b).booking.row = some row := hrow
  have hfaithful := hcoh.faithful row hrow' message hm
  cases message with
  | authorizePaymentRequested => trivial
  | lifecycle => trivial
  | capturePaymentRequested bookingId hostId holdAmountCents overageCents =>
    obtain ⟨orow, ho, -, hpay⟩ := mem_written.mp hm
    obtain rfl := hfaithful.holdCents holdAmountCents rfl
    exact ⟨Int.mul_pos (hlisted b row hrow).1 row.days_pos, hcoh.fits_price hrow' hp,
      (sound_of_reachable h).overages orow ho _ _ _ _ hpay⟩

/-- What handling a message does to an authorized payment when Stripe accepts. -/
theorem CommandEffect.of_authorized {view view' : PaymentView} {message : BookingMessage}
    {events : List PaymentEventType} (h : CommandEffect b view message tr view' events)
    (hp : view.payment = some payment) (hauth : payment.status = .authorized)
    (hreply : ∀ e ∈ tr, e.2 ≠ .stripeError) :
    (message.isCapture = false ∧ view' = view) ∨
      ∃ payment', view'.payment = some payment' ∧ payment'.status = .captured := by
  cases h with
  | announced | existing => exact .inl ⟨rfl, rfl⟩
  | authorizeRefused _ _ _ hnone | held _ _ _ _ hnone | absent _ _ _ hnone =>
    cases hnone.symm.trans hp
  | settled _ _ _ payment' hfound hstatus =>
    obtain rfl : payment' = payment := Option.some.inj (hfound.symm.trans hp)
    exact absurd hauth hstatus
  | captureRefused => exact absurd rfl (hreply _ List.mem_cons_self)
  | captured => exact .inr ⟨_, rfl, rfl⟩
  | charged => exact .inr ⟨_, rfl, rfl⟩

/-- The next message about a booking can be delivered, and its transaction commits. -/
theorem exists_delivered (h : sagaSystem.Reachable s) (hlisted : s.booking.Listed)
    (hrow : s.booking.getById b = some row) (hp : s.payment.getByBookingId b = some payment)
    (hauth : payment.status = .authorized) {message : BookingMessage}
    {rest : List BookingMessage} (hq : (s.view b).commands = message :: rest) (hostId : Uuid) :
    ∃ a s', a.Onward b hostId ∧ sagaSystem.step s a = some s' ∧ s'.booking = s.booking ∧
      (s'.view b).commands = rest ∧ ∃ tr events, (∀ e ∈ tr, e.2 ≠ .stripeError) ∧
        CommandEffect b (s.view b).payment message tr (s'.view b).payment events := by
  have hok := sagaOk_of_reachable h
  have hbooked := (coherent_of_reachable h b).booked row payment hrow hp
  have hbookable : message.Bookable :=
    bookable_of_reachable h hlisted hrow hp (by simp [SagaView.written, hq])
  obtain ⟨i, orow, hi, rfl, rfl, he, hu⟩ := exists_next_of_queueFor hq
  have hkey := hok.commandKey orow (List.mem_of_getElem? hi)
  have hfits : FitsInteger payment.overageCents := by
    rw [Payment.Booked, if_neg (by simp [hauth])] at hbooked
    rw [hbooked.1]
    decide
  obtain ⟨tr, db, hrun, hreply, hout⟩ :=
    processCommand_commits hu (hkey ▸ hp) hfits hbookable fun _ => .returned "pi"
  obtain ⟨events, heffect, houtbox⟩ := hout.effect
  rw [hkey] at heffect houtbox
  have hview := hok.view_handled hi he hu hout.inbox houtbox
  refine ⟨.deliverCommand i fun _ => .returned "pi", { s with payment := db },
    fun _ hreply => (by cases hreply), ?_, rfl, ?_, tr, events, fun e he herror => ?_, ?_⟩
  · simp [sagaSystem, sagaStep, hi, he, hrun, committed]
  · have hclaim := queueFor_claim hok.commands hi he hu
    rw [hview]
    exact (List.cons.inj (hclaim.symm.trans hq)).2
  · cases (hreply e he).symm.trans herror
  · rw [hview]
    exact heffect

/-- **The way to the capture**: the messages before the capture command do nothing to an authorized
payment. The induction is on the messages in flight. -/
theorem exists_captured {commands : List BookingMessage} (h : sagaSystem.Reachable s)
    (hlisted : s.booking.Listed) (hrow : s.booking.getById b = some row)
    (hp : s.payment.getByBookingId b = some payment) (hauth : payment.status = .authorized)
    (hq : (s.view b).commands = commands) (hcapture : ∃ message ∈ commands, message.isCapture)
    (hostId : Uuid) :
    ∃ s', sagaSystem.LeadsWhere (SagaAction.Onward b hostId) s s' ∧ s'.booking = s.booking ∧
      ∃ payment', s'.payment.getByBookingId b = some payment' ∧ payment'.status = .captured := by
  induction commands generalizing s with
  | nil =>
    obtain ⟨message, hm, -⟩ := hcapture
    cases hm
  | cons message rest ih =>
    obtain ⟨a, t, ha, hstep, hbooking, hrest, tr, events, hreply, heffect⟩ :=
      exists_delivered h hlisted hrow hp hauth hq hostId
    rcases heffect.of_authorized hp hauth hreply with ⟨hskip, hview⟩ | hcaptured
    swap
    · exact ⟨t, .single ⟨a, ha, hstep⟩, hbooking, hcaptured⟩
    have hlater : ∃ message ∈ rest, message.isCapture := by
      obtain ⟨m, hm, hc⟩ := hcapture
      rcases List.mem_cons.mp hm with rfl | hm
      · rw [hskip] at hc
        cases hc
      · exact ⟨m, hm, hc⟩
    have hp' : t.payment.getByBookingId b = some payment :=
      (congrArg PaymentView.payment hview).trans hp
    obtain ⟨s', hleads, hbooking', hcaptured⟩ :=
      ih (h.step hstep) (hbooking ▸ hlisted) (hbooking ▸ hrow) hp' hrest hlater
    exact ⟨s', .head ⟨a, ha, hstep⟩ hleads, hbooking'.trans hbooking, hcaptured⟩

/-! ### The events

From there to the booking that has heard of it. -/

/-- An active booking whose payment is captured has only that to hear. -/
theorem Coherent.events_of_captured (h : Coherent b v) (hrow : v.booking.row = some row)
    (hactive : row.status = .active) (hp : v.payment.payment = some payment)
    (hcaptured : payment.status = .captured) : v.events = [.paymentCaptured] := by
  have hheard := h.heard row hrow
  have htrail := h.trail
  rw [hactive] at hheard
  rw [PaymentView.trail, hp] at htrail
  simp only [hcaptured, PaymentStatus.trail] at htrail
  rcases hheard with hheard | hheard <;> rw [hheard] at htrail
  · exact (List.cons.inj htrail).2
  · simp at htrail

/-- **The way from the capture**: the booking hears of it. -/
theorem exists_completed (h : sagaSystem.Reachable s) (hrow : s.booking.getById b = some row)
    (hactive : row.status = .active) (hp : s.payment.getByBookingId b = some payment)
    (hcaptured : payment.status = .captured) (hroom : FitsInteger (row.version + 2 : ℕ))
    (hostId : Uuid) :
    ∃ a s', a.Onward b hostId ∧ sagaSystem.step s a = some s' ∧ s'.Completed b := by
  have hcoh := coherent_of_reachable h b
  have hsound := sound_of_reachable h
  have hevents := hcoh.events_of_captured hrow hactive hp hcaptured
  obtain ⟨message, rest, hq, htype, -⟩ := List.map_eq_cons_iff.mp hevents
  obtain ⟨i, prow, hi, rfl, rfl, he, hu⟩ := exists_next_of_queueFor hq
  have hkey := (sagaOk_of_reachable h).eventKey prow (List.mem_of_getElem? hi)
  have hhandler : paymentEventHandlers prow.payload = .applyPaymentCaptured prow.aggregateId := by
    rw [paymentEventHandlers, htype, hkey]
  have hfits := (Booking.fitsColumns_settle (hsound.fits row (RowTable.mem_of_lookup hrow)) 2
    .completed).mpr hroom
  obtain ⟨db, hexec, hview, -, -⟩ := (hsound.claim (prow.id :: s.booking.inbox)).execute_accepts
    (.applyPaymentCaptured prow.aggregateId) rfl hrow (.complete _ hactive) hfits
  have hprocess : processPaymentEvent prow s.booking = .ok db := by
    rw [processPaymentEvent_of_notMem hu, hhandler, hexec]
  refine ⟨.deliverPaymentEvent i, { s with booking := db }, trivial, ?_, ?_⟩
  · simp [sagaSystem, sagaStep, hi, he, hprocess, committed]
  · exact ⟨_, congrArg BookingView.row hview, rfl⟩

/-! ### The return -/

/-- Nothing is due for a car that was not driven. -/
theorem Booking.overageAt_self (hlisted : row.Listed) (odometer : ℤ) :
    row.overageAt odometer odometer = 0 := by
  have hallowed : 0 < row.dailyMileageLimit * row.days := Int.mul_pos hlisted.2 row.days_pos
  rw [Booking.overageAt, Domain.computeOverageCents]
  simp only [Int.sub_self]
  exact if_pos (Int.le_of_lt hallowed)

/-- **The way to the capture command**: the host records a return, at the odometer of the
handover. -/
theorem exists_returned (h : sagaSystem.Reachable s) (hlisted : s.booking.Listed)
    (hrow : s.booking.getById b = some row) (hactive : row.status = .active)
    (hroom : FitsInteger (row.version + 1 : ℕ)) :
    ∃ a s' row', a.Onward b row.hostId ∧ sagaSystem.step s a = some s' ∧
      s'.payment = s.payment ∧ s'.booking.getById b = some row' ∧ row'.status = .active ∧
      row'.version = row.version + 1 ∧ s'.booking.Listed ∧
      ∃ message ∈ (s'.view b).commands, message.isCapture := by
  have hsound := sound_of_reachable h
  have hmem := RowTable.mem_of_lookup hrow
  obtain ⟨hstarted, -⟩ := (coherent_of_reachable h b).started row hrow (.inl hactive)
  obtain ⟨odometer, hodometer⟩ := Option.isSome_iff_exists.mp hstarted
  obtain ⟨n, rfl⟩ := Int.eq_ofNat_of_zero_le (hsound.started row hmem odometer hodometer)
  obtain ⟨hprice, hlimit, -, hstart, -, hfuel, -⟩ := hsound.fits row hmem
  have hacc : Accepts row (.recordReturn b row.hostId (sampleHandover n)) _ :=
    .return b _ n hactive hodometer
  have hoverage := Booking.overageAt_self (hlisted b row hrow) n
  have hfits : (row.takeBack (sampleHandover n).toHandover (row.overageAt n n)).FitsColumns := by
    rw [hoverage]
    have hfull : FitsNullable (some 100) := by decide
    have hzero : FitsInteger 0 := by decide
    exact ⟨hprice, hlimit, hroom, hstart, fun m hm => hstart m (hodometer.trans hm), hfuel, hfull,
      hzero⟩
  obtain ⟨db, hexec, hview, houtbox, hinbox⟩ :=
    hsound.execute_accepts (.recordReturn b row.hostId _) rfl hrow hacc hfits
  have hop : (BookingOperation.recordReturn b row.hostId (sampleHandover n)).Listed := trivial
  refine ⟨.perform (.recordReturn b row.hostId (sampleHandover n)),
    { s with booking := db }, _, ⟨_, rfl⟩, ?_, rfl, congrArg BookingView.row hview, rfl, rfl,
    hlisted.outcome hop (BookingDb.execute_outcome hexec), ?_⟩
  · simp [sagaSystem, sagaStep, BookingOperation.ofCaller, hexec, committed]
  · have hv := (sagaOk_of_reachable h).view_performed b hview houtbox hinbox
    rw [hv]
    exact ⟨_, List.mem_append_right _ (List.mem_singleton_self _), rfl⟩

/-! ### No other way

What is needed is needed: a refused capture is for good, and versions only grow. -/

/-- The capture of the payment was refused. -/
def Stuck (v : SagaView) : Prop :=
  ∃ payment, v.payment.payment = some payment ∧ payment.status = .captureFailed

/-- **A refused capture is never asked for again.** -/
theorem Stuck.step (h : Stuck v) (hstep : ViewStep b v tr v') : Stuck v' := by
  obtain ⟨payment, hp, hrefused⟩ := h
  cases hstep with
  | idle | performed | reacted => exact ⟨payment, hp, hrefused⟩
  | handled message rest _ view events hqueue heffect =>
    obtain ⟨payment', hp', hleads⟩ := heffect.leads hp
    refine ⟨payment', hp', ?_⟩
    rw [hrefused] at hleads
    generalize payment'.status = status at hleads
    cases hleads
    rfl

theorem not_completed_of_stuck (h : sagaSystem.Reachable s) (hstuck : Stuck (s.view b))
    (hl : sagaSystem.Leads s s') : ¬ s'.Completed b := by
  rintro ⟨row, hrow, hstatus⟩
  obtain ⟨payment, hp, hrefused⟩ : Stuck (s'.view b) := by
    refine hl.stable (fun s => Stuck (s.view b)) (fun s a s' hr hs hstep => ?_) h hstuck
    obtain ⟨tr, hview, -⟩ := (sagaOk_of_reachable hr).step_view (sagaStep_cases hstep) b
    exact hs.step hview
  obtain ⟨payment', hp', hcaptured⟩ := (coherent_of_reachable (h.leads hl) b).completed hrow hstatus
  obtain rfl : payment = payment' := Option.some.inj (hp.symm.trans hp')
  cases hrefused.symm.trans hcaptured

/-- The booking will not be completed before version `n`. -/
def CompletedFrom (n : ℕ) (v : SagaView) : Prop :=
  ∃ row, v.booking.row = some row ∧ (row.status = .active ∧ n ≤ v.completedVersion row ∨
    row.status = .completed ∧ n ≤ row.version)

/-- A booking that is about to hear of the capture has sent a capture command. -/
theorem Coherent.capture_written (h : Coherent b v) {rest : List PaymentEventType}
    (hqueue : v.events = .paymentCaptured :: rest) :
    ∃ message ∈ v.written, message.isCapture := by
  have hmem : .paymentCaptured ∈ v.payment.trail := by
    rw [← h.trail, hqueue]
    exact List.mem_append_right _ List.mem_cons_self
  rw [PaymentView.trail] at hmem
  cases hp : v.payment.payment with
  | none =>
    rw [hp] at hmem
    cases hmem
  | some payment =>
    rw [hp] at hmem
    have hsettled : payment.status.Settled := by
      cases hs : payment.status <;> simp_all [PaymentStatus.trail, PaymentStatus.Settled]
    obtain ⟨message, hm, hc⟩ := h.settled.mp ⟨payment, hp, hsettled⟩
    exact ⟨message, List.mem_append_left _ hm, hc⟩

theorem SagaView.completedVersion_le (v : SagaView) (row : Booking) :
    row.version + 2 ≤ v.completedVersion row ∧ v.completedVersion row ≤ row.version + 3 := by
  rw [completedVersion]
  split <;> omega

/-- Every operation on an active booking that does not complete it adds to its version, and leaves
it as far from completion at most. -/
theorem CompletedFrom.operated {n : ℕ} (h : CompletedFrom n v) {op : BookingOperation} {w : Writes}
    (heffect : BookingEffect v.booking op w) (hlast : v'.booking = v.booking.after w)
    (hcapture : w.booking.status = .completed → ∃ message ∈ v.written, message.isCapture) :
    CompletedFrom n v' := by
  obtain ⟨row, hrow, hn⟩ := h
  refine ⟨w.booking, congrArg BookingView.row hlast, ?_⟩
  obtain ⟨-, hle⟩ := v.completedVersion_le row
  obtain ⟨hlater, -⟩ := v'.completedVersion_le w.booking
  cases heffect with
  | opened _ _ _ _ hnone => cases hnone.symm.trans hrow
  | operated _ _ row' hrow' hacc =>
    obtain rfl : row = row' := Option.some.inj (hrow.symm.trans hrow')
    obtain ⟨hactive, hn⟩ : row.status = .active ∧ n ≤ v.completedVersion row :=
      hn.resolve_right fun hdone => hacc.not_terminal (.inl hdone.1)
    cases hacc with
    | «return» =>
      refine .inl ⟨rfl, ?_⟩
      simp only [Booking.takeBack] at hlater ⊢
      omega
    | noteFailure =>
      refine .inl ⟨rfl, ?_⟩
      simp only [Booking.settle] at hlater ⊢
      omega
    | complete =>
      refine .inr ⟨rfl, ?_⟩
      rwa [SagaView.completedVersion, if_pos (hcapture rfl)] at hn
    | accept _ _ hs | reject _ hs | handover _ _ hs | confirm _ hs | cancel _ hs =>
      cases hs.symm.trans hactive

theorem CompletedFrom.step {n : ℕ} (h : CompletedFrom n v) (hcoh : Coherent b v)
    (hstep : ViewStep b v tr v') : CompletedFrom n v' := by
  cases hstep with
  | idle => exact h
  | performed op w hop hid heffect =>
    refine h.operated heffect rfl fun hdone => ?_
    cases heffect with
    | opened => cases hdone
    | operated _ _ row hrow hacc => cases hacc <;> cases hop <;> cases hdone
  | handled message rest _ view events hqueue heffect =>
    obtain ⟨row, hrow, hn⟩ := h
    refine ⟨row, hrow, ?_⟩
    have hwritten : v.written = v.handledCommands ++ [message] ++ rest := by
      rw [SagaView.written, hqueue, List.append_assoc, List.singleton_append]
    rw [SagaView.completedVersion, hwritten] at hn
    exact hn
  | reacted eventType rest w hqueue heffect =>
    refine h.operated heffect rfl fun hdone => ?_
    obtain ⟨row, hrow, hacc⟩ := heffect.accepts (creates_paymentEventHandlers _)
    cases eventType with
    | paymentCaptured => exact hcoh.capture_written hqueue
    | paymentAuthorized | paymentAuthorizationFailed | paymentCaptureFailed =>
      cases hacc
      cases hdone

/-- No run completes a booking before its `completedVersion`. -/
theorem room_of_completed (h : sagaSystem.Reachable s) (hrow : s.booking.getById b = some row)
    (hactive : row.status = .active) (hl : sagaSystem.Leads s s') (hdone : s'.Completed b) :
    FitsInteger ((s.view b).completedVersion row) := by
  obtain ⟨row', hrow', hstatus⟩ := hdone
  obtain ⟨r, hr, hn⟩ : CompletedFrom ((s.view b).completedVersion row) (s'.view b) := by
    refine hl.stable (fun s => CompletedFrom _ (s.view b)) (fun s a s' hr hs hstep => ?_) h
      ⟨row, hrow, .inl ⟨hactive, Nat.le_refl _⟩⟩
    obtain ⟨tr, hview, -⟩ := (sagaOk_of_reachable hr).step_view (sagaStep_cases hstep) b
    exact hs.step (coherent_of_reachable hr b) hview
  obtain rfl : row' = r := Option.some.inj (hrow'.symm.trans hr)
  have hle : (s.view b).completedVersion row ≤ row'.version := by
    rcases hn with ⟨hs, -⟩ | ⟨-, hn⟩
    · cases hs.symm.trans hstatus
    · exact hn
  obtain ⟨-, -, hversion, -⟩ :=
    (sound_of_reachable (h.leads hl)).fits row' (RowTable.mem_of_lookup hrow')
  rw [FitsInteger] at hversion ⊢
  omega

/-! ### Exactly which bookings -/

/-- From a capture command in flight to completion. -/
theorem leads_of_capture (h : sagaSystem.Reachable s) (hlisted : s.booking.Listed)
    (hrow : s.booking.getById b = some row) (hactive : row.status = .active)
    (hp : s.payment.getByBookingId b = some payment) (hauth : payment.status = .authorized)
    (hcapture : ∃ message ∈ (s.view b).commands, message.isCapture)
    (hroom : FitsInteger (row.version + 2 : ℕ)) (hostId : Uuid) :
    ∃ s', sagaSystem.LeadsWhere (SagaAction.Onward b hostId) s s' ∧ s'.Completed b := by
  obtain ⟨t, hleads, hbooking, payment', hp', hcaptured⟩ :=
    exists_captured h hlisted hrow hp hauth rfl hcapture hostId
  obtain ⟨a, s', ha, hstep, hdone⟩ := exists_completed (h.leads hleads.leads) (hbooking ▸ hrow)
    hactive hp' hcaptured hroom hostId
  exact ⟨s', .tail hleads ⟨a, ha, hstep⟩, hdone⟩

/-- **There is a way**, wherever the booking is. -/
theorem leads_of_completable (h : sagaSystem.Reachable s) (hlisted : s.booking.Listed)
    (hrow : s.booking.getById b = some row) (hactive : row.status = .active)
    (hc : s.Completable b row) :
    ∃ s', sagaSystem.LeadsWhere (SagaAction.Onward b row.hostId) s s' ∧ s'.Completed b := by
  have hcoh := coherent_of_reachable h b
  have hroom := hc.room
  rw [SagaView.completedVersion] at hroom
  obtain ⟨payment, hp, hauth | hcaptured | hrefused⟩ := hcoh.active hrow hactive
  · by_cases hwritten : ∃ message ∈ (s.view b).written, message.isCapture
    · -- the command is on its way: had it been handled, the payment would be settled
      rw [if_pos hwritten] at hroom
      obtain ⟨message, hm, hcapture⟩ := hwritten
      refine leads_of_capture h hlisted hrow hactive hp hauth ⟨message, ?_, hcapture⟩ hroom _
      refine (List.mem_append.mp hm).resolve_left fun hhandled => ?_
      obtain ⟨payment', hp', hsettled⟩ := hcoh.settled.mpr ⟨message, hhandled, hcapture⟩
      obtain rfl : payment = payment' := Option.some.inj (hp.symm.trans hp')
      rcases hsettled with hs | hs <;> cases hauth.symm.trans hs
    · rw [if_neg hwritten] at hroom
      have hnext : FitsInteger (row.version + 1 : ℕ) := by
        rw [FitsInteger] at hroom ⊢
        omega
      obtain ⟨a, t, row', ha, hstep, hpayment, hrow', hactive', hversion, hlisted', hcapture⟩ :=
        exists_returned h hlisted hrow hactive hnext
      obtain ⟨s', hleads, hdone⟩ := leads_of_capture (h.step hstep) hlisted' hrow' hactive'
        (hpayment ▸ hp) hauth hcapture (hversion ▸ hroom) row.hostId
      exact ⟨s', .head ⟨a, ha, hstep⟩ hleads, hdone⟩
  · rw [if_pos] at hroom
    · obtain ⟨a, s', ha, hstep, hdone⟩ :=
        exists_completed h hrow hactive hp hcaptured hroom row.hostId
      exact ⟨s', .single ⟨a, ha, hstep⟩, hdone⟩
    · obtain ⟨message, hm, hcapture⟩ := hcoh.settled.mp ⟨payment, hp, .inl hcaptured⟩
      exact ⟨message, List.mem_append_left _ hm, hcapture⟩
  · exact absurd hrefused (hc.unrefused payment hp)

/-- In a run without a refusal no booking is stuck. -/
theorem not_stuck_of_accepting (h : sagaSystem.ReachableWhere (fun _ a => a.Accepting) s) :
    ¬ Stuck (s.view b) := by
  refine h.invariant (fun s => ¬ Stuck (s.view b)) (fun ⟨_, hp, _⟩ => by cases hp)
    fun s a s' hr hfree hok hstep => ?_
  obtain ⟨tr, hview, hreply⟩ := (sagaOk_of_reachable hr).step_view (sagaStep_cases hstep) b
  rintro ⟨payment, hp, hrefused⟩
  generalize s'.view b = v' at hview hp
  cases hview with
  | idle | performed | reacted => exact hfree ⟨payment, hp, hrefused⟩
  | handled message rest _ view events hqueue heffect =>
    cases heffect with
    | announced | existing | absent | settled => exact hfree ⟨payment, hp, hrefused⟩
    | captureRefused => exact hreply hok _ List.mem_cons_self rfl
    | authorizeRefused | held | captured | charged =>
      obtain rfl := Option.some.inj hp
      cases hrefused

/-- **No dead end while Stripe accepts.** -/
theorem leads_of_accepting
    (h : sagaSystem.ReachableWhere (fun _ a => a.Listed ∧ a.Accepting) s)
    (hrow : s.booking.getById b = some row) (hactive : row.status = .active)
    (hroom : FitsInteger ((s.view b).completedVersion row)) :
    ∃ s', sagaSystem.LeadsWhere (SagaAction.Onward b row.hostId) s s' ∧ s'.Completed b := by
  have hlisted := listed_of_reachable (h.mono fun _ _ hok => hok.1)
  have hfree : ¬ Stuck (s.view b) := not_stuck_of_accepting (h.mono fun _ _ hok => hok.2)
  exact leads_of_completable h.reachable hlisted hrow hactive
    ⟨fun payment hp hrefused => hfree ⟨payment, hp, hrefused⟩, hroom⟩

/-- **No dead end after the handover, but for a refused capture.** From a reachable state of a run
that gets its vehicles from listing, an active booking can be completed by returns of its host and
deliveries, with Stripe accepting, if and only if its payment is not `capture_failed` and the column
of its version has room for the events that are missing. Otherwise no steps at all complete it. -/
theorem completed_after_handover_iff
    (h : sagaSystem.ReachableWhere (fun _ a => a.Listed) s)
    (hrow : s.booking.getById b = some row) (hactive : row.status = .active) :
    ((∃ s', sagaSystem.LeadsWhere (SagaAction.Onward b row.hostId) s s' ∧ s'.Completed b) ↔
      s.Completable b row) ∧
    ∀ s', sagaSystem.Leads s s' → s'.Completed b → s.Completable b row := by
  have hreach := h.reachable
  have hneeds (s' : SagaState) (hl : sagaSystem.Leads s s') (hdone : s'.Completed b) :
      s.Completable b row := by
    refine ⟨fun payment hp hrefused => ?_, room_of_completed hreach hrow hactive hl hdone⟩
    exact not_completed_of_stuck hreach ⟨payment, hp, hrefused⟩ hl hdone
  refine ⟨⟨?_, leads_of_completable hreach (listed_of_reachable h) hrow hactive⟩, hneeds⟩
  rintro ⟨s', hl, hdone⟩
  exact hneeds s' hl.leads hdone

end Ways

/-- The car has been handed over, and can be returned. -/
theorem completed_after_handover_iff_sampleTrip :
    ∃ s row, sagaSystem.run {} (sampleTrip.take 4) = some s ∧ s.booking.getById 0 = some row ∧
      row.status = .active ∧
      ∃ s', sagaSystem.LeadsWhere (SagaAction.Onward 0 row.hostId) s s' ∧ s'.Completed 0 := by
  have hend : (sagaSystem.run {} (sampleTrip.take 4)).map (fun s =>
      ((s.booking.getById 0).map fun row => (row.status, (s.view 0).completedVersion row),
        (s.payment.getByBookingId 0).map (·.status))) =
      some (some (.active, 8), some .authorized) := by decide
  obtain ⟨s, hrun, hs⟩ := Option.map_eq_some_iff.mp hend
  obtain ⟨hs, hauth⟩ := Prod.mk.inj hs
  obtain ⟨row, hrow, hs⟩ := Option.map_eq_some_iff.mp hs
  obtain ⟨hactive, hversion⟩ := Prod.mk.inj hs
  obtain ⟨payment, hp, hauth⟩ := Option.map_eq_some_iff.mp hauth
  obtain ⟨steps, hexec, hactions⟩ := TransitionSystem.exec_of_run hrun
  have hlisted : ∀ a ∈ sampleTrip.take 4, a.Listed := by
    simp [sampleTrip, SagaAction.Listed, BookingOperation.Listed, VehicleInfo.Listed,
      sampleVehicle]
  have hreach : sagaSystem.ReachableWhere (fun _ a => a.Listed) s :=
    hexec.reachableWhere fun x hx => hlisted x.2 (hactions ▸ List.mem_map_of_mem hx)
  refine ⟨s, row, hrun, hrow, hactive, (completed_after_handover_iff hreach hrow hactive).1.mpr
    ⟨fun payment' hp' hrefused => ?_, ?_⟩⟩
  · obtain rfl : payment = payment' := Option.some.inj (hp.symm.trans hp')
    cases hauth.symm.trans hrefused
  · rw [hversion]
    decide

/-- Stripe refuses the capture once. The host records the return again, and the second capture
command is delivered. -/
def sampleRefusedCapture : List SagaAction :=
  sampleTrip.take 4 ++
    [.perform (.recordReturn 0 1 (sampleHandover 1700)),
      .deliverCommand 1 fun _ => .returned "not called",
      .deliverCommand 2 fun _ => .stripeError,
      .deliverPaymentEvent 1,
      .perform (.recordReturn 0 1 (sampleHandover 1700)),
      .deliverCommand 3 fun _ => .returned "not called",
      .deliverCommand 4 fun _ => .returned "not called"]

/-- A refused capture cannot be recovered: the booking is active, and no steps complete it. -/
theorem refused_capture_dead_end :
    ∃ s row, sagaSystem.run {} sampleRefusedCapture = some s ∧
      s.booking.getById 0 = some row ∧ row.status = .active ∧ (s.view 0).commands = [] ∧
      ∀ s', sagaSystem.Leads s s' → ¬ s'.Completed 0 := by
  have hend : (sagaSystem.run {} sampleRefusedCapture).map (fun s =>
      ((s.booking.getById 0).map (·.status), (s.payment.getByBookingId 0).map (·.status),
        (s.view 0).commands)) = some (some .active, some .captureFailed, []) := by decide
  obtain ⟨s, hrun, hs⟩ := Option.map_eq_some_iff.mp hend
  obtain ⟨hactive, hs⟩ := Prod.mk.inj hs
  obtain ⟨hrefused, hnone⟩ := Prod.mk.inj hs
  obtain ⟨row, hrow, hactive⟩ := Option.map_eq_some_iff.mp hactive
  obtain ⟨payment, hp, hrefused⟩ := Option.map_eq_some_iff.mp hrefused
  have hreach : sagaSystem.Reachable s := TransitionSystem.reachable_of_run .init hrun
  exact ⟨s, row, hrun, hrow, hactive, hnone, fun s' hl =>
    not_completed_of_stuck hreach ⟨payment, hp, hrefused⟩ hl⟩

end CarFlow
