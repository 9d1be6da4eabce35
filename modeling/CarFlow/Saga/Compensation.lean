import CarFlow.Saga.Agreement

/-!
# Rejecting a booking whose payment is under way

A booking stays `requested` from the moment its authorize command is written until the answer of
payment is heard, and all that time the host may reject it. Nothing tells payment. If the command
is still queued it will be handled as if nothing had happened, and the event it leads to finds a
booking that accepts no payment event at all: the consumer raises, and goes on raising, in front
of every other booking of the partition. If the hold was granted, it stays.

Both defects have the same cause, and without it there is neither: the two main results say that
a late reject is exactly what it takes.

## Implementation notes

`RejectsLate` is a condition on a step and the state before it: a reject that goes through, for a
booking with an authorize command that can take effect (`Holdable`). A command whose amount does
not fit its column is refused by the database each time, so a reject after such a command is not a
late one. `FirstDelivery` is what makes an event poison: a redelivery is claimed already, and
accepted whatever the status is.

## Main results

* `payment_events_accepted` — no event is poison in a run without a late reject, and every late
  reject can be continued to one that is
* `dead_bookings_hold_nothing` — a run in which no late reject goes uncompensated never holds
  money for a dead booking, now or later, and only such a run
-/

namespace CarFlow

/-- An authorize command that can take effect has been written for the booking. -/
def AuthorizeWritten (s : SagaState) (b : Uuid) : Prop :=
  ∃ row ∈ s.booking.outbox, row.aggregateId = b ∧ row.payload.Holdable

/-- The step rejects the booking, after an authorize command was written for it. -/
def RejectsLate (s : SagaState) (a : SagaAction) (b : Uuid) : Prop :=
  (∃ hostId db, a = .perform (.rejectBookingRequest b hostId) ∧
    s.booking.execute (.rejectBookingRequest b hostId) = .ok db) ∧ AuthorizeWritten s b

/-- The hold of the booking was refused already. -/
def HoldRefused (s : SagaState) (b : Uuid) : Prop :=
  ∃ payment, s.payment.getByBookingId b = some payment ∧ payment.status = .authorizationFailed

/-- The event at position `i` of the payment topic can be delivered for the first time. -/
def FirstDelivery (s : SagaState) (i : ℕ) (row : OutboxRow PaymentMessage) : Prop :=
  s.payment.outbox[i]? = some row ∧ EarlierClaimed s.payment.outbox s.booking.inbox i row ∧
    row.id ∉ s.booking.inbox

/-- The booking is rejected or cancelled. -/
def Dead (s : SagaState) (b : Uuid) : Prop :=
  ∃ row, s.booking.getById b = some row ∧ (row.status = .rejected ∨ row.status = .cancelled)

/-- Money is held for the booking, or was taken. -/
def HoldsMoney (s : SagaState) (b : Uuid) : Prop :=
  ∃ payment, s.payment.getByBookingId b = some payment ∧
    (payment.status = .authorized ∨ payment.status = .captured)

/-- No dead booking holds money, and none will. -/
def Compensated (s : SagaState) : Prop :=
  ∀ b, Dead s b → ∀ s', sagaSystem.Leads s s' → ¬ HoldsMoney s' b

section Views

variable {s s' : SagaState} {b : Uuid} {v v' : SagaView} {row : Booking}
  {tr : List (StripeCall × StripeReply)}

theorem authorizeWritten_iff :
    AuthorizeWritten s b ↔ ∃ message ∈ (s.view b).written, message.Holdable := by
  simp only [mem_written]
  constructor
  · rintro ⟨row, hm, hk, hh⟩
    exact ⟨_, ⟨row, hm, hk, rfl⟩, hh⟩
  · rintro ⟨_, ⟨row, hm, hk, rfl⟩, hh⟩
    exact ⟨row, hm, hk, hh⟩

/-! ### Bookings that will never hold money

A booking is dead once it is rejected or cancelled. Whether it holds money, or ever will, can be
told from its view. -/

/-- Nobody asked for a hold that can take effect, and there is none. -/
def Quiet (v : SagaView) : Prop :=
  v.payment.payment = none ∧ ∀ message ∈ v.written, ¬ message.Holdable

/-- The hold was refused. -/
def Refused (v : SagaView) : Prop :=
  ∃ payment, v.payment.payment = some payment ∧ payment.status = .authorizationFailed

/-- The booking is dead, and no payment can come of the messages written. -/
def Buried (v : SagaView) : Prop :=
  (∃ row, v.booking.row = some row ∧ (row.status = .rejected ∨ row.status = .cancelled)) ∧
    (Quiet v ∨ Refused v)

/-- No operation is accepted on a dead booking. -/
theorem Accepts.alive {op : BookingOperation} {w : Writes} (h : Accepts row op w) :
    ¬ (row.status = .rejected ∨ row.status = .cancelled) := by
  cases h <;> simp [*]

section Handled

variable {message : BookingMessage} {rest : List BookingMessage} {payment : PaymentView}
  {events : List PaymentEventType}

theorem Quiet.handled (h : Quiet v) (hqueue : v.commands = message :: rest)
    (heffect : CommandEffect b v.payment message tr payment events) :
    Quiet { v with
      payment
      handledCommands := v.handledCommands ++ [message]
      commands := rest
      events := v.events ++ events } := by
  obtain ⟨hnone, hquiet⟩ := h
  have hwritten : v.handledCommands ++ [message] ++ rest = v.written := by
    simp [SagaView.written, hqueue]
  -- an authorize command would have to be one whose transaction raises
  have hhead : ¬ message.Holdable := hquiet message (by simp [← hwritten])
  refine ⟨?_, by rwa [SagaView.written, hwritten]⟩
  cases heffect with
  | announced => exact hnone
  | absent => exact hnone
  | authorizeRefused _ _ _ _ hfits => exact absurd hfits hhead
  | held _ _ _ _ _ hfits => exact absurd hfits hhead
  | existing _ _ _ hfound => simp [hnone] at hfound
  | settled _ _ _ _ hfound => simp [hnone] at hfound
  | captureRefused _ _ _ _ hfound => simp [hnone] at hfound
  | captured _ _ _ _ _ _ hfound => simp [hnone] at hfound
  | charged _ _ _ _ _ _ hfound => simp [hnone] at hfound

theorem Refused.handled (h : Refused v)
    (heffect : CommandEffect b v.payment message tr payment events) :
    ∃ p, payment.payment = some p ∧ p.status = .authorizationFailed := by
  obtain ⟨old, hold, hfailed⟩ := h
  cases heffect with
  | announced => exact ⟨old, hold, hfailed⟩
  | existing => exact ⟨old, hold, hfailed⟩
  | settled => exact ⟨old, hold, hfailed⟩
  | absent _ _ _ hnone => simp [hnone] at hold
  | authorizeRefused _ _ _ hnone => simp [hnone] at hold
  | held _ _ _ _ hnone => simp [hnone] at hold
  | captureRefused _ _ _ payment hfound hstatus => simp_all
  | captured _ _ _ payment _ _ hfound hstatus => simp_all
  | charged _ _ _ payment _ _ hfound hstatus => simp_all

end Handled

/-- All that can happen to a dead booking is that payment handles its messages. -/
theorem ViewStep.of_dead (hstep : ViewStep b v tr v') (hrow : v.booking.row = some row)
    (hdead : row.status = .rejected ∨ row.status = .cancelled) :
    v'.booking = v.booking ∧ (Quiet v → Quiet v') ∧ (Refused v → Refused v') := by
  cases hstep with
  | idle => exact ⟨rfl, id, id⟩
  | performed op w hop hid heffect =>
    cases heffect with
    | opened _ _ _ _ hnone => simp [hrow] at hnone
    | operated _ _ row' hrow' hacc =>
      obtain rfl : row = row' := Option.some.inj (hrow.symm.trans hrow')
      exact absurd hdead hacc.alive
  | handled message rest _ payment events hqueue heffect =>
    exact ⟨rfl, fun h => h.handled hqueue heffect, fun h => h.handled heffect⟩
  | reacted eventType rest w hqueue heffect =>
    obtain ⟨row', hrow', hacc⟩ := heffect.accepts (creates_paymentEventHandlers _)
    obtain rfl : row = row' := Option.some.inj (hrow.symm.trans hrow')
    exact absurd hdead hacc.alive

theorem Buried.step (h : Buried v) (hstep : ViewStep b v tr v') : Buried v' := by
  obtain ⟨⟨row, hrow, hdead⟩, hbarren⟩ := h
  obtain ⟨hsame, hquiet, hrefused⟩ := hstep.of_dead hrow hdead
  exact ⟨⟨row, hsame ▸ hrow, hdead⟩, hbarren.imp hquiet hrefused⟩

theorem Buried.leads (h : sagaSystem.Reachable s) (hburied : Buried (s.view b))
    (hl : sagaSystem.Leads s s') : Buried (s'.view b) := by
  refine hl.stable (fun s => Buried (s.view b)) (fun s a s' hr hb hstep => ?_) h hburied
  obtain ⟨tr, hview, -⟩ := (sagaOk_of_reachable hr).step_view (sagaStep_cases hstep) b
  exact hb.step hview

theorem Buried.not_holdsMoney (h : Buried (s.view b)) : ¬ HoldsMoney s b := by
  rintro ⟨payment, hp, hstatus⟩
  have hp : (s.view b).payment.payment = some payment := hp
  rcases h.2 with ⟨hnone, -⟩ | ⟨old, hold, hfailed⟩
  · simp [hp] at hnone
  · obtain rfl : payment = old := Option.some.inj (hp.symm.trans hold)
    simp [hfailed] at hstatus

theorem Coherent.buried_of_cancelled (h : Coherent b v) (hrow : v.booking.row = some row)
    (hstatus : row.status = .cancelled) : Buried v :=
  ⟨⟨row, hrow, .inr hstatus⟩, .inr (h.cancelled hrow hstatus)⟩

/-! ### Rejecting

What a reject meets, by how far the authorization has come. -/

theorem Coherent.quiet_of_unwritten (h : Coherent b (s.view b)) (hw : ¬ AuthorizeWritten s b) :
    Quiet (s.view b) := by
  rw [authorizeWritten_iff] at hw
  have hquiet : ∀ message ∈ (s.view b).written, ¬ message.Holdable :=
    fun message hm hh => hw ⟨message, hm, hh⟩
  refine ⟨?_, hquiet⟩
  by_contra hsome
  obtain ⟨message, hm, hh⟩ := h.opened.mp (Option.isSome_iff_ne_none.mpr hsome)
  exact hquiet message (List.mem_append_left _ hm) hh

/-- What a reject that commits finds and leaves. -/
structure Rejected (db : BookingDb) (b : Uuid) (db' : BookingDb) : Prop where
  before : ∃ row, db.getById b = some row ∧ row.status = .requested
  after : ∃ row, db'.getById b = some row ∧ row.status = .rejected
  /-- It asks for no hold. -/
  holdable : ∀ row ∈ db'.outbox, row.payload.Holdable → row ∈ db.outbox

theorem rejected_of_execute {db db' : BookingDb} {hostId : Uuid}
    (hx : db.execute (.rejectBookingRequest b hostId) = .ok db') : Rejected db b db' := by
  obtain ⟨w, heffect, hview, houtbox, -⟩ := (BookingDb.execute_outcome hx).effect
  obtain ⟨row, hrow, hacc⟩ := heffect.accepts rfl
  cases hacc with
  | reject _ hstatus =>
    refine ⟨⟨row, hrow, hstatus⟩, ⟨_, congrArg BookingView.row hview, rfl⟩, fun r hr hh => ?_⟩
    rcases mem_writeAll (houtbox ▸ hr) with hr | ⟨-, hr⟩
    · exact hr
    · rw [List.mem_singleton.mp hr] at hh
      exact hh.elim

/-- Only a reject leaves a booking rejected. -/
theorem Accepts.eq_reject {op : BookingOperation} {w : Writes} (h : Accepts row op w)
    (hstatus : w.booking.status = .rejected) :
    ∃ bookingId, op = .rejectBookingRequest bookingId row.hostId := by
  cases h with
  | reject bookingId => exact ⟨bookingId, rfl⟩
  | _ => cases hstatus

/-- A step leaves a booking rejected only if it was, or if the step rejects it. -/
theorem rejected_cases (hok : SagaOk s) {a : SagaAction} (h : SagaStep s a s')
    (hrow : s'.booking.getById b = some row) (hstatus : row.status = .rejected) :
    (∃ old, s.booking.getById b = some old ∧ old.status = .rejected) ∨
      ∃ hostId db, a = .perform (.rejectBookingRequest b hostId) ∧
      s.booking.execute (.rejectBookingRequest b hostId) = .ok db ∧
      s' = { s with booking := db } := by
  obtain ⟨tr, hview, -⟩ := hok.step_view h b
  have hstay (hsame : s'.booking.getById b = s.booking.getById b) :
      ∃ old, s.booking.getById b = some old ∧ old.status = .rejected :=
    ⟨row, hsame ▸ hrow, hstatus⟩
  cases h with
  | idle => exact .inl (hstay rfl)
  | handled => exact .inl (hstay rfl)
  | performed op db hop hx =>
    have hout := BookingDb.execute_outcome hx
    by_cases hb : op.bookingId = b
    swap
    · exact .inl (hstay (congrArg BookingView.row (hout.others b hb)))
    subst hb
    obtain ⟨w, heffect, hw, -⟩ := hout.effect
    obtain rfl : w.booking = row :=
      Option.some.inj ((congrArg BookingView.row hw).symm.trans hrow)
    cases heffect with
    | opened => cases hstatus
    | operated _ _ old hold hacc =>
      obtain ⟨bookingId, rfl⟩ := hacc.eq_reject hstatus
      exact .inr ⟨_, db, rfl, hx, rfl⟩
  | reacted i orow db hi he hu hout =>
    by_cases hb : (paymentEventHandlers orow.payload).bookingId = b
    swap
    · exact .inl (hstay (congrArg BookingView.row (hout.others b hb)))
    subst hb
    obtain ⟨w, heffect, hw, -⟩ := hout.effect
    obtain rfl : w.booking = row :=
      Option.some.inj ((congrArg BookingView.row hw).symm.trans hrow)
    obtain ⟨old, hold, hacc⟩ := heffect.accepts (creates_paymentEventHandlers _)
    obtain ⟨bookingId, hop⟩ := hacc.eq_reject hstatus
    exact absurd hop (paymentEventHandlers_ne_reject _ _ _)

/-- While a booking is requested, its queue is a row of authorize commands; with one that fits and
no payment yet, the next message asks for a hold. -/
theorem Coherent.queue_of_requested (h : Coherent b v) (hrow : v.booking.row = some row)
    (hstatus : row.status = .requested) (hw : ∃ message ∈ v.written, message.Holdable)
    (hnone : v.payment.payment = none) :
    ∃ id renterId amountCents rest,
      v.commands = .authorizePaymentRequested id renterId amountCents :: rest ∧
        FitsInteger amountCents := by
  -- all commands written ask for the same amount
  have hall : ∀ message ∈ v.written, message.Holdable ∧ ∃ id renterId amountCents,
      message = .authorizePaymentRequested id renterId amountCents := by
    obtain ⟨m, hm, hh⟩ := hw
    intro message hmem
    have hf := h.faithful row hrow message hmem
    have hf' := h.faithful row hrow m hm
    cases message with
    | lifecycle => exact absurd hstatus hf
    | capturePaymentRequested => simp [BookingMessage.Faithful, Booking.TakenBack, hstatus] at hf
    | authorizePaymentRequested id renterId amountCents =>
      refine ⟨?_, id, renterId, amountCents, rfl⟩
      cases m with
      | lifecycle => exact hh.elim
      | capturePaymentRequested => exact hh.elim
      | authorizePaymentRequested =>
        simp only [BookingMessage.Faithful, Booking.terms, Prod.mk.injEq, true_and] at hf hf'
        simp only [BookingMessage.Holdable] at hh ⊢
        rwa [← hf.2, hf'.2]
  have hhandled : v.handledCommands = [] := by
    refine List.eq_nil_iff_forall_not_mem.mpr fun message hmem => ?_
    have hsome := h.opened.mpr ⟨message, hmem, (hall message (List.mem_append_left _ hmem)).1⟩
    simp [hnone] at hsome
  obtain ⟨m, hm, -⟩ := hw
  rw [SagaView.written, hhandled, List.nil_append] at hm hall
  cases hq : v.commands with
  | nil => simp [hq] at hm
  | cons head rest =>
    obtain ⟨hh, id, renterId, amountCents, rfl⟩ := hall head (hq ▸ List.mem_cons_self)
    exact ⟨id, renterId, amountCents, rest, rfl, hh⟩

/-- Rejecting a booking late leaves it one delivery away from holding money, unless its hold was
refused before. -/
theorem exists_held_of_rejectsLate (h : sagaSystem.Reachable s) {a : SagaAction}
    (hlate : RejectsLate s a b) (hstep : sagaSystem.step s a = some s') :
    ∃ s'', sagaSystem.Leads s' s'' ∧
      (∃ row, s''.booking.getById b = some row ∧ row.status = .rejected) ∧
      ∃ payment, s''.payment.getByBookingId b = some payment ∧
        (payment.status = .authorized ∨ HoldRefused s b) := by
  obtain ⟨⟨hostId, db, rfl, hx⟩, hw⟩ := hlate
  obtain rfl : { s with booking := db } = s' := by
    simpa [sagaSystem, sagaStep, BookingOperation.ofCaller, hx, committed] using hstep
  have hr := rejected_of_execute hx
  obtain ⟨row, hrow, hstatus⟩ := hr.before
  have hcoh := coherent_of_reachable h b
  have hrow' : (s.view b).booking.row = some row := hrow
  cases hp : s.payment.getByBookingId b with
  | some payment =>
    -- the event of the payment is still on its way
    refine ⟨_, .refl, hr.after, payment, hp, ?_⟩
    have hp' : (s.view b).payment.payment = some payment := hp
    cases hs : payment.status with
    | authorized => exact .inl rfl
    | authorizationFailed => exact .inr ⟨payment, hp, hs⟩
    | captured =>
      have hback := (hcoh.takenBack_of_settled hrow' hp' (.inl hs)).1
      simp [hstatus] at hback
    | captureFailed =>
      have hback := (hcoh.takenBack_of_settled hrow' hp' (.inr hs)).1
      simp [hstatus] at hback
  | none =>
    obtain ⟨id, renterId, amountCents, rest, hq, hfits⟩ :=
      hcoh.queue_of_requested hrow' hstatus (authorizeWritten_iff.mp hw) hp
    have hok := sagaOk_of_reachable (h.step hstep)
    obtain ⟨i, orow, hi, hk, hpay, he, hu⟩ : ∃ i orow, db.outbox[i]? = some orow ∧
        orow.aggregateId = b ∧ orow.payload = .authorizePaymentRequested id renterId amountCents ∧
        EarlierClaimed db.outbox s.payment.inbox i orow ∧ orow.id ∉ s.payment.inbox := by
      obtain ⟨w, -, -, houtbox, -⟩ := (BookingDb.execute_outcome hx).effect
      have hq' : queueFor db.outbox s.payment.inbox b =
          .authorizePaymentRequested id renterId amountCents :: (rest ++ w.outbox) := by
        rw [houtbox, queueFor_writeAll (sagaOk_of_reachable h).commands]
        change (s.view b).commands ++ _ = _
        simp [BookingOperation.bookingId, hq]
      exact exists_next_of_queueFor hq'
    have hid : id = b := by
      have hkey := hok.commandKey orow (List.mem_of_getElem? hi)
      rw [hpay, hk] at hkey
      exact hkey
    subst hid
    obtain ⟨payments, hrun, payment, hfound, hauth⟩ := processCommand_held hu hpay hp hfits "hold"
    refine ⟨{ s with booking := db, payment := payments },
      .single ⟨.deliverCommand i fun _ => .returned "hold", ?_⟩, hr.after, payment, hfound,
      .inl hauth⟩
    simp [sagaSystem, sagaStep, hi, he, hrun, committed]

/-- A reject that is not late leaves a booking nobody asked a hold for. -/
theorem quiet_of_reject {db : BookingDb} (hr : Rejected s.booking b db)
    (hreach : sagaSystem.Reachable { s with booking := db }) (hw : ¬ AuthorizeWritten s b) :
    Quiet (SagaState.view { s with booking := db } b) := by
  refine (coherent_of_reachable hreach b).quiet_of_unwritten fun hw' => hw ?_
  obtain ⟨row, hrow, hk, hh⟩ := hw'
  exact ⟨row, hr.holdable row hrow hh, hk, hh⟩

/-! ### The two promises -/

/-- In a run without a late reject, nobody asks a hold for a rejected booking. -/
theorem quiet_of_reachableWhere
    (h : sagaSystem.ReachableWhere (fun s a => ∀ b, ¬ RejectsLate s a b) s)
    (hrow : s.booking.getById b = some row) (hstatus : row.status = .rejected) :
    Quiet (s.view b) := by
  refine h.invariant (fun s => ∀ row, s.booking.getById b = some row → row.status = .rejected →
    Quiet (s.view b)) (fun _ hrow => by cases hrow) (fun s a s' hreach ih hok hstep => ?_) row
    hrow hstatus
  intro row hrow hstatus
  have hstep' := sagaStep_cases hstep
  have hsok := sagaOk_of_reachable hreach
  rcases rejected_cases hsok hstep' hrow hstatus with ⟨old, hold, hs⟩ | ⟨hostId, db, rfl, hx, rfl⟩
  · obtain ⟨tr, hview, -⟩ := hsok.step_view hstep' b
    exact (hview.of_dead hold (.inl hs)).2.1 (ih old hold hs)
  · exact quiet_of_reject (rejected_of_execute hx) (hreach.step hstep)
      fun hw => hok b ⟨⟨hostId, db, rfl, hx⟩, hw⟩

/-- The event to be delivered first is the head of its booking's queue. -/
theorem FirstDelivery.queue (h : sagaSystem.Reachable s) {i : ℕ} {row : OutboxRow PaymentMessage}
    (hd : FirstDelivery s i row) :
    ∃ rest, (s.view row.payload.bookingId).events = row.payload.eventType :: rest := by
  obtain ⟨hi, he, hu⟩ := hd
  have hok := sagaOk_of_reachable h
  refine ⟨(queueFor s.payment.outbox (row.id :: s.booking.inbox) row.aggregateId).map
    (·.eventType), ?_⟩
  rw [hok.eventKey row (List.mem_of_getElem? hi), SagaState.view,
    queueFor_claim hok.events hi he hu, List.map_cons]

/-- **No payment event is poison in a run without a late reject**, and a late reject is exactly
what it takes: every one of them can be continued to a state where an event is poison. -/
theorem payment_events_accepted (s : SagaState) :
    (sagaSystem.ReachableWhere (fun s a => ∀ b, ¬ RejectsLate s a b) s →
      ∀ i row, FirstDelivery s i row → ¬ Poison row s.booking) ∧
    (∀ a s' b, sagaSystem.Reachable s → RejectsLate s a b → sagaSystem.step s a = some s' →
      ∃ s'' i row, sagaSystem.Leads s' s'' ∧ FirstDelivery s'' i row ∧
        Poison row s''.booking) := by
  constructor
  · intro h i row hd
    have hcoh := coherent_of_reachable h.reachable row.payload.bookingId
    obtain ⟨rest, hq⟩ := hd.queue h.reachable
    obtain ⟨booking, hrow, hrejected | ⟨w, hacc⟩⟩ := hcoh.accepts_head hq
    · -- a rejected booking has no payment, so no event either
      obtain ⟨hnone, -⟩ := quiet_of_reachableWhere h hrow hrejected
      have htrail := hcoh.trail
      rw [hq, PaymentView.trail, hnone] at htrail
      simp at htrail
    · exact not_poison_of_accepts hd.2.2 hrow hacc
  · intro a s' b h hlate hstep
    obtain ⟨s'', hl, ⟨booking, hrow, hrejected⟩, payment, hp, -⟩ :=
      exists_held_of_rejectsLate h hlate hstep
    have hreach := (h.step hstep).leads hl
    have hcoh := coherent_of_reachable hreach b
    have hrow' : (s''.view b).booking.row = some booking := hrow
    have hp' : (s''.view b).payment.payment = some payment := hp
    have hheard := hcoh.heard booking hrow'
    rw [hrejected] at hheard
    have htrail := hcoh.trail
    rw [show (s''.view b).handledEvents = [] from hheard, List.nil_append] at htrail
    obtain ⟨message, rest, hq⟩ :
        ∃ message rest, queueFor s''.payment.outbox s''.booking.inbox b = message :: rest := by
      refine List.exists_cons_of_ne_nil fun hnil => PaymentView.trail_ne_nil hp' ?_
      rw [← htrail, SagaState.view, hnil, List.map_nil]
    obtain ⟨i, row, hi, hk, -, he, hu⟩ := exists_next_of_queueFor hq
    refine ⟨s'', i, row, hl, ⟨hi, he, hu⟩, poison_of_rejected hu ?_ hrejected⟩
    rw [(sagaOk_of_reachable hreach).eventKey row (List.mem_of_getElem? hi), hk]
    exact hrow

/-- In the sample trip the first event is accepted. -/
theorem payment_events_accepted_sampleTrip :
    ∃ s row, sagaSystem.run {} (sampleTrip.take 2) = some s ∧ FirstDelivery s 0 row ∧
      ¬ Poison row s.booking := by
  have hend : (sagaSystem.run {} (sampleTrip.take 2)).map
      (fun s => (s.payment.outbox, s.booking.inbox)) =
        some ([⟨0, 0, .paymentAuthorized, 0⟩], []) := by decide
  obtain ⟨s, hrun, hs⟩ := Option.map_eq_some_iff.mp hend
  obtain ⟨houtbox, hinbox⟩ := Prod.mk.inj hs
  have hd : FirstDelivery s 0 ⟨0, 0, .paymentAuthorized, 0⟩ := by
    simp [FirstDelivery, EarlierClaimed, houtbox, hinbox]
  obtain ⟨tr, hexec, has⟩ := TransitionSystem.exec_of_run hrun
  refine ⟨s, _, hrun, hd, (payment_events_accepted s).1 (hexec.reachableWhere ?_) 0 _ hd⟩
  rintro x hx b ⟨⟨hostId, db, ha, -⟩, -⟩
  have hmem : x.2 ∈ sampleTrip.take 2 := has ▸ List.mem_map_of_mem hx
  simp [ha, sampleTrip] at hmem

/-- The host rejects while the authorize command is under way; payment then grants the hold. -/
def sampleLateReject : List SagaAction :=
  [.perform (.requestBooking 0 (some (sampleVehicle .instant)) 2 sampleDates),
    .perform (.rejectBookingRequest 0 1),
    .deliverCommand 0 fun _ => .returned "pi_hold"]

theorem payment_event_poison_after_late_reject :
    ∃ s row, sagaSystem.Reachable s ∧ sagaSystem.run {} sampleLateReject = some s ∧
      FirstDelivery s 0 row ∧ Poison row s.booking := by
  have hend : (sagaSystem.run {} sampleLateReject).map (fun s => (s.payment.outbox,
      s.booking.inbox, (s.booking.getById 0).map (·.status))) =
        some ([⟨0, 0, .paymentAuthorized, 0⟩], [], some .rejected) := by decide
  obtain ⟨s, hrun, hs⟩ := Option.map_eq_some_iff.mp hend
  obtain ⟨houtbox, hs⟩ := Prod.mk.inj hs
  obtain ⟨hinbox, hs⟩ := Prod.mk.inj hs
  obtain ⟨row, hrow, hrejected⟩ := Option.map_eq_some_iff.mp hs
  refine ⟨s, ⟨0, 0, .paymentAuthorized, 0⟩, TransitionSystem.reachable_of_run .init hrun, hrun,
    by simp [FirstDelivery, EarlierClaimed, houtbox, hinbox], poison_of_rejected ?_ hrow hrejected⟩
  simp [hinbox]

/-- **A run never holds money for a dead booking**, now or later, exactly if each of its late
rejects finds the hold refused already. -/
theorem dead_bookings_hold_nothing {run : List (SagaState × SagaAction)}
    (h : sagaSystem.Exec sagaSystem.init run s) :
    TransitionSystem.Throughout Compensated run s ↔
      ∀ x ∈ run, ∀ b, RejectsLate x.1 x.2 b → HoldRefused x.1 b := by
  refine TransitionSystem.Exec.forall_iff Compensated
    (fun s a => ∀ b, RejectsLate s a b → HoldRefused s b) ?_ (fun s a s' hreach hP hstep => ?_) h
  · rintro b ⟨row, hrow, -⟩
    cases hrow
  constructor
  · intro hP' b hlate
    obtain ⟨s'', hl, ⟨row, hrow, hrejected⟩, payment, hp, hs⟩ :=
      exists_held_of_rejectsLate hreach hlate hstep
    obtain ⟨⟨hostId, db, rfl, hx⟩, -⟩ := hlate
    obtain rfl : { s with booking := db } = s' := by
      simpa [sagaSystem, sagaStep, BookingOperation.ofCaller, hx, committed] using hstep
    obtain ⟨row, hrow, hrejected⟩ := (rejected_of_execute hx).after
    refine hs.resolve_left fun hs => hP' b ⟨row, hrow, .inl hrejected⟩ s'' hl ?_
    exact ⟨payment, hp, .inl hs⟩
  · rintro hok b ⟨row, hrow, hdead⟩ s'' hl
    have hstep' := sagaStep_cases hstep
    have hsok := sagaOk_of_reachable hreach
    have hreach' := hreach.step hstep
    -- newly dead bookings are buried, and the others were dead before
    rcases hdead with hs | hs
    · rcases rejected_cases hsok hstep' hrow hs with ⟨old, hold, hs⟩ | ⟨hostId, db, rfl, hx, rfl⟩
      · exact hP b ⟨old, hold, .inl hs⟩ s'' (.head ⟨a, hstep⟩ hl)
      · refine (Buried.leads hreach' ⟨⟨row, hrow, .inl hs⟩, ?_⟩ hl).not_holdsMoney
        by_cases hw : AuthorizeWritten s b
        · exact .inr (hok b ⟨⟨hostId, db, rfl, hx⟩, hw⟩)
        · exact .inl (quiet_of_reject (rejected_of_execute hx) hreach' hw)
    · have hburied := (coherent_of_reachable hreach' b).buried_of_cancelled hrow hs
      exact (hburied.leads hreach' hl).not_holdsMoney

theorem dead_bookings_hold_nothing_sampleTrip :
    ∃ s run, sagaSystem.Exec sagaSystem.init run s ∧ run.map Prod.snd = sampleTrip ∧
      TransitionSystem.Throughout Compensated run s := by
  obtain ⟨s, hrun⟩ : ∃ s, sagaSystem.run {} sampleTrip = some s :=
    Option.isSome_iff_exists.mp (by decide)
  obtain ⟨tr, hexec, has⟩ := TransitionSystem.exec_of_run hrun
  refine ⟨s, tr, hexec, has, (dead_bookings_hold_nothing hexec).mpr ?_⟩
  rintro x hx b ⟨⟨hostId, db, ha, -⟩, -⟩
  have hmem : x.2 ∈ sampleTrip := has ▸ List.mem_map_of_mem hx
  simp [ha, sampleTrip] at hmem

theorem dead_booking_holds_money_after_late_reject :
    ∃ s, sagaSystem.Reachable s ∧ sagaSystem.run {} sampleLateReject = some s ∧
      Dead s 0 ∧ HoldsMoney s 0 := by
  have hend : (sagaSystem.run {} sampleLateReject).map (fun s =>
      ((s.booking.getById 0).map (·.status), (s.payment.getByBookingId 0).map (·.status))) =
        some (some .rejected, some .authorized) := by decide
  obtain ⟨s, hrun, hs⟩ := Option.map_eq_some_iff.mp hend
  obtain ⟨hbooking, hpayment⟩ := Prod.mk.inj hs
  obtain ⟨row, hrow, hrejected⟩ := Option.map_eq_some_iff.mp hbooking
  obtain ⟨payment, hp, hauthorized⟩ := Option.map_eq_some_iff.mp hpayment
  exact ⟨s, TransitionSystem.reachable_of_run .init hrun, hrun, ⟨row, hrow, .inl hrejected⟩,
    ⟨payment, hp, .inl hauthorized⟩⟩

end Views

end CarFlow
