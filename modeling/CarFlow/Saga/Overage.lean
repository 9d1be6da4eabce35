import CarFlow.Saga.Agreement

/-!
# What is charged for the miles driven

A return leaves the booking `active`, so the host may record another one before payment has
answered. Each return rewrites the row and sends a capture command of its own, but payment acts on
the first command only, and the booking completes with whatever the row says by then.

The view of a booking keeps all of this visible: the capture commands written carry the overages
of the returns in the log, in order; the row carries the last, and, if Stripe accepts every charge,
payment the first. `Metered` is that invariant.

## Scope

The result is about runs in which Stripe accepts every call. When it refuses to charge an overage,
payment announces the capture all the same, and stores no intent. The booking then completes with
an overage in its row for which nothing was charged, and that has nothing to do with a second
return.

## Main results

* `metered_of_reachable` — the invariant, in runs where Stripe accepts every charge
* `overage_settled_iff` — in such a run, both sides agree on the overage of every completed booking
  exactly if no booking is completed whose first and last return cost differently
-/

namespace CarFlow

/-- The returns in an event log, in order. -/
def returns (log : List BookingEvent) : List Return :=
  log.filterMap fun
    | .bookingReturnRecorded payload => some payload
    | _ => none

/-- The overages of the capture commands among some messages, in order. -/
def captureOverages (messages : List BookingMessage) : List ℤ :=
  messages.filterMap fun
    | .capturePaymentRequested _ _ _ overageCents => some overageCents
    | _ => none

@[simp] theorem returns_append (log log' : List BookingEvent) :
    returns (log ++ log') = returns log ++ returns log' := List.filterMap_append

@[simp] theorem captureOverages_append (messages messages' : List BookingMessage) :
    captureOverages (messages ++ messages') =
      captureOverages messages ++ captureOverages messages' :=
  List.filterMap_append

/-- Two returns of a booking cost the same: they are at the same odometer, or both within the
allowance. -/
def Booking.CostAlike (row : Booking) (r r' : Return) : Prop :=
  r.odometer = r'.odometer ∨ ∀ startOdometer, row.startOdometer = some startOdometer →
    r.odometer - startOdometer ≤ row.dailyMileageLimit * row.days ∧
      r'.odometer - startOdometer ≤ row.dailyMileageLimit * row.days

/-- The first and the last return of a booking cost the same. -/
def ReturnsAgree (v : BookingView) : Prop :=
  ∀ row first last, v.row = some row → (returns v.log).head? = some first →
    (returns v.log).getLast? = some last → row.CostAlike first last

/-- The step completes the booking. -/
def Completes (s : SagaState) (a : SagaAction) (b : Uuid) : Prop :=
  (∃ s' row, sagaSystem.step s a = some s' ∧ s'.booking.getById b = some row ∧
    row.status = .completed) ∧
    ¬ ∃ row, s.booking.getById b = some row ∧ row.status = .completed

/-- **Both sides agree** on the overage of a booking: what was charged is what the row says, which
is what the row's own columns come to. The charge is a debit of the renter and a credit of the host,
of that amount, and nothing else; there is none if the amount is zero. -/
def OverageAgreed (s : SagaState) (b : Uuid) (row : Booking) : Prop :=
  ∃ payment startOdometer endOdometer, s.payment.getByBookingId b = some payment ∧
    row.startOdometer = some startOdometer ∧ row.endOdometer = some endOdometer ∧
    payment.overageCents = row.overageCents ∧
    s.payment.ledgerEntries.filter (fun entry =>
      entry.bookingId = b ∧ entry.reason = .mileageOverage) =
      (if 0 < row.overageCents then
        [renterDebit payment.id b row.renterId row.overageCents .mileageOverage,
          hostCredit payment.id b row.hostId row.overageCents .mileageOverage] else []) ∧
    row.overageCents = Domain.computeOverageCents startOdometer endOdometer row.dailyMileageLimit
      (Domain.rentalDays row.toState)

/-- Both sides agree on every completed booking. -/
def OverageSettled (s : SagaState) : Prop :=
  ∀ b row, s.booking.getById b = some row → row.status = .completed → OverageAgreed s b row

/-- **The overage invariant**, for the view of one booking. -/
structure Metered (v : SagaView) : Prop where
  /-- The row shows the last return. -/
  shown : ∀ row, v.booking.row = some row →
    row.endOdometer = (returns v.booking.log).getLast?.map (·.odometer) ∧
      row.overageCents = ((returns v.booking.log).getLast?.map (·.overageCents)).getD 0
  /-- Each return was charged by the odometer of the handover. -/
  measured : ∀ row, v.booking.row = some row → ∀ r ∈ returns v.booking.log,
    ∃ startOdometer, row.startOdometer = some startOdometer ∧
      r.overageCents = row.overageAt startOdometer r.odometer
  /-- Each return was sent to payment. -/
  sent : captureOverages v.written = (returns v.booking.log).map (·.overageCents)
  /-- Payment charged the first. -/
  charged : ∀ payment, v.payment.payment = some payment → payment.status = .captured →
    (returns v.booking.log).head?.map (·.overageCents) = some payment.overageCents

section Metered

variable {b : Uuid} {v v' : SagaView} {row : Booking} {tr : List (StripeCall × StripeReply)}

theorem metered_init : Metered {} where
  shown _ h := by cases h
  measured _ h := by cases h
  sent := rfl
  charged _ h := by cases h

/-- Nothing has been returned before the car is taken back. -/
theorem Metered.returns_eq_nil (h : Metered v) (hcoh : Coherent b v)
    (hrow : v.booking.row = some row) (hstatus : ¬ row.TakenBack) :
    returns v.booking.log = [] := by
  have hsent := h.sent
  have hnone : captureOverages v.written = [] := by
    refine List.filterMap_eq_nil_iff.mpr fun message hm => ?_
    have hf := hcoh.faithful row hrow message hm
    cases message with
    | capturePaymentRequested => exact absurd hf.2.2 hstatus
    | _ => rfl
  rw [hnone] at hsent
  exact List.map_eq_nil_iff.mp hsent.symm

/-- A step that neither hands over nor returns the car keeps the invariant. -/
theorem Metered.settle (h : Metered v) (hrow : v.booking.row = some row) (n : ℕ)
    (status : BookingStatus) {events : List BookingEvent} {messages : List BookingMessage}
    {handledEvents rest : List PaymentEventType} (hevents : returns events = [])
    (hmessages : captureOverages messages = []) :
    Metered { v with
      booking := ⟨some (row.settle n status), v.booking.log ++ events⟩
      commands := v.commands ++ messages
      handledEvents
      events := rest } where
  shown r hr := by
    obtain rfl := Option.some.inj hr
    rw [returns_append, hevents, List.append_nil]
    exact h.shown row hrow
  measured r hr := by
    obtain rfl := Option.some.inj hr
    rw [returns_append, hevents, List.append_nil]
    exact h.measured row hrow
  sent := by
    have hsent := h.sent
    simp only [SagaView.written, captureOverages_append, returns_append, hevents, hmessages,
      List.append_nil] at hsent ⊢
    exact hsent
  charged := by simpa [hevents] using h.charged

/-- A return is added to everything that lists returns. -/
theorem Metered.takeBack (h : Metered v) (hrow : v.booking.row = some row) (payload : Handover)
    {startOdometer overageCents : ℤ} (hstart : row.startOdometer = some startOdometer)
    (hoverage : overageCents = row.overageAt startOdometer payload.odometer) :
    Metered { v with
      booking := ⟨some (row.takeBack payload overageCents), v.booking.log ++
        [.bookingReturnRecorded ⟨payload.odometer, payload.fuelPercent, payload.photoUrl,
          overageCents⟩]⟩
      commands := v.commands ++ [.capturePaymentRequested row.id row.hostId
        (row.dailyPriceCents * row.days) overageCents] } where
  shown r hr := by
    obtain rfl := Option.some.inj hr
    simp [returns, Booking.takeBack]
  measured r hr r' hr' := by
    obtain rfl := Option.some.inj hr
    rw [returns_append, List.mem_append] at hr'
    rcases hr' with hr' | hr'
    · exact h.measured row hrow r' hr'
    · obtain rfl : r' = _ := List.mem_singleton.mp hr'
      exact ⟨startOdometer, hstart, hoverage⟩
  sent := by
    have hsent := h.sent
    simp only [SagaView.written, captureOverages_append, returns_append, List.map_append,
      ← List.append_assoc] at hsent ⊢
    rw [hsent]
    rfl
  charged payment hp hs := by
    have hcharged := h.charged payment hp hs
    cases hreturns : returns v.booking.log with
    | nil =>
      rw [hreturns] at hcharged
      cases hcharged
    | cons first rest =>
      rw [hreturns] at hcharged
      rw [returns_append, hreturns]
      exact hcharged

theorem Metered.performed (h : Metered v) (hcoh : Coherent b v) {op : BookingOperation}
    {w : Writes} (hop : op.ofCaller = true) (heffect : BookingEffect v.booking op w) :
    Metered { v with
      booking := v.booking.after w
      commands := v.commands ++ w.outbox } := by
  cases heffect with
  | opened id vehicle renterId payload hnone =>
    obtain rfl := hcoh.unopened hnone
    have hlog : returns ((requestWrites id vehicle renterId payload).events.map (·.event)) = [] :=
      congrArg returns (map_event_eventRows _)
    have hsent : captureOverages (requestWrites id vehicle renterId payload).outbox = [] := by
      simp only [requestWrites]
      split <;> rfl
    refine ⟨fun r hr => ?_, fun r hr => ?_, ?_, fun _ hp => by cases hp⟩
    · obtain rfl := Option.some.inj hr
      rw [BookingView.after, List.nil_append, hlog]
      exact ⟨rfl, rfl⟩
    · rw [BookingView.after, List.nil_append, hlog]
      simp
    · rw [BookingView.after, List.nil_append, hlog]
      exact hsent
  | operated _ _ row hrow hacc =>
    cases hacc with
    | accept _ hmode hstatus => exact h.settle hrow 1 .requested rfl rfl
    | reject _ hstatus => exact h.settle hrow 1 .rejected rfl rfl
    | handover _ payload hstatus =>
      have hnil := h.returns_eq_nil hcoh hrow (by simp [Booking.TakenBack, hstatus])
      have hlog :
          returns (v.booking.log ++ [.bookingHandoverRecorded payload.toHandover]) = [] := by
        rw [returns_append, hnil]
        rfl
      have hshown := h.shown row hrow
      rw [hnil] at hshown
      refine ⟨fun r hr => ?_, fun r hr => ?_, ?_, fun payment hp hs => ?_⟩
      · obtain rfl := Option.some.inj hr
        exact hlog.symm ▸ hshown
      · exact hlog.symm ▸ by simp
      · have hsent := h.sent
        rw [hnil] at hsent
        exact (congrArg captureOverages (by simp [SagaView.written])).trans
          (hsent.trans (hlog ▸ rfl))
      · have hcharged := h.charged payment hp hs
        rw [hnil] at hcharged
        cases hcharged
    | «return» _ payload startOdometer hstatus hstart =>
      exact h.takeBack hrow payload.toHandover hstart rfl
    | _ => cases hop

theorem Metered.handled (h : Metered v) (hcoh : Coherent b v) {message : BookingMessage}
    {rest : List BookingMessage} {payment : PaymentView} {events : List PaymentEventType}
    (hqueue : v.commands = message :: rest)
    (heffect : CommandEffect b v.payment message tr payment events)
    (haccepting : ∀ e ∈ tr, e.2 ≠ .stripeError) :
    Metered { v with
      payment
      handledCommands := v.handledCommands ++ [message]
      commands := rest
      events := v.events ++ events } := by
  have hwritten : v.handledCommands ++ [message] ++ rest = v.written := by
    simp [SagaView.written, hqueue]
  -- a capture command that finds the payment authorized is the first one
  have hfirst {hostId : Uuid} {holdAmountCents overageCents : ℤ} {old : Payment}
      (hm : message = .capturePaymentRequested b hostId holdAmountCents overageCents)
      (hold : v.payment.payment = some old) (hstatus : old.status = .authorized) :
      (returns v.booking.log).head?.map (·.overageCents) = some overageCents := by
    have hnone : captureOverages v.handledCommands = [] := by
      refine List.filterMap_eq_nil_iff.mpr fun m hmem => ?_
      cases m with
      | capturePaymentRequested =>
        obtain ⟨p, hp, hs⟩ := hcoh.settled.mpr ⟨_, hmem, rfl⟩
        obtain rfl : old = p := Option.some.inj (hold.symm.trans hp)
        simp [PaymentStatus.Settled, hstatus] at hs
      | _ => rfl
    have hsent := h.sent
    rw [SagaView.written, hqueue, captureOverages_append, hnone, hm, List.nil_append] at hsent
    rw [← List.head?_map, ← hsent]
    rfl
  refine ⟨h.shown, h.measured, by rw [SagaView.written, hwritten, h.sent], fun p hp hs => ?_⟩
  cases heffect with
  | announced => exact h.charged p hp hs
  | existing => exact h.charged p hp hs
  | absent => exact h.charged p hp hs
  | settled => exact h.charged p hp hs
  | authorizeRefused =>
    obtain rfl := Option.some.inj hp
    cases hs
  | held =>
    obtain rfl := Option.some.inj hp
    cases hs
  | captureRefused =>
    obtain rfl := Option.some.inj hp
    cases hs
  | captured hostId holdAmountCents overageCents old captureId overage hfound hstatus hhold
      hoverage =>
    obtain rfl := Option.some.inj hp
    have hwm : BookingMessage.capturePaymentRequested b hostId holdAmountCents overageCents
        ∈ v.written := by simp [SagaView.written, hqueue]
    obtain ⟨row, hrow⟩ := hcoh.exists_row (by rintro rfl; cases hqueue)
    have hnonneg := (hcoh.faithful row hrow _ hwm).2.1
    have hbooked := hcoh.booked row old hrow hfound
    rw [Payment.Booked, if_neg (by simp [hstatus])] at hbooked
    rw [hfirst rfl hfound hstatus]
    rcases hoverage with ⟨hle, -⟩ | ⟨-, rfl⟩
    · exact congrArg some ((Int.le_antisymm hle hnonneg).trans hbooked.1.symm)
    · simp at haccepting
  | charged hostId holdAmountCents overageCents old captureId overageIntentId hfound hstatus =>
    obtain rfl := Option.some.inj hp
    exact hfirst rfl hfound hstatus

theorem Metered.reacted (h : Metered v) {eventType : PaymentEventType}
    {rest : List PaymentEventType} {w : Writes}
    (heffect : BookingEffect v.booking (paymentEventHandlers ⟨eventType, b⟩) w) :
    Metered { v with
      booking := v.booking.after w
      commands := v.commands ++ w.outbox
      handledEvents := v.handledEvents ++ [eventType]
      events := rest } := by
  obtain ⟨row, hrow, hacc⟩ := heffect.accepts (creates_paymentEventHandlers _)
  cases eventType with
  | paymentAuthorized =>
    cases hacc with
    | confirm => exact h.settle hrow 2 .confirmed rfl rfl
  | paymentAuthorizationFailed =>
    cases hacc with
    | cancel => exact h.settle hrow 2 .cancelled rfl rfl
  | paymentCaptured =>
    cases hacc with
    | complete => exact h.settle hrow 2 .completed rfl rfl
  | paymentCaptureFailed =>
    cases hacc with
    | noteFailure => exact h.settle hrow 1 .active rfl rfl

theorem Metered.step (h : Metered v) (hcoh : Coherent b v) (hstep : ViewStep b v tr v')
    (haccepting : ∀ e ∈ tr, e.2 ≠ .stripeError) : Metered v' := by
  cases hstep with
  | idle => exact h
  | performed op w hop hid heffect => exact h.performed hcoh hop heffect
  | handled message rest _ payment events hqueue heffect =>
    exact h.handled hcoh hqueue heffect haccepting
  | reacted eventType rest w hqueue heffect => exact h.reacted heffect

theorem metered_of_reachable {s : SagaState}
    (h : sagaSystem.ReachableWhere (fun _ a => a.Accepting) s) (b : Uuid) : Metered (s.view b) := by
  refine h.invariant (fun s => Metered (s.view b)) metered_init fun s a s' hr hm hok hstep => ?_
  obtain ⟨tr, hview, haccepting⟩ := (sagaOk_of_reachable hr).step_view (sagaStep_cases hstep) b
  exact hm.step (coherent_of_reachable hr b) hview (haccepting hok)

/-! ### When both sides agree -/

/-- Two returns of one booking cost the same exactly if they were charged the same. -/
theorem Metered.costAlike_iff (h : Metered v) (hrow : v.booking.row = some row) {r r' : Return}
    (hr : r ∈ returns v.booking.log) (hr' : r' ∈ returns v.booking.log) :
    row.CostAlike r r' ↔ r.overageCents = r'.overageCents := by
  obtain ⟨startOdometer, hstart, ho⟩ := h.measured row hrow r hr
  obtain ⟨_, hstart', ho'⟩ := h.measured row hrow r' hr'
  obtain rfl := Option.some.inj (hstart.symm.trans hstart')
  rw [ho, ho', Booking.overageAt, Booking.overageAt, Domain.computeOverageCents_eq_iff,
    Booking.CostAlike, hstart]
  simp

/-- The payment of a completed booking was charged for the first return, and its row shows the
last. -/
theorem overageAgreed_iff {s : SagaState} (h : Metered (s.view b)) (hcoh : Coherent b (s.view b))
    (hrow : s.booking.getById b = some row) (hstatus : row.status = .completed) :
    OverageAgreed s b row ↔ ∀ first last,
      (returns (s.booking.view b).log).head? = some first →
      (returns (s.booking.view b).log).getLast? = some last →
      first.overageCents = last.overageCents := by
  obtain ⟨payment, hp, hcaptured⟩ := hcoh.completed hrow hstatus
  have hfound : s.payment.getByBookingId b = some payment := hp
  have hend := (hcoh.takenBack_of_settled hrow hp (.inl hcaptured)).2
  obtain ⟨hshown, hoverage⟩ := h.shown row hrow
  have hcharged := h.charged payment hp hcaptured
  have hmeasured := h.measured row hrow
  rw [show (s.view b).booking = s.booking.view b from rfl] at hshown hoverage hcharged hmeasured
  generalize returns (s.booking.view b).log = rs at hshown hoverage hcharged hmeasured ⊢
  obtain ⟨first, hfirst, hcharged⟩ := Option.map_eq_some_iff.mp hcharged
  cases hlast : rs.getLast? with
  | none =>
    rw [hshown, hlast] at hend
    cases hend
  | some last =>
    rw [hlast] at hshown hoverage
    simp only [Option.map_some, Option.getD_some] at hshown hoverage
    constructor
    · rintro ⟨payment', _, _, hfound', -, -, hagreed, -⟩ _ _ hfirst' hlast'
      obtain rfl := Option.some.inj (hfound.symm.trans hfound')
      obtain rfl := Option.some.inj (hfirst.symm.trans hfirst')
      obtain rfl := Option.some.inj hlast'
      rw [hcharged, hagreed, hoverage]
    · intro heq
      obtain ⟨startOdometer, hstart, ho⟩ := hmeasured last (List.mem_of_getLast? hlast)
      have hpaid : payment.overageCents = row.overageCents := by
        rw [← hcharged, heq first last hfirst rfl, hoverage]
      refine ⟨payment, startOdometer, last.odometer, hfound, hstart, hshown, hpaid, ?_,
        hoverage.trans ho⟩
      have hbooked := hcoh.booked row payment hrow hp
      rw [Payment.Booked, if_pos hcaptured, hcoh.id row hrow, hpaid] at hbooked
      simp only [chargePair_eq, hcoh.renter row payment hrow hp] at hbooked
      have hledger : s.payment.ledgerEntries.filter (fun entry =>
          entry.bookingId = b ∧ entry.reason = .mileageOverage) =
            (s.view b).payment.ledger.filter (fun entry => entry.reason = .mileageOverage) := by
        simp [SagaState.view, PaymentDb.view, List.filter_filter, Bool.and_comm]
      rw [hledger, hbooked.2]
      by_cases hpos : 0 < row.overageCents <;>
        simp [hpos, renterDebit, hostCredit]

/-- A booking is completed already, or the step is the reaction that completes it. -/
theorem ViewStep.completed_cases (h : ViewStep b v tr v') {row' : Booking}
    (hrow' : v'.booking.row = some row') (hstatus : row'.status = .completed) :
    v'.booking = v.booking ∨ ∃ row, v.booking.row = some row ∧ row.status = .active ∧
      row' = row.settle 2 .completed ∧ returns v'.booking.log = returns v.booking.log := by
  cases h with
  | idle => exact .inl rfl
  | handled => exact .inl rfl
  | performed op w hop hid heffect =>
    obtain rfl : w.booking = row' := Option.some.inj hrow'
    cases heffect with
    | opened => cases hstatus
    | operated _ _ row hrow hacc =>
      cases hacc with
      | complete => cases hop
      | _ => cases hstatus
  | reacted eventType rest w hqueue heffect =>
    obtain rfl : w.booking = row' := Option.some.inj hrow'
    obtain ⟨row, hrow, hacc⟩ := heffect.accepts (creates_paymentEventHandlers _)
    generalize paymentEventHandlers ⟨eventType, b⟩ = op at hacc
    cases hacc with
    | complete _ hs =>
      exact .inr ⟨row, hrow, hs, rfl, (returns_append _ _).trans (List.append_nil _)⟩
    | _ => cases hstatus

theorem SagaOk.completed_cases {s s' : SagaState} (hok : SagaOk s) {a : SagaAction}
    (hstep : SagaStep s a s') {row' : Booking} (hrow' : s'.booking.getById b = some row')
    (hstatus : row'.status = .completed) :
    s'.booking.view b = s.booking.view b ∨ ∃ row, s.booking.getById b = some row ∧
      row.status = .active ∧ row' = row.settle 2 .completed ∧
        returns (s'.booking.view b).log = returns (s.booking.view b).log := by
  obtain ⟨tr, hview, -⟩ := hok.step_view hstep b
  exact hview.completed_cases hrow' hstatus

/-- **Overage settlement.** In a run where Stripe accepts every charge, both sides agree on the
overage of every completed booking, in every state, exactly if no booking is completed whose first
and last return cost differently. -/
theorem overage_settled_iff {s : SagaState} {run : List (SagaState × SagaAction)}
    (h : sagaSystem.Exec sagaSystem.init run s) (hstripe : ∀ x ∈ run, x.2.Accepting) :
    TransitionSystem.Throughout OverageSettled run s ↔
      ∀ x ∈ run, ∀ b, Completes x.1 x.2 b → ReturnsAgree (x.1.booking.view b) := by
  refine h.forall_iff_where (fun _ a => a.Accepting) OverageSettled
    (fun s a => ∀ b, Completes s a b → ReturnsAgree (s.booking.view b)) (fun b row hrow => ?_)
    (fun s a s' hreach hacc hP hstep => ?_) hstripe
  · cases hrow
  have hok := sagaOk_of_reachable hreach.reachable
  have hmetered := metered_of_reachable (hreach.step hacc hstep)
  have hcoh := coherent_of_reachable (hreach.reachable.step hstep)
  constructor
  · rintro hP' b ⟨⟨s'', row', hstep'', hrow', hs⟩, hnot⟩ row first last hrow hfirst hlast
    obtain rfl : s' = s'' := Option.some.inj (hstep.symm.trans hstep'')
    rcases hok.completed_cases (sagaStep_cases hstep) hrow' hs with
      hsame | ⟨row₀, hrow₀, hactive, rfl, hreturns⟩
    · exact absurd ⟨row', (congrArg BookingView.row hsame).symm.trans hrow', hs⟩ hnot
    · obtain rfl : row₀ = row := Option.some.inj (hrow₀.symm.trans hrow)
      rw [← hreturns] at hfirst hlast
      have hequal := (overageAgreed_iff (hmetered b) (hcoh b) hrow' hs).mp (hP' b _ hrow' hs)
        first last hfirst hlast
      -- completing leaves alone what the cost of a return is computed from
      exact ((hmetered b).costAlike_iff hrow' (List.mem_of_head? hfirst)
        (List.mem_of_getLast? hlast)).mpr hequal
  · intro hagree b row' hrow' hs
    rw [overageAgreed_iff (hmetered b) (hcoh b) hrow' hs]
    intro first last hfirst hlast
    rcases hok.completed_cases (sagaStep_cases hstep) hrow' hs with
      hsame | ⟨row, hrow, hactive, rfl, hreturns⟩
    · have hrow : s.booking.getById b = some row' :=
        (congrArg BookingView.row hsame).symm.trans hrow'
      rw [hsame] at hfirst hlast
      exact (overageAgreed_iff (metered_of_reachable hreach b)
        (coherent_of_reachable hreach.reachable b) hrow hs).mp (hP b row' hrow hs) first last
        hfirst hlast
    · have hcompletes : Completes s a b := by
        refine ⟨⟨s', _, hstep, hrow', hs⟩, ?_⟩
        rintro ⟨row₁, hrow₁, hs₁⟩
        obtain rfl := Option.some.inj (hrow.symm.trans hrow₁)
        rw [hactive] at hs₁
        cases hs₁
      refine ((hmetered b).costAlike_iff hrow' (List.mem_of_head? hfirst)
        (List.mem_of_getLast? hlast)).mp ?_
      rw [hreturns] at hfirst hlast
      exact hagree b hcompletes row first last hrow hfirst hlast

/-- A booking that is returned once at most has returns that agree. -/
theorem returnsAgree_of_length_le_one {db : BookingDb}
    (h : (returns (db.bookingEvents.map (·.event))).length ≤ 1) : ReturnsAgree (db.view b) := by
  intro row first last _ hfirst hlast
  have hsub : (returns (db.view b).log).Sublist (returns (db.bookingEvents.map (·.event))) :=
    (List.filter_sublist.map _).filterMap _
  have hle := le_trans hsub.length_le h
  match returns (db.view b).log, hle, hfirst, hlast with
  | [_], _, hfirst, hlast =>
    obtain rfl := Option.some.inj hfirst
    obtain rfl := Option.some.inj hlast
    exact .inl rfl

/-- The sample trip is returned once, and its 100 miles of overage are charged at 50 cents each. -/
theorem overage_settled_iff_sampleTrip :
    ∃ s run, sagaSystem.Exec sagaSystem.init run s ∧ run.map Prod.snd = sampleTrip ∧
      (s.booking.getById 0).map (fun row => (row.status, row.overageCents)) =
        some (.completed, 5000) ∧
      s.payment.ledgerEntries.filter (·.reason = .mileageOverage) =
        [⟨0, 0, .renter 2, .debit, 5000, .mileageOverage⟩,
          ⟨0, 0, .host 1, .credit, 5000, .mileageOverage⟩] ∧
      (∀ x ∈ run, ∀ b, Completes x.1 x.2 b → ReturnsAgree (x.1.booking.view b)) ∧
      TransitionSystem.Throughout OverageSettled run s := by
  have hend : (sagaSystem.run {} sampleTrip).map (fun s =>
      ((s.booking.getById 0).map fun row => (row.status, row.overageCents),
        s.payment.ledgerEntries.filter (·.reason = .mileageOverage))) =
      some (some (.completed, 5000), [⟨0, 0, .renter 2, .debit, 5000, .mileageOverage⟩,
        ⟨0, 0, .host 1, .credit, 5000, .mileageOverage⟩]) := by decide
  obtain ⟨s, hrun, hs⟩ := Option.map_eq_some_iff.mp hend
  obtain ⟨hbooking, hentries⟩ := Prod.mk.inj hs
  have hexec := TransitionSystem.exec_steps hrun
  have has := TransitionSystem.map_snd_steps hrun
  have hall : ∀ a ∈ sampleTrip, a.Accepting := by simp [sampleTrip, SagaAction.Accepting]
  have honce : ∀ x ∈ sagaSystem.steps {} sampleTrip,
      (returns (x.1.booking.bookingEvents.map (·.event))).length ≤ 1 := by decide
  have hagree : ∀ x ∈ sagaSystem.steps {} sampleTrip, ∀ b, Completes x.1 x.2 b →
      ReturnsAgree (x.1.booking.view b) := fun x hx b _ =>
    returnsAgree_of_length_le_one (honce x hx)
  exact ⟨s, _, hexec, has, hbooking, hentries, hagree,
    (overage_settled_iff hexec fun x hx => hall x.2 (has ▸ List.mem_map_of_mem hx)).mpr hagree⟩

/-- The sample trip, with a second return recorded once the first has been charged. -/
def sampleSecondReturn : List SagaAction :=
  sampleTrip.dropLast ++ [.perform (.recordReturn 0 1 (sampleHandover 1900)),
    .deliverPaymentEvent 1]

theorem overage_differs_after_second_return :
    ∃ s run row, sagaSystem.Exec sagaSystem.init run s ∧ run.map Prod.snd = sampleSecondReturn ∧
      (∀ x ∈ run, x.2.Accepting) ∧ s.booking.getById 0 = some row ∧ row.status = .completed ∧
      ¬ OverageAgreed s 0 row := by
  have hend : (sagaSystem.run {} sampleSecondReturn).map (fun s =>
      ((s.booking.getById 0).map fun row => (row.status, row.overageCents),
        (s.payment.getByBookingId 0).map (·.overageCents))) =
        some (some (.completed, 15000), some 5000) := by decide
  obtain ⟨s, hrun, hs⟩ := Option.map_eq_some_iff.mp hend
  obtain ⟨hbooking, hpayment⟩ := Prod.mk.inj hs
  obtain ⟨row, hrow, hr⟩ := Option.map_eq_some_iff.mp hbooking
  obtain ⟨hstatus, hoverage⟩ := Prod.mk.inj hr
  obtain ⟨payment, hp, hcharged⟩ := Option.map_eq_some_iff.mp hpayment
  obtain ⟨tr, hexec, has⟩ := TransitionSystem.exec_of_run hrun
  have hall : ∀ a ∈ sampleSecondReturn, a.Accepting := by
    simp [sampleSecondReturn, sampleTrip, SagaAction.Accepting]
  refine ⟨s, tr, row, hexec, has, fun x hx => hall x.2 (has ▸ List.mem_map_of_mem hx), hrow,
    hstatus, ?_⟩
  rintro ⟨payment', _, _, hp', -, -, hagreed, -⟩
  obtain rfl := Option.some.inj (hp.symm.trans hp')
  rw [hcharged, hoverage] at hagreed
  exact absurd hagreed (by decide)

end Metered

end CarFlow
