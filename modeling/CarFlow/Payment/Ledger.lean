import CarFlow.Lib.TransitionSystem
import CarFlow.Payment.Consumers

/-!
# The payment database under arbitrary commands

The two handlers of the payment service, on their own: nothing about where the commands come from.
Commands arrive for any bookings, with any amounts, in any order and any number of times, Stripe
answers each call as it likes, and each transaction commits whole or not at all.

## Implementation notes

The module knows nothing of bookings: a stream of commands is any list, and what is shown holds of
it alone. The statements spell out the entries of the ledger by account, direction, amount and
reason, since the pair that the repository writes is what is to be checked. `enteredIn` reads the
statuses that a payment has gone through off the databases of the run, and the events of the outbox
are compared with these.

## Main results

* `PaymentView.Accounted.step` — a handler keeps the ledger of a booking what its payment says
* `CommandEffect.entered` — and writes one event for each status it puts the payment in
* `ledger_matches_payments` — **after every stream of commands** there is at most one payment for a
  booking, its status went the one way, the ledger is what the payment says and balances, and the
  outbox tells each status the payment has been in once
-/

namespace CarFlow

/-! ### The system -/

/-- A command, with Stripe's answers, and whether its transaction gets to its commit. -/
structure PaymentCommand where
  message : BookingMessage
  stripe : StripeCall → StripeReply
  commits : Bool := true

/-- Handle one command. -/
def paymentStep (db : PaymentDb) (command : PaymentCommand) : Option PaymentDb := do
  let handler ← bookingCommandHandlers command.message
  some (if command.commits then committed db ((handler db).run command.stripe) else db)

/-- The payment database, from an empty one. -/
def paymentSystem : TransitionSystem PaymentDb PaymentCommand where
  init := {}
  step := paymentStep

/-- A step changes nothing, or it is the outcome of a command. -/
theorem paymentStep_cases {db db' : PaymentDb} {command : PaymentCommand}
    (h : paymentStep db command = some db') :
    db' = db ∨ ∃ handler tr, bookingCommandHandlers command.message = some handler ∧
      (handler db).Path tr (.ok db') := by
  simp only [paymentStep, Option.bind_eq_bind, Option.bind_eq_some_iff, Option.some.injEq] at h
  obtain ⟨handler, hhandler, rfl⟩ := h
  split
  swap
  · exact .inl rfl
  cases hx : (handler db).run command.stripe with
  | error e => exact .inl rfl
  | ok db' =>
    have hpath := CallProgram.path_trace command.stripe (handler db)
    rw [hx] at hpath
    exact .inr ⟨handler, _, hhandler, hpath⟩

/-! ### Payments -/

section Payments

variable {db db' : PaymentDb} {bookingId renterId hostId : Uuid}
  {amountCents holdAmountCents overageCents : ℤ} {tr : List (StripeCall × StripeReply)}

theorem AuthorizeEffect.nodup (h : AuthorizeEffect db bookingId renterId amountCents tr db')
    (hnodup : (db.payments.map (·.bookingId)).Nodup) :
    (db'.payments.map (·.bookingId)).Nodup := by
  have hadd (payment : Payment) (hnone : db.getByBookingId payment.bookingId = none) :
      ((db.payments ++ [payment]).map (·.bookingId)).Nodup := by
    rw [List.map_append, List.nodup_append]
    refine ⟨hnodup, by simp, fun b hb b' hb' hbb => ?_⟩
    obtain ⟨p, hp, rfl⟩ := List.mem_map.mp hb
    obtain rfl : b' = payment.bookingId := by simpa using hb'
    exact RowTable.lookup_eq_none_iff.mp hnone p hp hbb
  cases h with
  | existing => exact hnodup
  | refused hnone => exact hadd _ hnone
  | held intentId hnone => exact hadd _ hnone

theorem CaptureEffect.map_bookingId
    (h : CaptureEffect db bookingId hostId holdAmountCents overageCents tr db') :
    db'.payments.map (·.bookingId) = db.payments.map (·.bookingId) := by
  cases h with
  | absent => rfl
  | settled => rfl
  | refused => exact RowTable.map_key_update _ _
  | captured => exact RowTable.map_key_update _ _
  | charged => exact (RowTable.map_key_update _ _).trans (RowTable.map_key_update _ _)

theorem nodup_payments_path {message : BookingMessage} {handler : PaymentDb → PaymentProgram}
    (hh : bookingCommandHandlers message = some handler) (h : (handler db).Path tr (.ok db'))
    (hnodup : (db.payments.map (·.bookingId)).Nodup) :
    (db'.payments.map (·.bookingId)).Nodup := by
  cases message with
  | authorizePaymentRequested bookingId renterId amountCents =>
    cases hh
    exact (handleAuthorizePaymentRequested_path h).nodup hnodup
  | capturePaymentRequested bookingId hostId holdAmountCents overageCents =>
    cases hh
    rw [(handleCapturePaymentRequested_path h).map_bookingId]
    exact hnodup
  | lifecycle => cases hh

end Payments

/-! ### The ledger

What a payment should have in the ledger, entry by entry, by its status and its overage. -/

/-- The ledger of a booking is what its payment says: if it is captured, a debit of its renter and
a credit of a host for the rental, and if there is an overage intent, a debit and a credit of the
amount the payment shows. -/
def PaymentView.Accounted (bookingId : Uuid) (v : PaymentView) : Prop :=
  match v.payment with
  | none => v.ledger = []
  | some payment => ∃ hostId holdAmountCents, v.ledger =
      (if payment.status = .captured then
        [renterDebit payment.id bookingId payment.renterId holdAmountCents .rental,
          hostCredit payment.id bookingId hostId holdAmountCents .rental] else []) ++
      (if payment.stripeOverageIntentId.isSome then
        [renterDebit payment.id bookingId payment.renterId payment.overageCents .mileageOverage,
          hostCredit payment.id bookingId hostId payment.overageCents .mileageOverage] else [])

/-- Overage is charged with the capture only. -/
def PaymentView.Uncharged (v : PaymentView) : Prop :=
  ∀ payment, v.payment = some payment → payment.status ≠ .captured →
    payment.stripeOverageIntentId = none

/-- The status of the payment, if there is one. -/
def PaymentView.status? (v : PaymentView) : Option PaymentStatus := v.payment.map (·.status)

/-- The event that tells a status. -/
def PaymentStatus.eventType : PaymentStatus → PaymentEventType
  | .authorized => .paymentAuthorized
  | .authorizationFailed => .paymentAuthorizationFailed
  | .captured => .paymentCaptured
  | .captureFailed => .paymentCaptureFailed

/-- The status a payment has after a step and not before it. -/
def enteredStatus (v v' : PaymentView) : List PaymentStatus :=
  if v'.status? = v.status? then [] else v'.status?.toList

/-- A status goes one way. -/
inductive PaymentStatus.Leads : PaymentStatus → PaymentStatus → Prop
  | refl (status : PaymentStatus) : Leads status status
  | captured : Leads .authorized .captured
  | captureFailed : Leads .authorized .captureFailed

/-- The statuses a payment has been in when it is in a status. -/
def PaymentStatus.path : PaymentStatus → List PaymentStatus
  | .authorized => [.authorized]
  | .authorizationFailed => [.authorizationFailed]
  | .captured => [.authorized, .captured]
  | .captureFailed => [.authorized, .captureFailed]

theorem PaymentStatus.nodup_path (status : PaymentStatus) : status.path.Nodup := by
  cases status <;> decide

/-- The sum of the entries of a ledger in one direction, for one reason. -/
def ledgerTotal (ledger : List LedgerEntry) (direction : Direction) (reason : LedgerReason) : ℤ :=
  ((ledger.filter fun entry => entry.direction = direction ∧ entry.reason = reason).map
    (·.amountCents)).sum

section Effect

variable {b : Uuid} {v v' : PaymentView} {message : BookingMessage}
  {tr : List (StripeCall × StripeReply)} {events : List PaymentEventType}

/-- **A handler keeps the ledger what the payment says.** -/
theorem PaymentView.Accounted.step (h : v.Accounted b) (huncharged : v.Uncharged)
    (heffect : CommandEffect b v message tr v' events) : v'.Accounted b ∧ v'.Uncharged := by
  have hauthorized {payment : Payment} (hfound : v.payment = some payment)
      (hstatus : payment.status = .authorized) :
      payment.stripeOverageIntentId = none ∧ v.ledger = [] := by
    have hnone := huncharged payment hfound (by simp [hstatus])
    rw [Accounted, hfound] at h
    obtain ⟨hostId, holdAmountCents, hledger⟩ := h
    exact ⟨hnone, by simpa [hstatus, hnone] using hledger⟩
  cases heffect with
  | announced | existing | absent | settled => exact ⟨h, huncharged⟩
  | authorizeRefused id renterId amountCents hnone =>
    rw [Accounted, hnone] at h
    refine ⟨⟨0, 0, by simp [h]⟩, fun payment hp _ => ?_⟩
    obtain rfl := Option.some.inj hp
    rfl
  | held id renterId amountCents intentId hnone =>
    rw [Accounted, hnone] at h
    refine ⟨⟨0, 0, by simp [h]⟩, fun payment hp _ => ?_⟩
    obtain rfl := Option.some.inj hp
    rfl
  | captureRefused hostId holdAmountCents overageCents payment hfound hstatus =>
    obtain ⟨hnone, hledger⟩ := hauthorized hfound hstatus
    refine ⟨⟨0, 0, by simp [hledger, hnone, Payment.withStatus]⟩, fun payment hp _ => ?_⟩
    obtain rfl := Option.some.inj hp
    exact hnone
  | captured hostId holdAmountCents overageCents payment captureId overage hfound hstatus =>
    obtain ⟨hnone, hledger⟩ := hauthorized hfound hstatus
    refine ⟨⟨hostId, holdAmountCents, ?_⟩, fun payment hp hs => ?_⟩
    · simp [hledger, hnone, Payment.withStatus, chargePair_eq]
    · obtain rfl := Option.some.inj hp
      exact absurd rfl hs
  | charged hostId holdAmountCents overageCents payment captureId overageIntentId hfound hstatus =>
    obtain ⟨hnone, hledger⟩ := hauthorized hfound hstatus
    refine ⟨⟨hostId, holdAmountCents, ?_⟩, fun payment hp hs => ?_⟩
    · simp [hledger, Payment.withStatus, Payment.withOverage, chargePair_eq]
    · obtain rfl := Option.some.inj hp
      exact absurd rfl hs

/-- A handler leaves the status alone and writes nothing, or puts the payment in the next status of
its path and writes the event of that status. -/
theorem CommandEffect.moves (h : CommandEffect b v message tr v' events) :
    v'.status? = v.status? ∧ events = [] ∨ ∃ status, v'.status? = some status ∧
      events = [status.eventType] ∧
        status.path = v.status?.elim [] PaymentStatus.path ++ [status] := by
  cases h with
  | announced | existing | absent | settled => exact .inl ⟨rfl, rfl⟩
  | authorizeRefused _ _ _ hnone | held _ _ _ _ hnone =>
    refine .inr ⟨_, rfl, rfl, ?_⟩
    simp [PaymentView.status?, hnone, PaymentStatus.path]
  | captureRefused _ _ _ payment hfound hstatus
  | captured _ _ _ payment _ _ hfound hstatus
  | charged _ _ _ payment _ _ hfound hstatus =>
    refine .inr ⟨_, rfl, rfl, ?_⟩
    simp [PaymentView.status?, hfound, hstatus, Payment.withStatus, PaymentStatus.path]

/-- A handler that moves the payment enters a status. -/
theorem enteredStatus_of_path {status : PaymentStatus} (hstatus : v'.status? = some status)
    (hpath : status.path = v.status?.elim [] PaymentStatus.path ++ [status]) :
    enteredStatus v v' = [status] := by
  have hnew : v'.status? ≠ v.status? := by
    intro hsame
    rw [← hsame, hstatus] at hpath
    have hlength := congrArg List.length hpath
    simp at hlength
  rw [enteredStatus, if_neg hnew, hstatus]
  rfl

/-- **A handler writes the event of the status it puts the payment in**, if that is a new one. -/
theorem CommandEffect.entered (h : CommandEffect b v message tr v' events) :
    events = (enteredStatus v v').map PaymentStatus.eventType := by
  rcases h.moves with ⟨hsame, rfl⟩ | ⟨status, hstatus, rfl, hpath⟩
  · rw [enteredStatus, if_pos hsame]
    rfl
  · rw [enteredStatus_of_path hstatus hpath]
    rfl

/-- The statuses a payment has been in grow by the one it enters. -/
theorem CommandEffect.path_eq (h : CommandEffect b v message tr v' events) :
    v'.status?.elim [] PaymentStatus.path =
      v.status?.elim [] PaymentStatus.path ++ enteredStatus v v' := by
  rcases h.moves with ⟨hsame, -⟩ | ⟨status, hstatus, -, hpath⟩
  · rw [hsame, enteredStatus, if_pos hsame, List.append_nil]
  · rw [enteredStatus_of_path hstatus hpath, hstatus]
    exact hpath

/-- A payment stays, and its status goes one way. -/
theorem CommandEffect.leads (h : CommandEffect b v message tr v' events) {payment : Payment}
    (hp : v.payment = some payment) :
    ∃ payment', v'.payment = some payment' ∧ payment.status.Leads payment'.status := by
  cases h with
  | announced | existing | absent | settled => exact ⟨payment, hp, .refl _⟩
  | authorizeRefused _ _ _ hnone | held _ _ _ _ hnone => cases hnone.symm.trans hp
  | captureRefused _ _ _ _ hfound hstatus =>
    obtain rfl := Option.some.inj (hfound.symm.trans hp)
    exact ⟨_, rfl, hstatus ▸ .captureFailed⟩
  | captured _ _ _ _ _ _ hfound hstatus =>
    obtain rfl := Option.some.inj (hfound.symm.trans hp)
    exact ⟨_, rfl, hstatus ▸ .captured⟩
  | charged _ _ _ _ _ _ hfound hstatus =>
    obtain rfl := Option.some.inj (hfound.symm.trans hp)
    exact ⟨_, rfl, hstatus ▸ .captured⟩

end Effect

/-! ### Balance

For each reason the debits are the credits, since every entry has its counterpart. -/

section Balance

variable {b : Uuid} {v : PaymentView}

theorem ledgerTotal_append (ledger ledger' : List LedgerEntry) (direction : Direction)
    (reason : LedgerReason) :
    ledgerTotal (ledger ++ ledger') direction reason =
      ledgerTotal ledger direction reason + ledgerTotal ledger' direction reason := by
  simp [ledgerTotal]

/-- A debit and a credit of one amount. -/
theorem ledgerTotal_pair (paymentId renterId hostId : Uuid) (amountCents : ℤ)
    (reason reason' : LedgerReason) (direction : Direction) :
    ledgerTotal [renterDebit paymentId b renterId amountCents reason,
      hostCredit paymentId b hostId amountCents reason] direction reason' =
      if reason = reason' then amountCents else 0 := by
  by_cases hr : reason = reason' <;> cases direction <;>
    simp [ledgerTotal, renterDebit, hostCredit, hr]

/-- A ledger that is what its payment says balances. -/
theorem PaymentView.Accounted.balanced (h : v.Accounted b) (reason : LedgerReason) :
    ledgerTotal v.ledger .debit reason = ledgerTotal v.ledger .credit reason := by
  unfold Accounted at h
  split at h
  · rw [h]
    rfl
  · obtain ⟨hostId, holdAmountCents, hledger⟩ := h
    rw [hledger, ledgerTotal_append, ledgerTotal_append]
    congr 1
    · split
      · rw [ledgerTotal_pair, ledgerTotal_pair]
      · rfl
    · split
      · rw [ledgerTotal_pair, ledgerTotal_pair]
      · rfl

end Balance

/-! ### Whole runs

The statuses of a payment along the databases of a run, each counted when it is entered. -/

/-- The statuses the payment of a booking enters in a sequence of states, in order. -/
def enteredIn (bookingId : Uuid) : List PaymentDb → List PaymentStatus
  | db :: db' :: dbs =>
    enteredStatus (db.view bookingId) (db'.view bookingId) ++ enteredIn bookingId (db' :: dbs)
  | _ => []

theorem enteredIn_concat (b : Uuid) (dbs : List PaymentDb) (db db' : PaymentDb) :
    enteredIn b (dbs ++ [db] ++ [db']) =
      enteredIn b (dbs ++ [db]) ++ enteredStatus (db.view b) (db'.view b) := by
  induction dbs with
  | nil => simp [enteredIn]
  | cons d dbs ih =>
    cases dbs with
    | nil => simp [enteredIn]
    | cons d' dbs =>
      simp only [List.cons_append, enteredIn] at ih ⊢
      rw [ih, List.append_assoc]

/-- What a booking has to show after a run. -/
structure PaymentDb.Kept (b : Uuid) (dbs : List PaymentDb) (db : PaymentDb) : Prop where
  ledger : (db.view b).Accounted b
  uncharged : (db.view b).Uncharged
  path : enteredIn b (dbs ++ [db]) = (db.view b).status?.elim [] PaymentStatus.path
  events : (writtenFor db.outbox b).map (·.eventType) =
    (enteredIn b (dbs ++ [db])).map PaymentStatus.eventType

section Runs

variable {db db' : PaymentDb} {dbs : List PaymentDb} {command : PaymentCommand} {b : Uuid}

theorem kept_init (b : Uuid) : PaymentDb.Kept b [] {} where
  ledger := rfl
  uncharged _ hp := by cases hp
  path := rfl
  events := rfl

/-- A step that the booking does not see. -/
theorem PaymentDb.Kept.unseen (h : PaymentDb.Kept b dbs db) (hview : db'.view b = db.view b)
    (hwritten : writtenFor db'.outbox b = writtenFor db.outbox b) :
    PaymentDb.Kept b (dbs ++ [db]) db' := by
  have hentered : enteredIn b (dbs ++ [db] ++ [db']) = enteredIn b (dbs ++ [db]) := by
    rw [enteredIn_concat, hview, enteredStatus, if_pos rfl, List.append_nil]
  refine ⟨hview ▸ h.ledger, hview ▸ h.uncharged, ?_, ?_⟩
  · rw [hentered, hview, h.path]
  · rw [hentered, hwritten, h.events]

theorem PaymentDb.Kept.outcome (h : PaymentDb.Kept b dbs db) {message : BookingMessage}
    {tr : List (StripeCall × StripeReply)} (hout : CommandOutcome db message tr db') :
    PaymentDb.Kept b (dbs ++ [db]) db' := by
  obtain ⟨events, heffect, houtbox⟩ := hout.effect
  by_cases hb : message.bookingId = b
  · subst hb
    obtain ⟨hledger, huncharged⟩ := h.ledger.step h.uncharged heffect
    refine ⟨hledger, huncharged, ?_, ?_⟩
    · rw [enteredIn_concat, heffect.path_eq, h.path]
    · rw [houtbox, writtenFor_writeAll, if_pos rfl, enteredIn_concat, List.map_append,
        List.map_append, h.events, ← heffect.entered, List.map_map]
      simp [Function.comp_def]
  · refine h.unseen (hout.others b hb) ?_
    rw [houtbox, writtenFor_writeAll, if_neg hb, List.append_nil]

end Runs

/-- **The ledger is what the payments say**, after every stream of commands. No booking has two
payments. A payment stays, and its status goes from `authorized` to `captured` or `capture_failed`
or nowhere. The ledger entries of a booking are a debit of the renter and a credit of the host for
the rental if the payment is captured, and a debit and a credit of the payment's overage if there is
an overage intent; for each reason its debits are its credits. Its outbox rows are the events of the
statuses its payment entered in the run, one for each. -/
theorem ledger_matches_payments {steps : List (PaymentDb × PaymentCommand)} {db : PaymentDb}
    (h : paymentSystem.Exec paymentSystem.init steps db) :
    (db.payments.map (·.bookingId)).Nodup ∧
    (∀ x ∈ steps, ∀ db', paymentSystem.step x.1 x.2 = some db' → ∀ b payment,
      x.1.getByBookingId b = some payment → ∃ payment', db'.getByBookingId b = some payment' ∧
        payment.status.Leads payment'.status) ∧
    (∀ b, (db.view b).Accounted b) ∧
    (∀ b reason, ledgerTotal (db.view b).ledger .debit reason =
      ledgerTotal (db.view b).ledger .credit reason) ∧
    (∀ row ∈ db.outbox, row.payload.bookingId = row.aggregateId) ∧
    ∀ b, (enteredIn b (steps.map Prod.fst ++ [db])).Nodup ∧
      (writtenFor db.outbox b).map (·.eventType) =
        (enteredIn b (steps.map Prod.fst ++ [db])).map PaymentStatus.eventType := by
  have hkept : (db.payments.map (·.bookingId)).Nodup ∧
      (∀ row ∈ db.outbox, row.payload.bookingId = row.aggregateId) ∧
      ∀ b, PaymentDb.Kept b (steps.map Prod.fst) db := by
    induction h with
    | nil => exact ⟨List.nodup_nil, fun _ hrow => (by cases hrow), kept_init⟩
    | snoc hexec hstep ih =>
      obtain ⟨hnodup, habout, hkept⟩ := ih
      rw [List.map_append]
      rcases paymentStep_cases hstep with rfl | ⟨handler, tr, hhandler, hpath⟩
      · exact ⟨hnodup, habout, fun b => (hkept b).unseen rfl rfl⟩
      have hout := bookingCommandHandlers_path hhandler hpath
      refine ⟨nodup_payments_path hhandler hpath hnodup, fun row hrow => ?_,
        fun b => (hkept b).outcome hout⟩
      obtain ⟨events, -, houtbox⟩ := hout.effect
      rcases mem_writeAll (houtbox ▸ hrow) with hrow | ⟨hk, hp⟩
      · exact habout row hrow
      · obtain ⟨eventType, -, hp⟩ := List.mem_map.mp hp
        rw [← hp, hk]
  obtain ⟨hnodup, habout, hkept⟩ := hkept
  refine ⟨hnodup, fun x hx db' hstep b payment hp => ?_, fun b => (hkept b).ledger,
    fun b reason => (hkept b).ledger.balanced reason, habout, fun b => ⟨?_, (hkept b).events⟩⟩
  · rcases paymentStep_cases hstep with rfl | ⟨handler, tr, hhandler, hpath⟩
    · exact ⟨payment, hp, .refl _⟩
    have hout := bookingCommandHandlers_path hhandler hpath
    by_cases hb : x.2.message.bookingId = b
    · subst hb
      obtain ⟨events, heffect, -⟩ := hout.effect
      exact heffect.leads hp
    · have hview := congrArg PaymentView.payment (hout.others b hb)
      exact ⟨payment, hview.trans hp, .refl _⟩
  · rw [(hkept b).path]
    cases (db.view b).status? with
    | none => exact List.nodup_nil
    | some status => exact status.nodup_path

/-- A hold, a capture with overage that is rolled back and repeated, and a contradictory one. -/
def sampleCommands : List PaymentCommand :=
  [⟨.authorizePaymentRequested 0 2 15000, fun _ => .returned "pi_hold", true⟩,
    ⟨.capturePaymentRequested 0 1 15000 5000, fun _ => .returned "pi_overage", false⟩,
    ⟨.capturePaymentRequested 0 1 15000 5000, fun _ => .returned "pi_overage", true⟩,
    ⟨.capturePaymentRequested 0 1 20000 0, fun _ => .stripeError, true⟩]

theorem ledger_matches_payments_sampleCommands :
    ∃ db, paymentSystem.run {} sampleCommands = some db ∧
      (writtenFor db.outbox 0).map (·.eventType) = [.paymentAuthorized, .paymentCaptured] ∧
      db.ledgerEntries = [⟨0, 0, .renter 2, .debit, 15000, .rental⟩,
        ⟨0, 0, .host 1, .credit, 15000, .rental⟩, ⟨0, 0, .renter 2, .debit, 5000, .mileageOverage⟩,
        ⟨0, 0, .host 1, .credit, 5000, .mileageOverage⟩] ∧
      (db.payments.map (·.bookingId)).Nodup ∧ (db.view 0).Accounted 0 ∧
      ledgerTotal (db.view 0).ledger .debit .rental = ledgerTotal (db.view 0).ledger .credit .rental
    := by
  have hend : (paymentSystem.run {} sampleCommands).map (fun db =>
      ((writtenFor db.outbox 0).map (·.eventType), db.ledgerEntries)) =
        some ([.paymentAuthorized, .paymentCaptured], [⟨0, 0, .renter 2, .debit, 15000, .rental⟩,
          ⟨0, 0, .host 1, .credit, 15000, .rental⟩,
          ⟨0, 0, .renter 2, .debit, 5000, .mileageOverage⟩,
          ⟨0, 0, .host 1, .credit, 5000, .mileageOverage⟩]) := by decide
  obtain ⟨db, hrun, hs⟩ := Option.map_eq_some_iff.mp hend
  obtain ⟨hwritten, hentries⟩ := Prod.mk.inj hs
  obtain ⟨steps, hexec, -⟩ := TransitionSystem.exec_of_run hrun
  obtain ⟨hnodup, -, haccounted, hbalanced, -⟩ := ledger_matches_payments hexec
  exact ⟨db, hrun, hwritten, hentries, hnodup, haccounted 0, hbalanced 0 .rental⟩

end CarFlow
