import CarFlow.Payment.Crashes

/-!
# Responses that are lost

A call to Stripe can end in a third way: it is carried out, and its response is lost. The client
turns the connection error into `StripeError`, as it does with a refusal, so the handlers cannot
tell the two apart. They record a failure, tell the booking so, and do not ask again.

The system is the payment consumer of `consumerSystem`, with two more ways for a call to end: the
response is lost, or the request is. In both the handler goes on as after an error. A handler that
is started again makes the same calls with the same keys, and may then be told what it missed.

## Implementation notes

`seen` is what the handler in hand has been told, while `stripe` is what Stripe has done. In the
system of `Payment.Crashes` the two agree, and here they may not: the result compares them. The
handlers are programs over `StripeCall`, so that a lost response needs no change to them: the
continuation is given `stripeError` where Stripe has recorded something else.

The condition `CommitsKnown` speaks of `seen` at a commit. A handler that has seen a failure and is
then rolled back, or crashes, has recorded nothing, and what it asks for again has the same key.

## Main results

* `LossyOk.step` — the invariant: what the handler in hand has seen, and who has charged an overage
* `failures_real_iff` — the recorded failures are real in exactly the runs in which no handler
  commits that has seen a call fail which Stripe has carried out
-/

namespace CarFlow

/-! ### The consumer and a lossy Stripe -/

/-- The payment consumer, and the calls of the attempt in hand with the replies that its handler
has seen. Nothing reads these. -/
structure LossyState extends ConsumerState where
  seen : List (StripeCall × StripeReply) := []

inductive LossyAction
  | consumer (a : ConsumerAction)
  /-- Stripe has an answer to the call the handler is at, and the handler does not get it. -/
  | loseResponse (outcome : StripeReply)
  /-- Stripe does not get the call the handler is at. -/
  | loseRequest

/-- What the handler in hand has seen after a step of the consumer. -/
def seenAfter (s : LossyState) : ConsumerAction → List (StripeCall × StripeReply)
  | .fetch _ | .crash => []
  | .answer outcome =>
    match s.inHand with
    | some (_, .handling (.call c _)) =>
      s.seen ++ [(c, (CallProgram.respond StripeCall.idempotencyKey s.stripe c outcome).1)]
    | _ => s.seen
  | .publish _ | .commit | .commitOffset => s.seen

/-- The handler goes on after an error, and Stripe has done what it has. -/
def LossyState.raise (s : LossyState) (row : OutboxRow BookingMessage) (c : StripeCall)
    (next : StripeReply → PaymentProgram) (stripe : List (StripeCall × StripeReply)) :
    LossyState :=
  { s with
    stripe
    inHand := some (row, .handling (next .stripeError))
    seen := s.seen ++ [(c, .stripeError)] }

/-- One step. -/
def lossyStep (s : LossyState) : LossyAction → Option LossyState
  | .consumer a => do
    let consumer ← consumerStep s.toConsumerState a
    some { toConsumerState := consumer, seen := seenAfter s a }
  | .loseResponse outcome =>
    match s.inHand with
    | some (row, .handling (.call c next)) =>
      some (s.raise row c next
        (CallProgram.respond StripeCall.idempotencyKey s.stripe c outcome).2)
    | _ => none
  | .loseRequest =>
    match s.inHand with
    | some (row, .handling (.call c next)) => some (s.raise row c next s.stripe)
    | _ => none

/-- The payment consumer, with a Stripe that may be hard to hear. -/
def lossySystem : TransitionSystem LossyState LossyAction where
  init := {}
  step := lossyStep

/-- The ways a step can go. However a call ends, it is the only one Stripe can have carried out. -/
inductive LossyStep (s : LossyState) : LossyAction → LossyState → Prop
  | published (message : BookingMessage) : LossyStep s (.consumer (.publish message))
      { s with topic := writeOutboxEvent s.topic message.bookingId message }
  | fetched (i : ℕ) (row : OutboxRow BookingMessage) (hi : s.topic[i]? = some row)
      (he : EarlierClaimed s.topic s.offsets i row) (hu : row.id ∉ s.offsets) :
      LossyStep s (.consumer (.fetch i)) { s with
        inHand := some (row, .handling (processCommand row s.db))
        attempts := s.attempts ++ [row]
        seen := [] }
  | replied (a : LossyAction) (row : OutboxRow BookingMessage) (c : StripeCall)
      (next : StripeReply → PaymentProgram) (r : StripeReply)
      (stripe : List (StripeCall × StripeReply)) (ha : a ≠ .consumer .commit)
      (hhand : s.inHand = some (row, .handling (.call c next)))
      (hstripe : ∀ e ∈ stripe, e ∈ s.stripe ∨ e.1 = c) :
      LossyStep s a { s with
        stripe, inHand := some (row, .handling (next r)), seen := s.seen ++ [(c, r)] }
  | committed (row : OutboxRow BookingMessage) (db : PaymentDb)
      (hhand : s.inHand = some (row, .handling (.done (.ok db)))) :
      LossyStep s (.consumer .commit) { s with db, inHand := some (row, .processed) }
  | finished (row : OutboxRow BookingMessage) (hhand : s.inHand = some (row, .processed)) :
      LossyStep s (.consumer .commitOffset)
        { s with offsets := row.id :: s.offsets, inHand := none }
  | crashed : LossyStep s (.consumer .crash) { s with inHand := none, seen := [] }

theorem lossyStep_cases {s s' : LossyState} {a : LossyAction} (h : lossyStep s a = some s') :
    LossyStep s a s' := by
  cases a with
  | consumer a =>
    simp only [lossyStep, Option.bind_eq_bind, Option.bind_eq_some_iff] at h
    obtain ⟨consumer, hstep, h⟩ := h
    cases h
    cases a with
    | publish message =>
      cases hstep
      exact .published message
    | fetch i =>
      simp only [consumerStep, Option.bind_eq_bind, Option.bind_eq_some_iff] at hstep
      obtain ⟨row, hi, hstep⟩ := hstep
      split at hstep
      · rename_i hguard
        cases hstep
        exact .fetched i row hi hguard.2.1 hguard.2.2
      · cases hstep
    | answer outcome =>
      simp only [consumerStep] at hstep
      split at hstep
      · rename_i row c next hhand
        cases hstep
        simp only [seenAfter, hhand]
        exact .replied _ row c next _ _ (by simp) hhand fun e he => CallProgram.mem_respond he
      · cases hstep
    | commit =>
      simp only [consumerStep] at hstep
      split at hstep
      · rename_i row db hhand
        cases hstep
        exact .committed row db hhand
      · cases hstep
    | commitOffset =>
      simp only [consumerStep] at hstep
      split at hstep
      · rename_i row hhand
        cases hstep
        exact .finished row hhand
      · cases hstep
    | crash =>
      cases hstep
      exact .crashed
  | loseResponse outcome =>
    simp only [lossyStep] at h
    split at h
    · rename_i row c next hhand
      cases h
      exact .replied _ row c next _ _ (by simp) hhand fun e he => CallProgram.mem_respond he
    · cases h
  | loseRequest =>
    simp only [lossyStep] at h
    split at h
    · rename_i row c next hhand
      cases h
      exact .replied _ row c next _ _ (by simp) hhand fun e he => .inl he
    · cases h

/-! ### Failures that are real

A recorded failure is compared with what Stripe has done under the key of the call. -/

/-- Stripe has carried out the call with this key. -/
def CarriedOut (stripe : List (StripeCall × StripeReply)) (key : IdempotencyKey) : Prop :=
  ∃ e ∈ stripe, e.1.idempotencyKey = key ∧ ∃ intentId, e.2 = .returned intentId

/-- The failure that a payment records is one: no hold, no capture, no charge of the overage. -/
def Payment.FailureReal (payment : Payment) (bookingId : Uuid)
    (stripe : List (StripeCall × StripeReply)) : Prop :=
  match payment.status with
  | .authorizationFailed => ¬ CarriedOut stripe (.authorize bookingId)
  | .captureFailed => ¬ CarriedOut stripe (.capture bookingId)
  | .captured => payment.stripeOverageIntentId = none → ¬ CarriedOut stripe (.overage bookingId)
  | .authorized => True

/-- All recorded failures are real. -/
def FailuresReal (s : LossyState) : Prop :=
  ∀ b payment, s.db.getByBookingId b = some payment → payment.FailureReal b s.stripe

/-- No handler commits that has seen a call fail which Stripe has carried out. -/
def CommitsKnown (s : LossyState) : LossyAction → Prop
  | .consumer .commit =>
    ∀ e ∈ s.seen, e.2 = .stripeError → ¬ CarriedOut s.stripe e.1.idempotencyKey
  | _ => True

/-! ### What a handler may call -/

/-- The command asks for an overage. -/
def BookingMessage.ChargesOverage : BookingMessage → Prop
  | .capturePaymentRequested _ _ _ overageCents => 0 < overageCents
  | _ => False

/-- The calls for a message, by the payment there is. -/
def AllowedCall (payment : Option Payment) (message : BookingMessage) (c : StripeCall) : Prop :=
  c.idempotencyKey = .authorize message.bookingId ∧ payment = none ∨
    (∃ p, payment = some p ∧ p.status = .authorized) ∧
      (c.idempotencyKey = .capture message.bookingId ∨
        c.idempotencyKey = .overage message.bookingId ∧ message.ChargesOverage)

theorem BookingMessage.calls_allowed (payment : Option Payment) (message : BookingMessage) :
    (message.calls payment).Calls (AllowedCall payment message) := by
  cases message with
  | authorizePaymentRequested bookingId renterId amountCents =>
    cases payment with
    | some _ => trivial
    | none => exact ⟨.inl ⟨rfl, rfl⟩, fun _ => trivial⟩
  | capturePaymentRequested bookingId hostId holdAmountCents overageCents =>
    cases payment with
    | none => trivial
    | some payment =>
      simp only [BookingMessage.calls]
      split
      · trivial
      · rename_i hs
        have hauthorized : ∃ p, some payment = some p ∧ p.status = .authorized :=
          ⟨payment, rfl, not_not.mp hs⟩
        refine ⟨.inr ⟨hauthorized, .inl rfl⟩, fun r => ?_⟩
        cases r with
        | stripeError => trivial
        | returned captureId =>
          dsimp only
          split
          · rename_i hcharge
            exact ⟨.inr ⟨hauthorized, .inr ⟨rfl, hcharge.2.2⟩⟩, fun _ => trivial⟩
          · trivial
  | lifecycle => trivial

/-! ### The invariant

What the handler in hand has seen is a way through its program, and for each reply that it was given
Stripe has that one on record, or the reply is an error. -/

/-- A command of a booking that asks for an overage is being handled. -/
def LossyState.Charging (s : LossyState) (b : Uuid) : Prop :=
  ∃ row, s.Reached row ∧ row.aggregateId = b ∧ row.id ∉ s.db.inbox ∧ row.payload.ChargesOverage

/-- **The invariant.** -/
structure LossyOk (s : LossyState) : Prop where
  ids : s.topic.map (·.id) = List.range s.topic.length
  keys : ∀ row ∈ s.topic, row.payload.bookingId = row.aggregateId
  offsets : ∀ eventId ∈ s.offsets, eventId ∈ s.db.inbox
  reached : ∀ row stage, s.inHand = some (row, stage) → s.Reached row
  processed : ∀ row, s.inHand = some (row, .processed) → row.id ∈ s.db.inbox
  /-- The handler of a record that was claimed before has nothing left to do. -/
  claimed : ∀ row p, s.inHand = some (row, .handling p) → row.id ∈ s.db.inbox →
    p = .done (.ok s.db) ∧ s.seen = []
  /-- The handler in hand has got where it is by what it has seen. -/
  handling : ∀ row p, s.inHand = some (row, .handling p) → row.id ∉ s.db.inbox →
    (processCommand row s.db).Upto s.seen p
  intents : ∀ b payment, s.db.getByBookingId b = some payment → payment.status = .authorized →
    payment.stripeOverageIntentId = none
  /-- An overage is charged for a payment, and while it is authorized, by a command that has not
  been handled yet. -/
  overages : ∀ b, CarriedOut s.stripe (.overage b) → ∃ payment,
    s.db.getByBookingId b = some payment ∧ (payment.status = .authorized → s.Charging b)

section Lossy

variable {s s' : LossyState} {a : LossyAction} {b : Uuid} {row : OutboxRow BookingMessage}

theorem lossyOk_init : LossyOk {} where
  ids := rfl
  keys _ h := by cases h
  offsets _ h := by cases h
  reached _ _ h := by cases h
  processed _ h := by cases h
  claimed _ _ h := by cases h
  handling _ _ h := by cases h
  intents _ _ h := by cases h
  overages _ h := by
    obtain ⟨e, he, -⟩ := h
    cases he

theorem CarriedOut.of_mem {stripe stripe' : List (StripeCall × StripeReply)} {c : StripeCall}
    {key : IdempotencyKey} (h : CarriedOut stripe' key)
    (hstripe : ∀ e ∈ stripe', e ∈ stripe ∨ e.1 = c) :
    CarriedOut stripe key ∨ c.idempotencyKey = key := by
  obtain ⟨e, he, hkey, hreturned⟩ := h
  rcases hstripe e he with he | rfl
  · exact .inl ⟨e, he, hkey, hreturned⟩
  · exact .inr hkey

theorem LossyOk.mem_topic (h : LossyOk s) {stage : Stage} (hhand : s.inHand = some (row, stage)) :
    row ∈ s.topic := by
  obtain ⟨i, hi, -⟩ := h.reached row stage hhand
  exact List.mem_of_getElem? hi

/-- The call of a handler in hand is allowed. -/
theorem LossyOk.allowed (h : LossyOk s) {c : StripeCall} {next : StripeReply → PaymentProgram}
    (hhand : s.inHand = some (row, .handling (.call c next))) :
    row.id ∉ s.db.inbox ∧
      AllowedCall (s.db.getByBookingId row.aggregateId) row.payload c := by
  have hu : row.id ∉ s.db.inbox := fun hin => by cases (h.claimed row _ hhand hin).1
  have hcalls := BookingMessage.calls_allowed (s.db.getByBookingId row.payload.bookingId)
    row.payload
  rw [← processCommand_calls hu] at hcalls
  have hc := ((CallProgram.Calls.of_map _ hcalls).upto (h.handling row _ hhand hu)).1.1
  rw [h.keys row (h.mem_topic hhand)] at hc
  exact ⟨hu, hc⟩

/-! ### Each step keeps the invariant -/

/-- A step that leaves the database, Stripe and the offsets alone. -/
theorem LossyState.Charging.mono (h : s.Charging b) (hinbox : s'.db.inbox = s.db.inbox)
    (hreached : ∀ row, s.Reached row → s'.Reached row) : s'.Charging b := by
  obtain ⟨row, hrow, hb, hu, hcharges⟩ := h
  exact ⟨row, hreached row hrow, hb, hinbox ▸ hu, hcharges⟩

theorem LossyOk.publish (h : LossyOk s) (message : BookingMessage) :
    LossyOk { s with topic := writeOutboxEvent s.topic message.bookingId message } := by
  refine { h with ids := map_id_writeAll h.ids message.bookingId [message]
                  keys := List.forall_mem_append.mpr ⟨h.keys, by simp⟩
                  reached := fun row stage hhand => (h.reached row stage hhand).publish message
                  overages := fun b hcarried => ?_ }
  obtain ⟨payment, hfound, hcharging⟩ := h.overages b hcarried
  exact ⟨payment, hfound, fun hs => (hcharging hs).mono rfl fun _ hr => hr.publish message⟩

theorem LossyOk.fetch (h : LossyOk s) {i : ℕ} (hi : s.topic[i]? = some row)
    (he : EarlierClaimed s.topic s.offsets i row) :
    LossyOk { s with
      inHand := some (row, .handling (processCommand row s.db))
      attempts := s.attempts ++ [row]
      seen := [] } := by
  refine { h with reached := ?_, processed := ?_, claimed := ?_, handling := ?_ }
  · intro row' stage hhand
    cases hhand
    exact ⟨i, hi, he⟩
  · intro row' hhand
    cases hhand
  · intro row' p hhand hin
    cases hhand
    exact ⟨processCommand_of_mem hin, rfl⟩
  · intro row' p hhand hu
    cases hhand
    exact .refl _

/-- A call ends, one way or the other. -/
theorem LossyOk.reply (h : LossyOk s) {c : StripeCall} {next : StripeReply → PaymentProgram}
    (hhand : s.inHand = some (row, .handling (.call c next))) (r : StripeReply)
    {stripe : List (StripeCall × StripeReply)} (hstripe : ∀ e ∈ stripe, e ∈ s.stripe ∨ e.1 = c) :
    LossyOk { s with
      stripe, inHand := some (row, .handling (next r)), seen := s.seen ++ [(c, r)] } := by
  obtain ⟨hu, hallowed⟩ := h.allowed hhand
  have hmem := h.mem_topic hhand
  refine { h with reached := ?_, processed := ?_, claimed := ?_, handling := ?_
                  overages := fun b hcarried => ?_ }
  · intro row' stage hhand'
    cases hhand'
    exact h.reached row _ hhand
  · intro row' hhand'
    cases hhand'
  · intro row' p hhand' hin
    cases hhand'
    exact absurd hin hu
  · intro row' p hhand' _
    cases hhand'
    exact (h.handling row _ hhand hu).snoc r
  · rcases hcarried.of_mem hstripe with hcarried | hkey
    · exact h.overages b hcarried
    -- the overage of the booking in hand is charged
    rw [AllowedCall, h.keys row hmem] at hallowed
    rcases hallowed with ⟨hauthorize, -⟩ | ⟨⟨payment, hfound, -⟩, hcapture | ⟨hoverage, hcharges⟩⟩
    · cases hkey.symm.trans hauthorize
    · cases hkey.symm.trans hcapture
    · obtain rfl := IdempotencyKey.overage.inj (hkey.symm.trans hoverage)
      exact ⟨payment, hfound, fun _ => ⟨row, h.reached row _ hhand, rfl, hu, hcharges⟩⟩

theorem LossyOk.finish (h : LossyOk s) (hhand : s.inHand = some (row, .processed)) :
    LossyOk { s with offsets := row.id :: s.offsets, inHand := none } := by
  refine { h with offsets := List.forall_mem_cons.mpr ⟨h.processed row hhand, h.offsets⟩
                  reached := fun _ _ hhand => (by cases hhand)
                  processed := fun _ hhand => (by cases hhand)
                  claimed := fun _ _ hhand => (by cases hhand)
                  handling := fun _ _ hhand => (by cases hhand)
                  overages := fun b hcarried => ?_ }
  obtain ⟨payment, hfound, hcharging⟩ := h.overages b hcarried
  exact ⟨payment, hfound, fun hs => (hcharging hs).mono rfl fun _ hr => hr.commitOffset row.id none⟩

theorem LossyOk.crash (h : LossyOk s) : LossyOk { s with inHand := none, seen := [] } :=
  { h with reached := fun _ _ hhand => (by cases hhand)
           processed := fun _ hhand => (by cases hhand)
           claimed := fun _ _ hhand => (by cases hhand)
           handling := fun _ _ hhand => (by cases hhand) }

/-! ### A commit

At a commit the way through the program is complete, and the row that is written says how it
ended. -/

/-- What the commit of an attempt does: nothing, or the effect of its command. -/
inductive CommitEffect (s : LossyState) (row : OutboxRow BookingMessage) (db : PaymentDb) : Prop
  | again (hin : row.id ∈ s.db.inbox) (hseen : s.seen = []) (hdb : db = s.db)
  | first (events : List PaymentEventType) (hu : row.id ∉ s.db.inbox)
      (heffect : CommandEffect row.aggregateId (s.db.view row.aggregateId) row.payload s.seen
        (db.view row.aggregateId) events)
      (hothers : ∀ k, row.aggregateId ≠ k → db.view k = s.db.view k)
      (hinbox : db.inbox = row.id :: s.db.inbox)

theorem LossyOk.commitEffect (h : LossyOk s) {db : PaymentDb}
    (hhand : s.inHand = some (row, .handling (.done (.ok db)))) : CommitEffect s row db := by
  by_cases hin : row.id ∈ s.db.inbox
  · obtain ⟨hdone, hseen⟩ := h.claimed row _ hhand hin
    exact .again hin hseen (by simpa using hdone)
  · obtain ⟨⟨events, heffect, -⟩, hothers, hinbox⟩ :=
      processCommand_path hin (h.handling row _ hhand hin).path
    rw [h.keys row (h.mem_topic hhand)] at heffect hothers
    exact .first events hin heffect hothers hinbox

/-- An overage that was charged for an authorized payment is that of the row in hand. -/
theorem LossyOk.charges (h : LossyOk s) {stage : Stage} (hhand : s.inHand = some (row, stage))
    (hu : row.id ∉ s.db.inbox) {payment : Payment}
    (hfound : s.db.getByBookingId row.aggregateId = some payment)
    (hstatus : payment.status = .authorized)
    (hcarried : CarriedOut s.stripe (.overage row.aggregateId)) : row.payload.ChargesOverage := by
  obtain ⟨payment', hfound', hcharging⟩ := h.overages _ hcarried
  obtain rfl := Option.some.inj (hfound.symm.trans hfound')
  obtain ⟨row', hreached, hb, hu', hcharges⟩ := hcharging hstatus
  obtain rfl : row' = row := hreached.unique (h.reached row stage hhand) hb
    (fun hin => hu' (h.offsets _ hin)) fun hin => hu (h.offsets _ hin)
  exact hcharges

/-- A payment that stays authorized was not to be charged an overage. -/
theorem CommandEffect.stays_authorized {v v' : PaymentView} {message : BookingMessage}
    {tr : List (StripeCall × StripeReply)} {events : List PaymentEventType}
    (h : CommandEffect b v message tr v' events) {payment : Payment}
    (hfound : v.payment = some payment) : ∃ payment', v'.payment = some payment' ∧
      (payment'.status = .authorized →
        payment.status = .authorized ∧ ¬ message.ChargesOverage) := by
  cases h with
  | announced => exact ⟨payment, hfound, fun hs => ⟨hs, id⟩⟩
  | existing => exact ⟨payment, hfound, fun hs => ⟨hs, id⟩⟩
  | authorizeRefused _ _ _ hnone => cases hfound.symm.trans hnone
  | held _ _ _ _ hnone => cases hfound.symm.trans hnone
  | absent _ _ _ hnone => cases hfound.symm.trans hnone
  | settled _ _ _ payment' hfound' hstatus =>
    obtain rfl := Option.some.inj (hfound.symm.trans hfound')
    exact ⟨payment, hfound, fun hs => absurd hs hstatus⟩
  | captureRefused => exact ⟨_, rfl, fun hs => by cases hs⟩
  | captured => exact ⟨_, rfl, fun hs => by cases hs⟩
  | charged => exact ⟨_, rfl, fun hs => by cases hs⟩

/-- An authorized payment has no overage. -/
theorem CommandEffect.intents {v v' : PaymentView} {message : BookingMessage}
    {tr : List (StripeCall × StripeReply)} {events : List PaymentEventType}
    (h : CommandEffect b v message tr v' events)
    (hintents : ∀ payment, v.payment = some payment → payment.status = .authorized →
      payment.stripeOverageIntentId = none) :
    ∀ payment, v'.payment = some payment → payment.status = .authorized →
      payment.stripeOverageIntentId = none := by
  cases h with
  | announced => exact hintents
  | existing => exact hintents
  | absent => exact hintents
  | settled => exact hintents
  | authorizeRefused | held =>
    intro payment hpayment _
    cases hpayment
    rfl
  | captureRefused | captured | charged =>
    intro payment hpayment hstatus
    cases hpayment
    cases hstatus

theorem LossyOk.commit (h : LossyOk s) {db : PaymentDb}
    (hhand : s.inHand = some (row, .handling (.done (.ok db)))) :
    LossyOk { s with db, inHand := some (row, .processed) } := by
  have hreached : ∀ row' stage, some (row, Stage.processed) = some (row', stage) →
      s.Reached row' := by
    intro row' stage hhand'
    cases hhand'
    exact h.reached row _ hhand
  cases h.commitEffect hhand with
  | again hin hseen hdb =>
    subst hdb
    refine { h with reached := hreached, processed := ?_
                    claimed := fun _ _ hhand' => (by cases hhand')
                    handling := fun _ _ hhand' => (by cases hhand') }
    intro row' hhand'
    cases hhand'
    exact hin
  | first events hu heffect hothers hinbox =>
    have hview : ∀ k, row.aggregateId ≠ k → db.getByBookingId k = s.db.getByBookingId k :=
      fun k hk => congrArg PaymentView.payment (hothers k hk)
    refine { h with offsets := ?_, reached := hreached, processed := ?_
                    claimed := fun _ _ hhand' => (by cases hhand')
                    handling := fun _ _ hhand' => (by cases hhand')
                    intents := fun k => ?_, overages := fun k hcarried => ?_ }
    · intro eventId ho
      rw [hinbox]
      exact List.mem_cons_of_mem _ (h.offsets eventId ho)
    · intro row' hhand'
      cases hhand'
      rw [hinbox]
      exact List.mem_cons_self
    · by_cases hk : row.aggregateId = k
      · subst hk
        exact heffect.intents (h.intents row.aggregateId)
      · rw [hview k hk]
        exact h.intents k
    · obtain ⟨payment, hfound, hcharging⟩ := h.overages k hcarried
      by_cases hk : row.aggregateId = k
      · subst hk
        obtain ⟨payment', hfound', hstays⟩ := heffect.stays_authorized hfound
        refine ⟨payment', hfound', fun hs => ?_⟩
        obtain ⟨hstatus, hcharges⟩ := hstays hs
        exact absurd (h.charges hhand hu hfound hstatus hcarried) hcharges
      · refine ⟨payment, (hview k hk).trans hfound, fun hs => ?_⟩
        obtain ⟨row', hrow', hb, hu', hcharges⟩ := hcharging hs
        refine ⟨row', hrow', hb, fun hin => ?_, hcharges⟩
        rw [hinbox] at hin
        rcases List.mem_cons.mp hin with hid | hin
        · obtain ⟨i, hi, -⟩ := hrow'
          have hnodup : (s.topic.map (·.id)).Nodup := h.ids ▸ List.nodup_range
          have hsame : row' = row := List.inj_on_of_nodup_map hnodup (List.mem_of_getElem? hi)
            (h.mem_topic hhand) hid
          exact hk (hsame ▸ hb)
        · exact hu' hin

/-- **Every step keeps the invariant.** -/
theorem LossyOk.step (h : LossyOk s) (hstep : LossyStep s a s') : LossyOk s' := by
  cases hstep with
  | published message => exact h.publish message
  | fetched i row hi he hu => exact h.fetch hi he
  | replied _ row c next r stripe _ hhand hstripe => exact h.reply hhand r hstripe
  | committed row db hhand => exact h.commit hhand
  | finished row hhand => exact h.finish hhand
  | crashed => exact h.crash

theorem lossyOk_of_reachable (h : lossySystem.Reachable s) : LossyOk s :=
  h.invariant LossyOk lossyOk_init fun _ _ _ _ hok hstep => hok.step (lossyStep_cases hstep)

/-! ### Which failures are real -/

/-- What a command records is real exactly if the handler has not missed a call that was carried
out. -/
theorem CommandEffect.failureReal_iff {v v' : PaymentView} {message : BookingMessage}
    {tr stripe : List (StripeCall × StripeReply)} {events : List PaymentEventType}
    (h : CommandEffect b v message tr v' events)
    (hreal : ∀ payment, v.payment = some payment → payment.FailureReal b stripe)
    (hintents : ∀ payment, v.payment = some payment → payment.status = .authorized →
      payment.stripeOverageIntentId = none)
    (hcharges : ∀ payment, v.payment = some payment → payment.status = .authorized →
      CarriedOut stripe (.overage b) → message.ChargesOverage) :
    (∀ payment, v'.payment = some payment → payment.FailureReal b stripe) ↔
      ∀ e ∈ tr, e.2 = .stripeError → ¬ CarriedOut stripe e.1.idempotencyKey := by
  cases h with
  | announced => exact iff_of_true hreal (by simp)
  | existing => exact iff_of_true hreal (by simp)
  | absent => exact iff_of_true hreal (by simp)
  | settled => exact iff_of_true hreal (by simp)
  | authorizeRefused id renterId amountCents hnone hfits =>
    simp [Payment.FailureReal, StripeCall.idempotencyKey]
  | held id renterId amountCents intentId hnone hfits => simp [Payment.FailureReal]
  | captureRefused hostId holdAmountCents overageCents payment hfound hstatus =>
    simp [Payment.FailureReal, Payment.withStatus, StripeCall.idempotencyKey]
  | captured hostId holdAmountCents overageCents payment captureId overage hfound hstatus hhold
      hoverage =>
    have hnone := hintents payment hfound hstatus
    rcases hoverage with ⟨hle, rfl⟩ | ⟨hpos, rfl⟩
    · -- no overage is asked for, and none was charged by an earlier attempt
      refine iff_of_true ?_ (by simp)
      intro payment' hpayment'
      cases hpayment'
      intro _ hcarried
      have hpos : 0 < overageCents := hcharges payment hfound hstatus hcarried
      omega
    · simp [Payment.FailureReal, Payment.withStatus, StripeCall.idempotencyKey, hnone]
  | charged hostId holdAmountCents overageCents payment captureId overageIntentId hfound hstatus
      hhold hoverage =>
    simp [Payment.FailureReal, Payment.withStatus, Payment.withOverage]

/-- A call that may be made does not touch a recorded failure. -/
theorem Payment.FailureReal.of_allowed {payment : Payment} {stripe stripe' : List (StripeCall ×
    StripeReply)} {found : Option Payment} {message : BookingMessage} {c : StripeCall}
    (h : payment.FailureReal b stripe) (hstripe : ∀ e ∈ stripe', e ∈ stripe ∨ e.1 = c)
    (hallowed : AllowedCall found message c)
    (hfound : message.bookingId = b → found = some payment) : payment.FailureReal b stripe' := by
  -- the key of a call for this booking, if its payment is settled
  have hkey {key : IdempotencyKey} (hb : key.bookingId = b) (hstatus : payment.status ≠ .authorized)
      (hcarried : CarriedOut stripe' key) : CarriedOut stripe key := by
    refine (hcarried.of_mem hstripe).resolve_right fun hc => ?_
    rcases hallowed with ⟨hauthorize, hnone⟩ | ⟨⟨p, hp, hauthorized⟩, hcapture | ⟨hoverage, -⟩⟩
    · cases hnone.symm.trans (hfound (by rw [← hb, ← hc, hauthorize]; rfl))
    · cases hp.symm.trans (hfound (by rw [← hb, ← hc, hcapture]; rfl))
      exact hstatus hauthorized
    · cases hp.symm.trans (hfound (by rw [← hb, ← hc, hoverage]; rfl))
      exact hstatus hauthorized
  unfold Payment.FailureReal at h ⊢
  cases hs : payment.status with
  | authorized => trivial
  | authorizationFailed =>
    rw [hs] at h
    exact fun hcarried => h (hkey rfl (by simp [hs]) hcarried)
  | captureFailed =>
    rw [hs] at h
    exact fun hcarried => h (hkey rfl (by simp [hs]) hcarried)
  | captured =>
    rw [hs] at h
    exact fun hnone hcarried => h hnone (hkey rfl (by simp [hs]) hcarried)

theorem failuresReal_step_iff (h : LossyOk s) (hreal : FailuresReal s) (hstep : LossyStep s a s') :
    FailuresReal s' ↔ CommitsKnown s a := by
  cases hstep with
  | published message => exact iff_of_true hreal trivial
  | fetched i row hi he hu => exact iff_of_true hreal trivial
  | finished row hhand => exact iff_of_true hreal trivial
  | crashed => exact iff_of_true hreal trivial
  | replied _ row c next r stripe ha hhand hstripe =>
    have hknown : CommitsKnown s a := by
      cases a with
      | consumer a =>
        cases a with
        | commit => exact absurd rfl ha
        | _ => trivial
      | _ => trivial
    refine iff_of_true (fun b payment hfound => ?_) hknown
    obtain ⟨-, hallowed⟩ := h.allowed hhand
    refine (hreal b payment hfound).of_allowed hstripe hallowed fun hb => ?_
    rwa [← h.keys row (h.mem_topic hhand), hb]
  | committed row db hhand =>
    cases h.commitEffect hhand with
    | again hin hseen hdb =>
      subst hdb
      exact iff_of_true hreal (by simp [CommitsKnown, hseen])
    | first events hu heffect hothers hinbox =>
      have hiff := heffect.failureReal_iff (hreal row.aggregateId) (h.intents row.aggregateId)
        fun payment hfound hstatus hcarried => h.charges hhand hu hfound hstatus hcarried
      refine Iff.trans ⟨fun hall => hall row.aggregateId, fun hself b payment hfound => ?_⟩ hiff
      by_cases hb : row.aggregateId = b
      · subst hb
        exact hself payment hfound
      · have hsame : db.getByBookingId b = s.db.getByBookingId b :=
          congrArg PaymentView.payment (hothers b hb)
        exact hreal b payment (hsame.symm.trans hfound)

/-- **Recorded failures are real** throughout a run, exactly if no handler commits in it that has
seen a call fail which Stripe has carried out. -/
theorem failures_real_iff {run : List (LossyState × LossyAction)}
    (h : lossySystem.Exec lossySystem.init run s) :
    TransitionSystem.Throughout FailuresReal run s ↔ ∀ x ∈ run, CommitsKnown x.1 x.2 := by
  refine h.forall_iff FailuresReal CommitsKnown (fun _ _ hfound => (by cases hfound))
    fun s a s' hr hreal hstep => ?_
  exact failuresReal_step_iff (lossyOk_of_reachable hr) hreal (lossyStep_cases hstep)

end Lossy

/-- Stripe holds the money, and its response is lost. -/
def sampleLostHold : List LossyAction :=
  [.consumer (.publish (.authorizePaymentRequested 0 2 15000)), .consumer (.fetch 0),
    .loseResponse (.returned "pi_hold"), .consumer .commit, .consumer .commitOffset]

/-- The authorization has failed, and Stripe holds the money. -/
theorem sampleLostHold_end :
    ∃ s payment, lossySystem.run {} sampleLostHold = some s ∧ s.inHand = none ∧
      s.db.getByBookingId 0 = some payment ∧ payment.status = .authorizationFailed ∧
      s.stripe = [(.authorize 15000 (.authorize 0), .returned "pi_hold")] ∧ ¬ FailuresReal s := by
  have hend : (lossySystem.run {} sampleLostHold).map (fun s => (s.inHand.isNone,
      (s.db.getByBookingId 0).map (·.status), s.stripe)) = some (true, some .authorizationFailed,
        [(.authorize 15000 (.authorize 0), .returned "pi_hold")]) := by decide
  obtain ⟨s, hrun, hs⟩ := Option.map_eq_some_iff.mp hend
  simp only [Prod.mk.injEq, Option.isNone_iff_eq_none, Option.map_eq_some_iff] at hs
  obtain ⟨hidle, ⟨payment, hfound, hstatus⟩, hstripe⟩ := hs
  refine ⟨s, payment, hrun, hidle, hfound, hstatus, hstripe, fun hreal => ?_⟩
  have hnone := hreal 0 payment hfound
  unfold Payment.FailureReal at hnone
  rw [hstatus] at hnone
  refine hnone ⟨(.authorize 15000 (.authorize 0), .returned "pi_hold"), ?_, rfl, _, rfl⟩
  rw [hstripe]
  exact List.mem_singleton_self _

theorem failures_real_iff_sampleLostHold :
    ∃ s run, lossySystem.Exec lossySystem.init run s ∧ run.map Prod.snd = sampleLostHold ∧
      (s.db.getByBookingId 0).map (·.status) = some .authorizationFailed ∧
      s.stripe = [(.authorize 15000 (.authorize 0), .returned "pi_hold")] ∧
      ¬ TransitionSystem.Throughout FailuresReal run s ∧
      ¬ ∀ x ∈ run, CommitsKnown x.1 x.2 := by
  obtain ⟨s, payment, hrun, -, hfound, hstatus, hstripe, hnot⟩ := sampleLostHold_end
  have hexec := TransitionSystem.exec_steps hrun
  have hnot := TransitionSystem.not_throughout (lossySystem.steps {} sampleLostHold) hnot
  exact ⟨s, _, hexec, TransitionSystem.map_snd_steps hrun, by rw [hfound, Option.map_some, hstatus],
    hstripe, hnot, (failures_real_iff hexec).not.mp hnot⟩

theorem failed_authorization_holds_money :
    ∃ s payment, lossySystem.Reachable s ∧ s.inHand = none ∧
      s.db.getByBookingId 0 = some payment ∧ payment.status = .authorizationFailed ∧
      s.stripe = [(.authorize 15000 (.authorize 0), .returned "pi_hold")] ∧ ¬ FailuresReal s := by
  obtain ⟨s, payment, hrun, hs⟩ := sampleLostHold_end
  exact ⟨s, payment, TransitionSystem.reachable_of_run .init hrun, hs⟩

end CarFlow
