import CarFlow.Booking.Consumers
import CarFlow.Lib.TransitionSystem

/-!
# Health and the consumer

A process of booking, payment or search serves HTTP and runs `run_consumer` in a background task.
Every exception ends the task: the offset stays uncommitted, and "the process is expected to be
restarted by the orchestrator". The `lifespan` that has created the task does not look at it again
before it shuts down, and the orchestrator looks at `/healthz` and `/readyz`.

## The model

* A process of the service runs or does not, and there is a new one whenever the old one has ended.
* `run_consumer` goes from one `await` to the next. Those on the broker (the start, the next record,
  the commit, the lag) return or raise; `process` does what it does with the message under the
  circumstances it meets, which are the rows of the service, or a database that raises.
* A probe that is not answered with success ends the process.

## Main results

* `bookingConsumer_consume_iff` — which payment events the consumer of booking survives
* `failed_consumer_stays` — no probe ever restarts a process for its consumer
* `healthy_consumes_iff` — **a healthy process consumes** throughout a run exactly if nothing that
  its consumer awaits raises
-/

namespace CarFlow

/-! ### Probes -/

/-- What a probe gets. -/
structure HealthResponse where
  statusCode : ℕ
  status : String
  deriving DecidableEq

/-- `/healthz`. -/
def healthz : HealthResponse := ⟨200, "ok"⟩

/-- `/readyz`, with what the readiness check returns, if there is one. -/
def readyz (readinessCheck : Option Bool) : HealthResponse :=
  let ready := readinessCheck.getD true
  ⟨if ready then 200 else 503, if ready then "ok" else "not_ready"⟩

/-- The probe is content. -/
def HealthResponse.Ok (response : HealthResponse) : Prop :=
  response.statusCode = 200 ∧ response.status = "ok"

instance (response : HealthResponse) : Decidable response.Ok := inferInstanceAs (Decidable (_ ∧ _))

/-! ### The process -/

/-- A service that consumes a topic: `decode_envelope` and the reads of the envelope, and its
`process`, with what it meets. -/
structure ConsumingService (ρ μ σ ε : Type) where
  enableKafkaConsumer : Bool := true
  decodeEnvelope : ρ → Except ε μ
  process : μ → σ → Except ε Unit

/-- Where `run_consumer` is. -/
inductive LoopStage (ρ : Type)
  /-- `consumer.start()`. -/
  | starting
  /-- `async for record in consumer`. -/
  | waiting
  | received (record : ρ)
  /-- `consumer.commit()` is next. -/
  | processed
  /-- `report_consumer_lag` is next. -/
  | committed

/-- The background task. -/
inductive ConsumerTask (ρ ε : Type)
  | running (stage : LoopStage ρ)
  /-- It has ended with an exception, which nobody awaits. -/
  | failed (error : ε)

/-- A process of the service: the position of its consumer, and the task, if it has one. -/
structure ServiceProcess (ρ ε : Type) where
  position : ℕ
  task : Option (ConsumerTask ρ ε)

/-- The topic, the committed offset and the process that runs. -/
structure Deployment (ρ ε : Type) where
  records : List ρ := []
  offset : ℕ := 0
  process : Option (ServiceProcess ρ ε) := none

/-- `add_health_endpoints(app)`. -/
def ServiceProcess.healthz {ρ ε : Type} (_ : ServiceProcess ρ ε) : HealthResponse :=
  CarFlow.healthz

/-- `add_health_endpoints(app)` is given no readiness check. -/
def ServiceProcess.readyz {ρ ε : Type} (_ : ServiceProcess ρ ε) : HealthResponse :=
  CarFlow.readyz none

/-- The steps of the process and of what is around it. -/
inductive DeploymentAction (ρ σ ε : Type)
  | publish (record : ρ)
  | start
  /-- An `await` on the broker returns. -/
  | advance
  /-- It raises. -/
  | raise (error : ε)
  | process (seen : σ)
  | probe
  /-- The process ends by itself. -/
  | exit

section Steps

variable {ρ μ σ ε : Type} (S : ConsumingService ρ μ σ ε)

/-- What becomes of a record. -/
def ConsumingService.consume (record : ρ) (seen : σ) : Except ε Unit := do
  let message ← S.decodeEnvelope record
  S.process message seen

/-- The process with its task elsewhere. -/
def ServiceProcess.at (p : ServiceProcess ρ ε) (task : ConsumerTask ρ ε) : ServiceProcess ρ ε :=
  { p with task := some task }

/-- One step. -/
def ConsumingService.deploymentStep (s : Deployment ρ ε) :
    DeploymentAction ρ σ ε → Option (Deployment ρ ε)
  | .publish record => some { s with records := s.records ++ [record] }
  | .start =>
    match s.process with
    | some _ => none
    | none =>
      let task := if S.enableKafkaConsumer then some (.running .starting) else none
      some { s with process := some { position := s.offset, task } }
  | .advance => do
    let p ← s.process
    match p.task with
    | some (.running .starting) => some { s with process := p.at (.running .waiting) }
    | some (.running .waiting) => do
      let record ← s.records[p.position]?
      some { s with
        process := some { position := p.position + 1, task := some (.running (.received record)) } }
    | some (.running .processed) =>
      some { s with offset := p.position, process := p.at (.running .committed) }
    | some (.running .committed) => some { s with process := p.at (.running .waiting) }
    | _ => none
  | .raise error => do
    let p ← s.process
    match p.task with
    | none | some (.failed _) | some (.running (.received _)) => none
    | _ => some { s with process := p.at (.failed error) }
  | .process seen => do
    let p ← s.process
    match p.task with
    | some (.running (.received record)) =>
      match S.consume record seen with
      | .ok () => some { s with process := p.at (.running .processed) }
      | .error error => some { s with process := p.at (.failed error) }
    | _ => none
  | .probe => do
    let p ← s.process
    if p.healthz.Ok then some s else some { s with process := none }
  | .exit => do
    let _ ← s.process
    some { s with process := none }

/-- The service and its orchestrator. -/
def ConsumingService.deployment :
    TransitionSystem (Deployment ρ ε) (DeploymentAction ρ σ ε) where
  init := {}
  step := S.deploymentStep

end Steps

/-! ### The consumer of booking -/

/-- What ends the consumer of booking. -/
inductive ConsumerError
  /-- `json.loads`, or a field that is missing. -/
  | undecodable
  | handler (error : BookingError)
  deriving DecidableEq

/-- The consumer of booking. A record may be undecodable, and the database may raise by itself: it
is away, or another transaction has won the race for a version. -/
def bookingConsumer : ConsumingService (Option (OutboxRow PaymentMessage))
    (OutboxRow PaymentMessage) (Except BookingError BookingDb) ConsumerError where
  decodeEnvelope
    | none => .error .undecodable
    | some row => .ok row
  process row seen :=
    match seen >>= processPaymentEvent row with
    | .ok _ => .ok ()
    | .error error => .error (.handler error)

/-- **The payment events that the consumer of booking survives**: those it has claimed before, and
those that the booking they are about accepts and the database admits. -/
theorem bookingConsumer_consume_iff {record : Option (OutboxRow PaymentMessage)}
    {seen : Except BookingError BookingDb} :
    bookingConsumer.consume record seen = .ok () ↔ ∃ row db, record = some row ∧ seen = .ok db ∧
      (row.id ∈ db.inbox ∨ ∃ booking w, db.getById row.payload.bookingId = some booking ∧
        Accepts booking (paymentEventHandlers row.payload) w ∧ db.Admits false w) := by
  cases record with
  | none => simp [ConsumingService.consume, bookingConsumer, bind, Except.bind]
  | some row =>
    cases seen with
    | error error => simp [ConsumingService.consume, bookingConsumer, bind, Except.bind]
    | ok db =>
      have hconsume : bookingConsumer.consume (some row) (.ok db) = .ok () ↔
          ∃ db', processPaymentEvent row db = .ok db' := by
        cases hprocess : processPaymentEvent row db <;>
          simp [ConsumingService.consume, bookingConsumer, bind, Except.bind, hprocess]
      rw [hconsume, processPaymentEvent_ok_iff]
      constructor
      · exact fun h => ⟨row, db, rfl, rfl, h⟩
      · rintro ⟨row', db', hrow, hdb, h⟩
        cases hrow
        cases hdb
        exact h

/-! ### A process that stays -/

section Deployment

variable {ρ μ σ ε : Type} {S : ConsumingService ρ μ σ ε} {s s' : Deployment ρ ε}
  {a : DeploymentAction ρ σ ε} {p : ServiceProcess ρ ε}

theorem ServiceProcess.healthz_ok (p : ServiceProcess ρ ε) : p.healthz.Ok := ⟨rfl, rfl⟩

theorem ServiceProcess.readyz_ok (p : ServiceProcess ρ ε) : p.readyz.Ok := ⟨rfl, rfl⟩

/-- No probe ends a process. -/
theorem deploymentStep_probe (hstep : S.deploymentStep s .probe = some s') : s' = s := by
  simp only [ConsumingService.deploymentStep, Option.bind_eq_bind,
    Option.bind_eq_some_iff] at hstep
  obtain ⟨p, hp, hstep⟩ := hstep
  rw [if_pos p.healthz_ok] at hstep
  exact (Option.some.inj hstep).symm

/-- The process does not end by itself. -/
def Stays : DeploymentAction ρ σ ε → Prop
  | .exit => False
  | _ => True

/-- **A failed consumer stays failed**, as long as its process does not end by itself: no probe
ends the process, and its offset stays where it is. -/
theorem failed_consumer_stays {error : ε} (hp : s.process = some p)
    (htask : p.task = some (.failed error)) (hleads : S.deployment.LeadsWhere Stays s s') :
    s'.process = some p ∧ s'.offset = s.offset := by
  induction hleads with
  | refl => exact ⟨hp, rfl⟩
  | tail _ hstep ih =>
    rename_i u v _
    obtain ⟨a, hstays, hstep⟩ := hstep
    obtain ⟨hu, hoffset⟩ := ih
    cases a with
    | publish record =>
      cases hstep
      exact ⟨hu, hoffset⟩
    | probe =>
      have hstep : S.deploymentStep u .probe = some v := hstep
      obtain rfl := deploymentStep_probe hstep
      exact ⟨hu, hoffset⟩
    | exit => exact hstays.elim
    | _ =>
      simp [ConsumingService.deployment, ConsumingService.deploymentStep, hu, htask] at hstep

/-- **A healthy process consumes**: if both probes are content, the consumer is running. -/
def HealthyConsumes (s : Deployment ρ ε) : Prop :=
  ∀ p ∈ s.process, p.healthz.Ok → p.readyz.Ok → ∀ task ∈ p.task, ∃ stage, task = .running stage

/-- The record in hand. -/
def Deployment.inHand (s : Deployment ρ ε) : Option ρ :=
  match s.process with
  | some ⟨_, some (.running (.received record))⟩ => some record
  | _ => none

/-- Nothing that the consumer awaits raises: the broker does not, and the record in hand is
consumed. -/
def Succeeds (S : ConsumingService ρ μ σ ε) (s : Deployment ρ ε) : DeploymentAction ρ σ ε → Prop
  | .raise _ => False
  | .process seen => ∀ record ∈ s.inHand, S.consume record seen = .ok ()
  | _ => True

theorem healthyConsumes_at {records : List ρ} {offset : ℕ} {task : ConsumerTask ρ ε} :
    HealthyConsumes ⟨records, offset, some (p.at task)⟩ ↔ ∃ stage, task = .running stage := by
  constructor
  · intro h
    exact h _ rfl (p.at task).healthz_ok (p.at task).readyz_ok task rfl
  · rintro h q hq - - task' htask'
    cases hq
    cases htask'
    exact h

theorem not_healthyConsumes_failed {records : List ρ} {offset : ℕ} {error : ε} :
    ¬ HealthyConsumes ⟨records, offset, some (p.at (.failed error))⟩ := by
  intro hfailed
  obtain ⟨stage, hstage⟩ := healthyConsumes_at.mp hfailed
  cases hstage

/-- A process starts with its consumer, or without one. -/
theorem healthyConsumes_start (hstep : S.deploymentStep s .start = some s') :
    HealthyConsumes s' := by
  simp only [ConsumingService.deploymentStep] at hstep
  split at hstep
  · cases hstep
  · cases hstep
    intro p hp _ _ task htask
    cases hp
    by_cases henabled : S.enableKafkaConsumer = true
    · simp only [henabled, if_true, Option.mem_some_iff] at htask
      exact ⟨.starting, htask.symm⟩
    · simp [henabled] at htask

/-- The consumer gets on. -/
theorem healthyConsumes_advance (hstep : S.deploymentStep s .advance = some s') :
    HealthyConsumes s' := by
  simp only [ConsumingService.deploymentStep, Option.bind_eq_bind,
    Option.bind_eq_some_iff] at hstep
  obtain ⟨p, hp, hstep⟩ := hstep
  split at hstep
  · cases hstep
    exact healthyConsumes_at.mpr ⟨_, rfl⟩
  · obtain ⟨record, -, hstep⟩ := Option.bind_eq_some_iff.mp hstep
    cases hstep
    exact healthyConsumes_at (p := { p with position := p.position + 1 }).mpr ⟨_, rfl⟩
  · cases hstep
    exact healthyConsumes_at.mpr ⟨_, rfl⟩
  · cases hstep
    exact healthyConsumes_at.mpr ⟨_, rfl⟩
  · cases hstep

/-- The broker raises. -/
theorem not_healthyConsumes_raise {error : ε}
    (hstep : S.deploymentStep s (.raise error) = some s') : ¬ HealthyConsumes s' := by
  simp only [ConsumingService.deploymentStep, Option.bind_eq_bind,
    Option.bind_eq_some_iff] at hstep
  obtain ⟨p, hp, hstep⟩ := hstep
  split at hstep
  · cases hstep
  · cases hstep
  · cases hstep
  · cases hstep
    exact not_healthyConsumes_failed

/-- The record in hand is processed. -/
theorem healthyConsumes_process_iff {seen : σ}
    (hstep : S.deploymentStep s (.process seen) = some s') :
    HealthyConsumes s' ↔ Succeeds S s (.process seen) := by
  simp only [ConsumingService.deploymentStep, Option.bind_eq_bind,
    Option.bind_eq_some_iff] at hstep
  obtain ⟨p, hp, hstep⟩ := hstep
  split at hstep
  swap
  · cases hstep
  rename_i record htask
  have hinHand : s.inHand = some record := by
    obtain ⟨position, task⟩ := p
    obtain rfl : task = _ := htask
    simp [Deployment.inHand, hp]
  have hsucceeds : Succeeds S s (.process seen) ↔ S.consume record seen = .ok () := by
    simp [Succeeds, hinHand]
  rw [hsucceeds]
  split at hstep
  · rename_i hok
    cases hstep
    exact iff_of_true (healthyConsumes_at.mpr ⟨_, rfl⟩) hok
  · rename_i error herror
    cases hstep
    exact iff_of_false not_healthyConsumes_failed (by simp [herror])

theorem healthyConsumes_exit (hstep : S.deploymentStep s .exit = some s') :
    HealthyConsumes s' := by
  simp only [ConsumingService.deploymentStep, Option.bind_eq_bind,
    Option.bind_eq_some_iff] at hstep
  obtain ⟨p, hp, hstep⟩ := hstep
  cases hstep
  exact fun q hq => by cases hq

/-- **A step keeps the consumer running exactly if nothing that it awaits raises.** -/
theorem healthyConsumes_step_iff (h : HealthyConsumes s) (hstep : S.deploymentStep s a = some s') :
    HealthyConsumes s' ↔ Succeeds S s a := by
  cases a with
  | publish record =>
    cases hstep
    exact iff_of_true h trivial
  | start => exact iff_of_true (healthyConsumes_start hstep) trivial
  | advance => exact iff_of_true (healthyConsumes_advance hstep) trivial
  | raise error => exact iff_of_false (not_healthyConsumes_raise hstep) id
  | process seen => exact healthyConsumes_process_iff hstep
  | probe => exact iff_of_true (deploymentStep_probe hstep ▸ h) trivial
  | exit => exact iff_of_true (healthyConsumes_exit hstep) trivial

/-- **A healthy process consumes**, in every state of a run, exactly if in no step of the run
anything raises that its consumer awaits: the broker, the decoding of a record, its handler. -/
theorem healthy_consumes_iff {run : List (Deployment ρ ε × DeploymentAction ρ σ ε)}
    (h : S.deployment.Exec S.deployment.init run s) :
    TransitionSystem.Throughout HealthyConsumes run s ↔ ∀ x ∈ run, Succeeds S x.1 x.2 := by
  refine h.forall_iff HealthyConsumes (Succeeds S) (fun p hp => (by cases hp)) ?_
  exact fun s a s' _ hs hstep => healthyConsumes_step_iff hs hstep

end Deployment

/-- The host has rejected the booking while its payment was authorized. -/
def sampleRejected : BookingDb where
  bookings := [(createRequested 0 (sampleVehicle .request) 2 sampleDates).settle 2 .rejected]

/-- The consumer gets the authorization. -/
def sampleLateAuthorization : List (DeploymentAction (Option (OutboxRow PaymentMessage))
    (Except BookingError BookingDb) ConsumerError) :=
  [.publish (some ⟨0, 0, ⟨.paymentAuthorized, 0⟩⟩), .start, .advance, .advance,
    .process (.ok sampleRejected), .probe]

theorem healthy_consumes_iff_sampleLateAuthorization :
    ∃ s run, bookingConsumer.deployment.Exec bookingConsumer.deployment.init run s ∧
      run.map Prod.snd = sampleLateAuthorization ∧
      (TransitionSystem.Throughout HealthyConsumes run s ↔
        ∀ x ∈ run, Succeeds bookingConsumer x.1 x.2) := by
  obtain ⟨s, hrun⟩ : ∃ s, bookingConsumer.deployment.run {} sampleLateAuthorization = some s :=
    Option.isSome_iff_exists.mp (by decide)
  exact ⟨s, _, TransitionSystem.exec_steps hrun, TransitionSystem.map_snd_steps hrun,
    healthy_consumes_iff (TransitionSystem.exec_steps hrun)⟩

/-- Both probes are content with a process whose consumer has ended at the authorization. -/
theorem healthy_without_consumer :
    ∃ s p, bookingConsumer.deployment.Reachable s ∧ s.process = some p ∧
      p.healthz.Ok ∧ p.readyz.Ok ∧
      p.task = some (.failed (.handler (.domain (.invalidBookingTransition
        "cannot do this from status 'rejected' (expected 'requested')")))) ∧
      s.offset = 0 ∧ ¬ HealthyConsumes s := by
  let failed : ConsumerError := .handler (.domain (.invalidBookingTransition
    "cannot do this from status 'rejected' (expected 'requested')"))
  have hrun : bookingConsumer.deployment.run {} sampleLateAuthorization = some {
      records := [some ⟨0, 0, ⟨.paymentAuthorized, 0⟩⟩]
      process := some ⟨1, some (.failed failed)⟩ } := by rfl
  refine ⟨_, _, TransitionSystem.reachable_of_run .init hrun, rfl, ⟨rfl, rfl⟩, ⟨rfl, rfl⟩, rfl,
    rfl, fun hhealthy => ?_⟩
  obtain ⟨stage, hstage⟩ := hhealthy _ rfl ⟨rfl, rfl⟩ ⟨rfl, rfl⟩ _ rfl
  cases hstage

end CarFlow
