import CarFlow.Admin.KillSwitch
import CarFlow.Telemetry.Consumer
import Mathlib.Tactic.NormNum

/-!
# The ingest endpoint and the kill switch

`/telemetry/ingest/{vehicle_id}` of `services/telemetry`: a device sends frames over a WebSocket.
A valid one is published, with speed zero if the kill switch of the vehicle is on.

The admin service reads its path parameter as a UUID, and writes the flag under `str` of it. The
path parameter here is a plain text, and the flag is looked up under that text.

## The model

* `parse` is the conversion of the path parameter of the admin routes, and `decode` what pydantic
  reads from a frame, before the bounds are checked.
* Toggles are the requests of `killSwitches`; the answer to one comes any time after its commit.
* A request that repeats the key of a committed one is answered by the guard: it returns like the
  other, but does nothing.
* A packet is received in one step. The flag is read and the packet is sent in another: nothing in
  between looks at either. A send may fail, which closes the connection.

## Implementation notes

The admin side is the system of `Admin.KillSwitch` as it is, with its answers as they are given; the
state here adds the connections and what the broker was sent. Whether a packet was forwarded as
promised compares its receipt with the requests answered by then. `Obeys` is the condition on the
way in: the text of the path, the Redis commands that came before, and what the broker does.

A receipt has the packet that the device sent, and `Kept` is stated field by field between the two,
so that nothing of it rests on the message that the code builds.

## Main results

* `isActive_iff` — the switch that is read is that of the vehicle if the text is `str` of it
* `forwarded_iff` — when a packet is forwarded as it was promised
* `kill_switch_enforced_iff` — **when the kill switch is enforced**
-/

namespace CarFlow

open LastWrite

/-! ### Packets -/

/-- The fields of a packet. The timestamp is as `isoformat` gives it. -/
structure PacketFields where
  lat : ℚ
  lng : ℚ
  speedKph : ℚ
  recordedAt : String
  deriving DecidableEq

/-- The bounds of `TelemetryPacket`. -/
def PacketFields.InBounds (fields : PacketFields) : Prop :=
  (-90 ≤ fields.lat ∧ fields.lat ≤ 90) ∧ (-180 ≤ fields.lng ∧ fields.lng ≤ 180) ∧
    (0 ≤ fields.speedKph ∧ fields.speedKph ≤ 400)

instance (fields : PacketFields) : Decidable fields.InBounds :=
  inferInstanceAs (Decidable (_ ∧ _))

/-- A `TelemetryPacket`. -/
structure TelemetryPacket extends PacketFields where
  inBounds : toPacketFields.InBounds
  deriving DecidableEq

/-- `parse_packet`. -/
def parsePacket (decode : String → Option PacketFields) (raw : String) : Option TelemetryPacket :=
  (decode raw).bind fun fields => if h : fields.InBounds then some ⟨fields, h⟩ else none

theorem PacketFields.InBounds.stopped {fields : PacketFields} (h : fields.InBounds) :
    PacketFields.InBounds { fields with speedKph := 0 } :=
  ⟨h.1, h.2.1, le_refl 0, by norm_num⟩

/-- `packet.model_copy(update={"speed_kph": 0.0})`. -/
def TelemetryPacket.stopped (packet : TelemetryPacket) : TelemetryPacket :=
  ⟨{ packet.toPacketFields with speedKph := 0 }, packet.inBounds.stopped⟩

/-- `apply_kill_switch`. -/
def applyKillSwitch (packet : TelemetryPacket) (active : Bool) : TelemetryPacket :=
  if active then packet.stopped else packet

/-- The message of `publish_packet`. -/
def TelemetryPacket.message (packet : TelemetryPacket) (vehicleId : String) : TelemetryMessage where
  vehicleId := vehicleId
  lat := packet.lat
  lng := packet.lng
  speedKph := packet.speedKph
  recordedAt := packet.recordedAt

/-! ### The two services -/

/-- A valid packet that a connection has received, and what the switch of the vehicle was then. -/
structure Receipt where
  /-- The path parameter of the connection. -/
  vehicleId : String
  raw : String
  packet : TelemetryPacket
  /-- An activation has returned, and no deactivation has begun since. -/
  activated : Bool
  /-- The switch is off. -/
  off : Bool
  deriving DecidableEq

/-- A connection, and the packet it has received and not yet published. -/
structure Connection where
  vehicleId : String
  pending : Option Receipt := none
  deriving DecidableEq

structure IngestState where
  switches : KillSwitchState := {}
  /-- The toggles that are committed and not yet answered. -/
  unanswered : List (Uuid × Toggle) := []
  /-- The activations that have returned and the deactivations that have begun, in order. Only
  `Receipt.activated` reads this. -/
  marks : List (Uuid × Toggle) := []
  connections : List Connection := []
  /-- The valid packets that were received. Nothing reads this. -/
  received : List Receipt := []
  /-- What became of them: what was published, or `none` if the send failed. -/
  handled : List (Receipt × Option TelemetryMessage) := []

inductive IngestAction
  /-- A request to `enable_kill_switch` or `disable_kill_switch` with this path parameter. -/
  | toggle (path : String) (toggle : Toggle) (adminId : Uuid)
  /-- The requests get further. -/
  | switches (a : KillSwitchAction)
  /-- A request returns. -/
  | answer (i : ℕ)
  /-- The guard answers a repeated request with the stored response. -/
  | replay (path : String) (toggle : Toggle)
  | connect (vehicleId : String)
  /-- `receive_text` and `parse_packet`. -/
  | receive (i : ℕ) (raw : String)
  /-- The flag is read, and the packet is sent. -/
  | forward (i : ℕ) (sent : Bool)

variable (parse : String → Option Uuid) (decode : String → Option PacketFields)

/-- The toggle that a step commits. -/
def committedToggle (s : KillSwitchState) : KillSwitchAction → List (Uuid × Toggle)
  | .commit i => s.requests[i]?.toList.map fun r => (r.vehicleId, r.toggle)
  | _ => []

/-- What is received on a connection with this path parameter. -/
def IngestState.receipt (s : IngestState) (vehicleId raw : String) (packet : TelemetryPacket) :
    Receipt where
  vehicleId := vehicleId
  raw := raw
  packet := packet
  activated := (parse vehicleId).any fun u => last Prod.fst s.marks u = some (u, .activate)
  off := (parse vehicleId).any fun u => !isActive s.switches.redis (uuidStr u)

def ingestStep (s : IngestState) : IngestAction → Option IngestState
  | .toggle path toggle adminId => do
    let vehicleId ← parse path
    let switches ← killSwitchStep s.switches (.arrive toggle adminId vehicleId)
    some { s with
      switches
      marks := if toggle = .deactivate then s.marks ++ [(vehicleId, toggle)] else s.marks }
  | .switches (.arrive ..) => none
  | .switches a => do
    let switches ← killSwitchStep s.switches a
    some { s with switches, unanswered := s.unanswered ++ committedToggle s.switches a }
  | .answer i => do
    let mark ← s.unanswered[i]?
    some { s with
      unanswered := s.unanswered.eraseIdx i
      marks := if mark.2 = .activate then s.marks ++ [mark] else s.marks }
  | .replay path toggle => do
    let vehicleId ← parse path
    if s.switches.actions.any fun row =>
        row.actionType = toggle.actionType ∧ row.targetId = vehicleId then
      some { s with marks := s.marks ++ [(vehicleId, toggle)] }
    else none
  | .connect vehicleId => some { s with connections := s.connections ++ [{ vehicleId }] }
  | .receive i raw => do
    let c ← s.connections[i]?
    if c.pending.isSome then none
    else match parsePacket decode raw with
      | none => some s
      | some packet =>
        let receipt := s.receipt parse c.vehicleId raw packet
        some { s with
          connections := s.connections.set i { c with pending := some receipt }
          received := s.received ++ [receipt] }
  | .forward i sent => do
    let c ← s.connections[i]?
    let receipt ← c.pending
    let packet := applyKillSwitch receipt.packet (isActive s.switches.redis c.vehicleId)
    some { s with
      connections :=
        if sent then s.connections.set i { c with pending := none } else s.connections.eraseIdx i
      handled := s.handled ++
        [(receipt, if sent then some (packet.message c.vehicleId) else none)] }

/-- The ingest endpoint, with the admin service that toggles the switches. -/
def ingest : TransitionSystem IngestState IngestAction where
  init := {}
  step := ingestStep parse decode

/-- A packet that was received was valid, and is published as the switch was then, under its vehicle
and with its own coordinates and timestamp. -/
structure Receipt.Kept (r : Receipt) (published : Option TelemetryMessage) : Prop where
  valid : parsePacket decode r.raw = some r.packet
  /-- Received under an activation: with speed zero. -/
  stopped : r.activated = true →
    published = some ⟨r.vehicleId, r.packet.lat, r.packet.lng, 0, r.packet.recordedAt⟩
  /-- Received while the switch was off: with its own speed. -/
  unchanged : r.off = true → published =
    some ⟨r.vehicleId, r.packet.lat, r.packet.lng, r.packet.speedKph, r.packet.recordedAt⟩

/-- The kill switch is enforced. -/
structure Enforced (s : IngestState) : Prop where
  /-- Every valid packet is published, unless its connection is about to. -/
  accounted : ∀ r ∈ s.received,
    (∃ c ∈ s.connections, c.pending = some r) ∨ ∃ published, (r, published) ∈ s.handled
  kept : ∀ e ∈ s.handled, Receipt.Kept decode e.1 e.2

/-- The packet is sent; one received under an activation comes with the spelling of `str`, and the
activation is the last command about the switch; one received while the switch was off is not
overtaken by an activation. A vehicle that stands still needs none of this. -/
def Obeys (s : IngestState) : IngestAction → Prop
  | .forward i sent => ∀ c ∈ s.connections[i]?, ∀ r ∈ c.pending, ∀ u ∈ parse c.vehicleId,
    let active := last Prod.fst s.switches.commands (uuidStr u) = some (uuidStr u, .activate)
    (r.activated = true → sent = true ∧
      (c.vehicleId = uuidStr u ∧ active ∨ r.packet.speedKph = 0)) ∧
    (r.off = true → sent = true ∧ ((c.vehicleId = uuidStr u → ¬active) ∨ r.packet.speedKph = 0))
  | _ => True

/-! ### What a packet becomes

The message has the fields of the packet, or zero for the speed. The two are one for a vehicle that
stands still. -/

section Packets

variable {parse decode} {packet : TelemetryPacket} {raw v : String} {active : Bool}

theorem message_stopped_eq_iff :
    packet.stopped.message v = packet.message v ↔ packet.speedKph = 0 := by
  simp [TelemetryPacket.message, TelemetryPacket.stopped, eq_comm]

/-- A packet is published as stopped if the switch is on, or if the vehicle stands still. -/
theorem applyKillSwitch_stopped_iff :
    (applyKillSwitch packet active).message v = packet.stopped.message v ↔
      active = true ∨ packet.speedKph = 0 := by
  cases active with
  | false => exact eq_comm.trans (message_stopped_eq_iff.trans (by simp))
  | true => simp [applyKillSwitch]

/-- A packet is published as it is if the switch is off, or if the vehicle stands still. -/
theorem applyKillSwitch_unchanged_iff :
    (applyKillSwitch packet active).message v = packet.message v ↔
      active = false ∨ packet.speedKph = 0 := by
  cases active with
  | false => simp [applyKillSwitch]
  | true => exact message_stopped_eq_iff.trans (by simp)

end Packets

/-! ### What a step does -/

/-- The ways a step can go. -/
inductive IngestStep (s : IngestState) : IngestAction → IngestState → Prop
  | toggled (path : String) (toggle : Toggle) (adminId u : Uuid) (switches : KillSwitchState)
      (hpath : parse path = some u)
      (hswitches : KillSwitchStep s.switches (.arrive toggle adminId u) switches) :
      IngestStep s (.toggle path toggle adminId) { s with
        switches
        marks := if toggle = .deactivate then s.marks ++ [(u, toggle)] else s.marks }
  | switched (b : KillSwitchAction) (switches : KillSwitchState)
      (hb : ∀ toggle adminId u, b ≠ .arrive toggle adminId u)
      (hswitches : KillSwitchStep s.switches b switches) :
      IngestStep s (.switches b)
        { s with switches, unanswered := s.unanswered ++ committedToggle s.switches b }
  | answered (i : ℕ) (mark : Uuid × Toggle) (hi : s.unanswered[i]? = some mark) :
      IngestStep s (.answer i) { s with
        unanswered := s.unanswered.eraseIdx i
        marks := if mark.2 = .activate then s.marks ++ [mark] else s.marks }
  | replayed (path : String) (toggle : Toggle) (u : Uuid) :
      IngestStep s (.replay path toggle) { s with marks := s.marks ++ [(u, toggle)] }
  | connected (vehicleId : String) :
      IngestStep s (.connect vehicleId)
        { s with connections := s.connections ++ [{ vehicleId }] }
  | rejected (i : ℕ) (raw : String) : IngestStep s (.receive i raw) s
  | received (i : ℕ) (raw : String) (c : Connection) (packet : TelemetryPacket)
      (hi : s.connections[i]? = some c) (hidle : c.pending = none)
      (hpacket : parsePacket decode raw = some packet) :
      IngestStep s (.receive i raw) { s with
        connections := s.connections.set i
          { c with pending := some (s.receipt parse c.vehicleId raw packet) }
        received := s.received ++ [s.receipt parse c.vehicleId raw packet] }
  | forwarded (i : ℕ) (sent : Bool) (c : Connection) (r : Receipt)
      (hi : s.connections[i]? = some c) (hr : c.pending = some r) :
      IngestStep s (.forward i sent) { s with
        connections :=
          if sent then s.connections.set i { c with pending := none } else s.connections.eraseIdx i
        handled := s.handled ++ [(r, if sent then
          some ((applyKillSwitch r.packet (isActive s.switches.redis c.vehicleId)).message
            c.vehicleId)
          else none)] }

theorem ingestStep_cases {s s' : IngestState} {a : IngestAction}
    (h : ingestStep parse decode s a = some s') : IngestStep parse decode s a s' := by
  cases a with
  | toggle path toggle adminId =>
    simp only [ingestStep, Option.bind_eq_bind, Option.bind_eq_some_iff, Option.some.injEq] at h
    obtain ⟨u, hpath, switches, hswitches, rfl⟩ := h
    exact .toggled path toggle adminId u switches hpath (killSwitchStep_cases hswitches)
  | switches b =>
    have hb : ∀ toggle adminId u, b ≠ .arrive toggle adminId u := by
      rintro _ _ _ rfl
      cases h
    have h : (killSwitchStep s.switches b).bind (fun switches => some { s with
        switches, unanswered := s.unanswered ++ committedToggle s.switches b }) = some s' := by
      cases b <;> first | exact h | cases h
    obtain ⟨switches, hswitches, h⟩ := Option.bind_eq_some_iff.mp h
    cases h
    exact .switched b switches hb (killSwitchStep_cases hswitches)
  | answer i =>
    simp only [ingestStep, Option.bind_eq_bind, Option.bind_eq_some_iff, Option.some.injEq] at h
    obtain ⟨mark, hi, rfl⟩ := h
    exact .answered i mark hi
  | replay path toggle =>
    simp only [ingestStep, Option.bind_eq_bind, Option.bind_eq_some_iff,
      Option.ite_none_right_eq_some, Option.some.injEq] at h
    obtain ⟨u, -, -, rfl⟩ := h
    exact .replayed path toggle u
  | connect vehicleId =>
    cases h
    exact .connected vehicleId
  | receive i raw =>
    simp only [ingestStep, Option.bind_eq_bind, Option.bind_eq_some_iff,
      Option.ite_none_left_eq_some] at h
    obtain ⟨c, hi, hidle, h⟩ := h
    split at h
    · cases h
      exact .rejected i raw
    · rename_i packet hpacket
      cases h
      exact .received i raw c packet hi (Option.not_isSome_iff_eq_none.mp hidle) hpacket
  | forward i sent =>
    simp only [ingestStep, Option.bind_eq_bind, Option.bind_eq_some_iff, Option.some.injEq] at h
    obtain ⟨c, hi, r, hr, rfl⟩ := h
    exact .forwarded i sent c r hi hr

/-! ### The switch that is read

The flag is looked up by a text, and commands write it by the text of a UUID. The two meet exactly
if the path is spelled as `str` spells it. -/

/-- What holds of every reachable state. -/
structure IngestOk (s : IngestState) : Prop where
  switches : KillSwitchOk s.switches
  requests : ∀ r ∈ s.switches.requests, ∃ path, parse path = some r.vehicleId
  commands : ∀ c ∈ s.switches.commands, ∃ path u, parse path = some u ∧ c.1 = uuidStr u
  connections : ∀ c ∈ s.connections, ∀ r ∈ c.pending,
    r.vehicleId = c.vehicleId ∧ parsePacket decode r.raw = some r.packet ∧
      (parse r.vehicleId = none → r.activated = false ∧ r.off = false)
  accounted : ∀ r ∈ s.received,
    (∃ c ∈ s.connections, c.pending = some r) ∨ ∃ published, (r, published) ∈ s.handled

section Runs

variable {parse decode} {s s' : IngestState} {a : IngestAction} {v : String} {u : Uuid}

/-- **The switch that is read** is that of the vehicle, if the path spells it as `str` does; with
any other spelling it is always off. -/
theorem isActive_iff (hparse : ∀ path u, parse path = some u → parse (uuidStr u) = some u)
    (hs : IngestOk parse decode s) (hv : parse v = some u) :
    isActive s.switches.redis v = true ↔ v = uuidStr u ∧
      last Prod.fst s.switches.commands (uuidStr u) = some (uuidStr u, .activate) := by
  rw [hs.switches.redis_eq, isActive_runToggles]
  constructor
  · intro hlast
    obtain ⟨path, w, hpath, hw⟩ := hs.commands _ (mem_of_last hlast).1
    obtain rfl : v = uuidStr w := hw
    obtain rfl : w = u := Option.some.inj ((hparse path w hpath).symm.trans hv)
    exact ⟨rfl, hlast⟩
  · rintro ⟨rfl, hlast⟩
    exact hlast

theorem IngestOk.init : IngestOk parse decode {} :=
  ⟨.init, by simp, by simp, by simp, by simp⟩

/-- The admin service takes a step. -/
theorem IngestOk.toggled (hs : IngestOk parse decode s) {b : KillSwitchAction}
    {switches : KillSwitchState} (h : KillSwitchStep s.switches b switches)
    (harrive : ∀ toggle adminId u, b = .arrive toggle adminId u → ∃ path, parse path = some u)
    (unanswered marks : List (Uuid × Toggle)) :
    IngestOk parse decode { s with switches, unanswered, marks } := by
  obtain ⟨hrequests, hcommands⟩ := h.vehicles
  refine { hs with
    switches := hs.switches.step h
    requests := fun r' hr' => ?_
    commands := fun c hc => ?_ }
  · rcases hrequests r' hr' with ⟨r, hr, hvehicle⟩ | ⟨toggle, adminId, hb⟩
    · exact hvehicle ▸ hs.requests r hr
    · exact harrive toggle adminId _ hb
  · rcases hcommands c hc with hc | ⟨r, hr, hc⟩
    · exact hs.commands c hc
    · obtain ⟨path, hpath⟩ := hs.requests r hr
      exact ⟨path, r.vehicleId, hpath, hc⟩

/-- **Every step keeps the invariant.** -/
theorem IngestOk.step (hs : IngestOk parse decode s) (h : IngestStep parse decode s a s') :
    IngestOk parse decode s' := by
  cases h with
  | toggled path toggle adminId u switches hpath hswitches =>
    refine hs.toggled hswitches (fun _ _ w hb => ?_) _ _
    cases hb
    exact ⟨path, hpath⟩
  | switched b switches hb hswitches =>
    exact hs.toggled hswitches (fun t m u heq => absurd heq (hb t m u)) _ _
  | answered i mark hi => exact { hs with }
  | replayed path toggle u => exact { hs with }
  | connected vehicleId =>
    refine { hs with
      connections := fun c hc => ?_
      accounted := fun r hr => ?_ }
    · rcases List.mem_append.mp hc with hc | hc
      · exact hs.connections c hc
      · rw [List.mem_singleton.mp hc]
        exact nofun
    · exact (hs.accounted r hr).imp_left fun ⟨c, hc, hr⟩ => ⟨c, List.mem_append_left _ hc, hr⟩
  | rejected i raw => exact hs
  | received i raw c packet hi hidle hpacket =>
    obtain ⟨hlt, -⟩ := List.getElem?_eq_some_iff.mp hi
    refine { hs with
      connections := fun c' hc' r hr => ?_
      accounted := fun r hr => ?_ }
    · rcases List.mem_or_eq_of_mem_set hc' with hc' | rfl
      · exact hs.connections c' hc' r hr
      · obtain rfl := Option.some.inj hr
        refine ⟨rfl, hpacket, fun hnone => ?_⟩
        have hnone : parse c.vehicleId = none := hnone
        simp [IngestState.receipt, hnone]
    · rcases List.mem_append.mp hr with hr | hr
      · refine (hs.accounted r hr).imp_left fun ⟨c', hc', hpending⟩ => ?_
        rcases ProcessFamily.eq_or_mem_eraseIdx hi hc' with rfl | hc'
        · cases hidle.symm.trans hpending
        · exact ⟨c', ProcessFamily.mem_set_of_mem_eraseIdx hi hc', hpending⟩
      · rw [List.mem_singleton.mp hr]
        exact .inl ⟨_, List.mem_set hlt _, rfl⟩
  | forwarded i sent c receipt hi hpending =>
    refine { hs with
      connections := fun c' hc' r hr => ?_
      accounted := fun r hr => ?_ }
    · cases sent with
      | true =>
        rcases List.mem_or_eq_of_mem_set hc' with hc' | rfl
        · exact hs.connections c' hc' r hr
        · cases hr
      | false => exact hs.connections c' (ProcessFamily.mem_of_mem_eraseIdx hc') r hr
    · rcases hs.accounted r hr with ⟨c', hc', hr'⟩ | ⟨published, hr'⟩
      · rcases ProcessFamily.eq_or_mem_eraseIdx hi hc' with rfl | hc'
        · obtain rfl := Option.some.inj (hr'.symm.trans hpending)
          exact .inr ⟨_, List.mem_append_right _ List.mem_cons_self⟩
        · refine .inl ⟨c', ?_, hr'⟩
          cases sent with
          | true => exact ProcessFamily.mem_set_of_mem_eraseIdx hi hc'
          | false => exact hc'
      · exact .inr ⟨published, List.mem_append_left _ hr'⟩

theorem ingestOk_of_reachable (h : (ingest parse decode).Reachable s) : IngestOk parse decode s :=
  h.invariant _ .init fun _ _ _ _ hs hstep => hs.step (ingestStep_cases parse decode hstep)

/-- **When a packet is forwarded as promised.** -/
theorem forwarded_iff (hparse : ∀ path u, parse path = some u → parse (uuidStr u) = some u)
    (hs : IngestOk parse decode s) {i : ℕ} {sent : Bool} {c : Connection} {r : Receipt}
    (hi : s.connections[i]? = some c) (hr : c.pending = some r) :
    Receipt.Kept decode r (if sent then
        some ((applyKillSwitch r.packet (isActive s.switches.redis c.vehicleId)).message
          c.vehicleId)
      else none) ↔ Obeys parse s (.forward i sent) := by
  obtain ⟨hv, hvalid, hnone⟩ := hs.connections c (List.mem_of_getElem? hi) r hr
  rw [← hv]
  have hobeys : Obeys parse s (.forward i sent) ↔ ∀ u ∈ parse r.vehicleId,
      (r.activated = true → sent = true ∧
        (isActive s.switches.redis r.vehicleId = true ∨ r.packet.speedKph = 0)) ∧
      (r.off = true → sent = true ∧
        (isActive s.switches.redis r.vehicleId = false ∨ r.packet.speedKph = 0)) := by
    simp only [Obeys, hi, hr, Option.mem_some, forall_eq', hv]
    refine forall₂_congr fun u hu => ?_
    rw [← Bool.not_eq_true, isActive_iff hparse hs hu, not_and]
  rw [hobeys]
  cases hu : parse r.vehicleId with
  | none =>
    obtain ⟨hactivated, hoff⟩ := hnone hu
    refine iff_of_true ⟨hvalid, ?_, ?_⟩ fun u hu => absurd hu (Option.not_mem_none u)
    · rw [hactivated]
      exact fun h => absurd h Bool.false_ne_true
    · rw [hoff]
      exact fun h => absurd h Bool.false_ne_true
  | some u =>
    simp only [Option.mem_some, forall_eq']
    have hsent : ∀ {message message' : TelemetryMessage},
        (if sent then some message else none) = some message' ↔
          sent = true ∧ message = message' := by
      simp
    constructor
    · intro hkept
      refine ⟨fun hactivated => ?_, fun hoff => ?_⟩
      · exact (hsent.mp (hkept.stopped hactivated)).imp_right applyKillSwitch_stopped_iff.mp
      · exact (hsent.mp (hkept.unchanged hoff)).imp_right applyKillSwitch_unchanged_iff.mp
    · rintro ⟨hactivated, hoff⟩
      refine ⟨hvalid, fun h => ?_, fun h => ?_⟩
      · exact hsent.mpr ((hactivated h).imp_right applyKillSwitch_stopped_iff.mpr)
      · exact hsent.mpr ((hoff h).imp_right applyKillSwitch_unchanged_iff.mpr)

/-- Only a packet that is forwarded is handled. -/
theorem IngestStep.handled_cases (h : IngestStep parse decode s a s') :
    (∃ i sent c r, a = .forward i sent ∧ s.connections[i]? = some c ∧ c.pending = some r ∧
      s'.handled = s.handled ++ [(r, if sent then
        some ((applyKillSwitch r.packet (isActive s.switches.redis c.vehicleId)).message
          c.vehicleId)
        else none)]) ∨
      s'.handled = s.handled ∧ Obeys parse s a := by
  cases h with
  | forwarded i sent c r hi hr => exact .inl ⟨i, sent, c, r, rfl, hi, hr, rfl⟩
  | toggled | switched | answered | replayed | connected | rejected | received =>
    exact .inr ⟨rfl, True.intro⟩

/-- **When the kill switch is enforced**: when every packet that is received under an activation,
or while the switch is off, is forwarded as the condition says. -/
theorem kill_switch_enforced_iff
    (hparse : ∀ path u, parse path = some u → parse (uuidStr u) = some u)
    {run : List (IngestState × IngestAction)}
    (h : (ingest parse decode).Exec (ingest parse decode).init run s) :
    TransitionSystem.Throughout (Enforced decode) run s ↔ ∀ x ∈ run, Obeys parse x.1 x.2 := by
  refine h.forall_iff (Enforced decode) (Obeys parse)
    ⟨fun _ hr => absurd hr List.not_mem_nil, fun _ he => absurd he List.not_mem_nil⟩
    fun s a s' hr henforced hstep => ?_
  have hs : IngestOk parse decode s := ingestOk_of_reachable hr
  have hcases : IngestStep parse decode s a s' := ingestStep_cases parse decode hstep
  have hs' : IngestOk parse decode s' := hs.step hcases
  rcases hcases.handled_cases with ⟨i, sent, c, r, rfl, hi, hr, hhandled⟩ | ⟨hhandled, hobeys⟩
  · rw [← forwarded_iff hparse hs hi hr]
    constructor
    · intro henforced'
      exact henforced'.kept (r, _) (hhandled ▸ List.mem_append_right _ List.mem_cons_self)
    · intro hkept
      refine ⟨hs'.accounted, fun e he => ?_⟩
      rw [hhandled] at he
      rcases List.mem_append.mp he with he | he
      · exact henforced.kept e he
      · rw [List.mem_singleton.mp he]
        exact hkept
  · exact iff_of_true ⟨hs'.accounted, hhandled ▸ henforced.kept⟩ hobeys

end Runs

/-- A frame of a car at 80 km/h. -/
def sampleFrame : String :=
  "\x7b\"lat\": 37, \"lng\": -122, \"speed_kph\": 80, \"recorded_at\": \"2026-01-01T00:00:00\"\x7d"

def sampleFields : PacketFields := ⟨37, -122, 80, "2026-01-01T00:00:00"⟩

/-- The only frame that is decoded is the sample. -/
def sampleDecode (raw : String) : Option PacketFields :=
  if raw = sampleFrame then some sampleFields else none

/-- An activation returns, and the car sends a frame over a connection that spells its UUID in
upper case. -/
def sampleUpperCase : List IngestAction :=
  [.toggle "a0000000-0000-0000-0000-000000000000" .activate 1, .switches (.write 0),
    .switches (.record 0 10), .switches (.commit 0), .answer 0,
    .connect "A0000000-0000-0000-0000-000000000000", .receive 0 sampleFrame, .forward 0 true]

theorem parse_uuidStr_of_uuidOfString (path : String) (u : Uuid)
    (h : uuidOfString path = some u) : uuidOfString (uuidStr u) = some u :=
  uuidOfString_uuidStr (uuidOfString_lt h)

theorem sampleFields_inBounds : sampleFields.InBounds := by decide +kernel

/-- The packet of the sample, received under the activation. -/
def sampleReceipt : Receipt where
  vehicleId := "A0000000-0000-0000-0000-000000000000"
  raw := sampleFrame
  packet := ⟨sampleFields, sampleFields_inBounds⟩
  activated := true
  off := false

/-- The car whose UUID is spelled in upper case is published at 80 km/h. -/
theorem sampleUpperCase_end :
    ∃ s, (ingest uuidOfString sampleDecode).run {} sampleUpperCase = some s ∧
      s.handled = [(sampleReceipt, some ⟨"A0000000-0000-0000-0000-000000000000", 37, -122, 80,
        "2026-01-01T00:00:00"⟩)] := by
  rw [← Option.map_eq_some_iff]
  decide +kernel

theorem not_enforced_of_handled {s : IngestState}
    (h : s.handled = [(sampleReceipt, some ⟨"A0000000-0000-0000-0000-000000000000", 37, -122, 80,
      "2026-01-01T00:00:00"⟩)]) : ¬ Enforced sampleDecode s := by
  intro henforced
  have hkept := henforced.kept _ (h ▸ List.mem_cons_self)
  have hspeed := congrArg (Option.map TelemetryMessage.speedKph) (hkept.stopped rfl)
  revert hspeed
  decide +kernel

theorem kill_switch_enforced_iff_sampleUpperCase :
    ∃ s run, (ingest uuidOfString sampleDecode).Exec (ingest uuidOfString sampleDecode).init run s ∧
      run.map Prod.snd = sampleUpperCase ∧
      s.handled = [(sampleReceipt, some ⟨"A0000000-0000-0000-0000-000000000000", 37, -122, 80,
        "2026-01-01T00:00:00"⟩)] ∧
      ¬ TransitionSystem.Throughout (Enforced sampleDecode) run s ∧
      ¬ ∀ x ∈ run, Obeys uuidOfString x.1 x.2 := by
  obtain ⟨s, hrun, hhandled⟩ := sampleUpperCase_end
  have hexec := TransitionSystem.exec_steps hrun
  have hnot := TransitionSystem.not_throughout
    ((ingest uuidOfString sampleDecode).steps {} sampleUpperCase) (not_enforced_of_handled hhandled)
  exact ⟨s, _, hexec, TransitionSystem.map_snd_steps hrun, hhandled, hnot,
    (kill_switch_enforced_iff parse_uuidStr_of_uuidOfString hexec).not.mp hnot⟩

theorem kill_switch_evaded :
    uuidOfString sampleReceipt.vehicleId = uuidOfString "a0000000-0000-0000-0000-000000000000" ∧
      ∃ s, (ingest uuidOfString sampleDecode).Reachable s ∧
        s.handled = [(sampleReceipt, some ⟨"A0000000-0000-0000-0000-000000000000", 37, -122, 80,
          "2026-01-01T00:00:00"⟩)] ∧
        ¬ Enforced sampleDecode s := by
  obtain ⟨s, hrun, hhandled⟩ := sampleUpperCase_end
  exact ⟨by decide +kernel, s, TransitionSystem.reachable_of_run .init hrun, hhandled,
    not_enforced_of_handled hhandled⟩

end CarFlow
