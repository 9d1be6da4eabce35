import CarFlow.Lib.LastWrite
import CarFlow.Lib.TransitionSystem
import Mathlib.Data.Rat.Defs
import Mathlib.Logic.Function.Basic

/-!
# The telemetry consumer

`services/telemetry/consumer.py`: the consumer of the raw packets. It fetches a batch, inserts it
into Mongo, writes the last location of each vehicle to Redis, and commits the offsets of all its
partitions, in four systems without a common transaction. A crash at any point throws away what the
process had in hand, and the next one starts at the committed offsets.

## The model

* A packet is published under its vehicle, so the packets of a vehicle are in one partition.
* `getmany` returns any number of records of any partitions, partition by partition in any order.
* A crash in the middle of `insert_many` leaves the first documents of the batch.
* The locations do not expire.

A batch that is processed again may be cut in another way, and a location then moves back. It never
moves back beyond the committed offset.

## Implementation notes

The four systems are four fields of the state, and the process is one: what it has in hand, and the
positions it has read up to. The steps are the awaits of the loop. `getmany` takes its batch in any
order of the partitions and of any size, as an argument of the step, so that a batch that is fetched
again after a crash may be another one.

## Main results

* `buildBatch_eq` — the batch, and the last packet of each vehicle in it
* `TelemetryOk.step` — the invariant
* `telemetry_neither_lost_nor_stale` — **no packet is lost, no location is stale**
-/

namespace CarFlow

open LastWrite

/-! ### Batches

What the loop makes of the records it is given: one document for each, and for each vehicle its
last. -/

/-- The message of `publish_packet`. -/
structure TelemetryMessage where
  vehicleId : String
  lat : ℚ
  lng : ℚ
  speedKph : ℚ
  recordedAt : String
  deriving DecidableEq

/-- What `write_latest_position` stores. -/
structure Location where
  lat : ℚ
  lng : ℚ
  recordedAt : String
  deriving DecidableEq

def TelemetryMessage.location (packet : TelemetryMessage) : Location where
  lat := packet.lat
  lng := packet.lng
  recordedAt := packet.recordedAt

/-- `build_batch`: the documents, and `latest_by_vehicle`. -/
def buildBatch (rawRecords : List TelemetryMessage) :
    List TelemetryMessage × List (String × TelemetryMessage) :=
  rawRecords.foldl (fun (documents, latestByVehicle) packet =>
    (documents ++ [packet], set latestByVehicle packet.vehicleId packet)) ([], [])

/-- **A batch** is stored as it is, with the last packet of each vehicle. -/
theorem buildBatch_eq (rawRecords : List TelemetryMessage) :
    buildBatch rawRecords = (rawRecords, dict TelemetryMessage.vehicleId rawRecords) := by
  induction rawRecords using List.reverseRecOn with
  | nil => rfl
  | append_singleton rawRecords packet ih =>
    rw [buildBatch, List.foldl_concat, ← buildBatch, ih, dict, dict, List.foldl_concat]

/-! ### The consumer -/

/-- How far the consumer is with a batch. -/
inductive BatchStage
  | idle
  | fetched (rawRecords : List TelemetryMessage)
  /-- The batch is in Mongo; these locations are still to be written. -/
  | writing (remaining : List (String × TelemetryMessage))

/-- A process that runs `run_telemetry_consumer`: its position in each partition, and the batch it
has in hand. -/
structure TelemetryProcess where
  positions : ℕ → ℕ
  stage : BatchStage := .idle

/-- Kafka, Mongo, Redis and the consumer. -/
structure TelemetryState where
  partitions : ℕ → List TelemetryMessage := fun _ => []
  /-- The committed offsets; `auto_offset_reset` is `earliest`. -/
  offsets : ℕ → ℕ := fun _ => 0
  /-- The documents of `packets`. -/
  packets : List TelemetryMessage := []
  /-- The `vehicle-location` keys. -/
  locations : String → Option Location := fun _ => none
  process : Option TelemetryProcess := none

inductive TelemetryAction
  | publish (message : TelemetryMessage)
  | start
  | getmany (order : List ℕ) (count : ℕ → ℕ)
  | insertMany
  /-- The process crashes when `n` documents are inserted. -/
  | insertPartly (n : ℕ)
  | writeLatestPosition
  | commit
  | crash

/-- The records that `getmany` takes from a partition. -/
def TelemetryState.taken (s : TelemetryState) (p : TelemetryProcess) (order : List ℕ)
    (count : ℕ → ℕ) (q : ℕ) : List TelemetryMessage :=
  if q ∈ order then ((s.partitions q).drop (p.positions q)).take (count q) else []

/-- One step. The partition of a packet is chosen by its vehicle. -/
def telemetryStep (partitionOf : String → ℕ) (s : TelemetryState) :
    TelemetryAction → Option TelemetryState
  | .publish message =>
    let q := partitionOf message.vehicleId
    some { s with partitions := Function.update s.partitions q (s.partitions q ++ [message]) }
  | .start =>
    match s.process with
    | none => some { s with process := some { positions := s.offsets } }
    | some _ => none
  | .getmany order count => do
    let p ← s.process
    match p.stage with
    | .idle =>
      if order.Nodup then
        let rawRecords := order.flatMap (s.taken p order count)
        if rawRecords = [] then some s
        else
          let p : TelemetryProcess :=
            { positions := fun q => p.positions q + (s.taken p order count q).length
              stage := .fetched rawRecords }
          some { s with process := p }
      else none
    | _ => none
  | .insertMany => do
    let p ← s.process
    match p.stage with
    | .fetched rawRecords =>
      let (documents, latestByVehicle) := buildBatch rawRecords
      some { s with
        packets := s.packets ++ documents
        process := some { p with stage := .writing latestByVehicle } }
    | _ => none
  | .insertPartly n => do
    let p ← s.process
    match p.stage with
    | .fetched rawRecords =>
      let (documents, _) := buildBatch rawRecords
      some { s with packets := s.packets ++ documents.take n, process := none }
    | _ => none
  | .writeLatestPosition => do
    let p ← s.process
    match p.stage with
    | .writing ((vehicleId, packet) :: remaining) =>
      some { s with
        locations := Function.update s.locations vehicleId (some packet.location)
        process := some { p with stage := .writing remaining } }
    | _ => none
  | .commit => do
    let p ← s.process
    match p.stage with
    | .writing [] =>
      some { s with offsets := p.positions, process := some { p with stage := .idle } }
    | _ => none
  | .crash => some { s with process := none }

/-- The consumer, with the partitioner of Kafka. -/
def telemetryConsumer (partitionOf : String → ℕ) :
    TransitionSystem TelemetryState TelemetryAction where
  init := {}
  step := telemetryStep partitionOf

/-- The ways a step can go. -/
inductive TelemetryStep (partitionOf : String → ℕ) (s : TelemetryState) : TelemetryState → Prop
  | published (message : TelemetryMessage) :
      TelemetryStep partitionOf s { s with
        partitions := Function.update s.partitions (partitionOf message.vehicleId)
          (s.partitions (partitionOf message.vehicleId) ++ [message]) }
  | started (hnone : s.process = none) :
      TelemetryStep partitionOf s { s with process := some { positions := s.offsets } }
  | polled : TelemetryStep partitionOf s s
  | fetched (p : TelemetryProcess) (order : List ℕ) (count : ℕ → ℕ) (hp : s.process = some p)
      (hidle : p.stage = .idle) (horder : order.Nodup) :
      TelemetryStep partitionOf s { s with
        process := some { positions := fun q => p.positions q + (s.taken p order count q).length
                          stage := .fetched (order.flatMap (s.taken p order count)) } }
  | inserted (p : TelemetryProcess) (rawRecords : List TelemetryMessage) (hp : s.process = some p)
      (hfetched : p.stage = .fetched rawRecords) :
      TelemetryStep partitionOf s { s with
        packets := s.packets ++ rawRecords
        process := some { p with stage := .writing (dict TelemetryMessage.vehicleId rawRecords) } }
  | insertedPartly (p : TelemetryProcess) (rawRecords : List TelemetryMessage) (n : ℕ)
      (hp : s.process = some p) (hfetched : p.stage = .fetched rawRecords) :
      TelemetryStep partitionOf s { s with
        packets := s.packets ++ rawRecords.take n
        process := none }
  | wrote (p : TelemetryProcess) (vehicleId : String) (packet : TelemetryMessage)
      (remaining : List (String × TelemetryMessage)) (hp : s.process = some p)
      (hwriting : p.stage = .writing ((vehicleId, packet) :: remaining)) :
      TelemetryStep partitionOf s { s with
        locations := Function.update s.locations vehicleId (some packet.location)
        process := some { p with stage := .writing remaining } }
  | committed (p : TelemetryProcess) (hp : s.process = some p) (hwriting : p.stage = .writing []) :
      TelemetryStep partitionOf s { s with
        offsets := p.positions
        process := some { p with stage := .idle } }
  | crashed : TelemetryStep partitionOf s { s with process := none }

section Telemetry

variable {partitionOf : String → ℕ} {s s' : TelemetryState} {a : TelemetryAction}

theorem telemetryStep_cases (h : telemetryStep partitionOf s a = some s') :
    TelemetryStep partitionOf s s' := by
  cases a with
  | publish message =>
    cases h
    exact .published message
  | start =>
    simp only [telemetryStep] at h
    split at h
    · rename_i hnone
      cases h
      exact .started hnone
    · cases h
  | getmany order count =>
    simp only [telemetryStep, Option.bind_eq_bind, Option.bind_eq_some_iff] at h
    obtain ⟨p, hp, h⟩ := h
    split at h
    swap
    · cases h
    rename_i hidle
    split at h
    swap
    · cases h
    rename_i horder
    split at h
    · cases h
      exact .polled
    · cases h
      exact .fetched p order count hp hidle horder
  | insertMany =>
    simp only [telemetryStep, Option.bind_eq_bind, Option.bind_eq_some_iff, buildBatch_eq] at h
    obtain ⟨p, hp, h⟩ := h
    split at h
    · rename_i rawRecords hfetched
      cases h
      exact .inserted p rawRecords hp hfetched
    · cases h
  | insertPartly n =>
    simp only [telemetryStep, Option.bind_eq_bind, Option.bind_eq_some_iff, buildBatch_eq] at h
    obtain ⟨p, hp, h⟩ := h
    split at h
    · rename_i rawRecords hfetched
      cases h
      exact .insertedPartly p rawRecords n hp hfetched
    · cases h
  | writeLatestPosition =>
    simp only [telemetryStep, Option.bind_eq_bind, Option.bind_eq_some_iff] at h
    obtain ⟨p, hp, h⟩ := h
    split at h
    · rename_i vehicleId packet remaining hwriting
      cases h
      exact .wrote p vehicleId packet remaining hp hwriting
    · cases h
  | commit =>
    simp only [telemetryStep, Option.bind_eq_bind, Option.bind_eq_some_iff] at h
    obtain ⟨p, hp, h⟩ := h
    split at h
    · rename_i hwriting
      cases h
      exact .committed p hp hwriting
    · cases h
  | crash =>
    cases h
    exact .crashed

/-! ### Locations

The location of a vehicle is that of some packet from the committed offset on, or the last before
it. -/

/-- The packets of a vehicle in a partition, in order. -/
def packetsOf (partition : List TelemetryMessage) (vehicleId : String) : List TelemetryMessage :=
  writesTo TelemetryMessage.vehicleId partition vehicleId

/-- The last of them. -/
def lastPacket (partition : List TelemetryMessage) (vehicleId : String) :
    Option TelemetryMessage :=
  last TelemetryMessage.vehicleId partition vehicleId

/-- The location has the coordinates and the timestamp of a packet of the vehicle, not older than
the last of those below the offset. If there is no location, there is no such packet. -/
def Recent (partition : List TelemetryMessage) (offset : ℕ) (vehicleId : String) :
    Option Location → Prop
  | none => packetsOf (partition.take offset) vehicleId = []
  | some location => ∃ k packet, (packetsOf partition vehicleId)[k]? = some packet ∧
      location = ⟨packet.lat, packet.lng, packet.recordedAt⟩ ∧
      (packetsOf (partition.take offset) vehicleId).length ≤ k + 1

section Recent

variable {partition : List TelemetryMessage} {offset position : ℕ} {vehicleId : String}
  {location : Option Location} {packet : TelemetryMessage}

theorem packetsOf_append (ms ms' : List TelemetryMessage) (vehicleId : String) :
    packetsOf (ms ++ ms') vehicleId = packetsOf ms vehicleId ++ packetsOf ms' vehicleId :=
  writesTo_append

theorem lastPacket_eq (ms : List TelemetryMessage) (vehicleId : String) :
    lastPacket ms vehicleId = (packetsOf ms vehicleId).getLast? := rfl

/-- The packets of a partition from one position to another. -/
def segment (partition : List TelemetryMessage) (offset position : ℕ) :
    List TelemetryMessage :=
  (partition.take position).drop offset

theorem take_append_segment (h : offset ≤ position) :
    partition.take offset ++ segment partition offset position = partition.take position := by
  have hsplit := List.take_append_drop offset (partition.take position)
  rwa [List.take_take, Nat.min_eq_left h] at hsplit

variable (partition vehicleId) in
theorem packetsOf_take_append (h : offset ≤ position) :
    packetsOf (partition.take position) vehicleId = packetsOf (partition.take offset) vehicleId ++
      packetsOf (segment partition offset position) vehicleId := by
  rw [← take_append_segment h, packetsOf_append]

/-- More packets leave a location as recent as it was. -/
theorem Recent.append (h : Recent partition offset vehicleId location)
    (hoffset : offset ≤ partition.length) (ms : List TelemetryMessage) :
    Recent (partition ++ ms) offset vehicleId location := by
  cases location with
  | none => rwa [Recent, List.take_append_of_le_length hoffset]
  | some location =>
    obtain ⟨k, packet, hk, hlocation, hlength⟩ := h
    refine ⟨k, packet, ?_, hlocation, ?_⟩
    · rw [packetsOf_append, List.getElem?_append_left (List.getElem?_eq_some_iff.mp hk).1]
      exact hk
    · rwa [List.take_append_of_le_length hoffset]

/-- The last packet below a position is as recent as can be. -/
theorem recent_last (hoffset : offset ≤ position)
    (hlast : lastPacket (segment partition offset position) vehicleId =
      some packet) : Recent partition position vehicleId (some packet.location) := by
  rw [lastPacket_eq] at hlast
  obtain ⟨packets, hpackets⟩ := List.getLast?_eq_some_iff.mp hlast
  have hbelow := packetsOf_take_append partition vehicleId hoffset
  rw [hpackets, ← List.append_assoc] at hbelow
  have hsplit : packetsOf partition vehicleId = packetsOf (partition.take position) vehicleId ++
      packetsOf (partition.drop position) vehicleId := by
    rw [← packetsOf_append, List.take_append_drop]
  refine ⟨(packetsOf (partition.take offset) vehicleId ++ packets).length, packet, ?_, rfl, ?_⟩
  · rw [hsplit, hbelow, List.append_assoc, List.singleton_append, List.getElem?_append_right
      (Nat.le_refl _), Nat.sub_self]
    rfl
  · rw [hbelow, List.length_append, List.length_singleton]

/-- What is recent at a position is recent at an earlier one. -/
theorem Recent.mono (h : Recent partition position vehicleId location)
    (hoffset : offset ≤ position) :
    Recent partition offset vehicleId location := by
  have hbelow := packetsOf_take_append partition vehicleId hoffset
  cases location with
  | none =>
    rw [Recent, hbelow, List.append_eq_nil_iff] at h
    exact h.1
  | some location =>
    obtain ⟨k, packet, hk, hlocation, hlength⟩ := h
    rw [hbelow, List.length_append] at hlength
    exact ⟨k, packet, hk, hlocation, by omega⟩

/-- Packets of other vehicles do not make a location older. -/
theorem Recent.advance (h : Recent partition offset vehicleId location)
    (hoffset : offset ≤ position)
    (hnone : lastPacket (segment partition offset position) vehicleId = none) :
    Recent partition position vehicleId location := by
  have hbelow := packetsOf_take_append partition vehicleId hoffset
  have hnil : packetsOf (segment partition offset position) vehicleId = [] :=
    List.getLast?_eq_none_iff.mp hnone
  rw [hnil, List.append_nil] at hbelow
  cases location with
  | none => rwa [Recent, hbelow]
  | some location =>
    obtain ⟨k, packet, hk, hlocation, hlength⟩ := h
    exact ⟨k, packet, hk, hlocation, hbelow ▸ hlength⟩

/-- At the end of the partition only the last packet is recent. -/
theorem Recent.eq_last (h : Recent partition offset vehicleId location)
    (hend : partition.length ≤ offset) :
    location = (lastPacket partition vehicleId).map fun packet =>
      ⟨packet.lat, packet.lng, packet.recordedAt⟩ := by
  cases location with
  | none =>
    rw [Recent, List.take_of_length_le hend] at h
    rw [lastPacket_eq, h]
    rfl
  | some location =>
    obtain ⟨k, packet, hk, rfl, hlength⟩ := h
    rw [List.take_of_length_le hend] at hlength
    have hlt := (List.getElem?_eq_some_iff.mp hk).1
    obtain rfl : k = (packetsOf partition vehicleId).length - 1 := by omega
    rw [lastPacket_eq, List.getLast?_eq_getElem?, hk]
    rfl

end Recent

/-! ### The invariant -/

/-- What holds of a process: at the start of a batch it is at the committed offsets, and the batch
it has in hand is what lies between those and its positions. -/
structure TelemetryProcess.Ok (partitionOf : String → ℕ) (s : TelemetryState)
    (p : TelemetryProcess) : Prop where
  positions : ∀ q, s.offsets q ≤ p.positions q ∧ p.positions q ≤ (s.partitions q).length
  idle : p.stage = .idle → p.positions = s.offsets
  fetched : ∀ rawRecords, p.stage = .fetched rawRecords → ∀ vehicleId,
    packetsOf rawRecords vehicleId =
      packetsOf (segment (s.partitions (partitionOf vehicleId)) (s.offsets (partitionOf vehicleId))
        (p.positions (partitionOf vehicleId))) vehicleId
  /-- All packets in hand are in Mongo. -/
  inserted : ∀ remaining, p.stage = .writing remaining →
    ∀ q, ∀ m ∈ (s.partitions q).take (p.positions q), m ∈ s.packets
  /-- A location is the last one in hand, or still to be written. -/
  written : ∀ remaining, p.stage = .writing remaining → ∀ vehicleId packet,
    lastPacket (segment (s.partitions (partitionOf vehicleId))
        (s.offsets (partitionOf vehicleId)) (p.positions (partitionOf vehicleId))) vehicleId =
      some packet →
    (vehicleId, packet) ∈ remaining ∨ s.locations vehicleId = some packet.location
  remaining : ∀ remaining, p.stage = .writing remaining → ∀ e ∈ remaining,
    lastPacket (segment (s.partitions (partitionOf e.1))
        (s.offsets (partitionOf e.1)) (p.positions (partitionOf e.1))) e.1 = some e.2

/-- **The invariant.** -/
structure TelemetryOk (partitionOf : String → ℕ) (s : TelemetryState) : Prop where
  keyed : ∀ q, ∀ m ∈ s.partitions q, partitionOf m.vehicleId = q
  offsets : ∀ q, s.offsets q ≤ (s.partitions q).length
  stored : ∀ q, ∀ m ∈ (s.partitions q).take (s.offsets q), m ∈ s.packets
  located : ∀ vehicleId, Recent (s.partitions (partitionOf vehicleId))
    (s.offsets (partitionOf vehicleId)) vehicleId (s.locations vehicleId)
  process : ∀ p ∈ s.process, p.Ok partitionOf s

/-- More packets at the ends of the partitions make no difference to a process. -/
theorem TelemetryProcess.Ok.append {p : TelemetryProcess} (h : p.Ok partitionOf s)
    (new : ℕ → List TelemetryMessage) :
    p.Ok partitionOf { s with partitions := fun q => s.partitions q ++ new q } := by
  have htake (q : ℕ) : (s.partitions q ++ new q).take (p.positions q) =
      (s.partitions q).take (p.positions q) :=
    List.take_append_of_le_length (h.positions q).2
  have hsegment (q : ℕ) : segment (s.partitions q ++ new q) (s.offsets q) (p.positions q) =
      segment (s.partitions q) (s.offsets q) (p.positions q) := by
    rw [segment, htake q, segment]
  refine ⟨fun q => ⟨(h.positions q).1, ?_⟩, h.idle, ?_, ?_, ?_, ?_⟩
  · rw [List.length_append]
    exact (h.positions q).2.trans (Nat.le_add_right _ _)
  · simpa only [hsegment] using h.fetched
  · simpa only [htake] using h.inserted
  · simpa only [hsegment] using h.written
  · simpa only [hsegment] using h.remaining

/-- What `getmany` takes from a partition is the segment it moves over. -/
theorem segment_taken (s : TelemetryState) (p : TelemetryProcess) (order : List ℕ) (count : ℕ → ℕ)
    (q : ℕ) : segment (s.partitions q) (p.positions q)
      (p.positions q + (s.taken p order count q).length) = s.taken p order count q := by
  rw [segment, List.drop_take, Nat.add_sub_cancel_left, TelemetryState.taken]
  split
  · rw [List.length_take, List.take_eq_take_iff]
    omega
  · rfl

theorem length_taken_le (s : TelemetryState) {p : TelemetryProcess} (order : List ℕ)
    (count : ℕ → ℕ) {q : ℕ} (h : p.positions q ≤ (s.partitions q).length) :
    p.positions q + (s.taken p order count q).length ≤ (s.partitions q).length := by
  unfold TelemetryState.taken
  split
  · rw [List.length_take, List.length_drop]
    omega
  · simpa using h

/-- The packets of a vehicle in a batch are those taken from its partition. -/
theorem packetsOf_taken (hkeyed : ∀ q, ∀ m ∈ s.partitions q, partitionOf m.vehicleId = q)
    (p : TelemetryProcess) {order : List ℕ} (horder : order.Nodup) (count : ℕ → ℕ)
    (vehicleId : String) :
    packetsOf (order.flatMap (s.taken p order count)) vehicleId =
      packetsOf (s.taken p order count (partitionOf vehicleId)) vehicleId := by
  refine writesTo_flatMap horder (fun q _ hne => ?_) fun hnot => if_neg hnot
  refine List.filter_eq_nil_iff.mpr fun m hm hvehicle => hne ?_
  have hmem : m ∈ s.partitions q := by
    by_cases hq : q ∈ order
    · rw [TelemetryState.taken, if_pos hq] at hm
      exact List.mem_of_mem_drop (List.mem_of_mem_take hm)
    · rw [TelemetryState.taken, if_neg hq] at hm
      cases hm
  rw [← of_decide_eq_true hvehicle, hkeyed q m hmem]

/-- A device publishes. -/
theorem TelemetryOk.published (h : TelemetryOk partitionOf s) (message : TelemetryMessage) :
    TelemetryOk partitionOf { s with
      partitions := Function.update s.partitions (partitionOf message.vehicleId)
        (s.partitions (partitionOf message.vehicleId) ++ [message]) } := by
  have hpartitions : Function.update s.partitions (partitionOf message.vehicleId)
      (s.partitions (partitionOf message.vehicleId) ++ [message]) = fun q =>
        s.partitions q ++ if partitionOf message.vehicleId = q then [message] else [] := by
    funext q
    by_cases hq : partitionOf message.vehicleId = q
    · subst hq
      rw [Function.update_self, if_pos rfl]
    · rw [Function.update_of_ne (Ne.symm hq), if_neg hq, List.append_nil]
  rw [hpartitions]
  refine ⟨fun q m hm => ?_, fun q => ?_, fun q m hm => ?_,
    fun vehicleId => (h.located vehicleId).append (h.offsets _) _,
    fun p hp => (h.process p hp).append _⟩
  · rcases List.mem_append.mp hm with hm | hm
    · exact h.keyed q m hm
    · split at hm
      · rename_i hq
        rw [List.mem_singleton.mp hm]
        exact hq
      · cases hm
  · rw [List.length_append]
    exact (h.offsets q).trans (Nat.le_add_right _ _)
  · rw [List.take_append_of_le_length (h.offsets q)] at hm
    exact h.stored q m hm

section Batch

variable {p : TelemetryProcess} (h : TelemetryOk partitionOf s) (hp : s.process = some p)
include h hp

/-- `getmany`. -/
theorem TelemetryOk.fetched (hidle : p.stage = .idle) {order : List ℕ} (horder : order.Nodup)
    (count : ℕ → ℕ) :
    TelemetryOk partitionOf { s with
      process := some { positions := fun q => p.positions q + (s.taken p order count q).length
                        stage := .fetched (order.flatMap (s.taken p order count)) } } := by
  refine { h with process := fun p' hp' => ?_ }
  cases hp'
  have hok := h.process p hp
  have hstart := hok.idle hidle
  refine ⟨fun q => ⟨?_, length_taken_le s order count (hok.positions q).2⟩, nofun, ?_, nofun,
    nofun, nofun⟩
  · rw [← hstart]
    exact Nat.le_add_right _ _
  · intro rawRecords hraw vehicleId
    cases hraw
    have hsegment : segment (s.partitions (partitionOf vehicleId))
        (s.offsets (partitionOf vehicleId)) (p.positions (partitionOf vehicleId) +
          (s.taken p order count (partitionOf vehicleId)).length) =
        s.taken p order count (partitionOf vehicleId) := by
      rw [← hstart]
      exact segment_taken ..
    exact (packetsOf_taken h.keyed p horder count vehicleId).trans
      (congrArg (packetsOf · vehicleId) hsegment.symm)

/-- `insert_many`. -/
theorem TelemetryOk.inserted {rawRecords : List TelemetryMessage}
    (hfetched : p.stage = .fetched rawRecords) :
    TelemetryOk partitionOf { s with
      packets := s.packets ++ rawRecords
      process := some { p with
        stage := .writing (dict TelemetryMessage.vehicleId rawRecords) } } := by
  have hok := h.process p hp
  have hpackets := hok.fetched rawRecords hfetched
  have hlast (vehicleId : String) : last TelemetryMessage.vehicleId rawRecords vehicleId =
      lastPacket (segment (s.partitions (partitionOf vehicleId))
        (s.offsets (partitionOf vehicleId)) (p.positions (partitionOf vehicleId))) vehicleId :=
    congrArg List.getLast? (hpackets vehicleId)
  refine { h with stored := fun q m hm => List.mem_append_left _ (h.stored q m hm)
                  process := fun p' hp' => ?_ }
  cases hp'
  refine ⟨hok.positions, nofun, nofun, fun remaining hwriting q m hm => ?_,
    fun remaining hwriting vehicleId packet hpacket => ?_, fun remaining hwriting e he => ?_⟩
  · rw [← take_append_segment (hok.positions q).1] at hm
    rcases List.mem_append.mp hm with hm | hm
    · exact List.mem_append_left _ (h.stored q m hm)
    · obtain rfl := h.keyed q m (List.mem_of_mem_take (List.mem_of_mem_drop hm))
      have hmem : m ∈ packetsOf rawRecords m.vehicleId := by
        rw [hpackets]
        exact mem_writesTo.mpr ⟨hm, rfl⟩
      exact List.mem_append_right _ (mem_writesTo.mp hmem).1
  · cases hwriting
    exact .inl (mem_dict_iff.mpr ((hlast vehicleId).trans hpacket))
  · cases hwriting
    rw [← hlast]
    exact mem_dict_iff.mp he

/-- A location is set. -/
theorem TelemetryOk.wrote {vehicleId : String} {packet : TelemetryMessage}
    {remaining : List (String × TelemetryMessage)}
    (hwriting : p.stage = .writing ((vehicleId, packet) :: remaining)) :
    TelemetryOk partitionOf { s with
      locations := Function.update s.locations vehicleId (some packet.location)
      process := some { p with stage := .writing remaining } } := by
  have hok := h.process p hp
  have hlast := hok.remaining _ hwriting (vehicleId, packet) List.mem_cons_self
  have hother {v : String} (hv : v ≠ vehicleId) :
      Function.update s.locations vehicleId (some packet.location) v = s.locations v :=
    Function.update_of_ne hv ..
  refine { h with located := fun v => ?_, process := fun p' hp' => ?_ }
  · show Recent _ _ v (Function.update s.locations vehicleId (some packet.location) v)
    by_cases hv : v = vehicleId
    · subst hv
      rw [Function.update_self]
      exact (recent_last (hok.positions _).1 hlast).mono (hok.positions _).1
    · rw [hother hv]
      exact h.located v
  · cases hp'
    refine ⟨hok.positions, nofun, nofun, fun _ _ => hok.inserted _ hwriting,
      fun remaining' hremaining v packet' hpacket => ?_, fun remaining' hremaining e he => ?_⟩
    · cases hremaining
      by_cases hv : v = vehicleId
      · subst hv
        obtain rfl : packet = packet' := Option.some.inj (hlast.symm.trans hpacket)
        exact .inr (Function.update_self ..)
      · rcases hok.written _ hwriting v packet' hpacket with hmem | hwritten
        · rcases List.mem_cons.mp hmem with heq | hmem
          · exact absurd (congrArg Prod.fst heq) hv
          · exact .inl hmem
        · exact .inr ((hother hv).trans hwritten)
    · cases hremaining
      exact hok.remaining _ hwriting e (List.mem_cons_of_mem _ he)

/-- The offsets are committed. -/
theorem TelemetryOk.committed (hwriting : p.stage = .writing []) :
    TelemetryOk partitionOf { s with
      offsets := p.positions
      process := some { p with stage := .idle } } := by
  have hok := h.process p hp
  refine ⟨h.keyed, fun q => (hok.positions q).2, hok.inserted _ hwriting, fun v => ?_,
    fun p' hp' => ?_⟩
  · cases hlast : lastPacket (segment (s.partitions (partitionOf v))
        (s.offsets (partitionOf v)) (p.positions (partitionOf v))) v with
    | none => exact (h.located v).advance (hok.positions _).1 hlast
    | some packet =>
      have hwritten := (hok.written _ hwriting v packet hlast).resolve_left List.not_mem_nil
      rw [show s.locations v = some packet.location from hwritten]
      exact recent_last (hok.positions _).1 hlast
  · cases hp'
    exact ⟨fun q => ⟨Nat.le_refl _, (hok.positions q).2⟩, fun _ => rfl, nofun, nofun, nofun,
      nofun⟩

end Batch

/-- **Every step keeps the invariant.** -/
theorem TelemetryOk.step (h : TelemetryOk partitionOf s) (hstep : TelemetryStep partitionOf s s') :
    TelemetryOk partitionOf s' := by
  cases hstep with
  | published message => exact h.published message
  | started hnone =>
    refine { h with process := fun p hp => ?_ }
    cases hp
    exact ⟨fun q => ⟨Nat.le_refl _, h.offsets q⟩, fun _ => rfl, nofun, nofun, nofun, nofun⟩
  | polled => exact h
  | fetched p order count hp hidle horder => exact h.fetched hp hidle horder count
  | inserted p rawRecords hp hfetched => exact h.inserted hp hfetched
  | insertedPartly p rawRecords n hp hfetched =>
    exact { h with stored := fun q m hm => List.mem_append_left _ (h.stored q m hm)
                   process := nofun }
  | wrote p vehicleId packet remaining hp hwriting => exact h.wrote hp hwriting
  | committed p hp hwriting => exact h.committed hp hwriting
  | crashed => exact { h with process := nofun }

theorem telemetryOk_of_reachable (h : (telemetryConsumer partitionOf).Reachable s) :
    TelemetryOk partitionOf s := by
  have hinit : TelemetryOk partitionOf {} :=
    ⟨fun q m hm => (by cases hm), fun _ => Nat.le_refl _, fun q m hm => (by cases hm),
      fun _ => rfl, nofun⟩
  exact h.invariant (TelemetryOk partitionOf) hinit fun _ _ _ _ hok hstep =>
    hok.step (telemetryStep_cases hstep)

/-- Every packet has been consumed. -/
def TelemetryState.Consumed (s : TelemetryState) : Prop :=
  ∀ q, (s.partitions q).length ≤ s.offsets q

/-- **No packet is lost, and no location is stale.** At every moment, whatever the batches and the
crashes have been, the packets below the committed offsets are in Mongo, and the location of a
vehicle is the latitude, longitude and timestamp of a packet not older than its last one below the
offset. When the stream is consumed, every packet is in Mongo and the location of a vehicle is that
of its last packet, the same in all runs on this stream. -/
theorem telemetry_neither_lost_nor_stale (h : (telemetryConsumer partitionOf).Reachable s) :
    (∀ q, ∀ m ∈ (s.partitions q).take (s.offsets q), m ∈ s.packets) ∧
    (∀ vehicleId, Recent (s.partitions (partitionOf vehicleId))
      (s.offsets (partitionOf vehicleId)) vehicleId (s.locations vehicleId)) ∧
    (s.Consumed → (∀ q, ∀ m ∈ s.partitions q, m ∈ s.packets) ∧
      (∀ vehicleId, s.locations vehicleId =
        (lastPacket (s.partitions (partitionOf vehicleId)) vehicleId).map fun packet =>
          ⟨packet.lat, packet.lng, packet.recordedAt⟩) ∧
      ∀ s', (telemetryConsumer partitionOf).Reachable s' → s'.Consumed →
        s'.partitions = s.partitions → s'.locations = s.locations) := by
  have hok := telemetryOk_of_reachable h
  have hlast {s : TelemetryState} (h : (telemetryConsumer partitionOf).Reachable s)
      (hconsumed : s.Consumed) (vehicleId : String) : s.locations vehicleId =
        (lastPacket (s.partitions (partitionOf vehicleId)) vehicleId).map fun packet =>
          ⟨packet.lat, packet.lng, packet.recordedAt⟩ :=
    ((telemetryOk_of_reachable h).located vehicleId).eq_last (hconsumed _)
  refine ⟨hok.stored, hok.located, fun hconsumed => ⟨fun q m hm => ?_, hlast h hconsumed,
    fun s' h' hconsumed' hpartitions => ?_⟩⟩
  · refine hok.stored q m ?_
    rwa [List.take_of_length_le (hconsumed q)]
  · funext vehicleId
    rw [hlast h hconsumed, hlast h' hconsumed', hpartitions]

end Telemetry

/-- A packet of a vehicle that drives west. -/
def samplePacket (vehicleId : String) (lng : ℚ) (recordedAt : String) : TelemetryMessage where
  vehicleId := vehicleId
  lat := 37
  lng := lng
  speedKph := 80
  recordedAt := recordedAt

/-- A batch of three crashes before the commit, when the location of `v` is from its last packet.
The packets are then consumed again, one and two at a time, and the location moves back. -/
def sampleBatches : List TelemetryAction :=
  [.publish (samplePacket "v" (-122) "2026-06-01T00:00:00"),
    .publish (samplePacket "w" (-121) "2026-06-01T00:00:01"),
    .publish (samplePacket "v" (-123) "2026-06-01T00:00:02"),
    .start, .getmany [0] fun _ => 3, .insertMany, .writeLatestPosition, .crash,
    .start, .getmany [0] fun _ => 1, .insertMany, .writeLatestPosition, .commit,
    .getmany [0] fun _ => 2, .insertPartly 1,
    .start, .getmany [0] fun _ => 2, .insertMany, .writeLatestPosition, .writeLatestPosition,
    .commit]

theorem telemetry_neither_lost_nor_stale_sampleBatches :
    ∃ s, (telemetryConsumer fun _ => 0).run (telemetryConsumer fun _ => 0).init sampleBatches =
        some s ∧
      s.packets.length = 3 + 1 + 1 + 2 ∧
      s.locations "v" = some ⟨37, -123, "2026-06-01T00:00:02"⟩ ∧
      s.locations "w" = some ⟨37, -121, "2026-06-01T00:00:01"⟩ ∧
      (∀ q, ∀ m ∈ (s.partitions q).take (s.offsets q), m ∈ s.packets) ∧
      ∀ vehicleId, Recent (s.partitions 0) (s.offsets 0) vehicleId (s.locations vehicleId) := by
  have hend : ((telemetryConsumer fun _ => 0).run (telemetryConsumer fun _ => 0).init
      sampleBatches).map (fun s => (s.packets.length, s.locations "v", s.locations "w")) =
        some (7, some ⟨37, -123, "2026-06-01T00:00:02"⟩,
          some ⟨37, -121, "2026-06-01T00:00:01"⟩) := by decide
  obtain ⟨s, hrun, hs⟩ := Option.map_eq_some_iff.mp hend
  simp only [Prod.mk.injEq] at hs
  obtain ⟨hlength, hv, hw⟩ := hs
  obtain ⟨hstored, hrecent, -⟩ :=
    telemetry_neither_lost_nor_stale (TransitionSystem.reachable_of_run .init hrun)
  exact ⟨s, hrun, hlength, hv, hw, hstored, hrecent⟩

end CarFlow
