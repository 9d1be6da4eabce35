import CarFlow.Lib.TransitionSystem
import CarFlow.Search.Service

/-!
# The search consumer

`run_consumer` over the listing topic, with `build_listing_event_processor` in it. A record is
claimed in Redis, applied to Elasticsearch, and its offset is committed, in three systems without a
common transaction. An exception in between, or the end of the process, leaves the offset where it
was, and the record is handed out again.

Redis forgets a claim after a while (`ex=ttl_seconds`), and a write to Elasticsearch may be applied
although its answer is lost. Kafka hands out the records of one vehicle in order, each until its
offset is committed.

## Implementation notes

`applied` logs the records that `handle_vehicle_event` has completed with. Nothing reads it, so what
it says is tied to the index by a theorem: the index is what these records make of an empty one.

## Main results

* `appliedOk_of_reachable` — the index is the fold of `handle_vehicle_event` over the records
  applied
* `ClaimsCompleted.step` — as long as only completed events are found claimed, an event whose
  offset is to be committed has been applied
* `search_consumer_loses_nothing` — **no event is lost** in those runs, and any other run may lose
  the event it found claimed
-/

namespace CarFlow

/-- What became of the record in hand. -/
inductive SearchStage
  | received
  /-- The event was claimed and is to be applied. -/
  | claimed
  | processed

/-- The search consumer, its topic, Redis and Elasticsearch. -/
structure SearchState where
  topic : List (OutboxRow ListingMessage) := []
  /-- The `processed-event` keys in Redis. -/
  keys : List EventId := []
  index : SearchIndex := fun _ => none
  /-- The records whose offsets are committed. -/
  offsets : List EventId := []
  /-- The record in hand. -/
  inHand : Option (OutboxRow ListingMessage × SearchStage) := none
  /-- The records that `handle_vehicle_event` has applied to the index, in order. Nothing reads
  this. -/
  applied : List (OutboxRow ListingMessage) := []

/-- The steps of the consumer and its environment. -/
inductive SearchAction
  | publish (message : ListingMessage)
  | fetch (i : ℕ)
  /-- `claim_event`. -/
  | claim
  /-- `handle_vehicle_event`. A write whose answer is lost raises. -/
  | write (answered : Bool)
  | commitOffset
  /-- An exception, or the end of the process. -/
  | crash
  /-- A key in Redis expires. -/
  | expire (eventId : EventId)

/-- One step. Both event types of the listing service are in `LISTING_EVENT_TYPES`. -/
def searchStep (s : SearchState) : SearchAction → Option SearchState
  | .publish message =>
    some { s with topic := writeOutboxEvent s.topic message.data.vehicleId message }
  | .fetch i => do
    let row ← s.topic[i]?
    if s.inHand.isNone ∧ EarlierClaimed s.topic s.offsets i row ∧ row.id ∉ s.offsets then
      some { s with inHand := some (row, .received) }
    else none
  | .claim =>
    match s.inHand with
    | some (row, .received) =>
      match claimEvent s.keys row.id with
      | (true, keys) => some { s with keys, inHand := some (row, .claimed) }
      | (false, _) => some { s with inHand := some (row, .processed) }
    | _ => none
  | .write answered =>
    match s.inHand with
    | some (row, .claimed) => some { s with
        index := s.index.handleVehicleEvent row.payload.data
        applied := s.applied ++ [row]
        inHand := if answered then some (row, .processed) else none }
    | _ => none
  | .commitOffset =>
    match s.inHand with
    | some (row, .processed) => some { s with offsets := row.id :: s.offsets, inHand := none }
    | _ => none
  | .crash => some { s with inHand := none }
  | .expire eventId => some { s with keys := s.keys.filter (· ≠ eventId) }

/-- The search consumer. -/
def searchSystem : TransitionSystem SearchState SearchAction where
  init := {}
  step := searchStep

/-- `handle_vehicle_event` has completed for the event. -/
def SearchState.Completed (s : SearchState) (eventId : EventId) : Prop :=
  ∃ row ∈ s.applied, row.id = eventId

instance (s : SearchState) (eventId : EventId) : Decidable (s.Completed eventId) :=
  inferInstanceAs (Decidable (∃ row ∈ s.applied, row.id = eventId))

/-- The record that is to be claimed. -/
def SearchState.toClaim (s : SearchState) : Option (OutboxRow ListingMessage) :=
  match s.inHand with
  | some (row, .received) => some row
  | _ => none

/-- The step does not find an event claimed that was never applied: the claim of an attempt that
failed before the write. -/
def FindsCompleted (s : SearchState) : SearchAction → Prop
  | .claim => ∀ row ∈ s.toClaim, row.id ∈ s.keys → s.Completed row.id
  | _ => True

instance (s : SearchState) : (a : SearchAction) → Decidable (FindsCompleted s a)
  | .claim => inferInstanceAs (Decidable (∀ row ∈ s.toClaim, _))
  | .publish _ | .fetch _ | .write _ | .commitOffset | .crash | .expire _ => isTrue trivial

/-- An event whose offset is committed, or is about to be, has been applied. -/
structure ClaimsCompleted (s : SearchState) : Prop where
  offsets : ∀ eventId ∈ s.offsets, s.Completed eventId
  processed : ∀ row, s.inHand = some (row, .processed) → s.Completed row.id

section Consumer

variable {s s' : SearchState} {a : SearchAction} {row : OutboxRow ListingMessage}

theorem claimEvent_of_mem {inbox : List EventId} {eventId : EventId} (h : eventId ∈ inbox) :
    claimEvent inbox eventId = (false, inbox) := if_pos h

theorem claimEvent_of_notMem {inbox : List EventId} {eventId : EventId} (h : eventId ∉ inbox) :
    claimEvent inbox eventId = (true, eventId :: inbox) := if_neg h

/-- A record that is applied is one of the topic, and the index is what the records applied make of
an empty one. -/
structure AppliedOk (s : SearchState) : Prop where
  inHand : ∀ row stage, s.inHand = some (row, stage) → row ∈ s.topic
  topic : ∀ row ∈ s.applied, row ∈ s.topic
  index : s.index = indexAfter (s.applied.map (·.payload))

theorem AppliedOk.step (h : AppliedOk s) (hstep : searchStep s a = some s') : AppliedOk s' := by
  cases a with
  | publish message =>
    cases hstep
    exact ⟨fun row stage hhand => List.mem_append_left _ (h.inHand row stage hhand),
      fun row hrow => List.mem_append_left _ (h.topic row hrow), h.index⟩
  | fetch i =>
    simp only [searchStep, Option.bind_eq_bind, Option.bind_eq_some_iff,
      Option.ite_none_right_eq_some] at hstep
    obtain ⟨row, hi, -, hstep⟩ := hstep
    cases hstep
    refine ⟨fun row' stage hhand => ?_, h.topic, h.index⟩
    cases hhand
    exact List.mem_of_getElem? hi
  | claim =>
    simp only [searchStep] at hstep
    split at hstep
    swap
    · cases hstep
    rename_i row hhand
    have hmem := h.inHand row _ hhand
    split at hstep <;> cases hstep <;> refine ⟨fun row' stage hhand' => ?_, h.topic, h.index⟩ <;>
      cases hhand' <;> exact hmem
  | write answered =>
    simp only [searchStep] at hstep
    split at hstep
    swap
    · cases hstep
    rename_i row hhand
    have hmem := h.inHand row _ hhand
    cases hstep
    refine ⟨fun row' stage hhand' => ?_, fun row' hrow' => ?_, ?_⟩
    · cases answered with
      | true =>
        cases hhand'
        exact hmem
      | false => cases hhand'
    · rcases List.mem_append.mp hrow' with hrow' | hrow'
      · exact h.topic row' hrow'
      · exact List.mem_singleton.mp hrow' ▸ hmem
    · rw [List.map_append, indexAfter, List.map_singleton, List.foldl_concat, ← indexAfter,
        ← h.index]
  | commitOffset =>
    simp only [searchStep] at hstep
    split at hstep
    swap
    · cases hstep
    cases hstep
    exact ⟨fun _ _ hhand => (by cases hhand), h.topic, h.index⟩
  | crash =>
    cases hstep
    exact ⟨fun _ _ hhand => (by cases hhand), h.topic, h.index⟩
  | expire eventId =>
    cases hstep
    exact ⟨h.inHand, h.topic, h.index⟩

/-- **The index is what the records applied have made of it.** -/
theorem appliedOk_of_reachable (h : searchSystem.Reachable s) : AppliedOk s :=
  h.invariant AppliedOk ⟨fun _ _ hhand => (by cases hhand), fun _ hrow => (by cases hrow), rfl⟩
    fun _ _ _ _ hok hstep => hok.step hstep

/-- A step that finds no event claimed in vain keeps the invariant. -/
theorem ClaimsCompleted.step (h : ClaimsCompleted s) (ha : FindsCompleted s a)
    (hstep : searchStep s a = some s') : ClaimsCompleted s' := by
  cases a with
  | publish message =>
    cases hstep
    exact ⟨h.offsets, h.processed⟩
  | fetch i =>
    simp only [searchStep, Option.bind_eq_bind, Option.bind_eq_some_iff] at hstep
    obtain ⟨row, -, hstep⟩ := hstep
    split at hstep
    · cases hstep
      exact ⟨h.offsets, fun _ hhand => (by cases hhand)⟩
    · cases hstep
  | claim =>
    simp only [searchStep] at hstep
    split at hstep
    swap
    · cases hstep
    rename_i row hhand
    by_cases hin : row.id ∈ s.keys
    · rw [claimEvent_of_mem hin] at hstep
      cases hstep
      refine ⟨h.offsets, fun row' hhand' => ?_⟩
      cases hhand'
      exact ha row (by simp [SearchState.toClaim, hhand]) hin
    · rw [claimEvent_of_notMem hin] at hstep
      cases hstep
      exact ⟨h.offsets, fun _ hhand' => (by cases hhand')⟩
  | write answered =>
    simp only [searchStep] at hstep
    split at hstep
    swap
    · cases hstep
    cases hstep
    refine ⟨fun eventId he => ?_, fun row' hhand' => ?_⟩
    · obtain ⟨row', hrow', hid⟩ := h.offsets eventId he
      exact ⟨row', List.mem_append_left _ hrow', hid⟩
    · cases answered with
      | true =>
        cases hhand'
        exact ⟨_, List.mem_append_right _ List.mem_cons_self, rfl⟩
      | false => cases hhand'
  | commitOffset =>
    simp only [searchStep] at hstep
    split at hstep
    swap
    · cases hstep
    rename_i row hhand
    cases hstep
    exact ⟨List.forall_mem_cons.mpr ⟨h.processed row hhand, h.offsets⟩,
      fun _ hhand' => (by cases hhand')⟩
  | crash =>
    cases hstep
    exact ⟨h.offsets, fun _ hhand' => (by cases hhand')⟩
  | expire eventId =>
    cases hstep
    exact ⟨h.offsets, h.processed⟩

/-- An event that was found claimed in vain is lost with the next step. -/
theorem lost_of_claim (ha : ¬ FindsCompleted s .claim) (hstep : searchStep s .claim = some s') :
    ∃ s'' eventId, searchStep s' .commitOffset = some s'' ∧ eventId ∈ s''.offsets ∧
      ¬ s''.Completed eventId := by
  simp only [FindsCompleted, not_forall] at ha
  obtain ⟨row, hclaim, hin, hlost⟩ := ha
  have hhand : s.inHand = some (row, .received) := by
    unfold SearchState.toClaim at hclaim
    split at hclaim
    · rename_i row' hhand
      rwa [← Option.some.inj hclaim]
    · cases hclaim
  rw [searchStep, hhand] at hstep
  dsimp only at hstep
  rw [claimEvent_of_mem hin] at hstep
  cases hstep
  exact ⟨_, row.id, rfl, List.mem_cons_self, hlost⟩

/-- **The search consumer loses no event** in a run that finds no event claimed in vain: when the
offset of an event is committed, its record is among those that `handle_vehicle_event` has been
applied to, and these, in order, make up the index. And where a run does find one, it is a step away
from losing it. -/
theorem search_consumer_loses_nothing (s : SearchState) :
    (searchSystem.ReachableWhere FindsCompleted s →
      (∀ eventId ∈ s.offsets, ∃ row ∈ s.applied, row.id = eventId) ∧
      (∀ row ∈ s.applied, row ∈ s.topic) ∧
      s.index = indexAfter (s.applied.map (·.payload))) ∧
    ∀ a s', ¬ FindsCompleted s a → searchSystem.step s a = some s' →
      ∃ s'' eventId, searchSystem.step s' .commitOffset = some s'' ∧ eventId ∈ s''.offsets ∧
        ¬ ∃ row ∈ s''.applied, row.id = eventId := by
  refine ⟨fun h => ?_, fun a s' ha hstep => ?_⟩
  · have hcompleted := h.invariant ClaimsCompleted
      ⟨fun _ he => (by cases he), fun _ hhand => (by cases hhand)⟩
      fun _ _ _ _ hok ha hstep => hok.step ha hstep
    have happlied := appliedOk_of_reachable h.reachable
    exact ⟨hcompleted.offsets, happlied.topic, happlied.index⟩
  · cases a with
    | claim => exact lost_of_claim ha hstep
    | _ => exact absurd trivial ha

end Consumer

/-- An approved car. -/
def sampleSnapshot : VehicleSnapshot where
  vehicleId := 7
  hostId := 1
  make := "make"
  model := "model"
  year := 2020
  dailyPriceCents := 5000
  dailyMileageLimit := 200
  bookingMode := .instant
  approvalStatus := .approved
  latitude := 0
  longitude := 0

/-- Its approval is claimed, and the process ends before the write. Then the key expires. -/
def sampleRetriedWrite : List SearchAction :=
  [.publish ⟨.vehicleApproved, sampleSnapshot⟩, .fetch 0, .claim, .crash, .expire 0, .fetch 0,
    .claim, .write true, .commitOffset]

theorem search_consumer_loses_nothing_sample :
    ∃ s, searchSystem.run {} sampleRetriedWrite = some s ∧ s.offsets = [0] ∧
      s.index 7 = some ⟨7, 1, "make", "model", 2020, 5000, 200, .instant, 0, 0⟩ ∧
      (∀ eventId ∈ s.offsets, ∃ row ∈ s.applied, row.id = eventId) ∧
      (∀ row ∈ s.applied, row ∈ s.topic) ∧
      s.index = indexAfter (s.applied.map (·.payload)) := by
  have hend : (searchSystem.run {} sampleRetriedWrite).map (fun s => (s.offsets, s.index 7)) =
      some ([0], some ⟨7, 1, "make", "model", 2020, 5000, 200, .instant, 0, 0⟩) := by decide
  obtain ⟨s, hrun, hs⟩ := Option.map_eq_some_iff.mp hend
  obtain ⟨hoffsets, hindex⟩ := Prod.mk.inj hs
  have hfinds : ∀ x ∈ searchSystem.steps {} sampleRetriedWrite, FindsCompleted x.1 x.2 := by decide
  have hreach := (TransitionSystem.exec_steps hrun).reachableWhere hfinds
  exact ⟨s, hrun, hoffsets, hindex, (search_consumer_loses_nothing s).1 hreach⟩

/-- And then it does not. -/
def sampleLostWrite : List SearchAction :=
  [.publish ⟨.vehicleApproved, sampleSnapshot⟩, .fetch 0, .claim, .crash, .fetch 0, .claim,
    .commitOffset]

theorem search_consumer_loses_event :
    ∃ s, searchSystem.Reachable s ∧ s.offsets = [0] ∧ s.applied = [] ∧ s.index 7 = none := by
  have hend : (searchSystem.run {} sampleLostWrite).map
      (fun s => (s.offsets, s.applied.map (·.id), s.index 7)) = some ([0], [], none) := by decide
  obtain ⟨s, hrun, hs⟩ := Option.map_eq_some_iff.mp hend
  simp only [Prod.mk.injEq, List.map_eq_nil_iff] at hs
  obtain ⟨hoffsets, happlied, hindex⟩ := hs
  exact ⟨s, TransitionSystem.reachable_of_run .init hrun, hoffsets, happlied, hindex⟩

end CarFlow
