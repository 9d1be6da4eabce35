import CarFlow.Lib.LastWrite
import CarFlow.Lib.TransitionSystem
import CarFlow.Search.Service
import Mathlib.Logic.Function.Basic

/-!
# Redelivery to the search index

`build_listing_event_processor` over time. `claim_event` sets a key for each event, which Redis
keeps for `dedup_ttl_seconds`. A record that is handed out again is skipped as long as its key is
there, and is applied once more when it is gone.

One event applied twice leaves the document it left the first time. Two events of a vehicle do not:
their keys expire one after the other, and the older one may be applied alone.

## Implementation notes

A redelivery is one step: all events from some position on, in the order of the topic, each at its
own time. The key of an event is there until its expiry time, which is compared with the time at
which a record comes; it has no step of its own, and so the condition is one on times and orders
alone. `appliedAgain` reads off the keys which events a redelivery applies.

## Main results

* `processAll_index` — the redelivered events that are applied
* `redelivery_leaves_index_iff` — **when a redelivery leaves the index alone**
-/

namespace CarFlow

open LastWrite

/-- The `processed-event` keys in Redis, each with the second in which it expires. -/
abbrev ProcessedKeys := EventId → Option ℕ

/-- The key is not set, or has expired. -/
def ProcessedKeys.expired (keys : ProcessedKeys) (eventId : EventId) (now : ℕ) : Bool :=
  (keys eventId).all (· ≤ now)

/-- `claim_event`: `SET` with `nx=True, ex=ttl_seconds`. -/
def claimEventFor (ttlSeconds : ℕ) (keys : ProcessedKeys) (eventId : EventId) (now : ℕ) :
    Bool × ProcessedKeys :=
  if keys.expired eventId now then
    (true, Function.update keys eventId (some (now + ttlSeconds)))
  else (false, keys)

/-- Redis and Elasticsearch. -/
structure SearchStores where
  keys : ProcessedKeys := fun _ => none
  index : SearchIndex := fun _ => none

/-- `process`. Both event types of the listing service are in `LISTING_EVENT_TYPES`. -/
def processListingEvent (ttlSeconds : ℕ) (stores : SearchStores) (row : OutboxRow ListingMessage)
    (now : ℕ) : SearchStores :=
  match claimEventFor ttlSeconds stores.keys row.id now with
  | (false, _) => stores
  | (true, keys) => ⟨keys, stores.index.handleVehicleEvent row.payload.data⟩

/-- Some records, each at the time it is processed. -/
abbrev Deliveries := List (OutboxRow ListingMessage × ℕ)

def processAll (ttlSeconds : ℕ) (stores : SearchStores) (deliveries : Deliveries) : SearchStores :=
  deliveries.foldl (fun stores d => processListingEvent ttlSeconds stores d.1 d.2) stores

/-- The search service, and the records it has processed. -/
structure RedeliveryState where
  rows : List (OutboxRow ListingMessage) := []
  stores : SearchStores := {}
  now : ℕ := 0

inductive RedeliveryAction
  /-- The next event of the topic is processed, for the first time. -/
  | process (message : ListingMessage) (now : ℕ)
  /-- The events from the `k`-th on are processed again, at these times. -/
  | redeliver (k : ℕ) (times : List ℕ)

/-- The vehicle of an event. -/
def OutboxRow.vehicleId (row : OutboxRow ListingMessage) : Uuid := row.payload.data.vehicleId

/-- What an event leaves in the index. -/
def OutboxRow.indexed (row : OutboxRow ListingMessage) : Option Document :=
  row.payload.data.indexed

def redeliveryStep (ttlSeconds : ℕ) (s : RedeliveryState) :
    RedeliveryAction → Option RedeliveryState
  | .process message now =>
    if s.now ≤ now then
      let row : OutboxRow ListingMessage := ⟨s.rows.length, message.data.vehicleId, message⟩
      some { rows := s.rows ++ [row]
             stores := processListingEvent ttlSeconds s.stores row now
             now }
    else none
  | .redeliver k times =>
    if times.length = (s.rows.drop k).length ∧ (s.now :: times).Pairwise (· ≤ ·) then
      some { s with
        stores := processAll ttlSeconds s.stores ((s.rows.drop k).zip times)
        now := times.getLastD s.now }
    else none

/-- The search service under redelivery. -/
def redeliveries (ttlSeconds : ℕ) : TransitionSystem RedeliveryState RedeliveryAction where
  init := {}
  step := redeliveryStep ttlSeconds

/-- The document of every vehicle is that of its last event, or absent if that event was not about
an approved vehicle. -/
def ShowsLast (s : RedeliveryState) : Prop :=
  ∀ id, s.stores.index id = (last OutboxRow.vehicleId s.rows id).bind OutboxRow.indexed

/-- The redelivered events that are applied: those whose keys have expired. -/
def appliedAgain (keys : ProcessedKeys) (deliveries : Deliveries) :
    List (OutboxRow ListingMessage) :=
  (deliveries.filter fun d => keys.expired d.1.id d.2).map Prod.fst

/-- The last event of each vehicle that is applied again leaves what the very last one does. -/
def Harmless (s : RedeliveryState) : RedeliveryAction → Prop
  | .redeliver k times =>
    ∀ id, ∀ row ∈ last OutboxRow.vehicleId
        (appliedAgain s.stores.keys ((s.rows.drop k).zip times)) id,
      some row.indexed = (last OutboxRow.vehicleId s.rows id).map OutboxRow.indexed
  | .process .. => True

/-! ### What is applied -/

section Processing

variable {ttlSeconds : ℕ} {stores : SearchStores} {row : OutboxRow ListingMessage} {now : ℕ}
  {deliveries : Deliveries}

theorem processListingEvent_of_expired (h : stores.keys.expired row.id now = true) :
    processListingEvent ttlSeconds stores row now =
      ⟨Function.update stores.keys row.id (some (now + ttlSeconds)),
        stores.index.handleVehicleEvent row.payload.data⟩ := by
  simp [processListingEvent, claimEventFor, h]

theorem processListingEvent_of_claimed (h : ¬stores.keys.expired row.id now = true) :
    processListingEvent ttlSeconds stores row now = stores := by
  simp [processListingEvent, claimEventFor, h]

/-- A record touches no key but its own. -/
theorem processListingEvent_keys {eventId : EventId} (h : eventId ≠ row.id) :
    (processListingEvent ttlSeconds stores row now).keys eventId = stores.keys eventId := by
  by_cases hexpired : stores.keys.expired row.id now = true
  · rw [processListingEvent_of_expired hexpired]
    exact Function.update_of_ne h _ _
  · rw [processListingEvent_of_claimed hexpired]

theorem processAll_cons {d : OutboxRow ListingMessage × ℕ} :
    processAll ttlSeconds stores (d :: deliveries) =
      processAll ttlSeconds (processListingEvent ttlSeconds stores d.1 d.2) deliveries := rfl

theorem processAll_keys {eventId : EventId} (h : ∀ d ∈ deliveries, eventId ≠ d.1.id) :
    (processAll ttlSeconds stores deliveries).keys eventId = stores.keys eventId := by
  induction deliveries generalizing stores with
  | nil => rfl
  | cons d deliveries ih =>
    rw [processAll_cons, ih fun d' hd' => h d' (List.mem_cons_of_mem _ hd'),
      processListingEvent_keys (h d List.mem_cons_self)]

/-- What is applied depends on the keys of the records only. -/
theorem appliedAgain_congr {keys keys' : ProcessedKeys}
    (h : ∀ d ∈ deliveries, keys d.1.id = keys' d.1.id) :
    appliedAgain keys deliveries = appliedAgain keys' deliveries := by
  refine congrArg (List.map Prod.fst) (List.filter_congr fun d hd => ?_)
  rw [ProcessedKeys.expired, h d hd, ProcessedKeys.expired]

/-- **The redelivered events that are applied** are those whose keys have expired. -/
theorem processAll_index (h : (deliveries.map (·.1.id)).Nodup) :
    (processAll ttlSeconds stores deliveries).index =
      (appliedAgain stores.keys deliveries).foldl
        (fun index row => index.handleVehicleEvent row.payload.data) stores.index := by
  induction deliveries generalizing stores with
  | nil => rfl
  | cons d deliveries ih =>
    obtain ⟨hd, hnodup⟩ := List.nodup_cons.mp h
    have hkeys : appliedAgain (processListingEvent ttlSeconds stores d.1 d.2).keys deliveries =
        appliedAgain stores.keys deliveries :=
      appliedAgain_congr fun d' hd' => processListingEvent_keys fun heq =>
        hd (List.mem_map.mpr ⟨d', hd', heq⟩)
    rw [processAll_cons, ih hnodup, hkeys]
    by_cases hexpired : stores.keys.expired d.1.id d.2 = true
    · rw [processListingEvent_of_expired hexpired, appliedAgain, appliedAgain,
        List.filter_cons_of_pos (by exact hexpired), List.map_cons, List.foldl_cons]
    · rw [processListingEvent_of_claimed hexpired, appliedAgain, appliedAgain,
        List.filter_cons_of_neg (by exact hexpired)]

/-- The index after some events: the last one of each vehicle decides. -/
theorem foldl_handleVehicleEvent_apply (index : SearchIndex)
    (rows : List (OutboxRow ListingMessage)) (id : Uuid) :
    rows.foldl (fun index row => index.handleVehicleEvent row.payload.data) index id =
      (last OutboxRow.vehicleId rows id).elim (index id) OutboxRow.indexed :=
  foldl_write (fun index row id => handleVehicleEvent_apply index row.payload.data id) index rows id

end Processing

/-! ### Runs -/

/-- The events have identifiers of their own, and keys are those of events. -/
structure RedeliveryOk (s : RedeliveryState) : Prop where
  ids : s.rows.map (·.id) = List.range s.rows.length
  keys : ∀ eventId, s.rows.length ≤ eventId → s.stores.keys eventId = none

section Runs

variable {ttlSeconds : ℕ} {s s' : RedeliveryState} {a : RedeliveryAction}

theorem RedeliveryOk.id_lt (hs : RedeliveryOk s) {row : OutboxRow ListingMessage}
    (h : row ∈ s.rows) : row.id < s.rows.length :=
  List.mem_range.mp (hs.ids ▸ List.mem_map_of_mem h)

theorem RedeliveryOk.step (hs : RedeliveryOk s)
    (h : (redeliveries ttlSeconds).step s a = some s') : RedeliveryOk s' := by
  cases a with
  | process message now =>
    simp only [redeliveries, redeliveryStep, Option.ite_none_right_eq_some, Option.some.injEq] at h
    obtain ⟨-, rfl⟩ := h
    refine ⟨?_, fun eventId hid => ?_⟩
    · simp [hs.ids, List.range_succ]
    · have hlt : s.rows.length < eventId := Nat.lt_of_succ_le (by simpa using hid)
      exact (processListingEvent_keys (ne_of_gt hlt)).trans (hs.keys eventId hlt.le)
  | redeliver k times =>
    simp only [redeliveries, redeliveryStep, Option.ite_none_right_eq_some, Option.some.injEq] at h
    obtain ⟨-, rfl⟩ := h
    refine ⟨hs.ids, fun eventId hid => (processAll_keys fun d hd => ?_).trans (hs.keys eventId hid)⟩
    have hmem : d.1 ∈ s.rows := List.mem_of_mem_drop (List.of_mem_zip hd).1
    exact ne_of_gt ((hs.id_lt hmem).trans_le hid)

theorem redeliveryOk_of_reachable (h : (redeliveries ttlSeconds).Reachable s) : RedeliveryOk s :=
  h.invariant _ ⟨rfl, fun _ _ => rfl⟩ fun _ _ _ _ hs hstep => hs.step hstep

/-- The first time, an event is applied. -/
theorem showsLast_process (hs : RedeliveryOk s) (hshows : ShowsLast s) {message : ListingMessage}
    {now : ℕ} (h : (redeliveries ttlSeconds).step s (.process message now) = some s') :
    ShowsLast s' := by
  simp only [redeliveries, redeliveryStep, Option.ite_none_right_eq_some, Option.some.injEq] at h
  obtain ⟨-, rfl⟩ := h
  have hexpired : s.stores.keys.expired s.rows.length now = true := by
    rw [ProcessedKeys.expired, hs.keys _ le_rfl]
    rfl
  intro id
  rw [processListingEvent_of_expired hexpired, last_concat]
  show s.stores.index.handleVehicleEvent message.data id =
    Option.bind (if message.data.vehicleId = id then _ else _) _
  rw [handleVehicleEvent_apply, hshows id]
  by_cases hid : id = message.data.vehicleId
  · subst hid
    rw [if_pos rfl, if_pos rfl]
    rfl
  · rw [if_neg hid, if_neg (Ne.symm hid)]

/-- A redelivery leaves the index alone if what it applies last leaves what is there. -/
theorem showsLast_redeliver (hs : RedeliveryOk s) (hshows : ShowsLast s) {k : ℕ} {times : List ℕ}
    (h : (redeliveries ttlSeconds).step s (.redeliver k times) = some s') :
    ShowsLast s' ↔ Harmless s (.redeliver k times) := by
  simp only [redeliveries, redeliveryStep, Option.ite_none_right_eq_some, Option.some.injEq] at h
  obtain ⟨⟨hlen, -⟩, rfl⟩ := h
  have hnodup : (((s.rows.drop k).zip times).map (·.1.id)).Nodup := by
    have hfst : ((s.rows.drop k).zip times).map Prod.fst = s.rows.drop k :=
      List.map_fst_zip hlen.ge
    have hids : ((s.rows.drop k).zip times).map (·.1.id) = (s.rows.drop k).map (·.id) := by
      conv_rhs => rw [← hfst, List.map_map]
      rfl
    rw [hids, List.map_drop, hs.ids]
    exact List.nodup_range.sublist (List.drop_sublist k _)
  refine forall_congr' fun id => ?_
  dsimp only
  rw [processAll_index hnodup, foldl_handleVehicleEvent_apply, hshows id]
  cases hlast : last OutboxRow.vehicleId
    (appliedAgain s.stores.keys ((s.rows.drop k).zip times)) id with
  | none => simp
  | some row =>
    -- an event that is applied again is one of the vehicle's events
    have hrow : row ∈ s.rows ∧ row.vehicleId = id := by
      obtain ⟨hmem, hid⟩ := mem_of_last hlast
      obtain ⟨d, hd, rfl⟩ := List.mem_map.mp hmem
      exact ⟨List.mem_of_mem_drop (List.of_mem_zip (List.mem_of_mem_filter hd)).1, hid⟩
    cases hvery : last OutboxRow.vehicleId s.rows id with
    | none => exact absurd hrow.2 (last_eq_none_iff.mp hvery row hrow.1)
    | some row' => simp

/-- **When a redelivery leaves the index alone**: when, of each vehicle, the last event that is
applied again leaves what its very last event does. -/
theorem redelivery_leaves_index_iff {run : List (RedeliveryState × RedeliveryAction)}
    (h : (redeliveries ttlSeconds).Exec (redeliveries ttlSeconds).init run s) :
    TransitionSystem.Throughout ShowsLast run s ↔ ∀ x ∈ run, Harmless x.1 x.2 := by
  refine h.forall_iff ShowsLast Harmless (fun _ => rfl) fun s a s' hr hshows hstep => ?_
  have hs : RedeliveryOk s := redeliveryOk_of_reachable hr
  cases a with
  | process message now => exact iff_of_true (showsLast_process hs hshows hstep) True.intro
  | redeliver k times => exact showsLast_redeliver hs hshows hstep

end Runs

/-- Vehicle 7 is approved at a price, which is raised 100 seconds later. A day after the approval,
both events are handed out again: the key of the first one has just expired. -/
def samplePriceRaised : List RedeliveryAction :=
  let snapshot (dailyPriceCents : ℤ) : VehicleSnapshot :=
    ⟨7, 1, "Toyota", "Yaris", 2020, dailyPriceCents, 200, .instant, .approved, 0, 0⟩
  [.process ⟨.vehicleApproved, snapshot 5000⟩ 0, .process ⟨.vehicleUpdated, snapshot 6000⟩ 100,
    .redeliver 0 [86450, 86450]]

/-- The index shows the old price again. -/
theorem samplePriceRaised_end :
    ∃ s, (redeliveries 86400).run {} samplePriceRaised = some s ∧
      (s.stores.index 7).map Document.dailyPriceCents = some 5000 ∧
      (last OutboxRow.vehicleId s.rows 7).map (·.payload.data.dailyPriceCents) = some 6000 ∧
      ¬ ShowsLast s := by
  have hprices : ((redeliveries 86400).run {} samplePriceRaised).map (fun s =>
      ((s.stores.index 7).map Document.dailyPriceCents,
        (last OutboxRow.vehicleId s.rows 7).map (·.payload.data.dailyPriceCents),
        ((last OutboxRow.vehicleId s.rows 7).bind OutboxRow.indexed).map
          Document.dailyPriceCents)) = some (some 5000, some 6000, some 6000) := by
    decide
  obtain ⟨s, hrun, hs⟩ := Option.map_eq_some_iff.mp hprices
  simp only [Prod.mk.injEq] at hs
  obtain ⟨hindex, hlast, hshown⟩ := hs
  refine ⟨s, hrun, hindex, hlast, fun hshows => ?_⟩
  rw [hshows 7, hshown] at hindex
  revert hindex
  decide

theorem redelivery_leaves_index_iff_samplePriceRaised :
    ∃ s run, (redeliveries 86400).Exec (redeliveries 86400).init run s ∧
      run.map Prod.snd = samplePriceRaised ∧
      (s.stores.index 7).map Document.dailyPriceCents = some 5000 ∧
      ¬ TransitionSystem.Throughout ShowsLast run s ∧ ¬ ∀ x ∈ run, Harmless x.1 x.2 := by
  obtain ⟨s, hrun, hindex, -, hnot⟩ := samplePriceRaised_end
  have hexec := TransitionSystem.exec_steps hrun
  have hnot :=
    TransitionSystem.not_throughout ((redeliveries 86400).steps {} samplePriceRaised) hnot
  exact ⟨s, _, hexec, TransitionSystem.map_snd_steps hrun, hindex, hnot,
    (redelivery_leaves_index_iff hexec).not.mp hnot⟩

theorem redelivery_shows_old_price :
    ∃ s, (redeliveries 86400).Reachable s ∧
      (s.stores.index 7).map Document.dailyPriceCents = some 5000 ∧
      (last OutboxRow.vehicleId s.rows 7).map (·.payload.data.dailyPriceCents) = some 6000 ∧
      ¬ ShowsLast s := by
  obtain ⟨s, hrun, hs⟩ := samplePriceRaised_end
  exact ⟨s, TransitionSystem.reachable_of_run .init hrun, hs⟩

end CarFlow
