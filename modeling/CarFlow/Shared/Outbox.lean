import CarFlow.Lib.FifoTopic
import CarFlow.Shared.Basic

/-!
# The outbox, the inbox and the consumer between them

`shared/outbox.py`, `shared/inbox.py` and `shared/kafka_consumer.py`. A service writes a row to
its `outbox` in the transaction of the change; Debezium ships the rows in commit order, keyed by
`aggregateid`, so the table is also the topic. The consumer of the topic claims an event in its
`inbox` in the transaction of the effect.

## The topic as a queue for each aggregate

Kafka keeps the order of the records of one key and hands a record over again until its offset is
committed. That is the discipline of `FifoTopic`: `handledFor` and `queueFor` are the two halves
of the queue of one aggregate, and `TopicOk` is what every write and every claim keeps.

## Main results

* `TopicOk.writeAll`, `queueFor_writeAll`, `handledFor_writeAll` — a transaction's outbox rows
  join the queue of their aggregate
* `TopicOk.claim`, `queueFor_claim`, `handledFor_claim` — the first delivery of a row takes the
  head of that queue
* `exists_next_of_queueFor` — and that head can always be delivered
-/

namespace CarFlow

/-- A row of an `outbox` table. `payload` stands for the event type and the data of the envelope;
the trace context it also carries is not read by any handler. -/
structure OutboxRow (μ : Type) where
  /-- `str(uuid.uuid4())`, also the `event_id` of the envelope. -/
  id : EventId
  /-- The aggregate the event is about; the key of the Kafka record. -/
  aggregateId : Uuid
  /-- The event type and its data. -/
  payload : μ
  deriving DecidableEq

variable {μ δ ρ : Type} {outbox : List (OutboxRow μ)}

/-- `write_outbox_event`. A fresh UUID is the number of rows written before. -/
def writeOutboxEvent (outbox : List (OutboxRow μ)) (aggregateId : Uuid) (payload : μ) :
    List (OutboxRow μ) :=
  outbox ++ [{ id := outbox.length, aggregateId, payload }]

/-- The outbox rows of one transaction. -/
def writeAll (outbox : List (OutboxRow μ)) (aggregateId : Uuid) (payloads : List μ) :
    List (OutboxRow μ) :=
  payloads.foldl (fun outbox payload => writeOutboxEvent outbox aggregateId payload) outbox

/-- `claim_event`: the row count of the insert, and the table after it. -/
def claimEvent (inbox : List EventId) (eventId : EventId) : Bool × List EventId :=
  if eventId ∈ inbox then (false, inbox) else (true, eventId :: inbox)

/-- A consumer's database, which holds its inbox table. -/
class HasInbox (δ : Type) where
  /-- The `inbox` table. -/
  inbox : δ → List EventId
  /-- The database with another `inbox` table. -/
  withInbox : δ → List EventId → δ

/-- `postgres_inbox_processor`: claim the event, run its handler if the claim succeeded and the
type has one, commit. Claim and effect are one transaction: `ρ` is the outcome of a transaction,
and `commit` the outcome that keeps a database. -/
def postgresInboxProcessor [HasInbox δ] (commit : δ → ρ) (handler : Option (δ → ρ))
    (eventId : EventId) (db : δ) : ρ :=
  match claimEvent (HasInbox.inbox db) eventId with
  | (false, _) => commit db
  | (true, inbox) => handler.getD commit (HasInbox.withInbox db inbox)

/-- A record that was processed before changes nothing. -/
theorem postgresInboxProcessor_of_mem [HasInbox δ] {commit : δ → ρ} {handler : Option (δ → ρ)}
    {eventId : EventId} {db : δ} (h : eventId ∈ HasInbox.inbox db) :
    postgresInboxProcessor commit handler eventId db = commit db := by
  simp [postgresInboxProcessor, claimEvent, h]

theorem postgresInboxProcessor_of_notMem [HasInbox δ] {commit : δ → ρ}
    {handler : Option (δ → ρ)} {eventId : EventId} {db : δ} (h : eventId ∉ HasInbox.inbox db) :
    postgresInboxProcessor commit handler eventId db =
      handler.getD commit (HasInbox.withInbox db (eventId :: HasInbox.inbox db)) := by
  simp [postgresInboxProcessor, claimEvent, h]

/-! ### The rows of an aggregate

Rows are numbered in the order in which they are written; those of one aggregate keep it. -/

/-- What has been written for an aggregate, in order. -/
def writtenFor (outbox : List (OutboxRow μ)) (aggregateId : Uuid) : List μ :=
  (outbox.filter (·.aggregateId = aggregateId)).map (·.payload)

theorem writtenFor_write (outbox : List (OutboxRow μ)) (aggregateId k : Uuid) (payload : μ) :
    writtenFor (writeOutboxEvent outbox aggregateId payload) k =
      writtenFor outbox k ++ if aggregateId = k then [payload] else [] := by
  rw [writtenFor, writeOutboxEvent, List.filter_append, List.map_append, ← writtenFor]
  by_cases hk : aggregateId = k <;> simp [hk]

/-- A transaction's rows are written for its aggregate only. -/
theorem writtenFor_writeAll (outbox : List (OutboxRow μ)) (aggregateId k : Uuid)
    (payloads : List μ) :
    writtenFor (writeAll outbox aggregateId payloads) k =
      writtenFor outbox k ++ if aggregateId = k then payloads else [] := by
  induction payloads generalizing outbox with
  | nil => simp [writeAll]
  | cons payload payloads ih =>
    rw [show writeAll outbox aggregateId (payload :: payloads)
        = writeAll (writeOutboxEvent outbox aggregateId payload) aggregateId payloads from rfl,
      ih, writtenFor_write]
    by_cases hk : aggregateId = k <;> simp [hk]

/-- Identifiers are the positions in the table. -/
theorem map_id_writeAll (h : outbox.map (·.id) = List.range outbox.length) (aggregateId : Uuid)
    (payloads : List μ) :
    (writeAll outbox aggregateId payloads).map (·.id) =
      List.range (writeAll outbox aggregateId payloads).length := by
  induction payloads generalizing outbox with
  | nil => exact h
  | cons payload payloads ih =>
    refine ih ?_
    simp [writeOutboxEvent, h, List.range_succ]

theorem mem_writeAll {row : OutboxRow μ} {aggregateId : Uuid} {payloads : List μ}
    (h : row ∈ writeAll outbox aggregateId payloads) :
    row ∈ outbox ∨ row.aggregateId = aggregateId ∧ row.payload ∈ payloads := by
  induction payloads generalizing outbox with
  | nil => exact .inl h
  | cons payload payloads ih =>
    rcases ih h with hrow | ⟨hk, hp⟩
    · rcases List.mem_append.mp hrow with hrow | hrow
      · exact .inl hrow
      · obtain rfl := List.mem_singleton.mp hrow
        exact .inr ⟨rfl, List.mem_cons_self⟩
    · exact .inr ⟨hk, List.mem_cons_of_mem _ hp⟩

theorem map_writeAll (outbox : List (OutboxRow μ)) (aggregateId : Uuid)
    (payloads : List μ) :
    (writeAll outbox aggregateId payloads).map (fun row => (row.aggregateId, row.payload)) =
      outbox.map (fun row => (row.aggregateId, row.payload)) ++
        payloads.map fun payload => (aggregateId, payload) := by
  induction payloads generalizing outbox with
  | nil => simp [writeAll]
  | cons payload payloads ih =>
    rw [show writeAll outbox aggregateId (payload :: payloads)
        = writeAll (writeOutboxEvent outbox aggregateId payload) aggregateId payloads from rfl, ih]
    simp [writeOutboxEvent]

/-! ### The queue of an aggregate

What was written for an aggregate, before and after what is claimed. It is the queue of
`Lib.FifoTopic` for the key `aggregateId`. -/

/-- The rows of an aggregate the consumer has claimed. -/
def handledFor (outbox : List (OutboxRow μ)) (inbox : List EventId) (aggregateId : Uuid) :
    List μ :=
  (FifoTopic.handled OutboxRow.aggregateId OutboxRow.id outbox inbox aggregateId).map (·.payload)

/-- The rows of an aggregate still to be claimed. -/
def queueFor (outbox : List (OutboxRow μ)) (inbox : List EventId) (aggregateId : Uuid) : List μ :=
  (FifoTopic.inflight OutboxRow.aggregateId OutboxRow.id outbox inbox aggregateId).map (·.payload)

/-- The row at position `i` may be handed over: all earlier rows of its aggregate have been
claimed. A row that has been claimed itself may be handed over again. -/
def EarlierClaimed (outbox : List (OutboxRow μ)) (inbox : List EventId) (i : ℕ)
    (row : OutboxRow μ) : Prop :=
  ∀ row' ∈ outbox.take i, row'.aggregateId = row.aggregateId → row'.id ∈ inbox

instance (outbox : List (OutboxRow μ)) (inbox : List EventId) (i : ℕ) (row : OutboxRow μ) :
    Decidable (EarlierClaimed outbox inbox i row) := by
  unfold EarlierClaimed
  infer_instance

/-- A record that could be handed over still can after another is written ... -/
theorem EarlierClaimed.write {inbox : List EventId} {i : ℕ} {row : OutboxRow μ}
    (h : EarlierClaimed outbox inbox i row) (hi : outbox[i]? = some row) (aggregateId : Uuid)
    (payload : μ) : EarlierClaimed (writeOutboxEvent outbox aggregateId payload) inbox i row := by
  have hlt : i < outbox.length := (List.getElem?_eq_some_iff.mp hi).1
  rw [EarlierClaimed, writeOutboxEvent, List.take_append_of_le_length (Nat.le_of_lt hlt)]
  exact h

/-- ... and after another is claimed. -/
theorem EarlierClaimed.cons {inbox : List EventId} {i : ℕ} {row : OutboxRow μ}
    (h : EarlierClaimed outbox inbox i row) (eventId : EventId) :
    EarlierClaimed outbox (eventId :: inbox) i row :=
  fun r hr hk => List.mem_cons_of_mem _ (h r hr hk)

/-- An outbox and the inbox of its consumer, as writes and in-order first deliveries leave them. -/
structure TopicOk (outbox : List (OutboxRow μ)) (inbox : List EventId) : Prop where
  /-- Identifiers are the positions in the table. -/
  ids : outbox.map (·.id) = List.range outbox.length
  /-- Only rows of the table are claimed. -/
  claimed : ∀ eventId ∈ inbox, eventId < outbox.length
  /-- Each aggregate's rows are claimed in order. -/
  ordered : FifoTopic.Ordered OutboxRow.aggregateId OutboxRow.id outbox inbox

theorem topicOk_nil : TopicOk ([] : List (OutboxRow μ)) [] where
  ids := rfl
  claimed := by simp
  ordered := ⟨by simp, by simp⟩

section Topic

variable {outbox : List (OutboxRow μ)} {inbox : List EventId} {row : OutboxRow μ} {i : ℕ}

theorem TopicOk.fresh (h : TopicOk outbox inbox) (aggregateId : Uuid) (payload : μ) :
    FifoTopic.Fresh OutboxRow.id outbox inbox
      [{ id := outbox.length, aggregateId, payload }] := by
  refine ⟨by simp, fun m hm => ?_⟩
  obtain rfl := List.mem_singleton.mp hm
  refine ⟨fun hin => Nat.lt_irrefl _ (h.claimed _ hin), ?_⟩
  rw [h.ids]
  simp

theorem TopicOk.write (h : TopicOk outbox inbox) (aggregateId : Uuid) (payload : μ) :
    TopicOk (writeOutboxEvent outbox aggregateId payload) inbox where
  ids := by
    simp [writeOutboxEvent, h.ids, List.range_succ]
  claimed eventId hin := by
    rw [writeOutboxEvent, List.length_append, List.length_singleton]
    exact Nat.lt_succ_of_lt (h.claimed eventId hin)
  ordered := FifoTopic.ordered_write h.ordered (h.fresh aggregateId payload)

theorem TopicOk.writeAll (h : TopicOk outbox inbox) (aggregateId : Uuid) (payloads : List μ) :
    TopicOk (writeAll outbox aggregateId payloads) inbox := by
  induction payloads generalizing outbox with
  | nil => exact h
  | cons payload payloads ih => exact ih (h.write aggregateId payload)

theorem queueFor_write (h : TopicOk outbox inbox) (aggregateId k : Uuid) (payload : μ) :
    queueFor (writeOutboxEvent outbox aggregateId payload) inbox k =
      queueFor outbox inbox k ++ if aggregateId = k then [payload] else [] := by
  rw [queueFor, writeOutboxEvent, FifoTopic.inflight_write (h.fresh aggregateId payload),
    List.map_append, ← queueFor]
  by_cases hk : aggregateId = k <;> simp [hk]

theorem queueFor_writeAll (h : TopicOk outbox inbox) (aggregateId k : Uuid) (payloads : List μ) :
    queueFor (writeAll outbox aggregateId payloads) inbox k =
      queueFor outbox inbox k ++ if aggregateId = k then payloads else [] := by
  induction payloads generalizing outbox with
  | nil => simp [writeAll]
  | cons payload payloads ih =>
    rw [show CarFlow.writeAll outbox aggregateId (payload :: payloads)
        = CarFlow.writeAll (writeOutboxEvent outbox aggregateId payload) aggregateId payloads from
        rfl, ih (h.write aggregateId payload), queueFor_write h]
    by_cases hk : aggregateId = k <;> simp [hk]

theorem handledFor_writeAll (h : TopicOk outbox inbox) (aggregateId k : Uuid)
    (payloads : List μ) :
    handledFor (writeAll outbox aggregateId payloads) inbox k = handledFor outbox inbox k := by
  induction payloads generalizing outbox with
  | nil => rfl
  | cons payload payloads ih =>
    rw [show CarFlow.writeAll outbox aggregateId (payload :: payloads)
        = CarFlow.writeAll (writeOutboxEvent outbox aggregateId payload) aggregateId payloads from
        rfl, ih (h.write aggregateId payload), handledFor, writeOutboxEvent,
      FifoTopic.handled_write (h.fresh aggregateId payload), ← handledFor]

/-- A row at a position splits the table there. -/
theorem split_at (hi : outbox[i]? = some row) :
    outbox = outbox.take i ++ row :: outbox.drop (i + 1) := by
  obtain ⟨hlt, rfl⟩ := List.getElem?_eq_some_iff.mp hi
  rw [← List.drop_eq_getElem_cons, List.take_append_drop]

theorem nextFor_of_earlierClaimed (he : EarlierClaimed outbox inbox i row)
    (hu : row.id ∉ inbox) :
    FifoTopic.NextFor OutboxRow.aggregateId OutboxRow.id (outbox.take i) row inbox :=
  ⟨hu, he⟩

/-- The head of an aggregate's queue can be delivered. -/
theorem exists_next_of_queueFor {k : Uuid} {payload : μ} {rest : List μ}
    (h : queueFor outbox inbox k = payload :: rest) :
    ∃ i row, outbox[i]? = some row ∧ row.aggregateId = k ∧ row.payload = payload ∧
      EarlierClaimed outbox inbox i row ∧ row.id ∉ inbox := by
  obtain ⟨row, rows, hq, hp, -⟩ := List.map_eq_cons_iff.mp h
  obtain ⟨pre, post, rfl, hk, hn⟩ := FifoTopic.next_of_inflight hq
  refine ⟨pre.length, row, by simp, hk, hp, fun r hr => hn.earlier r ?_, hn.unclaimed⟩
  rwa [List.take_left] at hr

theorem TopicOk.claim (h : TopicOk outbox inbox) (hi : outbox[i]? = some row)
    (he : EarlierClaimed outbox inbox i row) (hu : row.id ∉ inbox) :
    TopicOk outbox (row.id :: inbox) where
  ids := h.ids
  claimed eventId hin := by
    rcases List.mem_cons.mp hin with rfl | hin
    · have hmem : row.id ∈ outbox.map (·.id) := List.mem_map_of_mem (List.mem_of_getElem? hi)
      rw [h.ids] at hmem
      exact List.mem_range.mp hmem
    · exact h.claimed eventId hin
  ordered := by
    have hord := h.ordered
    rw [split_at hi] at hord ⊢
    exact FifoTopic.ordered_claim hord (nextFor_of_earlierClaimed he hu)

/-- The first delivery of a row moves it from the head of its aggregate's queue ... -/
theorem queueFor_claim (h : TopicOk outbox inbox) (hi : outbox[i]? = some row)
    (he : EarlierClaimed outbox inbox i row) (hu : row.id ∉ inbox) :
    queueFor outbox inbox row.aggregateId =
      row.payload :: queueFor outbox (row.id :: inbox) row.aggregateId := by
  have hord := h.ordered
  have hs := split_at hi
  rw [hs] at hord
  have hq := FifoTopic.inflight_claim hord (nextFor_of_earlierClaimed he hu)
  rw [← hs] at hq
  rw [queueFor, hq]
  rfl

/-- ... to the end of what the aggregate's consumer has handled. -/
theorem handledFor_claim (h : TopicOk outbox inbox) (hi : outbox[i]? = some row)
    (he : EarlierClaimed outbox inbox i row) (hu : row.id ∉ inbox) :
    handledFor outbox (row.id :: inbox) row.aggregateId =
      handledFor outbox inbox row.aggregateId ++ [row.payload] := by
  have hord := h.ordered
  have hs := split_at hi
  rw [hs] at hord
  have hq := FifoTopic.handled_claim hord (nextFor_of_earlierClaimed he hu)
  rw [← hs] at hq
  rw [handledFor, hq, List.map_append, ← handledFor]
  rfl

theorem queueFor_claim_of_ne (h : TopicOk outbox inbox) (hi : outbox[i]? = some row) {k : Uuid}
    (hk : row.aggregateId ≠ k) :
    queueFor outbox (row.id :: inbox) k = queueFor outbox inbox k := by
  rw [queueFor, queueFor,
    FifoTopic.inflight_claim_of_ne h.ordered.nodup (List.mem_of_getElem? hi) hk]

theorem handledFor_claim_of_ne (h : TopicOk outbox inbox) (hi : outbox[i]? = some row) {k : Uuid}
    (hk : row.aggregateId ≠ k) :
    handledFor outbox (row.id :: inbox) k = handledFor outbox inbox k := by
  rw [handledFor, handledFor,
    FifoTopic.handled_claim_of_ne h.ordered.nodup (List.mem_of_getElem? hi) hk]

/-! ### All aggregates together -/

/-- What is written and not yet claimed. -/
def inFlight (outbox : List (OutboxRow μ)) (inbox : List EventId) : List μ :=
  (FifoTopic.pending OutboxRow.id outbox inbox).map (·.payload)

theorem inFlight_claim (h : TopicOk outbox inbox) (hi : outbox[i]? = some row)
    (hu : row.id ∉ inbox) :
    (inFlight outbox inbox).Perm (row.payload :: inFlight outbox (row.id :: inbox)) :=
  (FifoTopic.pending_claim h.ordered.nodup (List.mem_of_getElem? hi) hu).map _

theorem inFlight_writeAll (h : TopicOk outbox inbox) (aggregateId : Uuid) (payloads : List μ) :
    inFlight (writeAll outbox aggregateId payloads) inbox = inFlight outbox inbox ++ payloads := by
  induction payloads generalizing outbox with
  | nil => exact (List.append_nil _).symm
  | cons payload payloads ih =>
    have hwrite : inFlight (writeOutboxEvent outbox aggregateId payload) inbox =
        inFlight outbox inbox ++ [payload] := by
      rw [inFlight, writeOutboxEvent, FifoTopic.pending_write (h.fresh aggregateId payload),
        List.map_append, ← inFlight]
      rfl
    rw [show CarFlow.writeAll outbox aggregateId (payload :: payloads)
        = CarFlow.writeAll (writeOutboxEvent outbox aggregateId payload) aggregateId payloads from
        rfl, ih (h.write aggregateId payload), hwrite, List.append_assoc, List.singleton_append]

/-- If anything is in flight, something can be delivered. -/
theorem exists_next_of_inFlight (h : inFlight outbox inbox ≠ []) :
    ∃ i row, outbox[i]? = some row ∧ EarlierClaimed outbox inbox i row ∧ row.id ∉ inbox := by
  obtain ⟨payload, hmem⟩ := List.exists_mem_of_ne_nil _ h
  obtain ⟨row, hrow, -⟩ := List.mem_map.mp hmem
  obtain ⟨hrow, hu⟩ := FifoTopic.mem_pending.mp hrow
  have hne : queueFor outbox inbox row.aggregateId ≠ [] := by
    have hnext : row ∈ FifoTopic.inflight OutboxRow.aggregateId OutboxRow.id outbox inbox
        row.aggregateId := FifoTopic.mem_inflight.mpr ⟨hrow, rfl, hu⟩
    exact List.ne_nil_of_mem (List.mem_map_of_mem hnext)
  obtain ⟨payload, rest, hq⟩ := List.exists_cons_of_ne_nil hne
  obtain ⟨i, row', hi, -, -, he, hu'⟩ := exists_next_of_queueFor hq
  exact ⟨i, row', hi, he, hu'⟩

theorem queueFor_of_inFlight (h : inFlight outbox inbox = []) (aggregateId : Uuid) :
    queueFor outbox inbox aggregateId = [] := by
  rw [inFlight, List.map_eq_nil_iff] at h
  rw [queueFor, List.map_eq_nil_iff, List.eq_nil_iff_forall_not_mem]
  intro row hrow
  obtain ⟨hmem, -, hu⟩ := FifoTopic.mem_inflight.mp hrow
  exact List.eq_nil_iff_forall_not_mem.mp h row (FifoTopic.mem_pending.mpr ⟨hmem, hu⟩)

end Topic

end CarFlow
