import CarFlow.Lib.ProcessFamily
import CarFlow.Lib.TransitionSystem
import CarFlow.Shared.Outbox
import Mathlib.Logic.Function.Basic

/-!
# The consumers of a topic

`shared/kafka_consumer.py`: any number of processes that run `run_consumer` with
`postgres_inbox_processor`, for any handlers. Two logs advance separately, the inbox with the
effects in one transaction, and the offsets at the broker. Processes are started, crash and are
started again, and the broker hands partitions from one to another at any time, also while a record
is in hand, which it then delivers to both.

## The model

* Debezium ships each outbox row at least once, to any partition.
* A process starts at the committed offset of a partition it is assigned. `consumer.commit()`
  commits its positions in all partitions it has been assigned, and is not fenced off here: also a
  process that has lost its partition may commit.
* A claim that another process has inserted and not committed makes `INSERT .. ON CONFLICT DO
  NOTHING` wait; a committed one makes it insert nothing.
* What a handler reads, and what other services answer it, is any `seen`; its writes are invisible
  until its commit. A handler that raises ends its process, whose transaction rolls back, and so
  does a crash at any point.

## Implementation notes

A service is a record of what is left open: its tables, the handlers of the messages, and how writes
are applied. The processes are a list, and each has its own positions and at most one record in
hand. `seen` is an argument of the step at which a handler runs, and not a part of the state, so
that a handler may read anything at any time before its commit; whatever is proved then holds of all
isolation levels that hide uncommitted writes.

## Main results

* `groupStep_cases` — what each step can do
-/

namespace CarFlow

/-! ### The consumers -/

/-- A service with an inbox: the event handlers, by payload, and what their writes do to its
tables. -/
structure InboxService (μ σ δ ω ε : Type) where
  /-- The tables at the start. -/
  tables : δ
  handlers : μ → Option (σ → Except ε ω)
  apply : ω → δ → δ

/-- The database of such a service. -/
structure InboxDb (δ : Type) where
  inbox : List EventId := []
  tables : δ

instance {δ : Type} : HasInbox (InboxDb δ) where
  inbox db := db.inbox
  withInbox db inbox := { db with inbox }

/-- How far `process` has got with a record. -/
inductive RecordStage (ω : Type)
  /-- Before the claim. -/
  | received
  /-- The claim is inserted. -/
  | claimed
  /-- The handler has returned; there are no writes if the type has none. -/
  | handled (writes : Option ω)
  /-- The claim was found there. -/
  | skipped
  /-- `session.commit()` has returned. -/
  | processed

/-- A process that runs `run_consumer`. -/
structure ConsumerProcess (μ ω : Type) where
  /-- Its position in each partition assigned to it. -/
  positions : ℕ → Option ℕ := fun _ => none
  inHand : Option (OutboxRow μ × RecordStage ω) := none

/-- The topic, the broker's offsets, the service's database and the processes. -/
structure ConsumerGroup (μ δ ω : Type) where
  /-- The outbox of the service that publishes. -/
  outbox : List (OutboxRow μ) := []
  partitions : ℕ → List (OutboxRow μ) := fun _ => []
  /-- The committed offsets; `auto_offset_reset` is `earliest`. -/
  offsets : ℕ → ℕ := fun _ => 0
  db : InboxDb δ
  /-- The writes committed so far, those of a handler with the event they are for. Nothing reads
  this. -/
  writes : List (Option EventId × ω) := []
  processes : List (ConsumerProcess μ ω) := []

/-- The steps of the processes and of what is around them. -/
inductive GroupAction (μ σ ω : Type)
  | publish (aggregateId : Uuid) (payload : μ)
  | ship (i partition : ℕ)
  /-- Another transaction of the service commits. -/
  | change (writes : ω)
  | start
  /-- The broker assigns some partitions. -/
  | assign (p : ℕ) (partitions : List ℕ)
  | fetch (p partition : ℕ)
  | claim (p : ℕ)
  | handle (p : ℕ) (seen : σ)
  | commit (p : ℕ)
  | commitOffset (p : ℕ)
  | crash (p : ℕ)

section Step

variable {μ σ δ ω ε : Type}

/-- The claim a process has inserted and not committed. -/
def ConsumerProcess.claim? (t : ConsumerProcess μ ω) : Option EventId :=
  match t.inHand with
  | some (row, .claimed) | some (row, .handled _) => some row.id
  | _ => none

/-- The process with the record in hand at another stage. -/
def ConsumerProcess.at (t : ConsumerProcess μ ω) (row : OutboxRow μ) (stage : RecordStage ω) :
    ConsumerProcess μ ω :=
  { t with inHand := some (row, stage) }

/-- The database once a transaction with a claim and the writes of its handler has committed. -/
def InboxService.commit (S : InboxService μ σ δ ω ε) (db : InboxDb δ) (eventId : EventId)
    (writes : Option ω) : InboxDb δ where
  inbox := eventId :: db.inbox
  tables := writes.elim db.tables fun w => S.apply w db.tables

/-- One step. -/
def InboxService.groupStep (S : InboxService μ σ δ ω ε) (s : ConsumerGroup μ δ ω) :
    GroupAction μ σ ω → Option (ConsumerGroup μ δ ω)
  | .publish aggregateId payload =>
    some { s with outbox := writeOutboxEvent s.outbox aggregateId payload }
  | .ship i partition => do
    let row ← s.outbox[i]?
    some { s with
      partitions := Function.update s.partitions partition (s.partitions partition ++ [row]) }
  | .change w =>
    some { s with
      db := { s.db with tables := S.apply w s.db.tables }
      writes := s.writes ++ [(none, w)] }
  | .start => some { s with processes := s.processes ++ [{}] }
  | .assign p partitions => do
    let t ← s.processes[p]?
    let t := { t with positions := fun q => if q ∈ partitions then some (s.offsets q) else none }
    some { s with processes := s.processes.set p t }
  | .fetch p partition => do
    let t ← s.processes[p]?
    let position ← t.positions partition
    let row ← (s.partitions partition)[position]?
    if t.inHand.isSome then none
    else
      let t : ConsumerProcess μ ω :=
        { positions := Function.update t.positions partition (some (position + 1))
          inHand := some (row, .received) }
      some { s with processes := s.processes.set p t }
  | .claim p => do
    let t ← s.processes[p]?
    match t.inHand with
    | some (row, .received) =>
      if ∃ u ∈ s.processes.eraseIdx p, u.claim? = some row.id then none
      else
        let stage := match claimEvent s.db.inbox row.id with
          | (true, _) => RecordStage.claimed
          | (false, _) => .skipped
        some { s with processes := s.processes.set p (t.at row stage) }
    | _ => none
  | .handle p seen => do
    let t ← s.processes[p]?
    match t.inHand with
    | some (row, .claimed) =>
      match S.handlers row.payload with
      | none => some { s with processes := s.processes.set p (t.at row (.handled none)) }
      | some handler =>
        match handler seen with
        | .error _ => some { s with processes := s.processes.eraseIdx p }
        | .ok w => some { s with processes := s.processes.set p (t.at row (.handled (some w))) }
    | _ => none
  | .commit p => do
    let t ← s.processes[p]?
    match t.inHand with
    | some (row, .handled writes) =>
      some { s with
        db := S.commit s.db row.id writes
        writes := s.writes ++ writes.toList.map fun w => (some row.id, w)
        processes := s.processes.set p (t.at row .processed) }
    | some (row, .skipped) => some { s with processes := s.processes.set p (t.at row .processed) }
    | _ => none
  | .commitOffset p => do
    let t ← s.processes[p]?
    match t.inHand with
    | some (_, .processed) =>
      some { s with
        offsets := fun q => (t.positions q).getD (s.offsets q)
        processes := s.processes.set p { t with inHand := none } }
    | _ => none
  | .crash p => do
    let _ ← s.processes[p]?
    some { s with processes := s.processes.eraseIdx p }

/-- The consumers of a service. -/
def InboxService.consumerGroup (S : InboxService μ σ δ ω ε) :
    TransitionSystem (ConsumerGroup μ δ ω) (GroupAction μ σ ω) where
  init := { db := { tables := S.tables } }
  step := S.groupStep

/-- The ways a step can go. -/
inductive GroupStep (S : InboxService μ σ δ ω ε) (s : ConsumerGroup μ δ ω) :
    ConsumerGroup μ δ ω → Prop
  | published (aggregateId : Uuid) (payload : μ) :
      GroupStep S s { s with outbox := writeOutboxEvent s.outbox aggregateId payload }
  | shipped (partition : ℕ) (row : OutboxRow μ) (hrow : row ∈ s.outbox) :
      GroupStep S s { s with
        partitions := Function.update s.partitions partition (s.partitions partition ++ [row]) }
  | changed (w : ω) :
      GroupStep S s { s with
        db := { s.db with tables := S.apply w s.db.tables }
        writes := s.writes ++ [(none, w)] }
  | started : GroupStep S s { s with processes := s.processes ++ [{}] }
  | assigned (p : ℕ) (partitions : List ℕ) (t : ConsumerProcess μ ω)
      (hp : s.processes[p]? = some t) :
      GroupStep S s { s with
        processes := s.processes.set p { t with
          positions := fun q => if q ∈ partitions then some (s.offsets q) else none } }
  | fetched (p partition position : ℕ) (t : ConsumerProcess μ ω) (row : OutboxRow μ)
      (hp : s.processes[p]? = some t) (hposition : t.positions partition = some position)
      (hrow : (s.partitions partition)[position]? = some row) (hidle : t.inHand = none) :
      GroupStep S s { s with
        processes := s.processes.set p
          { positions := Function.update t.positions partition (some (position + 1))
            inHand := some (row, .received) } }
  | claimed (p : ℕ) (t : ConsumerProcess μ ω) (row : OutboxRow μ) (hp : s.processes[p]? = some t)
      (hinHand : t.inHand = some (row, .received)) (hnew : row.id ∉ s.db.inbox)
      (hfree : ∀ u ∈ s.processes.eraseIdx p, u.claim? ≠ some row.id) :
      GroupStep S s { s with processes := s.processes.set p (t.at row .claimed) }
  | skipped (p : ℕ) (t : ConsumerProcess μ ω) (row : OutboxRow μ) (hp : s.processes[p]? = some t)
      (hinHand : t.inHand = some (row, .received)) (hclaimed : row.id ∈ s.db.inbox) :
      GroupStep S s { s with processes := s.processes.set p (t.at row .skipped) }
  | handled (p : ℕ) (seen : σ) (t : ConsumerProcess μ ω) (row : OutboxRow μ) (writes : Option ω)
      (hp : s.processes[p]? = some t) (hinHand : t.inHand = some (row, .claimed))
      (hwrites : ∀ handler ∈ S.handlers row.payload, ∃ w, handler seen = .ok w ∧ writes = some w)
      (hnone : S.handlers row.payload = none → writes = none) :
      GroupStep S s { s with processes := s.processes.set p (t.at row (.handled writes)) }
  | committed (p : ℕ) (t : ConsumerProcess μ ω) (row : OutboxRow μ) (writes : Option ω)
      (hp : s.processes[p]? = some t) (hinHand : t.inHand = some (row, .handled writes)) :
      GroupStep S s { s with
        db := S.commit s.db row.id writes
        writes := s.writes ++ writes.toList.map fun w => (some row.id, w)
        processes := s.processes.set p (t.at row .processed) }
  | passed (p : ℕ) (t : ConsumerProcess μ ω) (row : OutboxRow μ) (hp : s.processes[p]? = some t)
      (hinHand : t.inHand = some (row, .skipped)) :
      GroupStep S s { s with processes := s.processes.set p (t.at row .processed) }
  | offsetCommitted (p : ℕ) (t : ConsumerProcess μ ω) (row : OutboxRow μ)
      (hp : s.processes[p]? = some t) (hinHand : t.inHand = some (row, .processed)) :
      GroupStep S s { s with
        offsets := fun q => (t.positions q).getD (s.offsets q)
        processes := s.processes.set p { t with inHand := none } }
  | ended (p : ℕ) : GroupStep S s { s with processes := s.processes.eraseIdx p }

theorem groupStep_cases {S : InboxService μ σ δ ω ε} {s s' : ConsumerGroup μ δ ω}
    {a : GroupAction μ σ ω} (h : S.groupStep s a = some s') : GroupStep S s s' := by
  cases a with
  | publish aggregateId payload =>
    cases h
    exact .published aggregateId payload
  | ship i partition =>
    simp only [InboxService.groupStep, Option.bind_eq_bind, Option.bind_eq_some_iff] at h
    obtain ⟨row, hi, h⟩ := h
    cases h
    exact .shipped partition row (List.mem_of_getElem? hi)
  | change w =>
    cases h
    exact .changed w
  | start =>
    cases h
    exact .started
  | assign p partitions =>
    simp only [InboxService.groupStep, Option.bind_eq_bind, Option.bind_eq_some_iff] at h
    obtain ⟨t, hp, h⟩ := h
    cases h
    exact .assigned p partitions t hp
  | fetch p partition =>
    simp only [InboxService.groupStep, Option.bind_eq_bind, Option.bind_eq_some_iff] at h
    obtain ⟨t, hp, position, hposition, row, hrow, h⟩ := h
    split at h
    · cases h
    · rename_i hidle
      cases h
      exact .fetched p partition position t row hp hposition hrow
        (Option.not_isSome_iff_eq_none.mp hidle)
  | claim p =>
    simp only [InboxService.groupStep, Option.bind_eq_bind, Option.bind_eq_some_iff] at h
    obtain ⟨t, hp, h⟩ := h
    split at h
    swap
    · cases h
    rename_i row hinHand
    split at h
    · cases h
    rename_i hfree
    by_cases hmem : row.id ∈ s.db.inbox
    · simp only [claimEvent, if_pos hmem] at h
      cases h
      exact .skipped p t row hp hinHand hmem
    · simp only [claimEvent, if_neg hmem] at h
      cases h
      exact .claimed p t row hp hinHand hmem fun u hu hclaim => hfree ⟨u, hu, hclaim⟩
  | handle p seen =>
    simp only [InboxService.groupStep, Option.bind_eq_bind, Option.bind_eq_some_iff] at h
    obtain ⟨t, hp, h⟩ := h
    split at h
    swap
    · cases h
    rename_i row hinHand
    split at h
    · rename_i hnone
      cases h
      refine .handled p seen t row none hp hinHand (fun handler hh => ?_) fun _ => rfl
      cases hnone.symm.trans hh
    rename_i handler hhandler
    split at h
    · cases h
      exact .ended p
    · rename_i w hw
      cases h
      refine .handled p seen t row (some w) hp hinHand (fun handler' hh => ?_) fun hnone => ?_
      · obtain rfl := Option.some.inj (hhandler.symm.trans hh)
        exact ⟨w, hw, rfl⟩
      · cases hnone.symm.trans hhandler
  | commit p =>
    simp only [InboxService.groupStep, Option.bind_eq_bind, Option.bind_eq_some_iff] at h
    obtain ⟨t, hp, h⟩ := h
    split at h
    · rename_i row writes hinHand
      cases h
      exact .committed p t row writes hp hinHand
    · rename_i row hinHand
      cases h
      exact .passed p t row hp hinHand
    · cases h
  | commitOffset p =>
    simp only [InboxService.groupStep, Option.bind_eq_bind, Option.bind_eq_some_iff] at h
    obtain ⟨t, hp, h⟩ := h
    split at h
    · rename_i row hinHand
      cases h
      exact .offsetCommitted p t row hp hinHand
    · cases h
  | crash p =>
    simp only [InboxService.groupStep, Option.bind_eq_bind, Option.bind_eq_some_iff] at h
    obtain ⟨t, hp, h⟩ := h
    cases h
    exact .ended p

end Step

end CarFlow
