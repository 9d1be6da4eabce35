import CarFlow.Listing.Transactions
import CarFlow.Search.Service

/-!
# Does the search index converge?

The index is a projection of listing's table by way of its events. Once all events have been
applied in the order of their commits, it should show every approved vehicle as its row is, and no
other vehicle. An event carries what its transaction read, though, and not the row after the
commit; and a rejection writes no event.

## Implementation notes

`Converged` is stated between the table and the events: it applies the whole outbox to an empty
index and compares what is there with the documents of the rows. So nothing of the consumer is in
it, whose crashes are in `Search.Consumer` and `Search.Redelivery`; the question here is whether the
events, taken in order, say what they should.

## Main results

* `converged_commit_iff` — a commit keeps the index in step with the table exactly if the
  transaction read the committed row, as far as it matters
* `index_converges_iff` — **the index converges** throughout a run exactly if each of its commits
  does so
-/

namespace CarFlow

/-- The index when all events have been applied in the order of their commits. -/
def ListingDb.index (db : ListingDb) : SearchIndex := indexAfter (db.outbox.map (·.payload))

/-- The index shows every approved vehicle as its row is, and no other vehicle. -/
def ListingDb.Converged (db : ListingDb) : Prop :=
  ∀ id, db.index id = (db.getById id).bind Vehicle.shown

/-- The columns that the object of a transaction keeps as they were read are still so in the
committed row. -/
def Vehicle.Current (read object row : Vehicle) : Prop :=
  (object.make = read.make → row.make = read.make) ∧
  (object.model = read.model → row.model = read.model) ∧
  (object.year = read.year → row.year = read.year) ∧
  (object.dailyPriceCents = read.dailyPriceCents → row.dailyPriceCents = read.dailyPriceCents) ∧
  (object.dailyMileageLimit = read.dailyMileageLimit →
    row.dailyMileageLimit = read.dailyMileageLimit) ∧
  (object.bookingMode = read.bookingMode → row.bookingMode = read.bookingMode) ∧
  (object.latitude = read.latitude → row.latitude = read.latitude) ∧
  (object.longitude = read.longitude → row.longitude = read.longitude)

/-- What an operation on a vehicle has to have read, for the row that is committed. -/
def ReadCurrent (op : ListingOperation) (object read row : Vehicle) : Prop :=
  match op with
  | .createVehicle .. => True
  | .updateVehicle .. => (row.approvalStatus = .approved ↔ read.approvalStatus = .approved) ∧
    (row.approvalStatus = .approved → read.Current object row)
  | .approveVehicle _ => read.Current object row
  | .rejectVehicle _ => row.approvalStatus ≠ .approved

/-- The step is not the commit of a transaction whose event shows what is no longer so. -/
def CommitsCurrent (s : ListingServer) : ListingAction → Prop
  | .commit i => ∀ t, s.transactions[i]? = some t → ∀ read, t.read = some read →
    ∀ row, s.db.getById t.op.vehicleId = some row → ReadCurrent t.op t.writes.vehicle read row
  | _ => True

section Convergence

variable {db : ListingDb} {t : ListingTransaction} {s s' : ListingServer} {a : ListingAction}
  {read object row : Vehicle}

/-- The document of the object is that of the row it leaves, if the rest of the row is current. -/
theorem vehicleToDocument_updateColumns (hid : object.id = row.id)
    (hhost : object.hostId = row.hostId) :
    vehicleToDocument object.snapshot = vehicleToDocument (read.updateColumns object row).snapshot ↔
      read.Current object row := by
  have hcolumn {α : Type} [DecidableEq α] (o r c : α) :
      o = (if o = r then c else o) ↔ (o = r → c = r) := by
    by_cases h : o = r
    · simp [h, eq_comm]
    · simp [h]
  simp only [vehicleToDocument, Vehicle.snapshot, Vehicle.updateColumns, Vehicle.Current,
    Document.mk.injEq, hid, hhost, hcolumn, true_and]

theorem index_commit (t : ListingTransaction) (id : Uuid) :
    (db.commit t).index id = match t.writes.event with
      | none => db.index id
      | some message =>
        if id = message.data.vehicleId then message.data.indexed else db.index id := by
  cases he : t.writes.event with
  | none => simp only [ListingDb.index, ListingDb.commit, he]
  | some message =>
    simp only [ListingDb.index, ListingDb.commit, he, writeOutboxEvent, List.map_append,
      List.map_cons, List.map_nil, indexAfter_concat]

theorem indexed_eq_iff {data data' : VehicleSnapshot} :
    data.indexed = data'.indexed ↔
      (data.approvalStatus = .approved ↔ data'.approvalStatus = .approved) ∧
        (data.approvalStatus = .approved → vehicleToDocument data = vehicleToDocument data') := by
  unfold VehicleSnapshot.indexed
  by_cases h : data.approvalStatus = .approved <;>
    by_cases h' : data'.approvalStatus = .approved <;> simp [h, h']

/-- What an operation leaves in the index is what it leaves in the table, exactly if it read the
committed row. -/
theorem shown_iff {op : ListingOperation} {w : ListingWrites} (h : ListingAccepts read op w)
    (hid : read.id = row.id) (hhost : read.hostId = row.hostId) :
    (match w.event with
      | none => row.snapshot.indexed
      | some message => message.data.indexed) =
      (read.updateColumns w.vehicle row).snapshot.indexed ↔ ReadCurrent op w.vehicle read row := by
  have hdocument := @vehicleToDocument_updateColumns read w.vehicle row (h.ids.1.trans hid)
    (h.ids.2.trans hhost)
  cases h with
  | update vehicleId fields =>
    have hstatus : (read.updateColumns (read.assign fields) row).approvalStatus
        = row.approvalStatus := if_pos rfl
    rw [indexed_eq_iff, hdocument]
    change (read.approvalStatus = .approved ↔
      (read.updateColumns (read.assign fields) row).approvalStatus = .approved) ∧
      (read.approvalStatus = .approved → _) ↔ _
    rw [hstatus]
    constructor
    · rintro ⟨hiff, hcurrent⟩
      exact ⟨hiff.symm, fun happroved => hcurrent (hiff.mpr happroved)⟩
    · rintro ⟨hiff, hcurrent⟩
      exact ⟨hiff.symm, fun happroved => hcurrent (hiff.mpr happroved)⟩
  | approve vehicleId hpending =>
    have hstatus : (read.updateColumns (read.withStatus .approved) row).approvalStatus
        = .approved := if_neg (by simp [Vehicle.withStatus, hpending])
    rw [indexed_eq_iff, hdocument]
    refine ⟨fun ⟨_, hcurrent⟩ => hcurrent rfl, fun hcurrent => ⟨?_, fun _ => hcurrent⟩⟩
    exact iff_of_true rfl hstatus
  | reject vehicleId hpending =>
    have hstatus : (read.updateColumns (read.withStatus .rejected) row).approvalStatus
        = .rejected := if_neg (by simp [Vehicle.withStatus, hpending])
    have hnone : (read.updateColumns (read.withStatus .rejected) row).snapshot.indexed = none :=
      if_neg (by simp [Vehicle.snapshot, hstatus])
    rw [hnone]
    change row.snapshot.indexed = none ↔ row.approvalStatus ≠ .approved
    by_cases happroved : row.approvalStatus = .approved
    · rw [show row.snapshot.indexed = some _ from if_pos happroved]
      exact iff_of_false (Option.some_ne_none _) fun hne => hne happroved
    · exact iff_of_true (if_neg happroved) happroved

/-- The event of a transaction is about its vehicle. -/
theorem ListingTransaction.Ok.event_id (h : t.Ok db) {message : ListingMessage}
    (he : t.writes.event = some message) : message.data.vehicleId = t.op.vehicleId := by
  cases hread : t.read with
  | none =>
    obtain ⟨-, hostId, payload, hw⟩ := h.opens hread
    rw [hw] at he
    cases he
  | some read =>
    rw [(h.accepts hread).event message he, ← h.writes_id]
    rfl

/-- What is committed about its own vehicle decides. -/
theorem converged_commit_self (hconverged : db.Converged) (h : t.Ok db) :
    (db.commit t).Converged ↔ (db.commit t).index t.op.vehicleId =
      ((db.commit t).getById t.op.vehicleId).bind Vehicle.shown := by
  refine ⟨fun hc => hc _, fun hself id => ?_⟩
  by_cases hk : t.op.vehicleId = id
  · exact hk ▸ hself
  rw [h.commit_getById_of_ne hk, ← hconverged id, index_commit]
  cases he : t.writes.event with
  | none => rfl
  | some message => exact if_neg fun heq => hk ((h.event_id he).symm.trans heq.symm)

/-- **A commit keeps the index in step** with the table exactly if its transaction read the
committed row, as far as it matters. -/
theorem converged_commit_iff (hconverged : db.Converged) (h : t.Ok db)
    (hflushed : t.flushed = true) :
    (db.commit t).Converged ↔ ∀ read, t.read = some read →
      ∀ row, db.getById t.op.vehicleId = some row →
        ReadCurrent t.op t.writes.vehicle read row := by
  rw [converged_commit_self hconverged h, index_commit]
  cases hread : t.read with
  | none =>
    obtain ⟨-, hostId, payload, hw⟩ := h.opens hread
    have hindex := hconverged t.op.vehicleId
    rw [(h.inserted hread hflushed).2, Option.bind_none] at hindex
    rw [(h.commit_getById hflushed).1 hread, hw, hindex]
    exact iff_of_true rfl fun read hr => (by cases hr)
  | some read =>
    obtain ⟨hid, row, hrow, hhost⟩ := h.read read hread
    have hrowId : row.id = t.op.vehicleId := RowTable.key_of_lookup hrow
    have hindex := hconverged t.op.vehicleId
    rw [hrow, Option.bind_some, ← indexed_snapshot] at hindex
    rw [(h.commit_getById hflushed).2 read hread row hrow, Option.bind_some, hindex,
      ← indexed_snapshot]
    have hshown := shown_iff (h.accepts hread) (hid.trans hrowId.symm) hhost.symm
    have hleft : (match t.writes.event with
        | none => row.snapshot.indexed
        | some message =>
          if t.op.vehicleId = message.data.vehicleId then message.data.indexed
          else row.snapshot.indexed) =
        (match t.writes.event with
          | none => row.snapshot.indexed
          | some message => message.data.indexed) := by
      cases he : t.writes.event with
      | none => rfl
      | some message => exact if_pos (h.event_id he).symm
    rw [hleft, hshown]
    simp [hrow]

/-- **The search index converges** throughout a run exactly if each of its commits is of a
transaction that read the committed row, as far as it matters. -/
theorem index_converges_iff {run : List (ListingServer × ListingAction)}
    (h : listingServer.Exec listingServer.init run s) :
    TransitionSystem.Throughout (fun s => s.db.Converged) run s ↔
      ∀ x ∈ run, CommitsCurrent x.1 x.2 := by
  refine h.forall_iff (fun s => s.db.Converged) CommitsCurrent (fun _ => rfl)
    fun s a s' hr hconverged hstep => ?_
  have hok := listingServerOk_of_reachable hr
  cases listingStep_cases hstep with
  | began => exact iff_of_true hconverged trivial
  | flushed => exact iff_of_true hconverged trivial
  | raised => exact iff_of_true hconverged trivial
  | aborted => exact iff_of_true hconverged trivial
  | committed i t hi hflushed =>
    rw [converged_commit_iff hconverged (hok.each t (List.mem_of_getElem? hi)) hflushed]
    simp only [CommitsCurrent, hi, Option.some.injEq, forall_eq']

end Convergence

/-- A host creates a car, changes its price while an admin approves it. The approval has read the
old price, and commits last. -/
def sampleStaleApproval : List ListingAction :=
  [.begin (.createVehicle 7 1 ⟨"make", "model", 2020, 5000, 200, .instant, 0, 0⟩), .flush 0,
    .commit 0, .begin (.updateVehicle 7 1 { dailyPriceCents := some 6000 }),
    .begin (.approveVehicle 7), .flush 0, .commit 0, .flush 0, .commit 0]

/-- The price is 6000, and the index shows 5000. -/
theorem sampleStaleApproval_end :
    ∃ s row document, listingServer.run {} sampleStaleApproval = some s ∧ s.transactions = [] ∧
      s.db.getById 7 = some row ∧ row.approvalStatus = .approved ∧ row.dailyPriceCents = 6000 ∧
      s.db.index 7 = some document ∧ document.dailyPriceCents = 5000 ∧ ¬ s.db.Converged := by
  obtain ⟨s, hrun, hs⟩ : ∃ s, listingServer.run {} sampleStaleApproval = some s ∧
      (s.transactions.isEmpty, (s.db.getById 7).map fun r => (r.approvalStatus, r.dailyPriceCents),
        (s.db.index 7).map (·.dailyPriceCents)) = (true, some (.approved, 6000), some 5000) := by
    rw [← Option.map_eq_some_iff]
    decide
  simp only [Prod.mk.injEq, List.isEmpty_iff, Option.map_eq_some_iff] at hs
  obtain ⟨hidle, ⟨row, hrow, happroved, hprice⟩, document, hdocument, hshown⟩ := hs
  refine ⟨s, row, document, hrun, hidle, hrow, happroved, hprice, hdocument, hshown,
    fun hconverged => ?_⟩
  -- the index would show the price of the row
  have hindexed : s.db.index 7 = some row.document := by
    rw [hconverged 7, hrow]
    exact if_pos happroved
  obtain rfl : document = row.document := Option.some.inj (hdocument.symm.trans hindexed)
  cases hshown.symm.trans hprice

theorem index_converges_iff_sampleStaleApproval :
    ∃ s run, listingServer.Exec listingServer.init run s ∧
      run.map Prod.snd = sampleStaleApproval ∧
      (s.db.getById 7).map (·.dailyPriceCents) = some 6000 ∧
      (s.db.index 7).map (·.dailyPriceCents) = some 5000 ∧
      ¬ TransitionSystem.Throughout (fun s => s.db.Converged) run s ∧
      ¬ ∀ x ∈ run, CommitsCurrent x.1 x.2 := by
  obtain ⟨s, row, document, hrun, -, hrow, -, hprice, hdocument, hshown, hnot⟩ :=
    sampleStaleApproval_end
  have hexec := TransitionSystem.exec_steps hrun
  have hnot : ¬ TransitionSystem.Throughout (fun s => s.db.Converged)
      (listingServer.steps {} sampleStaleApproval) s := TransitionSystem.not_throughout _ hnot
  refine ⟨s, _, hexec, TransitionSystem.map_snd_steps hrun, ?_, ?_, hnot,
    (index_converges_iff hexec).not.mp hnot⟩
  · rw [hrow, Option.map_some, hprice]
  · rw [hdocument, Option.map_some, hshown]

theorem index_shows_stale_price :
    ∃ s row document, listingServer.Reachable s ∧ s.transactions = [] ∧
      s.db.getById 7 = some row ∧ row.approvalStatus = .approved ∧ row.dailyPriceCents = 6000 ∧
      s.db.index 7 = some document ∧ document.dailyPriceCents = 5000 ∧ ¬ s.db.Converged := by
  obtain ⟨s, row, document, hrun, hs⟩ := sampleStaleApproval_end
  exact ⟨s, row, document, TransitionSystem.reachable_of_run .init hrun, hs⟩

end CarFlow
