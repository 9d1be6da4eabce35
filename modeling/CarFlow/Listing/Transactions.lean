import CarFlow.Lib.ProcessFamily
import CarFlow.Lib.TransitionSystem
import CarFlow.Listing.Service
import CarFlow.Shared.Outbox

/-!
# Concurrent listing transactions

The operations of the listing service side by side under READ COMMITTED. A transaction reads its
row, flushes the columns of the row object that its operation changed, and commits together with
its event. There is no version column: an update goes to whatever row is committed when it runs,
and the event carries the row object, that is, what the transaction read.

An update locks its row until the transaction ends, and others that want to update the row wait. An
operation that changed nothing sends no update and takes no lock. A transaction may be aborted at
any point.

## Implementation notes

A transaction has `read`, the row as it was, and `writes`, the row object that its operation has
made of it; the flush writes the columns in which the two differ onto the row that is committed
then. `own` is the version that the transaction has written, which only itself sees, and which
locks the row for others. In the service the flush is part of the commit, or of the query before
it: here it is a step of its own, so that others may commit in between and a crash may come after.

The operations themselves are in `Listing.Service`; a transaction that reads a row and then raises
changes nothing and has no step.

## Main results

* `ListingServerOk.step` — the invariant: at its commit, a transaction leaves the committed row with
  its own columns set (`commit_getById`)
* `listingServer_listed` — prices and mileage limits stay positive
-/

namespace CarFlow

/-- The tables of the listing service. -/
structure ListingDb where
  vehicles : List Vehicle := []
  outbox : List (OutboxRow ListingMessage) := []

/-- `get_by_id`. -/
def ListingDb.getById (db : ListingDb) (vehicleId : Uuid) : Option Vehicle :=
  RowTable.lookup Vehicle.id db.vehicles vehicleId

/-- A transaction under way. -/
structure ListingTransaction where
  op : ListingOperation
  /-- The row it read; `create_vehicle` reads none. -/
  read : Option Vehicle
  writes : ListingWrites
  /-- The row object has been flushed, and the event written. -/
  flushed : Bool := false
  /-- Its version of the row, once it has written it. -/
  own : Option Vehicle := none

/-- The committed database and the transactions under way. -/
structure ListingServer where
  db : ListingDb := {}
  transactions : List ListingTransaction := []

/-- The steps of the server. -/
inductive ListingAction
  | begin (op : ListingOperation)
  | flush (i : ℕ)
  | commit (i : ℕ)
  | abort (i : ℕ)

/-- What becomes of a flush: it waits, it raises, or it leaves a version of the row. -/
inductive FlushResult
  | waits
  | raises
  | runs (own : Option Vehicle)

/-- Another transaction has written the row. -/
def VehicleLocked (others : List ListingTransaction) (vehicleId : Uuid) : Prop :=
  ∃ t ∈ others, ∃ r ∈ t.own, r.id = vehicleId

instance (others : List ListingTransaction) (vehicleId : Uuid) :
    Decidable (VehicleLocked others vehicleId) := by
  unfold VehicleLocked
  infer_instance

/-- Flush the row object of a transaction: insert a new row, or update the columns that changed. -/
def ListingTransaction.flush (db : ListingDb) (others : List ListingTransaction)
    (t : ListingTransaction) : FlushResult :=
  match t.read with
  | none =>
    if ¬ t.writes.vehicle.FitsColumns then .raises
    else if VehicleLocked others t.writes.vehicle.id then .waits
    else if (db.getById t.writes.vehicle.id).isSome then .raises
    else .runs (some t.writes.vehicle)
  | some read =>
    if t.writes.vehicle = read then .runs none
    else if VehicleLocked others read.id then .waits
    else match db.getById read.id with
      | none => .raises
      | some current =>
        let row := read.updateColumns t.writes.vehicle current
        if ¬ row.FitsColumns then .raises else .runs (some row)

/-- The database once a transaction has committed. -/
def ListingDb.commit (db : ListingDb) (t : ListingTransaction) : ListingDb where
  vehicles :=
    match t.own with
    | none => db.vehicles
    | some row =>
      if t.op.creates then db.vehicles ++ [row] else RowTable.update Vehicle.id db.vehicles row
  outbox :=
    match t.writes.event with
    | none => db.outbox
    | some message => writeOutboxEvent db.outbox t.op.vehicleId message

/-- One step. A flush that raises ends its transaction. -/
def listingStep (s : ListingServer) : ListingAction → Option ListingServer
  | .begin op =>
    let read := if op.creates then none else s.db.getById op.vehicleId
    match op.plan read with
    | .error _ => none
    | .ok writes => some { s with transactions := s.transactions ++ [{ op, read, writes }] }
  | .flush i => do
    let t ← s.transactions[i]?
    if t.flushed then none
    else match t.flush s.db (s.transactions.eraseIdx i) with
      | .waits => none
      | .raises => some { s with transactions := s.transactions.eraseIdx i }
      | .runs own =>
        some { s with transactions := s.transactions.set i { t with flushed := true, own } }
  | .commit i => do
    let t ← s.transactions[i]?
    if t.flushed then
      some { db := s.db.commit t, transactions := s.transactions.eraseIdx i }
    else none
  | .abort i => do
    let _ ← s.transactions[i]?
    some { s with transactions := s.transactions.eraseIdx i }

/-- The listing service and its database. -/
def listingServer : TransitionSystem ListingServer ListingAction where
  init := {}
  step := listingStep

/-- The ways a step can go. -/
inductive ListingStep (s : ListingServer) : ListingAction → ListingServer → Prop
  | began (op : ListingOperation) (w : ListingWrites)
      (hplan : op.plan (if op.creates then none else s.db.getById op.vehicleId) = .ok w) :
      ListingStep s (.begin op) { s with
        transactions := s.transactions ++ [{ op, writes := w
                                             read := if op.creates then none
                                               else s.db.getById op.vehicleId }] }
  | flushed (i : ℕ) (t : ListingTransaction) (own : Option Vehicle)
      (hi : s.transactions[i]? = some t)
      (hflush : t.flush s.db (s.transactions.eraseIdx i) = .runs own) :
      ListingStep s (.flush i)
        { s with transactions := s.transactions.set i { t with flushed := true, own } }
  | raised (i : ℕ) :
      ListingStep s (.flush i) { s with transactions := s.transactions.eraseIdx i }
  | committed (i : ℕ) (t : ListingTransaction) (hi : s.transactions[i]? = some t)
      (hflushed : t.flushed = true) :
      ListingStep s (.commit i)
        { db := s.db.commit t, transactions := s.transactions.eraseIdx i }
  | aborted (i : ℕ) :
      ListingStep s (.abort i) { s with transactions := s.transactions.eraseIdx i }

theorem listingStep_cases {s s' : ListingServer} {a : ListingAction}
    (h : listingStep s a = some s') : ListingStep s a s' := by
  cases a with
  | begin op =>
    simp only [listingStep] at h
    split at h
    · cases h
    · rename_i w hplan
      cases h
      exact .began op w hplan
  | flush i =>
    simp only [listingStep, Option.bind_eq_bind, Option.bind_eq_some_iff] at h
    obtain ⟨t, hi, h⟩ := h
    split at h
    · cases h
    · split at h
      · cases h
      · cases h
        exact .raised i
      · rename_i own hflush
        cases h
        exact .flushed i t own hi hflush
  | commit i =>
    simp only [listingStep, Option.bind_eq_bind, Option.bind_eq_some_iff] at h
    obtain ⟨t, hi, h⟩ := h
    split at h
    · rename_i hflushed
      cases h
      exact .committed i t hi hflushed
    · cases h
  | abort i =>
    simp only [listingStep, Option.bind_eq_bind, Option.bind_eq_some_iff] at h
    obtain ⟨t, hi, h⟩ := h
    cases h
    exact .aborted i

/-- The ways in which a flush runs: a new row, a row object left as it was read, or the columns
that changed. -/
inductive ListingTransaction.Flushes (db : ListingDb) (others : List ListingTransaction)
    (t : ListingTransaction) : Option Vehicle → Prop
  | inserted (hread : t.read = none) (hfits : t.writes.vehicle.FitsColumns)
      (hlocked : ¬ VehicleLocked others t.writes.vehicle.id)
      (hnone : db.getById t.writes.vehicle.id = none) :
      Flushes db others t (some t.writes.vehicle)
  | unchanged (hread : t.read = some t.writes.vehicle) : Flushes db others t none
  | updated (read current : Vehicle) (hread : t.read = some read)
      (hlocked : ¬ VehicleLocked others read.id) (hcurrent : db.getById read.id = some current)
      (hfits : (read.updateColumns t.writes.vehicle current).FitsColumns) :
      Flushes db others t (some (read.updateColumns t.writes.vehicle current))

theorem ListingTransaction.flush_cases {db : ListingDb} {others : List ListingTransaction}
    {t : ListingTransaction} {own : Option Vehicle} (hflush : t.flush db others = .runs own) :
    t.Flushes db others own := by
  unfold ListingTransaction.flush at hflush
  split at hflush
  · rename_i hread
    split at hflush
    · cases hflush
    rename_i hfits
    split at hflush
    · cases hflush
    rename_i hlocked
    split at hflush
    · cases hflush
    rename_i hnone
    cases hflush
    exact .inserted hread (not_not.mp hfits) hlocked (Option.not_isSome_iff_eq_none.mp hnone)
  · rename_i read hread
    split at hflush
    · rename_i hsame
      cases hflush
      exact .unchanged (hsame ▸ hread)
    split at hflush
    · cases hflush
    rename_i hlocked
    split at hflush
    · cases hflush
    rename_i current hcurrent
    dsimp only at hflush
    split at hflush
    · cases hflush
    rename_i hfits
    cases hflush
    exact .updated read current hread hlocked hcurrent (not_not.mp hfits)

/-! ### The invariant

What a transaction has read may be old, but its host, and the row it has written itself, are not. A
commit changes one row, and no transaction but its own has written this row. -/

/-- What holds of a transaction under way. -/
structure ListingTransaction.Ok (db : ListingDb) (t : ListingTransaction) : Prop where
  creates : t.op.creates = true → t.read = none
  planned : t.op.plan t.read = .ok t.writes
  /-- The row may have changed since it was read, but not whose it is. -/
  read : ∀ row, t.read = some row → row.id = t.op.vehicleId ∧
    ∃ current, db.getById t.op.vehicleId = some current ∧ current.hostId = row.hostId
  rowId : ∀ r ∈ t.own, r.id = t.op.vehicleId
  inserted : t.read = none → t.flushed = true →
    t.own = some t.writes.vehicle ∧ db.getById t.op.vehicleId = none
  /-- It leaves the committed row, with the columns that it changed. -/
  updated : ∀ row, t.read = some row → t.flushed = true →
    ∀ current, db.getById t.op.vehicleId = some current →
      t.own.getD current = row.updateColumns t.writes.vehicle current
  unwritten : ∀ row, t.read = some row → t.flushed = true → t.own = none → t.writes.vehicle = row

/-- Two transactions have not written one row. -/
def ListingTransaction.Apart (t u : ListingTransaction) : Prop :=
  ∀ r ∈ t.own, ∀ r' ∈ u.own, r.id ≠ r'.id

section Transaction

variable {db : ListingDb} {t u : ListingTransaction} {others : List ListingTransaction}
  {own : Option Vehicle}

theorem ListingTransaction.Apart.symm (h : t.Apart u) : u.Apart t :=
  fun r hr r' hr' => (h r' hr' r hr).symm

namespace ListingTransaction.Ok

theorem accepts (h : t.Ok db) {row : Vehicle} (hread : t.read = some row) :
    ListingAccepts row t.op t.writes := by
  have hc : t.op.creates = false := by
    refine Bool.eq_false_iff.mpr fun hc => ?_
    cases (h.creates hc).symm.trans hread
  obtain ⟨row', hrow', hacc⟩ := (ListingOperation.plan_ok_iff hc).mp h.planned
  obtain rfl : row = row' := Option.some.inj (hread.symm.trans hrow')
  exact hacc

theorem opens (h : t.Ok db) (hread : t.read = none) :
    t.op.creates = true ∧ ∃ hostId payload,
      t.writes = ⟨createVehicle t.op.vehicleId hostId payload, none⟩ := by
  have hplanned := h.planned
  cases hc : t.op.creates with
  | false =>
    obtain ⟨row, hrow, -⟩ := (ListingOperation.plan_ok_iff hc).mp hplanned
    cases hread.symm.trans hrow
  | true =>
    refine ⟨rfl, ?_⟩
    generalize t.op = op at hc hplanned ⊢
    cases op with
    | createVehicle id hostId payload => exact ⟨hostId, payload, (Except.ok.inj hplanned).symm⟩
    | _ => cases hc

theorem writes_id (h : t.Ok db) : t.writes.vehicle.id = t.op.vehicleId := by
  cases hread : t.read with
  | none =>
    obtain ⟨-, hostId, payload, hw⟩ := h.opens hread
    rw [hw]
    rfl
  | some row => exact (h.accepts hread).ids.1.trans (h.read row hread).1

theorem start {op : ListingOperation} {w : ListingWrites}
    (hplan : op.plan (if op.creates then none else db.getById op.vehicleId) = .ok w) :
    ListingTransaction.Ok db
      { op, writes := w, read := if op.creates then none else db.getById op.vehicleId } where
  creates hc := if_pos hc
  planned := hplan
  read row hrow := by
    split at hrow
    · cases hrow
    · exact ⟨RowTable.key_of_lookup hrow, row, hrow, rfl⟩
  rowId _ hr := by cases hr
  inserted _ hf := by cases hf
  updated _ _ hf := by cases hf
  unwritten _ _ hf := by cases hf

/-- What a flush that runs leaves. -/
theorem flush (h : t.Ok db) (hflush : t.flush db others = .runs own) :
    ListingTransaction.Ok db { t with flushed := true, own } ∧
      ∀ r ∈ own, ¬ VehicleLocked others r.id := by
  cases ListingTransaction.flush_cases hflush with
  | inserted hread hfits hlocked hnone =>
    have hid := h.writes_id
    refine ⟨{ h with rowId := ?_, inserted := fun _ _ => ⟨rfl, hid ▸ hnone⟩
                     updated := ?_, unwritten := ?_ }, ?_⟩
    · intro r hr
      cases hr
      exact hid
    · intro row hrow
      cases hread.symm.trans hrow
    · intro row hrow
      cases hread.symm.trans hrow
    · intro r hr
      cases hr
      exact hlocked
  | unchanged hread =>
    refine ⟨{ h with rowId := fun r hr => (by cases hr)
                     inserted := fun hnone => (by cases hread.symm.trans hnone)
                     updated := ?_, unwritten := ?_ },
      fun r hr => (by cases hr)⟩
    · intro row hrow _ current _
      obtain rfl : t.writes.vehicle = row := Option.some.inj (hread.symm.trans hrow)
      exact (Vehicle.updateColumns_same _ _).symm
    · intro row hrow _ _
      exact Option.some.inj (hread.symm.trans hrow)
  | updated read current hread hlocked hcurrent hfits =>
    rw [(h.read read hread).1] at hcurrent hlocked
    have hcurrentId : current.id = t.op.vehicleId := RowTable.key_of_lookup hcurrent
    refine ⟨{ h with rowId := ?_, inserted := fun hnone => (by cases hread.symm.trans hnone)
                     updated := ?_, unwritten := fun _ _ _ hnone => (by cases hnone) }, ?_⟩
    · intro r hr
      cases hr
      exact hcurrentId
    · intro row hrow _ current' hcurrent'
      obtain rfl : read = row := Option.some.inj (hread.symm.trans hrow)
      obtain rfl : current = current' := Option.some.inj (hcurrent.symm.trans hcurrent')
      rfl
    · intro r hr
      cases hr
      exact hcurrentId.symm ▸ hlocked

/-- A commit writes the row of its vehicle ... -/
theorem commit_getById (h : t.Ok db) (hflushed : t.flushed = true) :
    (t.read = none → (db.commit t).getById t.op.vehicleId = some t.writes.vehicle) ∧
    ∀ row, t.read = some row → ∀ current, db.getById t.op.vehicleId = some current →
      (db.commit t).getById t.op.vehicleId = some (row.updateColumns t.writes.vehicle current) := by
  refine ⟨fun hread => ?_, fun row hread current hcurrent => ?_⟩
  · obtain ⟨hown, hnone⟩ := h.inserted hread hflushed
    obtain ⟨hc, -⟩ := h.opens hread
    rw [← h.writes_id] at hnone ⊢
    simp only [ListingDb.getById, ListingDb.commit, hown, hc, if_true]
    exact RowTable.lookup_append_self hnone
  · have hupdated := h.updated row hread hflushed current hcurrent
    have hc : t.op.creates = false := by
      refine Bool.eq_false_iff.mpr fun hc => ?_
      cases (h.creates hc).symm.trans hread
    cases hown : t.own with
    | none =>
      rw [hown, Option.getD_none] at hupdated
      rw [← hupdated, ← hcurrent, ListingDb.getById, ListingDb.commit, hown]
      rfl
    | some r =>
      rw [hown, Option.getD_some] at hupdated
      rw [← hupdated, ← h.rowId r hown]
      rw [← h.rowId r hown] at hcurrent
      simp only [ListingDb.getById, ListingDb.commit, hown, hc, Bool.false_eq_true, if_false]
      exact RowTable.lookup_update_self hcurrent

/-- ... and no other. -/
theorem commit_getById_of_ne (h : t.Ok db) {k : Uuid} (hk : t.op.vehicleId ≠ k) :
    (db.commit t).getById k = db.getById k := by
  cases hown : t.own with
  | none =>
    rw [ListingDb.getById, ListingDb.commit, hown]
    rfl
  | some r =>
    have hr : r.id ≠ k := (h.rowId r hown).trans_ne hk
    cases hc : t.op.creates with
    | true =>
      simp only [ListingDb.getById, ListingDb.commit, hown, hc, if_true]
      exact RowTable.lookup_append_of_ne hr
    | false =>
      simp only [ListingDb.getById, ListingDb.commit, hown, hc, Bool.false_eq_true, if_false]
      exact RowTable.lookup_update_of_ne hr

/-- A commit that has not written the row leaves it as it is. -/
theorem commit_getById_of_none (hown : t.own = none) (k : Uuid) :
    (db.commit t).getById k = db.getById k := by
  rw [ListingDb.getById, ListingDb.commit, hown]
  rfl

/-- **A commit keeps what holds of the others.** -/
theorem after_commit (hu : u.Ok db) (h : t.Ok db) (hflushed : t.flushed = true)
    (hapart : t.Apart u) : u.Ok (db.commit t) := by
  -- a row that `u` has written is not written by `t`
  have hsame : u.own ≠ none → (db.commit t).getById u.op.vehicleId = db.getById u.op.vehicleId := by
    intro hne
    obtain ⟨r, hr⟩ := Option.ne_none_iff_exists'.mp hne
    cases hown : t.own with
    | none => exact commit_getById_of_none hown _
    | some r' =>
      have hids := hapart r' hown r hr
      rw [h.rowId r' hown, hu.rowId r hr] at hids
      exact h.commit_getById_of_ne hids
  refine { hu with read := ?_, inserted := ?_, updated := ?_ }
  · intro row hrow
    obtain ⟨hid, current, hcurrent, hhost⟩ := hu.read row hrow
    refine ⟨hid, ?_⟩
    by_cases hk : t.op.vehicleId = u.op.vehicleId
    swap
    · exact ⟨current, (h.commit_getById_of_ne hk).trans hcurrent, hhost⟩
    rw [← hk] at hcurrent ⊢
    cases hread : t.read with
    | none =>
      have hnone := (h.inserted hread hflushed).2
      cases hnone.symm.trans hcurrent
    | some read =>
      exact ⟨_, (h.commit_getById hflushed).2 read hread current hcurrent, hhost⟩
  · intro hread hf
    obtain ⟨hown, hnone⟩ := hu.inserted hread hf
    exact ⟨hown, (hsame (by simp [hown])).trans hnone⟩
  · intro row hrow hf current hcurrent
    by_cases hown : u.own = none
    · rw [hown, hu.unwritten row hrow hf hown, Vehicle.updateColumns_same, Option.getD_none]
    · exact hu.updated row hrow hf current ((hsame hown).symm.trans hcurrent)

end ListingTransaction.Ok

end Transaction

/-- **The invariant of the server.** -/
def ListingServerOk (s : ListingServer) : Prop :=
  ProcessFamily (ListingTransaction.Ok s.db) ListingTransaction.Apart s.transactions

section Server

variable {s s' : ListingServer} {a : ListingAction}

/-- **Every step keeps the invariant.** -/
theorem ListingServerOk.step (h : ListingServerOk s) (hstep : ListingStep s a s') :
    ListingServerOk s' := by
  have hsymm : ∀ t u : ListingTransaction, t.Apart u → u.Apart t :=
    fun _ _ => ListingTransaction.Apart.symm
  cases hstep with
  | began op w hplan =>
    refine ProcessFamily.start h (.start hplan) fun u _ r _ r' hr' => ?_
    cases hr'
  | flushed i t own hi hflush =>
    obtain ⟨hok, hlocked⟩ := (h.each t (List.mem_of_getElem? hi)).flush hflush
    refine ProcessFamily.step h hsymm hi (fun _ _ hu => hu) hok fun u hu r hr r' hr' he => ?_
    exact hlocked r hr ⟨u, hu, r', hr', he.symm⟩
  | raised i => exact ProcessFamily.finish h i fun _ _ hu => hu
  | committed i t hi hflushed =>
    refine ProcessFamily.finish h i fun u hu hok => ?_
    exact hok.after_commit (h.each t (List.mem_of_getElem? hi)) hflushed (h.others hsymm hi u hu)
  | aborted i => exact ProcessFamily.finish h i fun _ _ hu => hu

theorem listingServerOk_of_reachable (h : listingServer.Reachable s) : ListingServerOk s :=
  h.invariant ListingServerOk (show ListingServerOk {} from .nil) fun _ _ _ _ hok hstep =>
    hok.step (listingStep_cases hstep)

/-- A vehicle stays its host's. -/
theorem ListingStep.host_stable (hok : ListingServerOk s) (hstep : ListingStep s a s') {id : Uuid}
    {v : Vehicle} (hv : s.db.getById id = some v) :
    ∃ v', s'.db.getById id = some v' ∧ v'.hostId = v.hostId := by
  cases hstep with
  | committed i t hi hflushed =>
    have ht := hok.each t (List.mem_of_getElem? hi)
    by_cases hid : t.op.vehicleId = id
    swap
    · exact ⟨v, (ht.commit_getById_of_ne hid).trans hv, rfl⟩
    subst hid
    cases hread : t.read with
    | none =>
      obtain ⟨-, hnone⟩ := ht.inserted hread hflushed
      cases hnone.symm.trans hv
    | some row => exact ⟨_, (ht.commit_getById hflushed).2 row hread v hv, rfl⟩
  | _ => exact ⟨v, hv, rfl⟩

end Server

/-! ### The bounds of the schemas

Requests come validated, and updates set columns to what requests say, so the bounds hold of every
row. The price of a booking comes from here. -/

/-- The bounds of `CreateVehicleRequest` and `UpdateVehicleRequest` on what a booking is charged
by. -/
def Vehicle.Listed (vehicle : Vehicle) : Prop :=
  0 < vehicle.dailyPriceCents ∧ 0 < vehicle.dailyMileageLimit

/-- The payload of an operation is within the bounds. -/
def ListingOperation.Valid : ListingOperation → Prop
  | .createVehicle _ _ payload => 0 < payload.dailyPriceCents ∧ 0 < payload.dailyMileageLimit
  | .updateVehicle _ _ fields =>
    (∀ cents ∈ fields.dailyPriceCents, 0 < cents) ∧ ∀ miles ∈ fields.dailyMileageLimit, 0 < miles
  | .approveVehicle _ | .rejectVehicle _ => True

/-- Requests are validated before the service sees them. -/
def ListingAction.Valid : ListingAction → Prop
  | .begin op => op.Valid
  | .flush _ | .commit _ | .abort _ => True

/-- All vehicles are within the bounds, and so is everything a transaction will write. -/
structure ListingServer.Listed (s : ListingServer) : Prop where
  vehicles : ∀ vehicle ∈ s.db.vehicles, vehicle.Listed
  writes : ∀ t ∈ s.transactions, t.writes.vehicle.Listed
  own : ∀ t ∈ s.transactions, ∀ vehicle ∈ t.own, vehicle.Listed

section Listed

variable {s s' : ListingServer} {a : ListingAction}

theorem Vehicle.Listed.updateColumns {old new current : Vehicle} (hnew : new.Listed)
    (hcurrent : current.Listed) : (old.updateColumns new current).Listed := by
  constructor
  · simp only [Vehicle.updateColumns]
    split
    · exact hcurrent.1
    · exact hnew.1
  · simp only [Vehicle.updateColumns]
    split
    · exact hcurrent.2
    · exact hnew.2

theorem ListingOperation.Valid.plan {op : ListingOperation} {found : Option Vehicle}
    {w : ListingWrites} (hop : op.Valid) (hfound : ∀ vehicle ∈ found, vehicle.Listed)
    (hplan : op.plan found = .ok w) : w.vehicle.Listed := by
  cases hc : op.creates with
  | true =>
    cases op with
    | createVehicle id hostId payload =>
      obtain rfl := Except.ok.inj hplan
      exact hop
    | _ => cases hc
  | false =>
    obtain ⟨row, hrow, hacc⟩ := (ListingOperation.plan_ok_iff hc).mp hplan
    have hlisted := hfound row hrow
    cases hacc with
    | update _ fields =>
      obtain ⟨hprice, hmiles⟩ := hop
      refine ⟨?_, ?_⟩
      · show 0 < fields.dailyPriceCents.getD row.dailyPriceCents
        cases hf : fields.dailyPriceCents with
        | none => exact hlisted.1
        | some cents => exact hprice cents hf
      · show 0 < fields.dailyMileageLimit.getD row.dailyMileageLimit
        cases hf : fields.dailyMileageLimit with
        | none => exact hlisted.2
        | some miles => exact hmiles miles hf
    | approve => exact hlisted
    | reject => exact hlisted

theorem ListingServer.Listed.step (h : s.Listed) (ha : a.Valid) (hstep : ListingStep s a s') :
    s'.Listed := by
  have hfound : ∀ vehicleId, ∀ vehicle ∈ s.db.getById vehicleId, vehicle.Listed :=
    fun _ vehicle hv => h.vehicles vehicle (RowTable.mem_of_lookup hv)
  cases hstep with
  | began op w hplan =>
    refine ⟨h.vehicles, fun t ht => ?_, fun t ht => ?_⟩
    · rcases List.mem_append.mp ht with ht | ht
      · exact h.writes t ht
      · obtain rfl := List.mem_singleton.mp ht
        refine ha.plan (fun vehicle hv => ?_) hplan
        split at hv
        · cases hv
        · exact hfound _ vehicle hv
    · rcases List.mem_append.mp ht with ht | ht
      · exact h.own t ht
      · obtain rfl := List.mem_singleton.mp ht
        exact fun _ hv => by cases hv
  | flushed i t own hi hflush =>
    have hwrites := h.writes t (List.mem_of_getElem? hi)
    refine ⟨h.vehicles, fun u hu => ?_, fun u hu => ?_⟩ <;>
      rcases List.mem_or_eq_of_mem_set hu with hu | rfl
    · exact h.writes u hu
    · exact hwrites
    · exact h.own u hu
    · intro vehicle hv
      cases ListingTransaction.flush_cases hflush with
      | inserted =>
        cases hv
        exact hwrites
      | unchanged => cases hv
      | updated read current _ _ hcurrent _ =>
        cases hv
        exact hwrites.updateColumns (hfound _ current hcurrent)
  | raised i =>
    exact ⟨h.vehicles, fun t ht => h.writes t (ProcessFamily.mem_of_mem_eraseIdx ht),
      fun t ht => h.own t (ProcessFamily.mem_of_mem_eraseIdx ht)⟩
  | committed i t hi hflushed =>
    refine ⟨fun vehicle hv => ?_, fun t ht => h.writes t (ProcessFamily.mem_of_mem_eraseIdx ht),
      fun t ht => h.own t (ProcessFamily.mem_of_mem_eraseIdx ht)⟩
    have hown := h.own t (List.mem_of_getElem? hi)
    simp only [ListingDb.commit] at hv
    split at hv
    · exact h.vehicles vehicle hv
    rename_i row hrow
    split at hv
    · rcases List.mem_append.mp hv with hv | hv
      · exact h.vehicles vehicle hv
      · obtain rfl := List.mem_singleton.mp hv
        exact hown _ hrow
    · obtain ⟨r, hr, rfl⟩ := List.mem_map.mp hv
      split
      · exact hown row hrow
      · exact h.vehicles r hr
  | aborted i =>
    exact ⟨h.vehicles, fun t ht => h.writes t (ProcessFamily.mem_of_mem_eraseIdx ht),
      fun t ht => h.own t (ProcessFamily.mem_of_mem_eraseIdx ht)⟩

/-- **Vehicles stay within the bounds of the schemas.** -/
theorem listingServer_listed (h : listingServer.ReachableWhere (fun _ a => a.Valid) s) :
    s.Listed :=
  h.invariant ListingServer.Listed
    ⟨fun _ hv => (by cases hv), fun _ ht => (by cases ht), fun _ ht => (by cases ht)⟩
    fun _ _ _ _ hl ha hstep => hl.step ha (listingStep_cases hstep)

end Listed

end CarFlow
