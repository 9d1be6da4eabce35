import CarFlow.Listing.Transactions
import CarFlow.Shared.Paging
import Mathlib.Data.List.Sort
import Mathlib.Data.Prod.Lex

/-!
# Listing transactions one at a time, and the list of approved vehicles

A transaction that runs alone reads, flushes and commits without another one in between. Its event
then shows the row as it is committed, and a vehicle that has been approved stays so.

`list_vehicles` lists the approved vehicles page by page, in the order of `created_at` and `id`.
Neither of the two ever changes, so the list gains vehicles anywhere, and the others keep their
order. The column `created_at` is not a part of `Vehicle`; here it is a parameter.

## Implementation notes

The order of the list is a relation on identifiers, `listedBefore`, with `created_at` as a function
of the identifier: a row gets its time when it is inserted, and no operation changes it. Rows with
one time are ordered by `id`, so the relation is total and no two rows are tied.

## Main results

* `execute_cases` — what a transaction that runs alone does
* `listedIds_execute` — the list keeps its order
-/

namespace CarFlow

/-- A transaction that runs alone; `none` if it raises. -/
def ListingDb.execute (db : ListingDb) (op : ListingOperation) : Option ListingDb :=
  let read := if op.creates then none else db.getById op.vehicleId
  match op.plan read with
  | .error _ => none
  | .ok writes =>
    let t : ListingTransaction := { op, read, writes }
    match t.flush db [] with
    | .runs own => some (db.commit { t with flushed := true, own })
    | _ => none

/-- What a transaction that runs alone does: `w` is what it leaves. -/
structure Executed (db : ListingDb) (op : ListingOperation) (w : ListingWrites) (db' : ListingDb) :
    Prop where
  planned : op.plan (if op.creates then none else db.getById op.vehicleId) = .ok w
  /-- `create` inserts a row with a new identifier. -/
  fresh : op.creates = true → db.getById op.vehicleId = none
  self : db'.getById op.vehicleId = some w.vehicle
  others : ∀ k, op.vehicleId ≠ k → db'.getById k = db.getById k
  outbox : db'.outbox = match w.event with
    | none => db.outbox
    | some message => writeOutboxEvent db.outbox op.vehicleId message
  ids : (db.vehicles.map Vehicle.id).Nodup → (db'.vehicles.map Vehicle.id).Nodup
  length : db'.vehicles.length ≤ db.vehicles.length + 1

section Serial

variable {db db' : ListingDb} {op : ListingOperation} {w : ListingWrites} {row : Vehicle}

/-- Nothing has come between the read and the update. -/
theorem ListingAccepts.updateColumns_read (h : ListingAccepts row op w) :
    row.updateColumns w.vehicle row = w.vehicle := by
  have hcolumn {α : Type} [DecidableEq α] (new old : α) :
      (if new = old then old else new) = new := by
    by_cases h : new = old
    · rw [if_pos h, h]
    · rw [if_neg h]
  obtain ⟨hid, hhost⟩ := h.ids
  cases hw : w.vehicle
  rw [hw] at hid hhost
  simp only [Vehicle.updateColumns, hcolumn]
  simp only at hid hhost
  rw [hid, hhost]

/-- A commit adds a new vehicle to the table, or none. -/
theorem ListingTransaction.Ok.commit_ids {t : ListingTransaction} (h : t.Ok db)
    (hflushed : t.flushed = true) :
    (db.commit t).vehicles.map Vehicle.id = db.vehicles.map Vehicle.id ∨
      db.getById t.op.vehicleId = none ∧
        (db.commit t).vehicles.map Vehicle.id = db.vehicles.map Vehicle.id ++ [t.op.vehicleId] := by
  cases hown : t.own with
  | none => exact .inl (by rw [ListingDb.commit, hown])
  | some row =>
    cases hread : t.read with
    | none =>
      obtain ⟨-, hnone⟩ := h.inserted hread hflushed
      obtain ⟨hcreates, -⟩ := h.opens hread
      refine .inr ⟨hnone, ?_⟩
      simp only [ListingDb.commit, hown, hcreates, if_true, List.map_append, List.map_cons,
        List.map_nil, h.rowId row hown]
    | some read =>
      have hcreates : t.op.creates = false := by
        refine Bool.eq_false_iff.mpr fun hcreates => ?_
        cases (h.creates hcreates).symm.trans hread
      refine .inl ?_
      simp only [ListingDb.commit, hown, hcreates, Bool.false_eq_true, if_false,
        RowTable.map_key_update]

theorem execute_cases (h : db.execute op = some db') : ∃ w, Executed db op w db' := by
  unfold ListingDb.execute at h
  dsimp only at h
  split at h
  · cases h
  rename_i w hplan
  split at h
  · rename_i own hflush
    cases h
    obtain ⟨hok, -⟩ := (ListingTransaction.Ok.start hplan).flush hflush
    have hids := hok.commit_ids rfl
    refine ⟨w, hplan, fun hc => (hok.inserted (if_pos hc) rfl).2, ?_,
      fun k hk => hok.commit_getById_of_ne hk, rfl, fun hnodup => ?_, ?_⟩
    · cases hread : if op.creates then none else db.getById op.vehicleId with
      | none => exact (hok.commit_getById rfl).1 hread
      | some row =>
        have hrow : db.getById op.vehicleId = some row := by
          split at hread
          · cases hread
          · exact hread
        have hself := (hok.commit_getById rfl).2 row hread row hrow
        rwa [(hok.accepts hread).updateColumns_read] at hself
    · rcases hids with hids | ⟨hnone, hids⟩
      · rwa [hids]
      · rw [hids, List.nodup_append]
        refine ⟨hnodup, List.nodup_singleton _, fun id hid id' hid' heq => ?_⟩
        obtain ⟨vehicle, hvehicle, hvid⟩ := List.mem_map.mp hid
        obtain rfl := List.mem_singleton.mp hid'
        exact RowTable.lookup_eq_none_iff.mp hnone vehicle hvehicle (hvid.trans heq)
    · rcases hids with hids | ⟨-, hids⟩
      · have hlength := congrArg List.length hids
        simp only [List.length_map] at hlength
        omega
      · have hlength := congrArg List.length hids
        simp only [List.length_map, List.length_append, List.length_singleton] at hlength
        omega
  · cases h

namespace Executed

/-- A vehicle is new and pending, or the operation was accepted on its row. -/
theorem cases (h : Executed db op w db') :
    db.getById op.vehicleId = none ∧ w.event = none ∧ w.vehicle.approvalStatus = .pending ∨
      ∃ row, db.getById op.vehicleId = some row ∧ ListingAccepts row op w := by
  have hplanned := h.planned
  cases hc : op.creates with
  | true =>
    refine .inl ⟨h.fresh hc, ?_⟩
    cases op with
    | createVehicle id hostId payload =>
      obtain rfl := Except.ok.inj hplanned
      exact ⟨rfl, rfl⟩
    | _ => cases hc
  | false =>
    rw [if_neg (by simp [hc])] at hplanned
    exact .inr ((ListingOperation.plan_ok_iff hc).mp hplanned)

/-- An approved vehicle is left with an event that shows it as it is committed. -/
theorem event (h : Executed db op w db') (happroved : w.vehicle.approvalStatus = .approved) :
    ∃ message, w.event = some message ∧ message.data = w.vehicle.snapshot := by
  rcases h.cases with ⟨-, -, hpending⟩ | ⟨row, -, haccepts⟩
  · cases hpending.symm.trans happroved
  · cases haccepts with
    | update => exact ⟨_, rfl, rfl⟩
    | approve => exact ⟨_, rfl, rfl⟩
    | reject => cases happroved

/-- A vehicle that has been approved stays so. -/
theorem approved (h : Executed db op w db') {k : Uuid} (hrow : db.getById k = some row)
    (happroved : row.approvalStatus = .approved) :
    ∃ row', db'.getById k = some row' ∧ row'.approvalStatus = .approved := by
  by_cases hk : op.vehicleId = k
  · subst hk
    refine ⟨w.vehicle, h.self, ?_⟩
    rcases h.cases with ⟨hnone, -⟩ | ⟨row', hrow', haccepts⟩
    · cases hnone.symm.trans hrow
    · obtain rfl := Option.some.inj (hrow.symm.trans hrow')
      cases haccepts with
      | update => exact happroved
      | approve => rfl
      | reject _ hpending => cases hpending.symm.trans happroved
  · exact ⟨row, (h.others k hk).trans hrow, happroved⟩

end Executed

end Serial

/-! ### The list of approved vehicles -/

/-- `ORDER BY created_at, id`. -/
def listedBefore (createdAt : Uuid → ℤ) (i j : Uuid) : Prop :=
  toLex (createdAt i, i) ≤ toLex (createdAt j, j)

section Listed

variable (createdAt : Uuid → ℤ)

instance (i j : Uuid) : Decidable (listedBefore createdAt i j) :=
  inferInstanceAs (Decidable (toLex _ ≤ toLex _))

instance : Std.Total (listedBefore createdAt) := ⟨fun _ _ => le_total _ _⟩

instance : IsTrans Uuid (listedBefore createdAt) := ⟨fun _ _ _ => le_trans⟩

instance : Std.Antisymm (listedBefore createdAt) where
  antisymm _ _ h h' := congrArg (fun p => (ofLex p).2) (le_antisymm h h')

/-- `list_by_approval_status` for `approved`, without its limit and offset. -/
def listApproved (db : ListingDb) : List Vehicle :=
  (db.vehicles.filter (·.approvalStatus = .approved)).insertionSort
    fun v w => listedBefore createdAt v.id w.id

/-- `list_vehicles`. -/
def listVehicles (db : ListingDb) (limit offset : ℤ) : Option (Page Vehicle) :=
  page (listApproved createdAt db) limit offset

/-- The identifiers of the approved vehicles, in the order of the list. -/
def listedIds (db : ListingDb) : List Uuid := (listApproved createdAt db).map Vehicle.id

variable {createdAt} {db db' : ListingDb} {op : ListingOperation} {w : ListingWrites}
  {row : Vehicle}

theorem mem_listApproved :
    row ∈ listApproved createdAt db ↔ row ∈ db.vehicles ∧ row.approvalStatus = .approved := by
  simp [listApproved]

theorem mem_listedIds_iff (hnodup : (db.vehicles.map Vehicle.id).Nodup) {id : Uuid} :
    id ∈ listedIds createdAt db ↔
      ∃ row, db.getById id = some row ∧ row.approvalStatus = .approved := by
  simp only [listedIds, List.mem_map, mem_listApproved, ListingDb.getById,
    RowTable.lookup_eq_some_iff hnodup]
  exact exists_congr fun row => and_right_comm

theorem listedIds_eq : listedIds createdAt db =
    ((db.vehicles.filter (·.approvalStatus = .approved)).map Vehicle.id).insertionSort
      (listedBefore createdAt) :=
  List.map_insertionSort _ _ _ _ fun _ _ _ _ => Iff.rfl

theorem pairwise_listedIds : (listedIds createdAt db).Pairwise (listedBefore createdAt) := by
  rw [listedIds_eq]
  exact List.pairwise_insertionSort _ _

theorem nodup_listedIds (hnodup : (db.vehicles.map Vehicle.id).Nodup) :
    (listedIds createdAt db).Nodup := by
  rw [listedIds_eq, (List.perm_insertionSort _ _).nodup_iff]
  exact hnodup.sublist (List.filter_sublist.map Vehicle.id)

/-- **The list keeps its order** when a transaction commits. -/
theorem listedIds_execute (hnodup : (db.vehicles.map Vehicle.id).Nodup)
    (h : Executed db op w db') :
    (listedIds createdAt db).Sublist (listedIds createdAt db') := by
  have hsub : listedIds createdAt db ⊆ listedIds createdAt db' := by
    intro id hid
    obtain ⟨row, hrow, happroved⟩ := (mem_listedIds_iff hnodup).mp hid
    exact (mem_listedIds_iff (h.ids hnodup)).mpr (h.approved hrow happroved)
  exact List.sublist_of_subperm_of_pairwise (List.subperm_of_subset (nodup_listedIds hnodup) hsub)
    pairwise_listedIds pairwise_listedIds

theorem length_listApproved_le : (listApproved createdAt db).length ≤ db.vehicles.length := by
  rw [listApproved, List.length_insertionSort]
  exact List.length_filter_le ..

end Listed

end CarFlow
