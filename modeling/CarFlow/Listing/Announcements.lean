import CarFlow.Listing.Decisions
import CarFlow.Listing.Serial

/-!
# What the events of listing say

An event carries what its transaction read, with the changes of its own, and two transactions on
one vehicle may each miss the changes of the other. But two things that an event says are so: whose
the vehicle is, and, if it says so, that the vehicle was approved.

## Main results

* `AnnouncementsOk.step` — the invariant
-/

namespace CarFlow

/-- The data names the host of the vehicle, and calls the vehicle approved only if an event has
announced that it is. -/
def ListingDb.BearsOut (db : ListingDb) (data : VehicleSnapshot) : Prop :=
  (∃ v, db.getById data.vehicleId = some v ∧ v.hostId = data.hostId) ∧
    (data.approvalStatus = .approved → db.Announces data.vehicleId)

/-- What holds of listing at any time. -/
structure AnnouncementsOk (s : ListingServer) : Prop where
  ids : (s.db.vehicles.map Vehicle.id).Nodup
  rows : ∀ id, s.db.status id = some .approved → s.db.Announces id
  reads : ∀ t ∈ s.transactions, ∀ read, t.read = some read → read.approvalStatus = .approved →
    s.db.Announces t.op.vehicleId
  events : ∀ row ∈ s.db.outbox, s.db.BearsOut row.payload.data

section Announcements

variable {s s' : ListingServer} {a : ListingAction} {t : ListingTransaction} {id : Uuid}
  {data : VehicleSnapshot}

theorem ListingStep.outbox_subset (hstep : ListingStep s a s') :
    s.db.outbox ⊆ s'.db.outbox := by
  cases hstep with
  | committed i t hi hflushed =>
    simp only [ListingDb.commit]
    split
    · exact List.Subset.refl _
    · exact List.subset_append_left _ _
  | _ => exact List.Subset.refl _

theorem ListingStep.announces (hstep : ListingStep s a s') (h : s.db.Announces id) :
    s'.db.Announces id := by
  obtain ⟨message, hmem, htype⟩ := h
  obtain ⟨row, hrow, rfl⟩ := List.mem_map.mp hmem
  obtain ⟨hrow, hid⟩ := List.mem_filter.mp hrow
  exact ⟨_, List.mem_map_of_mem (List.mem_filter.mpr ⟨hstep.outbox_subset hrow, hid⟩), htype⟩

theorem ListingStep.bearsOut (hok : ListingServerOk s) (hstep : ListingStep s a s')
    (h : s.db.BearsOut data) : s'.db.BearsOut data := by
  obtain ⟨⟨v, hv, hhost⟩, happroved⟩ := h
  obtain ⟨v', hv', hsame⟩ := hstep.host_stable hok hv
  exact ⟨⟨v', hv', hsame.trans hhost⟩, fun ha => hstep.announces (happroved ha)⟩

theorem AnnouncementsOk.commit_ids (h : AnnouncementsOk s) (ht : t.Ok s.db)
    (hflushed : t.flushed = true) : ((s.db.commit t).vehicles.map Vehicle.id).Nodup := by
  rcases ht.commit_ids hflushed with hids | ⟨hnone, hids⟩
  · rw [hids]
    exact h.ids
  · rw [hids, ← List.concat_eq_append]
    refine h.ids.concat fun hid => ?_
    obtain ⟨v, hv, hvid⟩ := List.mem_map.mp hid
    exact RowTable.lookup_eq_none_iff.mp hnone v hv hvid

/-- An approved row was announced, also after a commit. -/
theorem AnnouncementsOk.commit_rows (h : AnnouncementsOk s) (ht : t.Ok s.db)
    (hflushed : t.flushed = true) (happroved : (s.db.commit t).status id = some .approved) :
    (s.db.commit t).Announces id := by
  rw [ht.announces_commit]
  cases hd : t.op.decision id with
  | none =>
    rcases ht.commit_keeps hflushed hd with hkept | ⟨-, hpending⟩
    · exact .inl (h.rows id (hkept.symm.trans happroved))
    · cases happroved.symm.trans hpending
  | some d =>
    obtain ⟨-, hstatus⟩ := ht.commit_decides hflushed hd
    exact .inr (hstatus.symm.trans happroved)

/-- What a row says is so. -/
theorem AnnouncementsOk.bearsOut_row (h : AnnouncementsOk s) {v : Vehicle}
    (hv : v ∈ s.db.vehicles) : s.db.BearsOut v.snapshot := by
  have hrow : s.db.getById v.id = some v := (RowTable.lookup_eq_some_iff h.ids).mpr ⟨hv, rfl⟩
  refine ⟨⟨v, hrow, rfl⟩, fun happroved => h.rows v.id ?_⟩
  rw [ListingDb.status, hrow, Option.map_some]
  exact congrArg some happroved

/-- The event of a commit says what is so. -/
theorem AnnouncementsOk.commit_event (h : AnnouncementsOk s) (ht : t.Ok s.db)
    (hmem : t ∈ s.transactions) (hflushed : t.flushed = true) {message : ListingMessage}
    (hevent : t.writes.event = some message) : (s.db.commit t).BearsOut message.data := by
  cases hread : t.read with
  | none =>
    obtain ⟨-, hostId, payload, hw⟩ := ht.opens hread
    rw [hw] at hevent
    cases hevent
  | some read =>
    have hacc := ht.accepts hread
    obtain ⟨hid, current, hcurrent, hhost⟩ := ht.read read hread
    have hrow := (ht.commit_getById hflushed).2 read hread current hcurrent
    rw [hacc.event message hevent, ListingDb.BearsOut]
    show (∃ v, (s.db.commit t).getById t.writes.vehicle.id = some v ∧
      v.hostId = t.writes.vehicle.hostId) ∧ (t.writes.vehicle.approvalStatus = .approved →
        (s.db.commit t).Announces t.writes.vehicle.id)
    rw [ht.writes_id, ht.announces_commit]
    refine ⟨⟨_, hrow, hhost.trans hacc.ids.2.symm⟩, fun happroved => ?_⟩
    have hreads := h.reads t hmem read hread
    generalize t.op = op, t.writes = w at hacc hreads happroved
    cases hacc with
    | update vehicleId fields => exact .inl (hreads happroved)
    | approve vehicleId => exact .inr (if_pos rfl)
    | reject vehicleId => cases happroved

/-- **Every step keeps the invariant.** -/
theorem AnnouncementsOk.step (hok : ListingServerOk s) (h : AnnouncementsOk s)
    (hstep : ListingStep s a s') : AnnouncementsOk s' := by
  have hevents : ∀ row ∈ s.db.outbox, s'.db.BearsOut row.payload.data :=
    fun row hrow => hstep.bearsOut hok (h.events row hrow)
  cases hstep with
  | began op w hplan =>
    refine ⟨h.ids, h.rows, fun t ht read hread happroved => ?_, hevents⟩
    rcases List.mem_append.mp ht with ht | ht
    · exact h.reads t ht read hread happroved
    · rw [List.mem_singleton.mp ht] at hread ⊢
      split at hread
      · cases hread
      · have hrow : s.db.getById op.vehicleId = some read := hread
        refine h.rows op.vehicleId ?_
        rw [ListingDb.status, hrow, Option.map_some, happroved]
  | flushed i t own hi hflush =>
    refine ⟨h.ids, h.rows, fun u hu => ?_, hevents⟩
    rcases List.mem_or_eq_of_mem_set hu with hu | rfl
    · exact h.reads u hu
    · exact h.reads t (List.mem_of_getElem? hi)
  | committed i t hi hflushed =>
    have hmem : t ∈ s.transactions := List.mem_of_getElem? hi
    have ht := hok.each t hmem
    refine ⟨h.commit_ids ht hflushed, fun id => h.commit_rows ht hflushed,
      fun u hu read hread happroved => ?_, fun row hrow => ?_⟩
    · rw [ht.announces_commit]
      exact .inl (h.reads u (ProcessFamily.mem_of_mem_eraseIdx hu) read hread happroved)
    · simp only [ListingDb.commit] at hrow
      split at hrow
      · exact hevents row hrow
      · rename_i message hevent
        rcases List.mem_append.mp hrow with hrow | hrow
        · exact hevents row hrow
        · rw [List.mem_singleton.mp hrow]
          exact h.commit_event ht hmem hflushed hevent
  | raised i =>
    exact ⟨h.ids, h.rows, fun u hu => h.reads u (ProcessFamily.mem_of_mem_eraseIdx hu), hevents⟩
  | aborted i =>
    exact ⟨h.ids, h.rows, fun u hu => h.reads u (ProcessFamily.mem_of_mem_eraseIdx hu), hevents⟩

end Announcements

end CarFlow
