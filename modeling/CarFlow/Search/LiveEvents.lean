import CarFlow.Search.Backfill

/-!
# The backfill and the live events

The job of `services/search/backfill.py` and the live consumer write documents of the same vehicles
into one index, neither with a version. An event shows the row as its transaction left it, and the
job what was on its page. Whoever writes last decides, so the job must not write what is no longer
so once the last event of a vehicle has been applied.

## Implementation notes

`PassesCurrent` looks at the row, the page in hand and the events still to be applied before the
step; it does not look at the index. `Settled` splits the claim by vehicles, which is what makes the
condition exact: a vehicle may be shown right again by an event that is still to come.

## Main results

* `inStep_iff` — when a vehicle with nothing still to come is shown as its row is
* `backfill_agrees` — **when the job and the live events agree**
-/

namespace CarFlow

variable (jwt : PyJwt) (settings : JwtSettings) (createdAt : Uuid → ℤ)

/-! ### What agrees -/

/-- Nothing is still to come for the vehicle: no event, and no pass of the job if it was approved
when the job started. -/
def Settled (s : BackfillState) (id : Uuid) : Prop :=
  queueFor s.db.outbox s.applied id = [] ∧ (id ∈ s.targets → id ∈ passedIds s.writes)

/-- An approved vehicle for which nothing is still to come is shown as its row is. -/
def InStep (s : BackfillState) : Prop :=
  s.stage ≠ .idle → ∀ id row, s.db.getById id = some row → row.approvalStatus = .approved →
    Settled s id → s.index id = some row.document

/-- Once the job has ended and every event has been applied, every approved vehicle is shown as its
row is. -/
def Agrees (s : BackfillState) : Prop :=
  s.stage = .ended → (∀ row ∈ s.db.outbox, row.id ∈ s.applied) →
    ∀ id row, s.db.getById id = some row → row.approvalStatus = .approved →
      s.index id = some row.document

/-- The vehicle that the job passes next. -/
def BackfillState.nextItem (s : BackfillState) : Option Vehicle :=
  match s.stage with
  | .passing (vehicle :: _) _ => some vehicle
  | _ => none

/-- The job does not write what is no longer so over the last event of a vehicle: what it passes
shows the row as it is, or an event of the vehicle is still to be applied. -/
def PassesCurrent (s : BackfillState) : BackfillAction → Prop
  | .pass => ∀ vehicle ∈ s.nextItem, ∀ row ∈ s.db.getById vehicle.id,
    vehicle.shown = row.shown ∨ queueFor s.db.outbox s.applied vehicle.id ≠ []
  | _ => True

instance (s : BackfillState) : (a : BackfillAction) → Decidable (PassesCurrent s a)
  | .pass => inferInstanceAs (Decidable (∀ vehicle ∈ s.nextItem, _))
  | .operate _ | .apply _ | .start .. | .request _ | .turn => isTrue True.intro

/-- What holds of the events and of the page in hand. -/
structure EventsOk (s : BackfillState) : Prop where
  topic : TopicOk s.db.outbox s.applied
  about : ∀ row ∈ s.db.outbox, row.payload.data.vehicleId = row.aggregateId
  /-- The last event of an approved vehicle shows its row. -/
  current : ∀ id row, s.db.getById id = some row → row.approvalStatus = .approved →
    ∀ message ∈ (queueFor s.db.outbox s.applied id).getLast?, message.data = row.snapshot
  items : ∀ items nextOffset, s.stage = .passing items nextOffset → ∀ vehicle ∈ items,
    ∃ row, s.db.getById vehicle.id = some row ∧ row.approvalStatus = .approved

section Events

variable {jwt settings createdAt} {s s' : BackfillState} {a : BackfillAction} {db db' : ListingDb}
  {op : ListingOperation} {w : ListingWrites} {row : Vehicle} {applied : List EventId} {id : Uuid}

theorem indexed_of_approved (h : row.approvalStatus = .approved) :
    row.snapshot.indexed = some row.document := if_pos h

/-- The event of an operation is about its vehicle. -/
theorem Executed.event_id (h : Executed db op w db') {message : ListingMessage}
    (he : w.event = some message) : message.data.vehicleId = op.vehicleId := by
  rcases h.cases with ⟨-, hnone, -⟩ | ⟨row, -, haccepts⟩
  · cases hnone.symm.trans he
  · rw [haccepts.event message he]
    have hid : w.vehicle.id = op.vehicleId := RowTable.key_of_lookup h.self
    exact hid

/-- A transaction leaves the other vehicles and their queues alone ... -/
theorem Executed.queueFor_of_ne (h : Executed db op w db') (htopic : TopicOk db.outbox applied)
    (hid : op.vehicleId ≠ id) : queueFor db'.outbox applied id = queueFor db.outbox applied id := by
  rw [h.outbox]
  cases w.event with
  | none => rfl
  | some message => rw [queueFor_write htopic, if_neg hid, List.append_nil]

/-- ... and an approved vehicle with an event that shows its row. -/
theorem Executed.queueFor_self (h : Executed db op w db') (htopic : TopicOk db.outbox applied)
    (happroved : w.vehicle.approvalStatus = .approved) :
    ∃ message, message.data = w.vehicle.snapshot ∧ queueFor db'.outbox applied op.vehicleId =
      queueFor db.outbox applied op.vehicleId ++ [message] := by
  obtain ⟨message, he, hdata⟩ := h.event happroved
  refine ⟨message, hdata, ?_⟩
  rw [h.outbox, he]
  dsimp only
  rw [queueFor_write htopic, if_pos rfl]

theorem Executed.topicOk (h : Executed db op w db') (htopic : TopicOk db.outbox applied) :
    TopicOk db'.outbox applied := by
  rw [h.outbox]
  cases w.event with
  | none => exact htopic
  | some message => exact htopic.write _ _

theorem EventsOk.operate (hs : EventsOk s) (h : Executed s.db op w db) :
    EventsOk { s with db, operations := s.operations + 1 } where
  topic := h.topicOk hs.topic
  about row hrow := by
    have hrow : row ∈ db.outbox := hrow
    rw [h.outbox] at hrow
    split at hrow
    · exact hs.about row hrow
    · rename_i message he
      rcases List.mem_append.mp hrow with hrow | hrow
      · exact hs.about row hrow
      · rw [List.mem_singleton.mp hrow]
        exact h.event_id he
  current id row hrow happroved message hmessage := by
    by_cases hid : op.vehicleId = id
    · subst hid
      obtain rfl : w.vehicle = row := Option.some.inj (h.self.symm.trans hrow)
      obtain ⟨message', hdata, hqueue⟩ := h.queueFor_self hs.topic happroved
      have hmessage : message ∈ (queueFor db.outbox s.applied op.vehicleId).getLast? := hmessage
      rw [hqueue, List.getLast?_concat] at hmessage
      exact Option.some.inj hmessage ▸ hdata
    · have hmessage : message ∈ (queueFor db.outbox s.applied id).getLast? := hmessage
      rw [h.queueFor_of_ne hs.topic hid] at hmessage
      exact hs.current id row ((h.others id hid).symm.trans hrow) happroved message hmessage
  items items nextOffset hstage vehicle hvehicle := by
    obtain ⟨row, hrow, happroved⟩ := hs.items items nextOffset hstage vehicle hvehicle
    exact h.approved hrow happroved

/-- The live consumer takes the head of the queue of a vehicle. -/
theorem EventsOk.apply (hs : EventsOk s) {i : ℕ} {row : OutboxRow ListingMessage}
    (hi : s.db.outbox[i]? = some row) (hearlier : EarlierClaimed s.db.outbox s.applied i row)
    (hnew : row.id ∉ s.applied) (index : SearchIndex) :
    EventsOk { s with index, writes := s.writes ++ [(.consumer, row.payload.data)]
                      applied := row.id :: s.applied } where
  topic := hs.topic.claim hi hearlier hnew
  about := hs.about
  current id vehicle hvehicle happroved message hmessage := by
    have hmessage : message ∈ (queueFor s.db.outbox (row.id :: s.applied) id).getLast? := hmessage
    refine hs.current id vehicle hvehicle happroved message ?_
    by_cases hid : row.aggregateId = id
    · subst hid
      rw [queueFor_claim hs.topic hi hearlier hnew, List.getLast?_cons, Option.mem_def.mp hmessage]
      rfl
    · rwa [queueFor_claim_of_ne hs.topic hi hid] at hmessage
  items := hs.items

theorem EventsOk.step (hs : EventsOk s) (hjob : BackfillOk jwt settings createdAt s)
    (h : BackfillMove jwt settings createdAt s a s') : EventsOk s' := by
  cases h with
  | operated op w db hw => exact hs.operate hw
  | applied i row hi hearlier hnew => exact hs.apply hi hearlier hnew _
  | started index userId now hstage => exact { hs with items := nofun }
  | refused now offset e hstage hbody => exact { hs with items := nofun }
  | requested now offset body hstage hbody =>
    refine { hs with items := fun items nextOffset hpassing vehicle hvehicle => ?_ }
    cases hpassing
    obtain ⟨hmem, happroved⟩ := mem_listApproved.mp 
      (mem_of_mem_page (listVehicles_of_getVehicles hbody) hvehicle)
    exact ⟨vehicle, (RowTable.lookup_eq_some_iff hjob.ids).mpr ⟨hmem, rfl⟩, happroved⟩
  | passed vehicle items nextOffset hstage =>
    refine { hs with items := fun items' nextOffset' hpassing vehicle' hvehicle' => ?_ }
    cases hpassing
    exact hs.items _ _ hstage vehicle' (List.mem_cons_of_mem _ hvehicle')
  | turned offset hstage => exact { hs with items := nofun }
  | ended hstage => exact { hs with items := nofun }

/-- What a write leaves for a vehicle that it is not about. -/
theorem handleVehicleEvent_of_ne {index : SearchIndex} {data : VehicleSnapshot}
    (h : data.vehicleId ≠ id) : index.handleVehicleEvent data id = index id := by
  rw [handleVehicleEvent_apply, if_neg (Ne.symm h)]

theorem handleVehicleEvent_self (index : SearchIndex) (data : VehicleSnapshot) :
    index.handleVehicleEvent data data.vehicleId = data.indexed := by
  rw [handleVehicleEvent_apply, if_pos rfl]

/-- A transaction leaves an event to come for its vehicle. -/
theorem InStep.operate (hs : EventsOk s) (hstep : InStep s) (h : Executed s.db op w db) :
    InStep { s with db, operations := s.operations + 1 } := by
  intro hstarted id row hrow happroved hsettled
  have hqueue : queueFor db.outbox s.applied id = [] := hsettled.1
  by_cases hid : op.vehicleId = id
  · subst hid
    obtain rfl : w.vehicle = row := Option.some.inj (h.self.symm.trans hrow)
    obtain ⟨message, -, hmore⟩ := h.queueFor_self hs.topic happroved
    rw [hmore] at hqueue
    exact absurd hqueue (List.append_ne_nil_of_right_ne_nil _ (List.cons_ne_nil _ _))
  · rw [h.queueFor_of_ne hs.topic hid] at hqueue
    exact hstep hstarted id row ((h.others id hid).symm.trans hrow) happroved
      ⟨hqueue, hsettled.2⟩

/-- The last event of a vehicle shows its row. -/
theorem InStep.apply (hs : EventsOk s) (hstep : InStep s) {i : ℕ} {row : OutboxRow ListingMessage}
    (hi : s.db.outbox[i]? = some row) (hearlier : EarlierClaimed s.db.outbox s.applied i row)
    (hnew : row.id ∉ s.applied) :
    InStep { s with
      index := s.index.handleVehicleEvent row.payload.data
      writes := s.writes ++ [(.consumer, row.payload.data)]
      applied := row.id :: s.applied } := by
  intro hstarted id vehicle hvehicle happroved hsettled
  have habout := hs.about row (List.mem_of_getElem? hi)
  have hqueue : queueFor s.db.outbox (row.id :: s.applied) id = [] := hsettled.1
  show s.index.handleVehicleEvent row.payload.data id = _
  by_cases hid : row.aggregateId = id
  · subst hid
    have hlast := hs.current _ vehicle hvehicle happroved row.payload (by
      rw [queueFor_claim hs.topic hi hearlier hnew, hqueue]
      rfl)
    rw [← habout, handleVehicleEvent_self, hlast]
    exact indexed_of_approved happroved
  · rw [handleVehicleEvent_of_ne (habout.trans_ne hid)]
    rw [queueFor_claim_of_ne hs.topic hi hid] at hqueue
    refine hstep hstarted id vehicle hvehicle happroved ⟨hqueue, fun ht => ?_⟩
    simpa using hsettled.2 ht

/-- **A pass** keeps the index in step exactly if it is current. -/
theorem inStep_pass (hs : EventsOk s) (hstep : InStep s) {vehicle : Vehicle}
    {items : List Vehicle} {nextOffset : Option ℤ}
    (hstage : s.stage = .passing (vehicle :: items) nextOffset) :
    InStep { s with
      index := s.index.handleVehicleEvent (eventData vehicle)
      writes := s.writes ++ [(.job, eventData vehicle)]
      stage := .passing items nextOffset
      jobSteps := s.jobSteps + 1 } ↔ PassesCurrent s .pass := by
  obtain ⟨row, hrow, happroved⟩ := hs.items _ _ hstage vehicle List.mem_cons_self
  have hcurrent : PassesCurrent s .pass ↔ vehicle.shown = row.shown ∨
      queueFor s.db.outbox s.applied vehicle.id ≠ [] := by
    simp only [PassesCurrent, BackfillState.nextItem, hstage, hrow, Option.mem_some, forall_eq']
  rw [hcurrent]
  constructor
  · intro hstep'
    refine or_iff_not_imp_right.mpr fun hqueue => ?_
    have hself := hstep' (fun hidle => by cases hidle) vehicle.id row hrow happroved
      ⟨not_not.mp hqueue, fun _ => by simp [eventData]⟩
    calc vehicle.shown = s.index.handleVehicleEvent (eventData vehicle) vehicle.id :=
          (handleVehicleEvent_self s.index (eventData vehicle)).symm
      _ = some row.document := hself
      _ = row.shown := (indexed_of_approved happroved).symm
  · intro hok hstarted id row' hrow' happroved' hsettled
    have hqueue : queueFor s.db.outbox s.applied id = [] := hsettled.1
    show s.index.handleVehicleEvent (eventData vehicle) id = _
    by_cases hid : vehicle.id = id
    · subst hid
      obtain rfl : row = row' := Option.some.inj (hrow.symm.trans hrow')
      exact (handleVehicleEvent_self _ (eventData vehicle)).trans
        ((hok.resolve_right (not_not.mpr hqueue)).trans (indexed_of_approved happroved))
    · rw [handleVehicleEvent_of_ne hid]
      have hstarted : s.stage ≠ .idle := fun hidle => by cases hstage.symm.trans hidle
      refine hstep hstarted id row' hrow' happroved' ⟨hqueue, fun ht => ?_⟩
      have hpassed := hsettled.2 ht
      rw [passedIds_job] at hpassed
      refine (List.mem_append.mp hpassed).resolve_right fun hmem => ?_
      exact hid (List.mem_singleton.mp hmem).symm

/-- A step keeps the vehicles in step exactly if it is not a pass of what is no longer so. -/
theorem inStep_step (hs : EventsOk s) (hjob : BackfillOk jwt settings createdAt s)
    (hstep : InStep s) (h : BackfillMove jwt settings createdAt s a s') :
    InStep s' ↔ PassesCurrent s a := by
  cases h with
  | operated op w db hw => exact iff_of_true (hstep.operate hs hw) True.intro
  | applied i row hi hearlier hnew =>
    exact iff_of_true (hstep.apply hs hi hearlier hnew) True.intro
  | started index userId now hstage =>
    refine iff_of_true (fun _ id row hrow happroved hsettled => ?_) True.intro
    have hmem := hsettled.2 ((mem_listedIds_iff hjob.ids).mpr ⟨row, hrow, happroved⟩)
    exact absurd hmem List.not_mem_nil
  | refused now offset e hstage hbody =>
    exact iff_of_true (fun _ => hstep (by rw [hstage]; exact nofun)) True.intro
  | requested now offset body hstage hbody =>
    exact iff_of_true (fun _ => hstep (by rw [hstage]; exact nofun)) True.intro
  | passed vehicle items nextOffset hstage => exact inStep_pass hs hstep hstage
  | turned offset hstage =>
    exact iff_of_true (fun _ => hstep (by rw [hstage]; exact nofun)) True.intro
  | ended hstage => exact iff_of_true (fun _ => hstep (by rw [hstage]; exact nofun)) True.intro

theorem eventsOk_of_reachable (h : (backfill jwt settings createdAt).Reachable s) : EventsOk s :=
  h.invariant _ ⟨topicOk_nil, by simp [backfill], by simp [backfill, ListingDb.getById], nofun⟩
    fun _ _ _ hr hs hstep => hs.step (backfillOk_of_reachable hr) (backfillStep_cases hstep)

/-- **Every vehicle with nothing still to come is shown as its row is**, throughout a run, exactly
if the job never passes what is no longer so. -/
theorem inStep_iff {run : List (BackfillState × BackfillAction)}
    (h : (backfill jwt settings createdAt).Exec (backfill jwt settings createdAt).init run s) :
    TransitionSystem.Throughout InStep run s ↔ ∀ x ∈ run, PassesCurrent x.1 x.2 :=
  h.forall_iff InStep PassesCurrent (fun hidle => absurd rfl hidle)
    fun _ _ _ hr hstep hmove => inStep_step (eventsOk_of_reachable hr)
      (backfillOk_of_reachable hr) hstep (backfillStep_cases hmove)

/-- Once the job has ended and every event has been applied, nothing is still to come. -/
theorem InStep.agrees (hstep : InStep s) (hjob : BackfillOk jwt settings createdAt s) :
    Agrees s := by
  intro hended happlied id row hrow happroved
  have hjob := hjob.job
  rw [hended] at hjob
  cases hjob with
  | ended k hsteps hpages hseen =>
    refine hstep (by rw [hended]; exact nofun) id row hrow happroved ⟨?_, hseen id⟩
    rw [queueFor, FifoTopic.inflight, List.filter_eq_nil_iff.mpr, List.map_nil]
    intro r hr
    simp [happlied r hr]

/-- **The job and the live events agree** in every run in which the job never passes what is no
longer so. -/
theorem backfill_agrees (h : (backfill jwt settings createdAt).ReachableWhere PassesCurrent s) :
    Agrees s := by
  have hstep : InStep s := h.invariant InStep (fun hidle => absurd rfl hidle)
    fun _ _ _ hr hstep hok hmove => (inStep_step (eventsOk_of_reachable hr)
      (backfillOk_of_reachable hr) hstep (backfillStep_cases hmove)).mpr hok
  exact hstep.agrees (backfillOk_of_reachable h.reachable)

end Events

/-- The events are applied after the job, and the car is shown as its row is. -/
theorem backfill_agrees_sampleEventsLast :
    ∃ s, sampleBackfill.run sampleRequested sampleEventsLast = some s ∧
      sampleBackfill.Reachable s ∧ s.stage = .ended ∧ s.targets = [7] ∧
      s.index 7 = some ⟨7, 1, "make", "model", 2020, 6000, 200, .instant, 0, 0⟩ ∧
      (∀ row ∈ s.db.outbox, row.id ∈ s.applied) ∧ Agrees s := by
  have hend : (sampleBackfill.run sampleRequested sampleEventsLast).map (fun s =>
      (s.stage, s.targets, s.index 7, decide (∀ row ∈ s.db.outbox, row.id ∈ s.applied))) =
      some (.ended, [7], some ⟨7, 1, "make", "model", 2020, 6000, 200, .instant, 0, 0⟩, true) := by
    decide
  obtain ⟨s, hrun, hs⟩ := Option.map_eq_some_iff.mp hend
  simp only [Prod.mk.injEq, decide_eq_true_iff] at hs
  obtain ⟨hended, htargets, hindex, happlied⟩ := hs
  have hexec := sampleRequested_exec hrun
  have hagrees : Agrees s := backfill_agrees (hexec.reachableWhere (List.forall_mem_append.mpr
    ⟨List.forall_mem_append.mpr ⟨by decide, by decide⟩, by decide⟩))
  exact ⟨s, hrun, hexec.reachable, hended, htargets, hindex, happlied, hagrees⟩

/-- The price is raised while the job has the page in hand, and the event is applied before the
job writes. -/
def sampleEventFirst : List BackfillAction := [.apply 0, sampleRaise, .apply 1, .pass, .turn]

/-- The index is left with the price that was on the page. -/
theorem backfill_shows_old_price :
    ∃ s, sampleBackfill.Reachable s ∧ (s.index 7).map (·.dailyPriceCents) = some 5000 ∧
      (s.db.getById 7).map (·.dailyPriceCents) = some 6000 ∧ ¬ Agrees s := by
  have hend : (sampleBackfill.run sampleRequested sampleEventFirst).map (fun s =>
      ((s.index 7).map (·.dailyPriceCents), (s.db.getById 7).map (·.dailyPriceCents),
        (s.db.getById 7).map (·.approvalStatus), decide (s.stage = .ended),
        decide (∀ row ∈ s.db.outbox, row.id ∈ s.applied))) =
      some (some 5000, some 6000, some .approved, true, true) := by
    decide
  obtain ⟨s, hrun, hs⟩ := Option.map_eq_some_iff.mp hend
  simp only [Prod.mk.injEq, decide_eq_true_iff] at hs
  obtain ⟨hindex, hprice, hstatus, hended, happlied⟩ := hs
  refine ⟨s, (sampleRequested_exec hrun).reachable, hindex, hprice, fun hagrees => ?_⟩
  obtain ⟨row, hrow, happroved⟩ := Option.map_eq_some_iff.mp hstatus
  rw [hagrees hended happlied 7 row hrow happroved] at hindex
  rw [hrow] at hprice
  cases (Option.some.inj hindex).symm.trans (Option.some.inj hprice)

end CarFlow
