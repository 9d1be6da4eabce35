import CarFlow.Booking.EventLog

/-!
# What the database refuses

Past the service's own checks an operation can still fail on the database: a value that does not
fit its column, a version that is taken, a live row that overlaps another. One operation at a time,
the last two cannot happen to a booking that is there already. Its row counts its events, and it was
checked for overlaps when it was inserted; no operation moves its dates or brings it back to life.

## Main results

* `Sound.execute` — every operation keeps the tables as the checks left them
* `Sound.execute_accepts` — so an operation that the service accepts on a row commits, as soon as
  the values it writes fit their columns
-/

namespace CarFlow

/-- The tables as the checks of the database leave them. -/
structure BookingDb.Sound (db : BookingDb) : Prop where
  log : db.LogOk
  /-- No two live rows of a vehicle share a day. -/
  apart : ∀ r ∈ db.bookings, ∀ r' ∈ db.bookings, r.id ≠ r'.id → r.Live → r'.Live → ¬ r.Overlaps r'
  fits : ∀ r ∈ db.bookings, r.FitsColumns
  /-- `HandoverRequest.odometer` is `ge=0`. -/
  started : ∀ r ∈ db.bookings, ∀ odometer ∈ r.startOdometer, 0 ≤ odometer
  /-- A capture command carries an overage that was stored. -/
  overages : ∀ r ∈ db.outbox, ∀ bookingId hostId holdAmountCents overageCents,
    r.payload = .capturePaymentRequested bookingId hostId holdAmountCents overageCents →
      FitsInteger overageCents

section Rows

variable {row : Booking} {op : BookingOperation} {w : Writes}

/-- A row that settles holds what it held, at a later version. -/
theorem Booking.fitsColumns_settle (h : row.FitsColumns) (n : ℕ) (status : BookingStatus) :
    (row.settle n status).FitsColumns ↔ FitsInteger (row.version + n : ℕ) := by
  obtain ⟨hprice, hlimit, -, hrest⟩ := h
  exact ⟨fun h => h.2.2.1, fun hv => ⟨hprice, hlimit, hv, hrest⟩⟩

/-- No operation moves a booking. -/
theorem Accepts.overlaps_iff (h : Accepts row op w) (r : Booking) :
    r.Overlaps w.booking ↔ r.Overlaps row := by
  have hplace := congrArg (fun row => r.Overlaps row) h.opened_eq
  exact iff_of_eq hplace

/-- Operations are accepted on live rows only. -/
theorem Accepts.live (h : Accepts row op w) : row.Live :=
  ⟨fun hs => h.not_terminal (.inr (.inl hs)), fun hs => h.not_terminal (.inr (.inr hs))⟩

/-- The odometer of a handover passed the schema. -/
theorem Accepts.startOdometer (h : Accepts row op w) :
    w.booking.startOdometer = row.startOdometer ∨
      ∃ odometer, w.booking.startOdometer = some odometer ∧ 0 ≤ odometer := by
  cases h with
  | handover _ payload => exact .inr ⟨payload.odometer, rfl, payload.odometer_nonneg⟩
  | _ => exact .inl rfl

/-- A capture command carries the overage of the row written with it. -/
theorem Accepts.overageCents (h : Accepts row op w) {bookingId hostId : Uuid}
    {holdAmountCents overageCents : ℤ}
    (hm : .capturePaymentRequested bookingId hostId holdAmountCents overageCents ∈ w.outbox) :
    overageCents = w.booking.overageCents := by
  cases h with
  | «return» =>
    have he := List.mem_singleton.mp hm
    injection he
  | handover => cases hm
  | _ =>
    have he := List.mem_singleton.mp hm
    cases he

theorem requestWrites_outbox_ne_capture (id : Uuid) (vehicle : VehicleInfo) (renterId : Uuid)
    (payload : CreateBookingRequest) {bookingId hostId : Uuid}
    {holdAmountCents overageCents : ℤ} :
    .capturePaymentRequested bookingId hostId holdAmountCents overageCents ∉
      (requestWrites id vehicle renterId payload).outbox := by
  intro hm
  simp only [requestWrites] at hm
  split at hm
  · have he := List.mem_singleton.mp hm
    cases he
  · cases hm

end Rows

namespace BookingDb

variable {db db' : BookingDb} {op : BookingOperation} {row r : Booking} {w : Writes}

theorem sound_empty : Sound {} where
  log := logOk_empty
  apart _ h := by cases h
  fits _ h := by cases h
  started _ h := by cases h
  overages _ h := by cases h

/-- A claim changes nothing. -/
theorem Sound.claim (h : db.Sound) (inbox : List EventId) : Sound { db with inbox } where
  log := ⟨h.log.logged, h.log.versions⟩
  apart := h.apart
  fits := h.fits
  started := h.started
  overages := h.overages

/-- The rows after accepted writes: the new one, and the rows of other bookings. -/
theorem mem_bookings_write {creates : Bool} (h : db.write creates w = .ok db')
    (hr : r ∈ db'.bookings) : r = w.booking ∨ r ∈ db.bookings ∧ r.id ≠ w.booking.id := by
  obtain ⟨hadmits, rfl⟩ := write_ok_iff.mp h
  cases creates with
  | false => exact RowTable.mem_update hr
  | true =>
    rcases List.mem_append.mp hr with hr | hr
    · exact .inr ⟨hr, RowTable.lookup_eq_none_iff.mp (hadmits.fresh rfl) r hr⟩
    · exact .inl (List.mem_singleton.mp hr)

/-- **The tables stay as the checks left them.** -/
theorem Sound.execute (h : db.Sound) (hexec : db.execute op = .ok db') : db'.Sound := by
  obtain ⟨w, hw, heffect, hwrite⟩ := execute_planned hexec
  obtain ⟨hadmits, hdb⟩ := write_ok_iff.mp hwrite
  have hclear : ∀ r ∈ db.bookings, r.id ≠ w.booking.id → r.Live → w.booking.Live →
      ¬ r.Overlaps w.booking :=
    fun r hr hne hlive hlive' ho => hadmits.clear ⟨hlive', r, hr, hne, hlive, ho⟩
  refine ⟨h.log.execute hexec, fun r hr r' hr' hne hlive hlive' ho => ?_, fun r hr => ?_,
    fun r hr odometer ho => ?_, fun r hr bookingId hostId holdAmountCents overageCents hp => ?_⟩
  · rcases mem_bookings_write hwrite hr with rfl | ⟨hr, hk⟩
    · rcases mem_bookings_write hwrite hr' with rfl | ⟨hr', hk'⟩
      · exact hne rfl
      · exact hclear r' hr' hk' hlive' hlive ho.symm
    · rcases mem_bookings_write hwrite hr' with rfl | ⟨hr', hk'⟩
      · exact hclear r hr hk hlive hlive' ho
      · exact h.apart r hr r' hr' hne hlive hlive' ho
  · rcases mem_bookings_write hwrite hr with rfl | ⟨hr, -⟩
    · exact hadmits.fits
    · exact h.fits r hr
  · rcases mem_bookings_write hwrite hr with rfl | ⟨hr, -⟩
    · cases heffect with
      | opened => cases ho
      | operated _ _ row hrow hacc =>
        rcases hacc.startOdometer with he | ⟨odometer', he, hnonneg⟩
        · exact h.started row (RowTable.mem_of_lookup hrow) odometer (he ▸ ho)
        · obtain rfl : odometer' = odometer := Option.some.inj (he.symm.trans ho)
          exact hnonneg
    · exact h.started r hr odometer ho
  · rw [hdb] at hr
    rcases mem_writeAll hr with hr | ⟨-, hm⟩
    · exact h.overages r hr bookingId hostId holdAmountCents overageCents hp
    · rw [hp] at hm
      cases heffect with
      | opened id vehicle renterId payload =>
        exact absurd hm (requestWrites_outbox_ne_capture id vehicle renterId payload)
      | operated _ _ row hrow hacc =>
        obtain rfl := hacc.overageCents hm
        exact hadmits.fits.2.2.2.2.2.2.2

/-- **What the service accepts on a row commits, if it fits.** -/
theorem Sound.execute_accepts (h : db.Sound) (op : BookingOperation) (hc : op.creates = false)
    (hrow : db.getById op.bookingId = some row) (hacc : Accepts row op w)
    (hfits : w.booking.FitsColumns) :
    ∃ db', db.execute op = .ok db' ∧
      db'.view op.bookingId = (db.view op.bookingId).after w ∧
      db'.outbox = writeAll db.outbox op.bookingId w.outbox ∧ db'.inbox = db.inbox := by
  have hid : row.id = op.bookingId := RowTable.key_of_lookup hrow
  have hw : w.About op.bookingId := hid ▸ hacc.about
  have hclear : ¬ db.Overlapped w.booking := by
    rintro ⟨-, r, hr, hne, hlive, ho⟩
    have hne' : r.id ≠ row.id := by rwa [hid, ← hw.booking]
    exact h.apart r hr row (RowTable.mem_of_lookup hrow) hne' hlive hacc.live
      ((hacc.overlaps_iff r).mp ho)
  have hfree : ¬ db.VersionTaken w.events := by
    -- the versions taken are those up to the row's
    rintro ⟨e, he, r, hr, hb, hv⟩
    have hlow : row.version < e.version := by
      have hmem : e.version ∈ w.events.map (·.version) := List.mem_map_of_mem he
      rw [hacc.events_eq, map_version_eventRows, List.mem_range'_1] at hmem
      omega
    have hhigh : r.version ∈ (db.eventsOf op.bookingId).map (·.version) := by
      refine List.mem_map_of_mem (List.mem_filter.mpr ⟨hr, ?_⟩)
      simp [hb, hw.events e he]
    rw [h.log.versions, List.mem_range'_1] at hhigh
    have hversion := h.log.version_eq hrow
    omega
  have hwrite := write_ok_iff.mpr
    ⟨⟨hfits, fun hcreates => absurd (hc.symm.trans hcreates) (by decide), hclear, hfree⟩, rfl⟩
  refine ⟨_, execute_ok_iff.mpr ⟨w, (plan_ok_iff hc).mpr ⟨row, hrow, hacc⟩, hwrite⟩, ?_, ?_, rfl⟩
  · exact (view_write hw (fun _ => ⟨row, hrow⟩) hwrite).1
  · rw [← hw.booking]

end BookingDb

end CarFlow
