import CarFlow.Booking.Transactions

/-!
# The booking transactions are serializable

READ COMMITTED by itself orders nothing: two transactions may read the same row and both go on. What
orders them is `UNIQUE(booking_id, version)`. A transaction that has appended its first event, at
the version after the one it read, knows that the row it read is the committed one and that it is
alone; its commit is then the operation run by itself on the committed database.

## Implementation notes

`Transaction.Ok` speaks of a transaction and the committed database alone, and `Transaction.Apart`
of two transactions; `ProcessFamily` makes one statement about all transactions of the two. So the
proof for a step looks at the transaction that takes it, and at one other, never at the whole list.

The field `statements` says how far a transaction is: what it has sent and what is pending are the
statements of its operation, for one of the two places at which the session may flush by itself.
`current` is the one that makes the commits serial, and holds only after the first event: until
then the row that was read may be an old one.

## Main results

* `Transaction.Ok.run`, `Transaction.Ok.apart_run` — what a statement keeps
* `Transaction.Ok.commit` — **a commit is the operation**: it leaves what `BookingDb.execute` does
* `ServerOk.step` — the invariant
* `bookings_fold_event_log` — the row of a booking is the fold of its event log, and each transition
  was computed from the fold of the events before its own
-/

namespace CarFlow

open BookingDb

/-! ### What holds of a transaction

A transaction is seen from the committed database: which row it has read, how far its statements
have got, and what they have made of the row. -/

/-- Two transactions have not written one row, nor live rows of one vehicle with a day in common,
nor appended one version. -/
structure Transaction.Apart (t u : Transaction) : Prop where
  rows : ∀ r ∈ t.row, ∀ r' ∈ u.row, r.id ≠ r'.id ∧ ¬ (r.Live ∧ r'.Live ∧ r.Overlaps r')
  events : ∀ e ∈ t.events, ∀ e' ∈ u.events, ¬ (e.bookingId = e'.bookingId ∧ e.version = e'.version)

/-- What holds of a transaction under way, whatever the others do. -/
structure Transaction.Ok (db : BookingDb) (t : Transaction) : Prop where
  creates : t.op.creates = true → t.read = none
  planned : t.op.plan t.read = .ok t.writes
  /-- The row may have gone on since it was read. -/
  read : ∀ row, t.read = some row → row.id = t.op.bookingId ∧ 1 ≤ row.version ∧
    ∃ c, db.getById t.op.bookingId = some c ∧ (c = row ∨ row.version < c.version)
  statements : ∃ autoflush, t.sent ++ t.pending = t.writes.statements t.read autoflush
  /-- Its version of the row is what its statements made of the committed one. -/
  row : t.row.or (db.getById t.op.bookingId) =
    t.sent.foldl Statement.apply (db.getById t.op.bookingId)
  unwritten : t.row = none → ∀ c, t.sent.foldl Statement.apply c = c
  rowId : ∀ r ∈ t.row, r.id = t.op.bookingId
  fits : ∀ r ∈ t.row, r.FitsColumns
  clear : ∀ r ∈ t.row, ¬ db.Overlapped r
  free : ∀ e ∈ t.events, ¬ db.VersionTaken [e]
  /-- A new row has a new identifier. -/
  fresh : t.op.creates = true → t.sent ≠ [] →
    t.row ≠ none ∧ db.getById t.op.bookingId = none
  /-- Once it has appended an event, the row it read is the committed one. -/
  current : t.op.creates = false → t.events ≠ [] → db.getById t.op.bookingId = t.read

section Transaction

variable {db db' : BookingDb} {t t' u : Transaction} {others : List Transaction}
  {statement : Statement} {pending : List Statement} {row : Option Booking}

theorem Transaction.Apart.symm (h : t.Apart u) : u.Apart t where
  rows r hr r' hr' := by
    obtain ⟨hne, hclear⟩ := h.rows r' hr' r hr
    exact ⟨hne.symm, fun ⟨hl, hl', ho⟩ => hclear ⟨hl', hl, ho.symm⟩⟩
  events e he e' he' := fun ⟨hb, hv⟩ => h.events e' he' e he ⟨hb.symm, hv.symm⟩

theorem versionTaken_singleton {e : BookingEventRow} :
    db.VersionTaken [e] ↔ ∃ r ∈ db.bookingEvents, r.bookingId = e.bookingId ∧ r.version = e.version
    := by
  simp [VersionTaken]

theorem Accepts.version_lt {row : Booking} {op : BookingOperation} {w : Writes}
    (h : Accepts row op w) : row.version < w.booking.version := by
  rw [← h.replay, Booking.version_foldl_replay]
  have := List.length_pos_iff.mpr h.events_ne_nil
  simpa using this

theorem Accepts.head_event {row : Booking} {op : BookingOperation} {w : Writes}
    {e : BookingEventRow} {rest : List BookingEventRow} (h : Accepts row op w)
    (he : w.events = e :: rest) : e.bookingId = row.id ∧ e.version = row.version + 1 := by
  have hmem : e ∈ row.eventRows (w.events.map (·.event)) := by
    rw [← h.events_eq, he]
    exact List.mem_cons_self
  have hversions := congrArg (List.map (·.version)) he
  rw [h.events_eq, map_version_eventRows, List.map_cons, List.range'_eq_cons_iff] at hversions
  exact ⟨bookingId_of_mem_eventRows hmem, hversions.1.symm⟩

/-- The versions up to that of a row are taken. -/
theorem BookingDb.LogOk.versionTaken (h : db.LogOk) {b : Uuid} {c : Booking}
    (hc : db.getById b = some c)
    {e : BookingEventRow} (hb : e.bookingId = b) (hlow : 2 ≤ e.version)
    (hhigh : e.version ≤ c.version) : db.VersionTaken [e] := by
  have hmem : e.version ∈ (db.eventsOf b).map (·.version) := by
    have hversion := h.version_eq hc
    rw [h.versions, List.mem_range'_1]
    omega
  obtain ⟨r, hr, hv⟩ := List.mem_map.mp hmem
  obtain ⟨hr, hrb⟩ := List.mem_filter.mp hr
  exact versionTaken_singleton.mpr ⟨r, hr, (of_decide_eq_true hrb).trans hb.symm, hv⟩

namespace Transaction.Ok

theorem accepts (h : t.Ok db) (hc : t.op.creates = false) :
    ∃ row, t.read = some row ∧ Accepts row t.op t.writes :=
  (plan_ok_iff hc).mp h.planned

theorem opens (h : t.Ok db) (hc : t.op.creates = true) :
    ∃ vehicle renterId payload,
      t.writes = requestWrites t.op.bookingId vehicle renterId payload := by
  have hplanned := h.planned
  generalize t.op = op, t.read = read at hc hplanned ⊢
  cases op with
  | requestBooking id vehicle renterId payload =>
    obtain ⟨v, -, -, hw⟩ := requestBooking_ok_iff.mp hplanned
    exact ⟨v, renterId, payload, hw⟩
  | _ => cases hc

theorem about (h : t.Ok db) : t.writes.About t.op.bookingId := by
  cases hc : t.op.creates with
  | false =>
    obtain ⟨row, hrow, hacc⟩ := h.accepts hc
    exact (h.read row hrow).1 ▸ hacc.about
  | true =>
    obtain ⟨vehicle, renterId, payload, hw⟩ := h.opens hc
    exact hw ▸ requestWrites_about _ vehicle renterId payload

theorem writes_events_ne_nil (h : t.Ok db) : t.writes.events ≠ [] := by
  cases hc : t.op.creates with
  | false =>
    obtain ⟨row, -, hacc⟩ := h.accepts hc
    exact hacc.events_ne_nil
  | true =>
    obtain ⟨vehicle, renterId, payload, hw⟩ := h.opens hc
    rw [hw]
    exact List.cons_ne_nil _ _

theorem events_append (h : t.Ok db) :
    t.events ++ t.pending.filterMap Statement.event? = t.writes.events := by
  obtain ⟨autoflush, hstatements⟩ := h.statements
  rw [Transaction.events, ← List.filterMap_append, hstatements, events_statements]

/-- The first event of a transaction is at the version after the one it read. -/
theorem head_event (h : t.Ok db) (hc : t.op.creates = false) {e : BookingEventRow}
    {rest : List BookingEventRow} (he : t.writes.events = e :: rest) :
    ∃ row, t.read = some row ∧ e.bookingId = t.op.bookingId ∧ e.version = row.version + 1 := by
  obtain ⟨row, hrow, hacc⟩ := h.accepts hc
  obtain ⟨hb, hv⟩ := hacc.head_event he
  exact ⟨row, hrow, hb.trans (h.read row hrow).1, hv⟩

/-- A transaction that has just read its row. -/
theorem start (hlog : db.LogOk) {op : BookingOperation} {w : Writes} (autoflush : Bool)
    (hplan : op.plan (if op.creates then none else db.getById op.bookingId) = .ok w) :
    Transaction.Ok db { op, writes := w
                        read := if op.creates then none else db.getById op.bookingId
                        pending := w.statements
                          (if op.creates then none else db.getById op.bookingId) autoflush } where
  creates hc := if_pos hc
  planned := hplan
  read row hrow := by
    split at hrow
    · cases hrow
    · refine ⟨RowTable.key_of_lookup hrow, ?_, row, hrow, .inl rfl⟩
      rw [hlog.version_eq hrow]
      exact Nat.le_add_left 1 _
  statements := ⟨autoflush, rfl⟩
  row := rfl
  unwritten _ _ := rfl
  rowId _ hr := by cases hr
  fits _ hr := by cases hr
  clear _ hr := by cases hr
  free _ he := by cases he
  fresh _ hne := absurd rfl hne
  current _ hne := absurd rfl hne

end Transaction.Ok

/-! ### A statement

A statement is sent, or waits, or is refused. A statement of one transaction leaves what holds of
the others, because two of them never write one row. -/

/-- What a statement that runs has checked, and the version of the row it leaves. -/
inductive Runs (db : BookingDb) (others : List Transaction) (own : Option Booking) :
    Statement → Option Booking → Prop
  | insertBooking (row : Booking) (hfits : row.FitsColumns) (hlocked : ¬ Locked others row.id)
      (hcontested : ¬ Contested db others row) (hfresh : db.getById row.id = none)
      (hclear : ¬ db.Overlapped row) :
      Runs db others own (.insertBooking row) (some row)
  | insertEvent (row : BookingEventRow) (hpending : ¬ VersionPending others row)
      (hfree : ¬ db.VersionTaken [row]) :
      Runs db others own (.insertEvent row) own
  | insertOutbox (message : BookingMessage) : Runs db others own (.insertOutbox message) own
  | updateBooking (old new current : Booking) (integrity : BookingError)
      (hlocked : ¬ Locked others old.id) (hcurrent : own.or (db.getById old.id) = some current)
      (hfits : (old.updateColumns new current).FitsColumns)
      (hcontested : ¬ Contested db others (old.updateColumns new current))
      (hclear : ¬ db.Overlapped (old.updateColumns new current)) :
      Runs db others own (.updateBooking old new integrity) (some (old.updateColumns new current))

theorem runs_of_exec {own row : Option Booking}
    (h : statement.exec db others own = .runs row) : Runs db others own statement row := by
  cases statement with
  | insertBooking new =>
    simp only [Statement.exec] at h
    split at h
    · cases h
    rename_i hfits
    split at h
    · cases h
    rename_i hwaits
    split at h
    · cases h
    rename_i hraises
    obtain ⟨hlocked, hcontested⟩ := not_or.mp hwaits
    obtain ⟨hfresh, hclear⟩ := not_or.mp hraises
    cases h
    exact .insertBooking new (not_not.mp hfits) hlocked hcontested
      (Option.not_isSome_iff_eq_none.mp hfresh) hclear
  | insertEvent event =>
    simp only [Statement.exec] at h
    split at h
    · cases h
    split at h
    · cases h
    rename_i hpending
    split at h
    · cases h
    rename_i hfree
    cases h
    exact .insertEvent event hpending hfree
  | insertOutbox message =>
    cases h
    exact .insertOutbox message
  | updateBooking old new integrity =>
    simp only [Statement.exec] at h
    split at h
    · cases h
    rename_i hlocked
    split at h
    · cases h
    rename_i current hcurrent
    split at h
    · cases h
    rename_i hfits
    split at h
    · cases h
    rename_i hcontested
    split at h
    · cases h
    rename_i hclear
    cases h
    exact .updateBooking old new current integrity hlocked hcurrent (not_not.mp hfits) hcontested
      hclear

theorem filterMap_event_concat (sent : List Statement) (statement : Statement) :
    (sent ++ [statement]).filterMap Statement.event? =
      sent.filterMap Statement.event? ++ statement.event?.toList := by
  rw [List.filterMap_append]
  cases statement <;> rfl

section Runs

variable {own : Option Booking} {b : Uuid}

theorem Runs.row_eq (h : Runs db others own statement row) (hb : statement.About b) :
    row.or (db.getById b) = Statement.apply (own.or (db.getById b)) statement := by
  cases h with
  | insertBooking => rfl
  | insertEvent => rfl
  | insertOutbox => rfl
  | updateBooking old new current integrity hlocked hcurrent =>
    obtain rfl : old.id = b := hb
    rw [Statement.apply, hcurrent]
    rfl

/-- A statement that leaves the row unwritten does nothing to it, and found it unwritten. -/
theorem Runs.unwritten (h : Runs db others own statement row) (hnone : row = none) :
    own = none ∧ ∀ c, Statement.apply c statement = c := by
  cases h with
  | insertBooking => cases hnone
  | insertEvent => exact ⟨hnone, fun _ => rfl⟩
  | insertOutbox => exact ⟨hnone, fun _ => rfl⟩
  | updateBooking => cases hnone

/-- What a statement has checked about the row it leaves: that of before, or a new one. -/
theorem Runs.checked (h : Runs db others own statement row) (hb : statement.About b)
    (hown : ∀ r ∈ own, r.id = b) :
    row = own ∨ ∃ r, row = some r ∧ r.id = b ∧ r.FitsColumns ∧ ¬ db.Overlapped r ∧
      ¬ Locked others b ∧ ¬ Contested db others r := by
  cases h with
  | insertBooking r hfits hlocked hcontested hfresh hclear =>
    obtain rfl : r.id = b := hb
    exact .inr ⟨r, rfl, rfl, hfits, hclear, hlocked, hcontested⟩
  | insertEvent => exact .inl rfl
  | insertOutbox => exact .inl rfl
  | updateBooking old new current integrity hlocked hcurrent hfits hcontested hclear =>
    obtain rfl : old.id = b := hb
    refine .inr ⟨_, rfl, ?_, hfits, hclear, hlocked, hcontested⟩
    rw [Booking.id_updateColumns]
    rcases Option.or_eq_some_iff.mp hcurrent with hr | ⟨-, hr⟩
    · exact hown _ hr
    · exact RowTable.key_of_lookup hr

theorem Runs.event (h : Runs db others own statement row) {e : BookingEventRow}
    (he : statement.event? = some e) : ¬ VersionPending others e ∧ ¬ db.VersionTaken [e] := by
  cases h with
  | insertEvent event hpending hfree =>
    obtain rfl := Option.some.inj he
    exact ⟨hpending, hfree⟩
  | insertBooking => cases he
  | insertOutbox => cases he
  | updateBooking => cases he

end Runs

namespace Transaction.Ok

theorem statement_about (h : t.Ok db) (hp : t.pending = statement :: pending) :
    statement.About t.op.bookingId := by
  obtain ⟨autoflush, hstatements⟩ := h.statements
  have hall : ∀ statement ∈ t.writes.statements t.read autoflush,
      statement.About t.op.bookingId :=
    about_statements h.about fun row hrow => (h.read row hrow).1
  rw [← hstatements, hp] at hall
  exact hall statement (by simp)

/-- **A statement keeps the invariant** of its transaction. -/
theorem run (h : t.Ok db) (hlog : db.LogOk) (hp : t.pending = statement :: pending)
    (hruns : Runs db others t.row statement row) :
    Transaction.Ok db { t with sent := t.sent ++ [statement], pending, row } := by
  have hb := h.statement_about hp
  have hrow := hruns.checked hb h.rowId
  have hevents := filterMap_event_concat t.sent statement
  refine { creates := h.creates, planned := h.planned, read := h.read, statements := ?_, row := ?_,
           unwritten := ?_, rowId := ?_, fits := ?_, clear := ?_, free := ?_, fresh := ?_,
           current := ?_ }
  · obtain ⟨autoflush, hstatements⟩ := h.statements
    refine ⟨autoflush, ?_⟩
    rw [← hstatements, hp]
    simp
  · rw [List.foldl_concat, ← h.row]
    exact hruns.row_eq hb
  · intro hnone c
    obtain ⟨hown, hid⟩ := hruns.unwritten hnone
    rw [List.foldl_concat, h.unwritten hown c, hid]
  · rcases hrow with rfl | ⟨r, rfl, hid, -⟩
    · exact h.rowId
    · intro r' hr'
      cases hr'
      exact hid
  · rcases hrow with rfl | ⟨r, rfl, -, hfits, -⟩
    · exact h.fits
    · intro r' hr'
      cases hr'
      exact hfits
  · rcases hrow with rfl | ⟨r, rfl, -, -, hclear, -⟩
    · exact h.clear
    · intro r' hr'
      cases hr'
      exact hclear
  · intro e he
    rw [Transaction.events, hevents] at he
    rcases List.mem_append.mp he with he | he
    · exact h.free e he
    · exact (hruns.event (Option.mem_toList.mp he)).2
  · intro hc _
    by_cases hsent : t.sent = []
    · -- the first statement inserts the row
      obtain ⟨autoflush, hstatements⟩ := h.statements
      rw [hsent, hp, h.creates hc] at hstatements
      obtain ⟨rfl, -⟩ := List.cons_eq_cons.mp hstatements
      cases hruns with
      | insertBooking _ _ _ _ hfresh =>
        have hid : t.writes.booking.opened.id = t.op.bookingId := hb
        exact ⟨Option.some_ne_none _, hid ▸ hfresh⟩
    · obtain ⟨hne, hnone⟩ := h.fresh hc hsent
      exact ⟨fun hnone => hne (hruns.unwritten hnone).1, hnone⟩
  · intro hc hne
    by_cases hnil : t.events = []
    swap
    · exact h.current hc hnil
    -- the first event: its version would be taken if the row had gone on
    rw [Transaction.events, hevents, ← Transaction.events, hnil, List.nil_append] at hne
    obtain ⟨e, he⟩ : ∃ e, statement.event? = some e := by
      refine Option.ne_none_iff_exists'.mp fun hnone => hne ?_
      rw [hnone, Option.toList_none]
    have happend := h.events_append
    rw [hnil, hp, List.filterMap_cons, he] at happend
    obtain ⟨r, hr, heb, hev⟩ := h.head_event hc happend.symm
    obtain ⟨-, hpos, c, hcommitted, rfl | hlt⟩ := h.read r hr
    · exact hcommitted.trans hr.symm
    · exact absurd (hlog.versionTaken hcommitted heb (by omega) (by omega)) (hruns.event he).2

end Transaction.Ok

/-- A statement keeps transactions apart. -/
theorem Transaction.Ok.apart_run (h : t.Ok db) (hp : t.pending = statement :: pending)
    (hruns : Runs db others t.row statement row) (hu : u ∈ others) (hapart : t.Apart u) :
    Transaction.Apart { t with sent := t.sent ++ [statement], pending, row } u := by
  have hb := h.statement_about hp
  refine ⟨?_, ?_⟩
  · rcases hruns.checked hb h.rowId with rfl | ⟨r, rfl, hid, -, -, hlocked, hcontested⟩
    · exact hapart.rows
    · intro r' hr' q hq
      cases hr'
      have hne : r.id ≠ q.id := fun he => hlocked ⟨u, hu, q, hq, he.symm.trans hid⟩
      exact ⟨hne, fun ⟨hl, hl', ho⟩ => hcontested ⟨hl, u, hu, q, hq, hne.symm, ho.symm, .inl hl'⟩⟩
  · intro e he e' he' hsame
    rw [Transaction.events, filterMap_event_concat] at he
    rcases List.mem_append.mp he with he | he
    · exact hapart.events e he e' he' hsame
    · exact (hruns.event (Option.mem_toList.mp he)).1 ⟨u, hu, e', he', hsame.1.symm, hsame.2.symm⟩

/-! ### A commit

At its commit the transaction has appended an event, so the row it read is the committed one. The
others find that row changed, and are told by `read` that it may have gone on. -/

namespace Transaction.Ok

theorem events_eq (h : t.Ok db) (hp : t.pending = []) : t.events = t.writes.events := by
  have happend := h.events_append
  rwa [hp, List.filterMap_nil, List.append_nil] at happend

theorem outbox_eq (h : t.Ok db) (hp : t.pending = []) : t.outbox = t.writes.outbox := by
  obtain ⟨autoflush, hstatements⟩ := h.statements
  rw [hp, List.append_nil] at hstatements
  rw [Transaction.outbox, hstatements, outbox_statements]

theorem events_ne_nil (h : t.Ok db) (hp : t.pending = []) : t.events ≠ [] :=
  h.events_eq hp ▸ h.writes_events_ne_nil

theorem sent_ne_nil (h : t.Ok db) (hp : t.pending = []) : t.sent ≠ [] := by
  intro hnil
  refine h.events_ne_nil hp ?_
  rw [Transaction.events, hnil, List.filterMap_nil]

/-- At its commit, what a transaction read is what is committed. -/
theorem getById_eq (h : t.Ok db) (hp : t.pending = []) : db.getById t.op.bookingId = t.read := by
  cases hc : t.op.creates with
  | false => exact h.current hc (h.events_ne_nil hp)
  | true => rw [(h.fresh hc (h.sent_ne_nil hp)).2, h.creates hc]

/-- And its version of the row is what it meant to write. -/
theorem row_eq (h : t.Ok db) (hp : t.pending = []) : t.row = some t.writes.booking := by
  obtain ⟨autoflush, hstatements⟩ := h.statements
  have hrow := h.row
  rw [hp, List.append_nil] at hstatements
  rw [hstatements, h.getById_eq hp] at hrow
  cases hc : t.op.creates with
  | true => rwa [h.creates hc, apply_statements_none, Option.or_none] at hrow
  | false =>
    obtain ⟨row, hread, hacc⟩ := h.accepts hc
    rw [hread, apply_statements hacc] at hrow
    cases hr : t.row with
    | some r => rwa [hr] at hrow
    | none =>
      rw [hr, Option.none_or] at hrow
      have hlt := hacc.version_lt
      rw [Option.some.inj hrow] at hlt
      exact absurd hlt (Nat.lt_irrefl _)

/-- **A commit is the operation**: the database it leaves is the one that the operation, run by
itself, leaves. -/
theorem commit (h : t.Ok db) (hp : t.pending = []) : db.execute t.op = .ok (db.commit t) := by
  have hrow := h.row_eq hp
  have hid : t.writes.booking.id = t.op.bookingId := h.rowId _ hrow
  refine execute_ok_iff.mpr ⟨t.writes, ?_, write_ok_iff.mpr ⟨⟨?_, fun hc => ?_, ?_, ?_⟩, ?_⟩⟩
  · rw [h.getById_eq hp]
    exact h.planned
  · exact h.fits _ hrow
  · rw [hid]
    exact (h.fresh hc (h.sent_ne_nil hp)).2
  · exact h.clear _ hrow
  · rintro ⟨e, he, htaken⟩
    rw [← h.events_eq hp] at he
    exact h.free e he (versionTaken_singleton.mpr htaken)
  · simp only [BookingDb.commit, hrow, h.events_eq hp, h.outbox_eq hp, hid]

/-- A row of the database after a commit is the written one or an old one. -/
theorem mem_bookings_commit (h : t.Ok db) (hp : t.pending = []) {r : Booking}
    (hr : r ∈ (db.commit t).bookings) : t.row = some r ∨ r ∈ db.bookings := by
  have hrow := h.row_eq hp
  simp only [BookingDb.commit, hrow] at hr
  rw [hrow]
  split at hr
  · rcases List.mem_append.mp hr with hr | hr
    · exact .inr hr
    · exact .inl (congrArg some (List.mem_singleton.mp hr).symm)
  · obtain ⟨r', hr', rfl⟩ := List.mem_map.mp hr
    split
    · exact .inl rfl
    · exact .inr hr'

/-- **A commit keeps the invariant of the others.** -/
theorem after_commit (hu : u.Ok db) (h : t.Ok db) (hp : t.pending = []) (hapart : t.Apart u) :
    u.Ok (db.commit t) := by
  have hexec := h.commit hp
  obtain ⟨w, -, -, -, -, hothers, -⟩ := execute_writes hexec
  -- a transaction that has written the row of its booking is about another booking than `t`
  have hsame : u.row ≠ none →
      (db.commit t).getById u.op.bookingId = db.getById u.op.bookingId := by
    intro hne
    obtain ⟨r, hr⟩ := Option.ne_none_iff_exists'.mp hne
    have hids := (hapart.rows _ (h.row_eq hp) r hr).1
    rw [h.rowId _ (h.row_eq hp), hu.rowId r hr] at hids
    exact congrArg BookingView.row (hothers _ hids)
  refine { hu with read := ?_, row := ?_, clear := ?_, free := ?_, fresh := ?_, current := ?_ }
  · intro row hrow
    obtain ⟨hid, hpos, c, hc, hstale⟩ := hu.read row hrow
    obtain ⟨c', hc', hlater⟩ := getById_execute hexec hc
    refine ⟨hid, hpos, c', hc', ?_⟩
    rcases hlater with rfl | hlt
    · exact hstale
    · rcases hstale with rfl | hlt'
      · exact .inr hlt
      · exact .inr (Nat.lt_trans hlt' hlt)
  · by_cases hnone : u.row = none
    · rw [hnone, hu.unwritten hnone, Option.none_or]
    · rw [hsame hnone]
      exact hu.row
  · rintro r hr ⟨hlive, r', hr', hne, hlive', hover⟩
    rcases h.mem_bookings_commit hp hr' with hrow | hold
    · exact (hapart.rows r' hrow r hr).2 ⟨hlive', hlive, hover⟩
    · exact hu.clear r hr ⟨hlive, r', hold, hne, hlive', hover⟩
  · intro e he htaken
    obtain ⟨e', he', hsame⟩ := versionTaken_singleton.mp htaken
    rcases List.mem_append.mp he' with he' | he'
    · exact hu.free e he (versionTaken_singleton.mpr ⟨e', he', hsame⟩)
    · exact hapart.events e' he' e he hsame
  · intro hc hsent
    obtain ⟨hne, hnone⟩ := hu.fresh hc hsent
    exact ⟨hne, (hsame hne).trans hnone⟩
  · intro hc hne
    have hcurrent := hu.current hc hne
    by_cases hb : t.op.bookingId = u.op.bookingId
    swap
    · exact (congrArg BookingView.row (hothers _ hb)).trans hcurrent
    -- two transactions cannot both have appended the next version of a booking
    exfalso
    obtain ⟨row, hread, hacc⟩ := hu.accepts hc
    have hcommitted := h.getById_eq hp
    rw [hb, hcurrent, hread] at hcommitted
    have hct : t.op.creates = false := by
      refine Bool.eq_false_iff.mpr fun hct => ?_
      rw [h.creates hct] at hcommitted
      cases hcommitted
    obtain ⟨e, rest, he⟩ := List.exists_cons_of_ne_nil (h.events_ne_nil hp)
    obtain ⟨e', rest', he'⟩ := List.exists_cons_of_ne_nil hne
    obtain ⟨r, hr, heb, hev⟩ := h.head_event hct ((h.events_eq hp).symm.trans he)
    obtain ⟨r', hr', heb', hev'⟩ := hu.head_event hc
      (hu.events_append.symm.trans (by rw [he', List.cons_append]))
    obtain rfl : row = r := Option.some.inj (hcommitted.trans hr)
    obtain rfl : row = r' := Option.some.inj (hread.symm.trans hr')
    refine hapart.events e (he ▸ List.mem_cons_self) e' (he' ▸ List.mem_cons_self) ⟨?_, ?_⟩
    · rw [heb, heb', hb]
    · rw [hev, hev']

end Transaction.Ok

end Transaction

/-! ### The server

The history has the operations in the order of their commits. The database is what they make of an
empty one, one after the other. -/

/-- The row of a transition is the fold of the events before its own, which are in the log. -/
structure Commit.Ok (db : BookingDb) (c : Commit) : Prop where
  planned : c.op.plan c.read = .ok c.writes
  written : ∀ e ∈ c.writes.events, e ∈ db.bookingEvents
  opened : c.read = none → c.op.creates = true
  computed : ∀ row, c.read = some row →
    (∀ e ∈ c.writes.events, e.bookingId = c.op.bookingId ∧ row.version < e.version) ∧
    (((db.eventsOf c.op.bookingId).filter (·.version ≤ row.version)).map (·.event)).foldl
      Booking.replay row.opened = row ∧
    ∃ current, db.getById c.op.bookingId = some current ∧ row.version ≤ current.version

/-- **The invariant of the server.** -/
structure ServerOk (s : BookingServer) : Prop where
  log : s.db.LogOk
  transactions : ProcessFamily (Transaction.Ok s.db) Transaction.Apart s.transactions
  /-- The database is what the committed operations make of an empty one, one after the other. -/
  serial : (s.history.map (·.op)).foldlM BookingDb.execute {} = .ok s.db
  history : ∀ c ∈ s.history, c.Ok s.db

section Server

variable {s s' : BookingServer} {db db' : BookingDb} {op : BookingOperation} {c : Commit}

theorem serverOk_init : ServerOk {} where
  log := logOk_empty
  transactions := .nil
  serial := rfl
  history _ h := by cases h

/-- The events a later operation appends are at later versions. -/
theorem eventsOf_filter_execute (hexec : db.execute op = .ok db') {b : Uuid} {current : Booking}
    (hcurrent : db.getById b = some current) {n : ℕ} (hn : n ≤ current.version) :
    (db'.eventsOf b).filter (·.version ≤ n) = (db.eventsOf b).filter (·.version ≤ n) := by
  obtain ⟨w, -, hw, heffect, -, -, hevents, -⟩ := execute_writes hexec
  rw [eventsOf_append w hw hevents, List.filter_append]
  have hnone : (if op.bookingId = b then w.events else []).filter (·.version ≤ n) = [] := by
    split
    swap
    · rfl
    rename_i hb
    subst hb
    cases heffect with
    | opened id vehicle renterId payload hnone => cases hnone.symm.trans hcurrent
    | operated _ _ row hrow haccepts =>
      obtain rfl : current = row := Option.some.inj (hcurrent.symm.trans hrow)
      rw [List.filter_eq_nil_iff]
      intro e he
      have hv : e.version ∈ w.events.map (·.version) := List.mem_map_of_mem he
      rw [haccepts.events_eq, map_version_eventRows, List.mem_range'_1] at hv
      rw [decide_eq_true_iff]
      omega
  rw [hnone, List.append_nil]

theorem Commit.Ok.execute (h : c.Ok db) (hexec : db.execute op = .ok db') :
    c.Ok db' where
  planned := h.planned
  written e he := by
    obtain ⟨w, -, -, -, -, -, hevents, -⟩ := execute_writes hexec
    rw [hevents]
    exact List.mem_append_left _ (h.written e he)
  opened := h.opened
  computed row hrow := by
    obtain ⟨hlater, hfold, current, hcurrent, hversion⟩ := h.computed row hrow
    obtain ⟨current', hcurrent', hchange⟩ := getById_execute hexec hcurrent
    refine ⟨hlater, ?_, current', hcurrent', ?_⟩
    · rwa [eventsOf_filter_execute hexec hcurrent hversion]
    · rcases hchange with rfl | hlt
      · exact hversion
      · exact Nat.le_trans hversion (Nat.le_of_lt hlt)

/-- The commit itself. -/
theorem Transaction.Ok.commit_ok {t : Transaction} (h : t.Ok db) (hlog : db.LogOk)
    (hp : t.pending = []) : Commit.Ok (db.commit t) ⟨t.op, t.read, t.writes⟩ where
  planned := h.planned
  written e he := by
    rw [← h.events_eq hp] at he
    exact List.mem_append_right _ he
  opened hnone := by
    by_contra hc
    obtain ⟨row, hread, -⟩ := h.accepts (Bool.eq_false_iff.mpr hc)
    cases hread.symm.trans hnone
  computed row hrow := by
    have hexec := h.commit hp
    have hrow' : db.getById t.op.bookingId = some row := (h.getById_eq hp).trans hrow
    obtain ⟨current, hcurrent, hchange⟩ := getById_execute hexec hrow'
    refine ⟨fun e he => ?_, ?_, current, hcurrent, ?_⟩
    · cases hc : t.op.creates with
      | true => cases (h.creates hc).symm.trans hrow
      | false =>
        obtain ⟨r, hread, hacc⟩ := h.accepts hc
        obtain rfl : row = r := Option.some.inj (hrow.symm.trans hread)
        have hv : e.version ∈ t.writes.events.map (·.version) := List.mem_map_of_mem he
        rw [hacc.events_eq, map_version_eventRows, List.mem_range'_1] at hv
        exact ⟨h.about.events e he, by omega⟩
    · rw [eventsOf_filter_execute hexec hrow' (Nat.le_refl _)]
      have hall : (db.eventsOf t.op.bookingId).filter (·.version ≤ row.version) =
          db.eventsOf t.op.bookingId := by
        refine List.filter_eq_self.mpr fun e he => decide_eq_true ?_
        have hv : e.version ∈ (db.eventsOf t.op.bookingId).map (·.version) :=
          List.mem_map_of_mem he
        have hversion := hlog.version_eq hrow'
        rw [hlog.versions, List.mem_range'_1] at hv
        omega
      rw [hall]
      exact (hlog.logged _).folded row hrow'
    · rcases hchange with rfl | hlt
      · exact Nat.le_refl _
      · exact Nat.le_of_lt hlt

/-- The ways a step can go. -/
inductive ServerStep (s : BookingServer) : BookingServer → Prop
  | began (op : BookingOperation) (autoflush : Bool) (w : Writes)
      (hplan : op.plan (if op.creates then none else s.db.getById op.bookingId) = .ok w) :
      ServerStep s { s with
        transactions := s.transactions ++ [{ op, writes := w
                                             read := if op.creates then none
                                               else s.db.getById op.bookingId
                                             pending := w.statements (if op.creates then none
                                               else s.db.getById op.bookingId) autoflush }] }
  | ran (i : ℕ) (t : Transaction) (statement : Statement) (pending : List Statement)
      (row : Option Booking) (hi : s.transactions[i]? = some t)
      (hp : t.pending = statement :: pending)
      (hruns : Runs s.db (s.transactions.eraseIdx i) t.row statement row) :
      ServerStep s { s with
        transactions :=
          s.transactions.set i { t with sent := t.sent ++ [statement], pending, row } }
  | ended (i : ℕ) : ServerStep s { s with transactions := s.transactions.eraseIdx i }
  | committed (i : ℕ) (t : Transaction) (hi : s.transactions[i]? = some t) (hp : t.pending = []) :
      ServerStep s
        { db := s.db.commit t
          transactions := s.transactions.eraseIdx i
          history := s.history ++ [{ op := t.op, read := t.read, writes := t.writes }] }

theorem serverStep_cases {a : ServerAction} (h : serverStep s a = some s') : ServerStep s s' := by
  cases a with
  | begin op autoflush =>
    simp only [serverStep] at h
    split at h
    · cases h
    · rename_i writes hplan
      cases h
      exact .began op autoflush writes hplan
  | run i =>
    simp only [serverStep, Option.bind_eq_bind, Option.bind_eq_some_iff] at h
    obtain ⟨t, hi, h⟩ := h
    split at h
    · cases h
    · rename_i statement pending hp
      split at h
      · cases h
      · cases h
        exact .ended i
      · rename_i row hexec
        cases h
        exact .ran i t statement pending row hi hp (runs_of_exec hexec)
  | commit i =>
    simp only [serverStep, Option.bind_eq_bind, Option.bind_eq_some_iff] at h
    obtain ⟨t, hi, h⟩ := h
    split at h
    · rename_i hp
      cases h
      exact .committed i t hi hp
    · cases h
  | abort i =>
    simp only [serverStep, Option.bind_eq_bind, Option.bind_eq_some_iff] at h
    obtain ⟨t, hi, h⟩ := h
    cases h
    exact .ended i

/-- **Every step keeps the invariant.** -/
theorem ServerOk.step (h : ServerOk s) (hstep : ServerStep s s') : ServerOk s' := by
  have hsymm : ∀ t u : Transaction, t.Apart u → u.Apart t := fun _ _ => Transaction.Apart.symm
  cases hstep with
  | began op autoflush w hplan =>
    refine { h with transactions := h.transactions.start (.start h.log autoflush hplan) ?_ }
    exact fun u _ => ⟨fun _ _ _ hr => (by cases hr), fun _ _ _ he => (by cases he)⟩
  | ran i t statement pending row hi hp hruns =>
    have ht := h.transactions.each t (List.mem_of_getElem? hi)
    refine { h with transactions := h.transactions.step hsymm hi (fun _ _ hu => hu)
                      (ht.run h.log hp hruns) fun u hu => ?_ }
    exact ht.apart_run hp hruns hu (h.transactions.others hsymm hi u hu)
  | ended i => exact { h with transactions := h.transactions.finish i fun _ _ hu => hu }
  | committed i t hi hp =>
    have ht := h.transactions.each t (List.mem_of_getElem? hi)
    have hexec := ht.commit hp
    refine ⟨h.log.execute hexec, h.transactions.finish i fun u hu hok => ?_, ?_, fun c hc => ?_⟩
    · exact hok.after_commit ht hp (h.transactions.others hsymm hi u hu)
    · rw [List.map_append, List.foldlM_append, h.serial]
      simpa using hexec
    · rcases List.mem_append.mp hc with hc | hc
      · exact (h.history c hc).execute hexec
      · obtain rfl := List.mem_singleton.mp hc
        exact ht.commit_ok h.log hp

theorem serverOk_of_reachable (h : bookingServer.Reachable s) : ServerOk s :=
  h.invariant ServerOk serverOk_init fun _ _ _ _ hok hstep => hok.step (serverStep_cases hstep)

/-- A booking that has ended stays as it is. -/
theorem terminal_leads (h : bookingServer.Reachable s) (hleads : bookingServer.Leads s s')
    {b : Uuid} {row : Booking} (hrow : s.db.getById b = some row) (hended : row.status.Terminal) :
    s'.db.getById b = some row := by
  refine hleads.stable (fun s => s.db.getById b = some row) (fun s a s' hr hrow hstep => ?_) h hrow
  cases serverStep_cases hstep with
  | began => exact hrow
  | ran => exact hrow
  | ended => exact hrow
  | committed i t hi hp =>
    have ht := (serverOk_of_reachable hr).transactions.each t (List.mem_of_getElem? hi)
    exact terminal_execute (ht.commit hp) hrow hended

/-- **The bookings are the fold of their event logs**, in every reachable state. The events of a
booking are at the versions from `2` to that of its row. The row has the status its events lead to,
what the one handover recorded, if there was one, and what the last return recorded, if there was
one. Every committed transition was computed from the fold of the events at smaller versions than
its own, and the database is what the committed operations make of an empty one, one after the
other. A booking that is completed, cancelled or rejected stays so. -/
theorem bookings_fold_event_log (h : bookingServer.Reachable s) :
    (∀ b row, s.db.getById b = some row →
      (s.db.eventsOf b).map (·.version) = List.range' 2 (row.version - 1) ∧
      row.status = ((s.db.eventsOf b).map (·.event)).foldl BookingStatus.after .requested ∧
      (∀ payload, .bookingHandoverRecorded payload ∈ (s.db.eventsOf b).map (·.event) →
        row.StartedWith (some payload)) ∧
      ((∀ payload, .bookingHandoverRecorded payload ∉ (s.db.eventsOf b).map (·.event)) →
        row.StartedWith none) ∧
      row.EndedWith (lastReturn ((s.db.eventsOf b).map (·.event)))) ∧
    (∀ b, s.db.getById b = none → s.db.eventsOf b = []) ∧
    (∀ c ∈ s.history, c.Ok s.db) ∧
    (s.history.map (·.op)).foldlM BookingDb.execute {} = .ok s.db ∧
    ∀ s', bookingServer.Leads s s' → ∀ b row, s.db.getById b = some row → row.status.Terminal →
      s'.db.getById b = some row := by
  have hok := serverOk_of_reachable h
  refine ⟨fun b row hrow => ?_, fun b hnone => ?_, hok.history, hok.serial,
    fun s' hleads b row => terminal_leads h hleads⟩
  · have hlogged := hok.log.logged b
    have hfold := hlogged.folded row hrow
    obtain ⟨hcount, -⟩ := hlogged.started row hrow
    obtain ⟨hstart, hend⟩ := row.replay_columns (s.db.view b).log
    have hhandover : ∀ payload, .bookingHandoverRecorded payload ∈ (s.db.view b).log →
        payload ∈ (s.db.view b).log.filterMap BookingEvent.handover? :=
      fun payload hm => List.mem_filterMap.mpr ⟨_, hm, rfl⟩
    rw [hfold] at hstart hend
    refine ⟨?_, ?_, fun payload hm => ?_, fun hnone => ?_, hend⟩
    · rw [hok.log.versions, hok.log.version_eq hrow, Nat.add_sub_cancel]
    · rw [← hfold, Booking.status_foldl_replay]
      rfl
    · have hmem := hhandover payload hm
      generalize (s.db.view b).log.filterMap BookingEvent.handover? = handovers at *
      obtain ⟨p, rfl⟩ := List.length_eq_one_iff.mp
        (Nat.le_antisymm hcount (List.length_pos_of_mem hmem))
      rwa [List.mem_singleton.mp hmem]
    · have hempty : (s.db.view b).log.filterMap BookingEvent.handover? = [] := by
        refine List.filterMap_eq_nil_iff.mpr fun event hm => ?_
        cases event with
        | bookingHandoverRecorded payload => exact absurd hm (hnone payload)
        | _ => rfl
      rwa [hempty] at hstart
  · have hlog := (hok.log.logged b).unopened hnone
    rwa [log_eq, List.map_eq_nil_iff] at hlog

end Server

/-- Renter `2` requests the car. Then the confirmation after the payment and the host's rejection
race: the confirmation appends its events first, and the rejection fails at its first event. -/
def sampleRace : List ServerAction :=
  [.begin (.requestBooking 0 (some (sampleVehicle .instant)) 2 sampleDates) true,
    .run 0, .run 0, .run 0, .run 0, .commit 0,
    .begin (.applyPaymentAuthorized 0) true, .begin (.rejectBookingRequest 0 1) true,
    .run 0, .run 0, .run 0, .run 0, .commit 0, .run 0]

theorem bookings_fold_event_log_sampleRace :
    ∃ s row, bookingServer.run {} sampleRace = some s ∧ s.transactions = [] ∧
      s.db.getById 0 = some row ∧ row.status = .confirmed ∧
      (s.db.eventsOf 0).map (·.version) = List.range' 2 (row.version - 1) ∧
      row.status = ((s.db.eventsOf 0).map (·.event)).foldl BookingStatus.after .requested := by
  have hend : (bookingServer.run {} sampleRace).map (fun s =>
      (s.transactions.isEmpty, (s.db.getById 0).map (·.status))) =
        some (true, some .confirmed) := by decide
  obtain ⟨s, hrun, hs⟩ := Option.map_eq_some_iff.mp hend
  obtain ⟨hnone, hs⟩ := Prod.mk.inj hs
  obtain ⟨row, hrow, hstatus⟩ := Option.map_eq_some_iff.mp hs
  have hlog := (bookings_fold_event_log (TransitionSystem.reachable_of_run .init hrun)).1 0 row hrow
  exact ⟨s, row, hrun, List.isEmpty_iff.mp hnone, hrow, hstatus, hlog.1, hlog.2.1⟩

end CarFlow
