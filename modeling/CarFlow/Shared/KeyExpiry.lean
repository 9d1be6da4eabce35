import CarFlow.Shared.Idempotency
import Mathlib.Data.Int.Notation

/-!
# Keys that expire

`run_idempotency_cleanup_loop`: each instance of a service deletes, once in a while, the rows of
`idempotency_keys` that are older than `older_than`. Here the requests of `Shared.Idempotency` run
side by side with any number of such passes.

## The model

* A pass computes its cutoff from the clock, and deletes some time later, or never.
* `created_at` is the time of the transaction that inserts the row, which is when the request was
  looked up, not when the row is committed. Database and services have one clock.

## Implementation notes

A pass has two steps, since the cutoff is computed before the `DELETE` is sent: in between rows may
be inserted, and time passes. The rows that were ever stored are kept in the order of their inserts,
with the time that each was created at, so that two rows of one key can be compared after the first
is gone. A request that has lost the race and then finds no row raises, as in the source, where the
row of the winner is read by `one()`.

## Main results

* `KeysOk.step` — the invariant
* `keys_protect_until_expiry` — **a key is used up for `older_than`**, counted from the start of the
  request that used it: until then its row is found, and no other request inserts the key
-/

namespace CarFlow

/-! ### The steps -/

/-- A row with its `created_at`. -/
structure TimedRow extends IdempotencyRow where
  createdAt : ℤ
  deriving DecidableEq

/-- A request under way. -/
structure TimedRequest extends Running where
  /-- When its transaction began. -/
  started : ℤ
  /-- When it inserted its row. Nothing reads this. -/
  insertedAt : ℤ := started

/-- A row that was committed, and when it had been inserted. -/
structure StoredRow extends TimedRow where
  insertedAt : ℤ
  deriving DecidableEq

/-- A service with a guard and a clock. Nothing reads what has been stored and performed, nor the
answers. -/
structure ExpiringService where
  now : ℤ := 0
  table : List TimedRow := []
  requests : List TimedRequest := []
  /-- The passes that have not deleted yet. -/
  cutoffs : List ℤ := []
  stored : List StoredRow := []
  performed : List (Request × String) := []
  answers : List (Request × Answer) := []

inductive ExpiryAction
  | tick (seconds : ℕ)
  | arrive (request : Request)
  | advance (i : ℕ) (step : RequestStep)
  | commit (i : ℕ)
  | respond (i : ℕ)
  | abort (i : ℕ)
  /-- `purge_expired_idempotency_keys`: the cutoff. -/
  | cutoff
  /-- `purge_expired_idempotency_keys`: the deletion. -/
  | purge (j : ℕ)

/-- What a query for a key reads. -/
def ExpiringService.rows (s : ExpiringService) : List IdempotencyRow :=
  s.table.map (·.toIdempotencyRow)

section Steps

variable (hash : List UInt8 → String) (olderThan : ℤ)

/-- The row that is committed for a request. -/
def TimedRequest.storedRow (t : TimedRequest) (responseBody : String) : StoredRow :=
  { t.request.row hash responseBody with createdAt := t.started, insertedAt := t.insertedAt }

/-- A request gets on. -/
def TimedRequest.at (t : TimedRequest) (now : ℤ) (phase : Phase) : TimedRequest :=
  { t with
    phase
    insertedAt := match phase with
      | .inserted _ => now
      | _ => t.insertedAt }

/-- One step. -/
def expiryStep (s : ExpiringService) : ExpiryAction → Option ExpiringService
  | .tick seconds => some { s with now := s.now + seconds }
  | .arrive request => some { s with
      requests := s.requests ++
        [{ request, phase := guardPhase hash s.rows request, started := s.now }] }
  | .advance i step => do
    let t ← s.requests[i]?
    let phase ← nextPhase hash s.rows ((s.requests.eraseIdx i).map (·.toRunning)) t.toRunning step
    some { s with requests := s.requests.set i (t.at s.now phase) }
  | .commit i => do
    let t ← s.requests[i]?
    match t.phase with
    | .inserted responseBody => some { s with
        table := s.table ++ [(t.storedRow hash responseBody).toTimedRow]
        stored := s.stored ++ [t.storedRow hash responseBody]
        performed := s.performed ++ [(t.request, responseBody)]
        requests := s.requests.set i
          (t.at s.now (.finished (.response responseBody t.request.statusCode))) }
    | .lost responseBody row => some { s with
        performed := s.performed ++ [(t.request, responseBody)]
        requests := s.requests.set i
          (t.at s.now (.finished (.response row.responseBody row.statusCode))) }
    | _ => none
  | .respond i => do
    let t ← s.requests[i]?
    match t.phase with
    | .finished answer => some { s with
        requests := s.requests.eraseIdx i
        answers := s.answers ++ [(t.request, answer)] }
    | _ => none
  | .abort i => do
    let _ ← s.requests[i]?
    some { s with requests := s.requests.eraseIdx i }
  | .cutoff => some { s with cutoffs := s.cutoffs ++ [s.now - olderThan] }
  | .purge j => do
    let cutoff ← s.cutoffs[j]?
    some { s with
      table := s.table.filter fun row => ¬ row.createdAt < cutoff
      cutoffs := s.cutoffs.eraseIdx j }

/-- The service. -/
def expiringService : TransitionSystem ExpiringService ExpiryAction where
  init := {}
  step := expiryStep hash olderThan

end Steps

/-- The ways a step can go. -/
inductive ExpiryStep (hash : List UInt8 → String) (olderThan : ℤ) (s : ExpiringService) :
    ExpiryAction → ExpiringService → Prop
  | ticked (seconds : ℕ) :
      ExpiryStep hash olderThan s (.tick seconds) { s with now := s.now + seconds }
  | arrived (request : Request) : ExpiryStep hash olderThan s (.arrive request) { s with
      requests := s.requests ++
        [{ request, phase := guardPhase hash s.rows request, started := s.now }] }
  | advanced (i : ℕ) (step : RequestStep) (t : TimedRequest) (phase : Phase)
      (hi : s.requests[i]? = some t)
      (hphase : nextPhase hash s.rows ((s.requests.eraseIdx i).map (·.toRunning)) t.toRunning step =
        some phase) :
      ExpiryStep hash olderThan s (.advance i step)
        { s with requests := s.requests.set i (t.at s.now phase) }
  | committed (i : ℕ) (t : TimedRequest) (body : String) (hi : s.requests[i]? = some t)
      (hphase : t.phase = .inserted body) : ExpiryStep hash olderThan s (.commit i) { s with
        table := s.table ++ [(t.storedRow hash body).toTimedRow]
        stored := s.stored ++ [t.storedRow hash body]
        performed := s.performed ++ [(t.request, body)]
        requests := s.requests.set i
          (t.at s.now (.finished (.response body t.request.statusCode))) }
  | committedLost (i : ℕ) (t : TimedRequest) (body : String) (row : IdempotencyRow)
      (hi : s.requests[i]? = some t) (hphase : t.phase = .lost body row) :
      ExpiryStep hash olderThan s (.commit i) { s with
        performed := s.performed ++ [(t.request, body)]
        requests := s.requests.set i
          (t.at s.now (.finished (.response row.responseBody row.statusCode))) }
  | responded (i : ℕ) (t : TimedRequest) (answer : Answer) (hi : s.requests[i]? = some t)
      (hphase : t.phase = .finished answer) : ExpiryStep hash olderThan s (.respond i) { s with
        requests := s.requests.eraseIdx i
        answers := s.answers ++ [(t.request, answer)] }
  | aborted (i : ℕ) :
      ExpiryStep hash olderThan s (.abort i) { s with requests := s.requests.eraseIdx i }
  | cutOff : ExpiryStep hash olderThan s .cutoff
      { s with cutoffs := s.cutoffs ++ [s.now - olderThan] }
  | purged (j : ℕ) (cutoff : ℤ) (hj : s.cutoffs[j]? = some cutoff) :
      ExpiryStep hash olderThan s (.purge j) { s with
        table := s.table.filter fun row => ¬ row.createdAt < cutoff
        cutoffs := s.cutoffs.eraseIdx j }

theorem expiryStep_cases {hash : List UInt8 → String} {olderThan : ℤ} {s s' : ExpiringService}
    {a : ExpiryAction} (h : expiryStep hash olderThan s a = some s') :
    ExpiryStep hash olderThan s a s' := by
  cases a with
  | tick seconds =>
    cases h
    exact .ticked seconds
  | arrive request =>
    cases h
    exact .arrived request
  | advance i step =>
    simp only [expiryStep, Option.bind_eq_bind, Option.bind_eq_some_iff] at h
    obtain ⟨t, hi, phase, hphase, h⟩ := h
    cases h
    exact .advanced i step t phase hi hphase
  | commit i =>
    simp only [expiryStep, Option.bind_eq_bind, Option.bind_eq_some_iff] at h
    obtain ⟨t, hi, h⟩ := h
    split at h
    · rename_i body hphase
      cases h
      exact .committed i t body hi hphase
    · rename_i body row hphase
      cases h
      exact .committedLost i t body row hi hphase
    · cases h
  | respond i =>
    simp only [expiryStep, Option.bind_eq_bind, Option.bind_eq_some_iff] at h
    obtain ⟨t, hi, h⟩ := h
    split at h
    · rename_i answer hphase
      cases h
      exact .responded i t answer hi hphase
    · cases h
  | abort i =>
    simp only [expiryStep, Option.bind_eq_bind, Option.bind_eq_some_iff] at h
    obtain ⟨t, -, h⟩ := h
    cases h
    exact .aborted i
  | cutoff =>
    cases h
    exact .cutOff
  | purge j =>
    simp only [expiryStep, Option.bind_eq_bind, Option.bind_eq_some_iff] at h
    obtain ⟨cutoff, hj, h⟩ := h
    cases h
    exact .purged j cutoff hj

/-! ### The invariant -/

section Invariant

variable {hash : List UInt8 → String} {olderThan : ℤ} {s s' : ExpiringService} {a : ExpiryAction}
  {t u : TimedRequest}

/-- The key of the row was used before, and may be used again by that time. -/
def StoredRow.Over (olderThan : ℤ) (b : StoredRow) (slot : Slot) (time : ℤ) : Prop :=
  b.slot = slot → b.createdAt + olderThan < time

/-- The answer is one that was stored for the same body. -/
def WasStored (hash : List UInt8 → String) (stored : List StoredRow) (request : Request)
    (responseBody : String) (statusCode : ℕ) : Prop :=
  ∃ b ∈ stored, b.slot = request.slot ∧ b.requestHash = hash request.body ∧
    b.responseBody = responseBody ∧ b.statusCode = statusCode

/-- What holds of a request under way. -/
def TimedRequest.Ok (hash : List UInt8 → String) (olderThan : ℤ) (rows : List IdempotencyRow)
    (stored : List StoredRow) (t : TimedRequest) : Prop :=
  match t.phase with
  | .inserted _ => findRow rows t.request.slot = none ∧
    ∀ b ∈ stored, b.Over olderThan t.request.slot t.insertedAt
  | .conflicted _ => ∃ b ∈ stored, b.slot = t.request.slot
  | .lost _ row =>
    WasStored hash stored t.request row.responseBody row.statusCode
  | .finished (.response responseBody statusCode) =>
    WasStored hash stored t.request responseBody statusCode
  | _ => True

/-- **The invariant of the keys.** -/
structure KeysOk (hash : List UInt8 → String) (olderThan : ℤ) (s : ExpiringService) : Prop where
  requests : ProcessFamily (TimedRequest.Ok hash olderThan s.rows s.stored)
    (fun t u => t.toRunning.Apart u.toRunning) s.requests
  slots : (s.rows.map (·.slot)).Nodup
  table : ∀ row ∈ s.table, ∃ b ∈ s.stored, b.toTimedRow = row
  /-- A row is not deleted before its time. -/
  kept : ∀ b ∈ s.stored, s.now ≤ b.createdAt + olderThan → b.toTimedRow ∈ s.table
  cutoffs : ∀ cutoff ∈ s.cutoffs, cutoff + olderThan ≤ s.now
  apart : s.stored.Pairwise fun b b' => b.Over olderThan b'.slot b'.insertedAt
  answers : ∀ x ∈ s.answers, ∀ responseBody statusCode, x.2 = .response responseBody statusCode →
    WasStored hash s.stored x.1 responseBody statusCode

theorem keysOk_init : KeysOk hash olderThan (expiringService hash olderThan).init where
  requests := .nil
  slots := .nil
  table _ h := by cases h
  kept _ h := by cases h
  cutoffs _ h := by cases h
  apart := .nil
  answers _ h := by cases h

/-- What a query finds was stored. -/
theorem KeysOk.stored_of_findRow (h : KeysOk hash olderThan s) {slot : Slot} {row : IdempotencyRow}
    (hrow : findRow s.rows slot = some row) :
    ∃ b ∈ s.stored, b.toIdempotencyRow = row ∧ b.slot = slot := by
  obtain ⟨r, hr, rfl⟩ := List.mem_map.mp (RowTable.mem_of_lookup hrow)
  obtain ⟨b, hb, rfl⟩ := h.table r hr
  exact ⟨b, hb, rfl, RowTable.key_of_lookup hrow⟩

/-- **Until its time a row is found.** -/
theorem KeysOk.findRow (h : KeysOk hash olderThan s) {b : StoredRow} (hb : b ∈ s.stored)
    (hnow : s.now ≤ b.createdAt + olderThan) :
    findRow s.rows b.slot = some b.toIdempotencyRow :=
  (RowTable.lookup_eq_some_iff h.slots).mpr ⟨List.mem_map_of_mem (h.kept b hb hnow), rfl⟩

/-- A key that is not found has had its time. -/
theorem KeysOk.over_of_findRow (h : KeysOk hash olderThan s) {slot : Slot}
    (hnone : CarFlow.findRow s.rows slot = none) : ∀ b ∈ s.stored, b.Over olderThan slot s.now := by
  rintro b hb rfl
  by_contra hnow
  have hfound := h.findRow hb (by omega)
  rw [hnone] at hfound
  cases hfound

theorem WasStored.mono {stored stored' : List StoredRow} {request : Request} {responseBody : String}
    {statusCode : ℕ} (h : WasStored hash stored request responseBody statusCode)
    (hsub : stored ⊆ stored') : WasStored hash stored' request responseBody statusCode := by
  obtain ⟨b, hb, hrest⟩ := h
  exact ⟨b, hsub hb, hrest⟩

theorem KeysOk.wasStored (h : KeysOk hash olderThan s) {request : Request} {row : IdempotencyRow}
    (hrow : CarFlow.findRow s.rows request.slot = some row)
    (hhash : row.requestHash = hash request.body) :
    WasStored hash s.stored request row.responseBody row.statusCode := by
  obtain ⟨b, hb, rfl, hslot⟩ := h.stored_of_findRow hrow
  exact ⟨b, hb, hslot, hhash, rfl, rfl⟩

/-- A request that arrives has found a stored answer, or none. -/
theorem KeysOk.start (h : KeysOk hash olderThan s) (request : Request) (started : ℤ) :
    TimedRequest.Ok hash olderThan s.rows s.stored
      { request, phase := guardPhase hash s.rows request, started } := by
  unfold TimedRequest.Ok guardPhase
  cases hr : CarFlow.findRow s.rows request.slot with
  | none => trivial
  | some row =>
    by_cases hh : row.requestHash = hash request.body
    · simp only [hh, ne_eq, not_true_eq_false, if_false]
      exact h.wasStored hr hh
    · simp [hh, keyReused]

/-- A step of a request keeps what holds of it. -/
theorem KeysOk.next (h : KeysOk hash olderThan s) {others : List Running} {step : RequestStep}
    {phase : Phase} (hphase : nextPhase hash s.rows others t.toRunning step = some phase) :
    TimedRequest.Ok hash olderThan s.rows s.stored (t.at s.now phase) := by
  cases step with
  | build outcome =>
    simp only [nextPhase] at hphase
    split at hphase
    swap
    · cases hphase
    obtain rfl := Option.some.inj hphase
    cases outcome <;> trivial
  | insert =>
    simp only [nextPhase] at hphase
    split at hphase
    swap
    · cases hphase
    split at hphase
    · cases hphase
    split at hphase
    · rename_i hsome
      obtain rfl := Option.some.inj hphase
      obtain ⟨row, hrow⟩ := Option.isSome_iff_exists.mp hsome
      obtain ⟨b, hb, -, hslot⟩ := h.stored_of_findRow hrow
      exact ⟨b, hb, hslot⟩
    · rename_i hnone
      obtain rfl := Option.some.inj hphase
      have hnone := Option.not_isSome_iff_eq_none.mp hnone
      exact ⟨hnone, h.over_of_findRow hnone⟩
  | select =>
    simp only [nextPhase] at hphase
    split at hphase
    swap
    · cases hphase
    obtain rfl := Option.some.inj hphase
    cases hr : CarFlow.findRow s.rows t.request.slot with
    | none => trivial
    | some row =>
      by_cases hh : row.requestHash = hash t.request.body
      · simp only [hh, ne_eq, not_true_eq_false, if_false]
        exact h.wasStored hr hh
      · simp [TimedRequest.Ok, TimedRequest.at, hh, keyReused]

/-- What is stored for another key changes nothing for a request that holds its own. -/
theorem TimedRequest.Ok.mono {rows rows' : List IdempotencyRow} {stored stored' : List StoredRow}
    (h : u.Ok hash olderThan rows stored) (hsub : stored ⊆ stored')
    (hnone : ∀ body, u.phase = .inserted body →
      findRow rows u.request.slot = none → findRow rows' u.request.slot = none)
    (hover : ∀ body, u.phase = .inserted body →
      ∀ b ∈ stored', b ∈ stored ∨ b.slot ≠ u.request.slot) :
    u.Ok hash olderThan rows' stored' := by
  unfold TimedRequest.Ok at h ⊢
  split at h
  · rename_i body hphase
    refine ⟨hnone body hphase h.1, fun b hb hslot => ?_⟩
    rcases hover body hphase b hb with hb | hne
    · exact h.2 b hb hslot
    · exact absurd hslot hne
  · obtain ⟨b, hb, hslot⟩ := h
    exact ⟨b, hsub hb, hslot⟩
  · exact h.mono hsub
  · exact h.mono hsub
  · trivial

/-- The transaction that inserted the key commits. -/
theorem KeysOk.commit_inserted (h : KeysOk hash olderThan s) {i : ℕ} (hi : s.requests[i]? = some t)
    {body : String} (hphase : t.phase = .inserted body) :
    KeysOk hash olderThan { s with
      table := s.table ++ [(t.storedRow hash body).toTimedRow]
      stored := s.stored ++ [t.storedRow hash body]
      performed := s.performed ++ [(t.request, body)]
      requests := s.requests.set i
        (t.at s.now (.finished (.response body t.request.statusCode))) } := by
  have hsymm : ∀ t u : TimedRequest, t.toRunning.Apart u.toRunning →
      u.toRunning.Apart t.toRunning := fun _ _ => Running.Apart.symm
  have hsub : s.stored ⊆ s.stored ++ [t.storedRow hash body] := List.subset_append_left _ _
  have hlast : t.storedRow hash body ∈ s.stored ++ [t.storedRow hash body] :=
    List.mem_append_right _ (List.mem_singleton_self _)
  obtain ⟨hnone, hover⟩ : CarFlow.findRow s.rows t.request.slot = none ∧
      ∀ b ∈ s.stored, b.Over olderThan t.request.slot t.insertedAt := by
    have ht := h.requests.each t (List.mem_of_getElem? hi)
    unfold TimedRequest.Ok at ht
    rwa [hphase] at ht
  have hrows : (s.table ++ [(t.storedRow hash body).toTimedRow]).map (·.toIdempotencyRow) =
      s.rows ++ [t.request.row hash body] := List.map_append
  refine ⟨h.requests.step hsymm hi (fun u hu hok => ?_) ?_ fun u _ _ _ hb => (by cases hb), ?_,
    fun row hrow => ?_, fun b hb hnow => ?_, h.cutoffs, ?_, fun x hx responseBody statusCode hx' =>
      (h.answers x hx responseBody statusCode hx').mono hsub⟩
  · have hne (body' : String) (hphase' : u.phase = .inserted body') :
        (t.request.row hash body).slot ≠ u.request.slot :=
      h.requests.others hsymm hi u hu body body' hphase hphase'
    refine hok.mono hsub (fun body' hphase' hnone' => ?_) fun body' hphase' b hb => ?_
    · show CarFlow.findRow (List.map _ _) _ = none
      rw [hrows, CarFlow.findRow]
      exact (RowTable.lookup_append_of_ne (hne body' hphase')).trans hnone'
    · rcases List.mem_append.mp hb with hb | hb
      · exact .inl hb
      · rw [List.mem_singleton.mp hb]
        exact .inr (hne body' hphase')
  · exact ⟨_, hlast, rfl, rfl, rfl, rfl⟩
  · show ((List.map _ _).map _).Nodup
    rw [hrows, List.map_append]
    refine List.nodup_append.mpr ⟨h.slots, List.nodup_cons.mpr ⟨List.not_mem_nil, .nil⟩,
      fun slot hslot slot' hslot' => ?_⟩
    obtain ⟨row, hrow, rfl⟩ := List.mem_map.mp hslot
    rw [List.mem_singleton.mp hslot']
    exact RowTable.lookup_eq_none_iff.mp hnone row hrow
  · rcases List.mem_append.mp hrow with hrow | hrow
    · obtain ⟨b, hb, hrow⟩ := h.table row hrow
      exact ⟨b, hsub hb, hrow⟩
    · exact ⟨_, hlast, (List.mem_singleton.mp hrow).symm⟩
  · rcases List.mem_append.mp hb with hb | hb
    · exact List.mem_append_left _ (h.kept b hb hnow)
    · rw [List.mem_singleton.mp hb]
      exact List.mem_append_right _ (List.mem_singleton_self _)
  · refine List.pairwise_append.mpr ⟨h.apart, List.pairwise_singleton _ _, fun b hb b' hb' => ?_⟩
    rw [List.mem_singleton.mp hb']
    exact hover b hb

/-- A pass deletes what it may. -/
theorem KeysOk.purge (h : KeysOk hash olderThan s) {j : ℕ} {cutoff : ℤ}
    (hj : s.cutoffs[j]? = some cutoff) :
    KeysOk hash olderThan { s with
      table := s.table.filter fun row => ¬ row.createdAt < cutoff
      cutoffs := s.cutoffs.eraseIdx j } := by
  have hrows : ((s.table.filter fun row => ¬ row.createdAt < cutoff).map
      (·.toIdempotencyRow)).Sublist s.rows := List.filter_sublist.map _
  refine ⟨⟨fun u hu => (h.requests.each u hu).mono (fun _ => id) (fun _ _ hnone => ?_)
      fun _ _ b hb => .inl hb, h.requests.apart⟩,
    (hrows.map _).nodup h.slots, fun row hrow => h.table row (List.mem_of_mem_filter hrow),
    fun b hb hnow => List.mem_filter.mpr ⟨h.kept b hb hnow, ?_⟩,
    fun c hc => h.cutoffs c (ProcessFamily.mem_of_mem_eraseIdx hc), h.apart, h.answers⟩
  · refine RowTable.lookup_eq_none_iff.mpr fun row hrow => ?_
    exact RowTable.lookup_eq_none_iff.mp hnone row (hrows.mem hrow)
  · have hcutoff := h.cutoffs cutoff (List.mem_of_getElem? hj)
    have hnow : s.now ≤ b.createdAt + olderThan := hnow
    simp only [decide_not, Bool.not_eq_true', decide_eq_false_iff_not]
    omega

/-- **Every step keeps the invariant.** -/
theorem KeysOk.step (h : KeysOk hash olderThan s) (hstep : ExpiryStep hash olderThan s a s') :
    KeysOk hash olderThan s' := by
  have hsymm : ∀ t u : TimedRequest, t.toRunning.Apart u.toRunning →
      u.toRunning.Apart t.toRunning := fun _ _ => Running.Apart.symm
  cases hstep with
  | ticked seconds =>
    refine { h with kept := fun b hb hnow => h.kept b hb ?_, cutoffs := fun c hc => ?_ }
    · have hnow : s.now + seconds ≤ b.createdAt + olderThan := hnow
      omega
    · have hcutoff := h.cutoffs c hc
      show c + olderThan ≤ s.now + seconds
      omega
  | arrived request =>
    refine { h with requests := h.requests.start (h.start request s.now)
                      fun u _ body body' _ hb => ?_ }
    simp only [guardPhase] at hb
    split at hb
    · cases hb
    · split at hb <;> cases hb
  | advanced i step t phase hi hphase =>
    have hapart := (Running.Ok.next hphase).2
    exact { h with requests := h.requests.step hsymm hi (fun _ _ hu => hu) (h.next hphase)
                    fun u hu => hapart u.toRunning (List.mem_map_of_mem hu) }
  | committed i t body hi hphase => exact h.commit_inserted hi hphase
  | committedLost i t body row hi hphase =>
    have ht := h.requests.each t (List.mem_of_getElem? hi)
    unfold TimedRequest.Ok at ht
    rw [hphase] at ht
    exact { h with requests := h.requests.step hsymm hi (fun _ _ hu => hu) ht
                    fun u _ _ _ hb => (by cases hb) }
  | responded i t answer hi hphase =>
    refine { h with requests := h.requests.finish i fun _ _ hu => hu, answers := fun x hx => ?_ }
    rcases List.mem_append.mp hx with hx | hx
    · exact h.answers x hx
    · intro responseBody statusCode hanswer
      obtain rfl := List.mem_singleton.mp hx
      have ht := h.requests.each t (List.mem_of_getElem? hi)
      unfold TimedRequest.Ok at ht
      rw [hphase, show answer = _ from hanswer] at ht
      exact ht
  | aborted i => exact { h with requests := h.requests.finish i fun _ _ hu => hu }
  | cutOff =>
    refine { h with cutoffs := List.forall_mem_append.mpr
                      ⟨h.cutoffs, List.forall_mem_singleton.mpr ?_⟩ }
    show s.now - olderThan + olderThan ≤ s.now
    omega
  | purged j cutoff hj => exact h.purge hj

theorem keysOk_of_reachable (h : (expiringService hash olderThan).Reachable s) :
    KeysOk hash olderThan s :=
  h.invariant (KeysOk hash olderThan) keysOk_init fun _ _ _ _ hok hstep =>
    hok.step (expiryStep_cases hstep)

/-- **A key is used up for the time that its row is kept.** In every reachable state: of two stored
rows of one key, the later was inserted after the time of the earlier one; until that time a request
with the key is answered from the row, whatever has happened since; a request that lost the race for
its key and finds no row any more, which fails, comes after that time; and all successful answers
are stored ones, of the same body. -/
theorem keys_protect_until_expiry (h : (expiringService hash olderThan).Reachable s) :
    (s.stored.Pairwise fun first second =>
      first.slot = second.slot → first.createdAt + olderThan < second.insertedAt) ∧
    (∀ b ∈ s.stored, s.now ≤ b.createdAt + olderThan →
      ∀ request, request.slot = b.slot → guardPhase hash s.rows request = .finished
        (if b.requestHash = hash request.body then .response b.responseBody b.statusCode
          else keyReused)) ∧
    (∀ t ∈ s.requests, ∀ body, t.phase = .conflicted body → findRow s.rows t.request.slot = none →
      ∃ b ∈ s.stored, b.slot = t.request.slot ∧ b.createdAt + olderThan < s.now) ∧
    ∀ x ∈ s.answers, ∀ responseBody statusCode, x.2 = .response responseBody statusCode →
      ∃ b ∈ s.stored, b.slot = x.1.slot ∧ b.requestHash = hash x.1.body ∧
        b.responseBody = responseBody ∧ b.statusCode = statusCode := by
  have hok := keysOk_of_reachable h
  refine ⟨hok.apart, fun b hb hnow request hslot => ?_, fun t ht body hphase hnone => ?_,
    hok.answers⟩
  · unfold guardPhase
    rw [hslot, hok.findRow hb hnow]
    by_cases hh : b.requestHash = hash request.body <;> simp [hh]
  · have hok' := hok.requests.each t ht
    unfold TimedRequest.Ok at hok'
    rw [hphase] at hok'
    obtain ⟨b, hb, hslot⟩ := hok'
    exact ⟨b, hb, hslot, hok.over_of_findRow hnone b hb hslot⟩

/-- A key that is used again after a day, when its first row has been deleted. -/
def sampleExpiry : List ExpiryAction :=
  [.arrive sampleRequest, .tick 5, .advance 0 (.build (.returns "first")), .advance 0 .insert,
    .commit 0, .respond 0, .tick 86396, .cutoff, .purge 0, .arrive sampleRequest,
    .advance 0 (.build (.returns "second")), .advance 0 .insert, .commit 0, .respond 0]

theorem keys_protect_until_expiry_sampleExpiry :
    ∃ s, (expiringService (fun _ => "") 86400).run {} sampleExpiry = some s ∧
      s.stored.length = 2 ∧
      s.stored.Pairwise fun first second =>
        first.slot = second.slot → first.createdAt + 86400 < second.insertedAt := by
  have hend : ((expiringService (fun _ => "") 86400).run {} sampleExpiry).map (·.stored.length) =
      some 2 := by decide
  obtain ⟨s, hrun, hs⟩ := Option.map_eq_some_iff.mp hend
  have hreach := TransitionSystem.reachable_of_run .init hrun
  exact ⟨s, hrun, hs, (keys_protect_until_expiry hreach).1⟩

end Invariant

end CarFlow
