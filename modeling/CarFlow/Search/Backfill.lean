import CarFlow.Auth.Service
import CarFlow.Lib.OffsetPages
import CarFlow.Listing.Serial
import CarFlow.Search.Service

/-!
# The backfill of the search index

`services/search/backfill.py`: a job that pages through the approved vehicles of the listing
service and passes each one to `handle_vehicle_event`. Meanwhile listing goes on, one transaction
at a time, and the live consumer applies its events, those of a vehicle in order.

Two writers put documents into the index, neither with a version. The job writes what was on its
page, which may be older than an event that was applied since.

The job makes itself one token before its loop, for five minutes, and sends it with each request.
A request that comes later is answered 401, and `raise_for_status` ends the job there.

## The model

* `list_vehicles` answers from the committed table, once the caller has passed
  `claims_dependency` and `require_role`.
* Nothing but a refused token ends the job early: the connection and the writes to the index hold.
* When the job starts, the index may hold anything: it may be a new one.
* A request comes at any time. The clock is not modelled beyond that.
* `createdAt` is the column `created_at` of each vehicle.

## Implementation notes

`writes` logs what is written to the index, and by whom. No step reads it; that the index is what
these writes have made of the one the job started on is part of `backfill_misses_no_vehicle`, so a
vehicle that counts as passed has been written.

## Main results

* `backfill_misses_no_vehicle` — **the loop ends and no vehicle is missed**, exactly if every
  request comes before the token expires
-/

namespace CarFlow

open OffsetPages

/-- `PAGE_SIZE`. -/
def pageSize : ℕ := 100

/-- `ttl_seconds` of the token of the job. -/
def backfillTtlSeconds : ℤ := 300

/-- `_event_data`, of a vehicle as `_vehicle_response` renders it. -/
def eventData (vehicle : Vehicle) : VehicleSnapshot where
  vehicleId := vehicle.id
  hostId := vehicle.hostId
  make := vehicle.make
  model := vehicle.model
  year := vehicle.year
  dailyPriceCents := vehicle.dailyPriceCents
  dailyMileageLimit := vehicle.dailyMileageLimit
  bookingMode := vehicle.bookingMode
  approvalStatus := vehicle.approvalStatus
  latitude := vehicle.latitude
  longitude := vehicle.longitude

/-- Where `run_backfill` is. -/
inductive BackfillStage
  /-- It has not started. -/
  | idle
  | requesting (offset : ℤ)
  /-- The rest of a page, and its `next_offset`. -/
  | passing (items : List Vehicle) (nextOffset : Option ℤ)
  /-- `raise_for_status` has raised. -/
  | aborted
  | ended
  deriving DecidableEq

/-- Who writes to the index. -/
inductive IndexWriter
  | consumer
  | job
  deriving DecidableEq

/-- The listing service, the index, the live consumer and the job. -/
structure BackfillState where
  db : ListingDb := {}
  /-- The events that the live consumer has applied. -/
  applied : List EventId := []
  index : SearchIndex := fun _ => none
  stage : BackfillStage := .idle
  /-- The `Authorization` header of the job. -/
  authorization : Option String := none
  /-- When the job made its token. Nothing reads this, nor the rest. -/
  mintedAt : ℤ := 0
  /-- The vehicles that were approved when the job started, and the index it started on. -/
  targets : List Uuid := []
  origin : SearchIndex := fun _ => none
  /-- What `handle_vehicle_event` has been called with since then. -/
  writes : List (IndexWriter × VehicleSnapshot) := []
  /-- The number of transactions of the listing service. -/
  operations : ℕ := 0
  /-- The number of steps of the job. -/
  jobSteps : ℕ := 0

/-- The vehicles that the job has passed to `handle_vehicle_event`. -/
def passedIds (writes : List (IndexWriter × VehicleSnapshot)) : List Uuid :=
  (writes.filter (·.1 = .job)).map (·.2.vehicleId)

@[simp] theorem passedIds_consumer (writes : List (IndexWriter × VehicleSnapshot))
    (data : VehicleSnapshot) : passedIds (writes ++ [(.consumer, data)]) = passedIds writes := by
  simp [passedIds]

@[simp] theorem passedIds_job (writes : List (IndexWriter × VehicleSnapshot))
    (data : VehicleSnapshot) :
    passedIds (writes ++ [(.job, data)]) = passedIds writes ++ [data.vehicleId] := by
  simp [passedIds]

theorem mem_passedIds {writes : List (IndexWriter × VehicleSnapshot)} {id : Uuid} :
    id ∈ passedIds writes ↔ ∃ data, (.job, data) ∈ writes ∧ data.vehicleId = id := by
  simp [passedIds]

inductive BackfillAction
  /-- A transaction of the listing service. -/
  | operate (op : ListingOperation)
  /-- The live consumer applies the event at this position. -/
  | apply (i : ℕ)
  /-- The job starts, on an index with this content, and makes a token. -/
  | start (index : SearchIndex) (userId : Uuid) (now : ℤ)
  /-- `client.get`, at a time. -/
  | request (now : ℤ)
  /-- `handle_vehicle_event` for the next item. -/
  | pass
  /-- The page is done. -/
  | turn

/-- The steps of the job, once it has started. -/
def BackfillAction.isJob : BackfillAction → Bool
  | .request _ | .pass | .turn => true
  | _ => false

variable (jwt : PyJwt) (settings : JwtSettings) (createdAt : Uuid → ℤ)

/-- The header of the job. -/
def backfillAuthorization (userId : Uuid) (now : ℤ) : String :=
  "Bearer " ++ createToken jwt userId "admin" .access settings.jwtSecret settings.jwtIssuer
    backfillTtlSeconds now

/-- `GET /listing/vehicles`, as the job asks for it. -/
def getVehicles (db : ListingDb) (authorization : Option String) (now limit offset : ℤ) :
    Except HttpException (Page Vehicle) := do
  let claims ← claimsDependency jwt settings .access authorization now
  requireRole claims ["admin"]
  match listVehicles createdAt db limit offset with
  | none => .error ⟨500, "Internal Server Error"⟩
  | some body => .ok body

def backfillStep (s : BackfillState) : BackfillAction → Option BackfillState
  | .operate op => do
    let db ← s.db.execute op
    some { s with db, operations := s.operations + 1 }
  | .apply i => do
    let row ← s.db.outbox[i]?
    if EarlierClaimed s.db.outbox s.applied i row ∧ row.id ∉ s.applied then
      some { s with
        index := s.index.handleVehicleEvent row.payload.data
        writes := s.writes ++ [(.consumer, row.payload.data)]
        applied := row.id :: s.applied }
    else none
  | .start index userId now =>
    match s.stage with
    | .idle => some { s with
        index
        stage := .requesting 0
        authorization := some (backfillAuthorization jwt settings userId now)
        mintedAt := now
        targets := listedIds createdAt s.db
        origin := index
        writes := [] }
    | _ => none
  | .request now =>
    match s.stage with
    | .requesting offset =>
      match getVehicles jwt settings createdAt s.db s.authorization now pageSize offset with
      | .error _ => some { s with stage := .aborted, jobSteps := s.jobSteps + 1 }
      | .ok body => some { s with
          stage := .passing body.items body.nextOffset
          jobSteps := s.jobSteps + 1 }
    | _ => none
  | .pass =>
    match s.stage with
    | .passing (vehicle :: items) nextOffset => some { s with
        index := s.index.handleVehicleEvent (eventData vehicle)
        writes := s.writes ++ [(.job, eventData vehicle)]
        stage := .passing items nextOffset
        jobSteps := s.jobSteps + 1 }
    | _ => none
  | .turn =>
    match s.stage with
    | .passing [] (some offset) =>
      some { s with stage := .requesting offset, jobSteps := s.jobSteps + 1 }
    | .passing [] none => some { s with stage := .ended, jobSteps := s.jobSteps + 1 }
    | _ => none

/-- The job, beside the listing service and the live consumer. -/
def backfill : TransitionSystem BackfillState BackfillAction where
  init := {}
  step := backfillStep jwt settings createdAt

/-- The ways a step can go. -/
inductive BackfillMove (s : BackfillState) : BackfillAction → BackfillState → Prop
  | operated (op : ListingOperation) (w : ListingWrites) (db : ListingDb)
      (h : Executed s.db op w db) :
      BackfillMove s (.operate op) { s with db, operations := s.operations + 1 }
  | applied (i : ℕ) (row : OutboxRow ListingMessage) (hi : s.db.outbox[i]? = some row)
      (hearlier : EarlierClaimed s.db.outbox s.applied i row) (hnew : row.id ∉ s.applied) :
      BackfillMove s (.apply i) { s with
        index := s.index.handleVehicleEvent row.payload.data
        writes := s.writes ++ [(.consumer, row.payload.data)]
        applied := row.id :: s.applied }
  | started (index : SearchIndex) (userId : Uuid) (now : ℤ) (hstage : s.stage = .idle) :
      BackfillMove s (.start index userId now) { s with
        index
        stage := .requesting 0
        authorization := some (backfillAuthorization jwt settings userId now)
        mintedAt := now
        targets := listedIds createdAt s.db
        origin := index
        writes := [] }
  | refused (now offset : ℤ) (e : HttpException) (hstage : s.stage = .requesting offset)
      (hbody : getVehicles jwt settings createdAt s.db s.authorization now pageSize offset =
        .error e) :
      BackfillMove s (.request now) { s with stage := .aborted, jobSteps := s.jobSteps + 1 }
  | requested (now offset : ℤ) (body : Page Vehicle) (hstage : s.stage = .requesting offset)
      (hbody : getVehicles jwt settings createdAt s.db s.authorization now pageSize offset =
        .ok body) :
      BackfillMove s (.request now) { s with
        stage := .passing body.items body.nextOffset
        jobSteps := s.jobSteps + 1 }
  | passed (vehicle : Vehicle) (items : List Vehicle) (nextOffset : Option ℤ)
      (hstage : s.stage = .passing (vehicle :: items) nextOffset) :
      BackfillMove s .pass { s with
        index := s.index.handleVehicleEvent (eventData vehicle)
        writes := s.writes ++ [(.job, eventData vehicle)]
        stage := .passing items nextOffset
        jobSteps := s.jobSteps + 1 }
  | turned (offset : ℤ) (hstage : s.stage = .passing [] (some offset)) :
      BackfillMove s .turn { s with stage := .requesting offset, jobSteps := s.jobSteps + 1 }
  | ended (hstage : s.stage = .passing [] none) :
      BackfillMove s .turn { s with stage := .ended, jobSteps := s.jobSteps + 1 }

section Moves

variable {jwt settings createdAt} {s s' : BackfillState} {a : BackfillAction}

theorem backfillStep_cases (h : backfillStep jwt settings createdAt s a = some s') :
    BackfillMove jwt settings createdAt s a s' := by
  cases a with
  | operate op =>
    simp only [backfillStep, Option.bind_eq_bind, Option.bind_eq_some_iff, Option.some.injEq] at h
    obtain ⟨db, hexecute, rfl⟩ := h
    obtain ⟨w, hw⟩ := execute_cases hexecute
    exact .operated op w db hw
  | apply i =>
    simp only [backfillStep, Option.bind_eq_bind, Option.bind_eq_some_iff,
      Option.ite_none_right_eq_some, Option.some.injEq] at h
    obtain ⟨row, hi, ⟨hearlier, hnew⟩, rfl⟩ := h
    exact .applied i row hi hearlier hnew
  | start index userId now =>
    simp only [backfillStep] at h
    split at h
    · rename_i hstage
      cases h
      exact .started index userId now hstage
    · cases h
  | request now =>
    simp only [backfillStep] at h
    split at h
    swap
    · cases h
    rename_i offset hstage
    split at h
    · rename_i e hbody
      cases h
      exact .refused now offset e hstage hbody
    · rename_i body hbody
      cases h
      exact .requested now offset body hstage hbody
  | pass =>
    simp only [backfillStep] at h
    split at h
    · rename_i vehicle items nextOffset hstage
      cases h
      exact .passed vehicle items nextOffset hstage
    · cases h
  | turn =>
    simp only [backfillStep] at h
    split at h
    · rename_i offset hstage
      cases h
      exact .turned offset hstage
    · rename_i hstage
      cases h
      exact .ended hstage
    · cases h

end Moves

/-! ### The token of the job

One token for all requests, which listing accepts until it expires. -/

section Token

variable {jwt settings createdAt} {db : ListingDb} {limit offset now mintedAt : ℤ} {userId : Uuid}
  {body : Page Vehicle}

theorem listVehicles_of_getVehicles {authorization : Option String}
    (h : getVehicles jwt settings createdAt db authorization now limit offset = .ok body) :
    listVehicles createdAt db limit offset = some body := by
  simp only [getVehicles, Except.bind_eq_ok_iff] at h
  obtain ⟨_, -, _, -, h⟩ := h
  split at h
  · cases h
  · rename_i found hfound
    exact hfound.trans (congrArg some (Except.ok.inj h))

/-- The token of the job passes exactly until it expires. -/
theorem claimsDependency_backfill_iff (hjwt : jwt.Correct) {claims : TokenClaims} :
    claimsDependency jwt settings .access
        (some (backfillAuthorization jwt settings userId mintedAt)) now = .ok claims ↔
      claims = tokenClaims userId "admin" .access settings.jwtIssuer backfillTtlSeconds mintedAt ∧
        now < mintedAt + backfillTtlSeconds := by
  rw [claimsDependency_ok_iff, backfillAuthorization, bearerToken_bearer]
  simp only [Except.ok.injEq, exists_eq_left', hjwt.decodeToken_iff]
  constructor
  · rintro ⟨⟨hencode, hiss, hexp⟩, -⟩
    have hclaims : claims = tokenClaims userId "admin" .access settings.jwtIssuer
        backfillTtlSeconds mintedAt := hjwt.encode_inj hiss hencode
    subst hclaims
    exact ⟨rfl, hexp⟩
  · rintro ⟨rfl, hexp⟩
    exact ⟨⟨rfl, rfl, hexp⟩, rfl⟩

/-- **A page is refused exactly once the token has expired.** -/
theorem getVehicles_ok_iff (hjwt : jwt.Correct)
    (hlist : listVehicles createdAt db limit offset = some body) :
    getVehicles jwt settings createdAt db
        (some (backfillAuthorization jwt settings userId mintedAt)) now limit offset = .ok body ↔
      now < mintedAt + backfillTtlSeconds := by
  simp only [getVehicles, Except.bind_eq_ok_iff, claimsDependency_backfill_iff hjwt, hlist]
  constructor
  · rintro ⟨_, ⟨-, hnow⟩, -⟩
    exact hnow
  · intro hnow
    exact ⟨_, ⟨rfl, hnow⟩, (), requireRole_ok_iff.mpr List.mem_cons_self, trivial⟩

/-- **A request of the job** gets its page, or aborts the job if the token has expired. -/
theorem backfillStep_request (hjwt : jwt.Correct) {s : BackfillState} {offset : ℤ}
    (hstage : s.stage = .requesting offset)
    (hheader : s.authorization = some (backfillAuthorization jwt settings userId s.mintedAt))
    (hlist : listVehicles createdAt s.db pageSize offset = some body) (now : ℤ) :
    (backfill jwt settings createdAt).step s (.request now) =
      some (if now < s.mintedAt + backfillTtlSeconds then { s with
        stage := .passing body.items body.nextOffset
        jobSteps := s.jobSteps + 1 }
      else { s with stage := .aborted, jobSteps := s.jobSteps + 1 }) := by
  have hok : getVehicles jwt settings createdAt s.db
      (some (backfillAuthorization jwt settings userId s.mintedAt)) now pageSize offset =
        .ok body ↔ now < s.mintedAt + backfillTtlSeconds := getVehicles_ok_iff hjwt hlist
  simp only [backfill, backfillStep, hstage, hheader]
  split
  · rename_i e he
    rw [he] at hok
    rw [if_neg fun hnow => by cases hok.mpr hnow]
  · rename_i body' hbody
    obtain rfl := Option.some.inj (hlist.symm.trans (listVehicles_of_getVehicles hbody))
    rw [if_pos (hok.mp hbody)]

end Token

/-! ### No vehicle is missed

Pages are cut at offsets of a list that grows at any place. A vehicle that was approved at the start
can only move to later places, so it is on the page it was on or on one that is still to come. -/

/-- How far the job is: what is still ahead of it, and what it has cost. A page takes one step to
request, one for each item, and one to turn. -/
inductive JobOk (s : BackfillState) : BackfillStage → Prop
  | idle (hpassed : passedIds s.writes = []) (hsteps : s.jobSteps = 0) : JobOk s .idle
  | requesting (k : ℕ) (hsteps : s.jobSteps ≤ k * (pageSize + 2))
      (hpages : k * pageSize ≤ s.operations)
      (hahead : Ahead (listedIds createdAt s.db) (k * pageSize) (passedIds s.writes) s.targets) :
      JobOk s (.requesting (k * pageSize : ℕ))
  | passing (k : ℕ) (items : List Vehicle)
      (hsteps : s.jobSteps + items.length + 1 ≤ (k + 1) * (pageSize + 2))
      (hpages : (k + 1) * pageSize ≤ s.operations)
      (hahead : Ahead (listedIds createdAt s.db) ((k + 1) * pageSize)
        (passedIds s.writes ++ items.map Vehicle.id) s.targets) :
      JobOk s (.passing items (some ((k + 1) * pageSize : ℕ)))
  | last (k : ℕ) (items : List Vehicle)
      (hsteps : s.jobSteps + items.length + 1 ≤ (k + 1) * (pageSize + 2))
      (hpages : k * pageSize ≤ s.operations)
      (hseen : ∀ id ∈ s.targets, id ∈ passedIds s.writes ++ items.map Vehicle.id) :
      JobOk s (.passing items none)
  | aborted (k : ℕ) (hsteps : s.jobSteps ≤ (k + 1) * (pageSize + 2))
      (hpages : k * pageSize ≤ s.operations) : JobOk s .aborted
  | ended (k : ℕ) (hsteps : s.jobSteps ≤ (k + 1) * (pageSize + 2))
      (hpages : k * pageSize ≤ s.operations) (hseen : ∀ id ∈ s.targets, id ∈ passedIds s.writes) :
      JobOk s .ended

/-- What holds of every reachable state. -/
structure BackfillOk (s : BackfillState) : Prop where
  ids : (s.db.vehicles.map Vehicle.id).Nodup
  length : s.db.vehicles.length ≤ s.operations
  /-- The header of a job that has started is that of its one token. -/
  token : s.stage ≠ .idle → ∃ userId,
    s.authorization = some (backfillAuthorization jwt settings userId s.mintedAt)
  job : JobOk createdAt s s.stage

section Job

variable {createdAt} {s s' : BackfillState} {a : BackfillAction} {stage : BackfillStage}

/-- The job does not notice a transaction, except that the list grows. -/
theorem JobOk.grow (h : JobOk createdAt s stage) {db : ListingDb}
    (hgrow : (listedIds createdAt s.db).Sublist (listedIds createdAt db)) :
    JobOk createdAt { s with db, operations := s.operations + 1 } stage := by
  cases h with
  | idle hpassed hsteps => exact .idle hpassed hsteps
  | requesting k hsteps hpages hahead =>
    exact .requesting k hsteps (Nat.le_succ_of_le hpages) (hahead.grow hgrow)
  | passing k items hsteps hpages hahead =>
    exact .passing k items hsteps (Nat.le_succ_of_le hpages) (hahead.grow hgrow)
  | last k items hsteps hpages hseen =>
    exact .last k items hsteps (Nat.le_succ_of_le hpages) hseen
  | aborted k hsteps hpages => exact .aborted k hsteps (Nat.le_succ_of_le hpages)
  | ended k hsteps hpages hseen => exact .ended k hsteps (Nat.le_succ_of_le hpages) hseen

/-- Nor does it notice what the live consumer writes. -/
theorem JobOk.consumed (h : JobOk createdAt s stage) (index : SearchIndex) (data : VehicleSnapshot)
    (applied : List EventId) :
    JobOk createdAt { s with index, writes := s.writes ++ [(.consumer, data)], applied } stage := by
  have hpassed := passedIds_consumer s.writes data
  cases h with
  | idle hnil hsteps => exact .idle (hpassed.trans hnil) hsteps
  | requesting k hsteps hpages hahead =>
    exact .requesting k hsteps hpages (by simpa only [hpassed] using hahead)
  | passing k items hsteps hpages hahead =>
    exact .passing k items hsteps hpages (by simpa only [hpassed] using hahead)
  | last k items hsteps hpages hseen =>
    exact .last k items hsteps hpages (by simpa only [hpassed] using hseen)
  | aborted k hsteps hpages => exact .aborted k hsteps hpages
  | ended k hsteps hpages hseen =>
    exact .ended k hsteps hpages (by simpa only [hpassed] using hseen)

/-- The response to a request of the job. -/
theorem listVehicles_eq (db : ListingDb) (offset : ℕ) :
    listVehicles createdAt db pageSize offset = some {
      items := ((listApproved createdAt db).drop offset).take pageSize
      nextOffset := if offset + pageSize < (listApproved createdAt db).length
        then some ((offset + pageSize : ℕ) : ℤ) else none } :=
  page_eq _ _ _

/-- A page is requested. -/
theorem JobOk.request (h : JobOk createdAt s s.stage)
    (hlength : s.db.vehicles.length ≤ s.operations) {offset : ℤ} {body : Page Vehicle}
    (hstage : s.stage = .requesting offset)
    (hbody : listVehicles createdAt s.db pageSize offset = some body) :
    JobOk createdAt { s with
      stage := .passing body.items body.nextOffset
      jobSteps := s.jobSteps + 1 } (.passing body.items body.nextOffset) := by
  rw [hstage] at h
  cases h with
  | requesting k hsteps hpages hahead =>
    rw [listVehicles_eq] at hbody
    obtain rfl := Option.some.inj hbody
    dsimp only
    have hk : k * pageSize + pageSize = (k + 1) * pageSize := (Nat.succ_mul k pageSize).symm
    have hitems : (((listApproved createdAt s.db).drop (k * pageSize)).take pageSize).length
        ≤ pageSize := List.length_take_le ..
    have hsteps : s.jobSteps + 1 +
        (((listApproved createdAt s.db).drop (k * pageSize)).take pageSize).length + 1
        ≤ (k + 1) * (pageSize + 2) := by
      rw [Nat.succ_mul k (pageSize + 2)]
      omega
    have hturn := hahead.turn pageSize
    rw [hk] at hturn ⊢
    split
    · rename_i hmore
      refine .passing k _ hsteps ?_ ?_
      · exact (hmore.le.trans length_listApproved_le).trans hlength
      · rw [List.map_take, List.map_drop]
        exact hturn
    · rename_i hend
      refine .last k _ hsteps hpages ?_
      rw [List.map_take, List.map_drop]
      refine hturn.last ?_
      rw [listedIds, List.length_map]
      exact Nat.not_lt.mp hend

/-- A page is refused. -/
theorem JobOk.refuse (h : JobOk createdAt s s.stage) {offset : ℤ}
    (hstage : s.stage = .requesting offset) :
    JobOk createdAt { s with stage := .aborted, jobSteps := s.jobSteps + 1 } .aborted := by
  rw [hstage] at h
  cases h with
  | requesting k hsteps hpages =>
    refine .aborted k ?_ hpages
    rw [Nat.succ_mul]
    show s.jobSteps + 1 ≤ _
    omega

/-- An item is passed. -/
theorem JobOk.pass (h : JobOk createdAt s s.stage) {vehicle : Vehicle} {items : List Vehicle}
    {nextOffset : Option ℤ} (hstage : s.stage = .passing (vehicle :: items) nextOffset) :
    JobOk createdAt { s with
      index := s.index.handleVehicleEvent (eventData vehicle)
      writes := s.writes ++ [(.job, eventData vehicle)]
      stage := .passing items nextOffset
      jobSteps := s.jobSteps + 1 } (.passing items nextOffset) := by
  rw [hstage] at h
  have hsplit : passedIds s.writes ++ (vehicle :: items).map Vehicle.id =
      passedIds (s.writes ++ [(.job, eventData vehicle)]) ++ items.map Vehicle.id := by
    simp [eventData]
  cases h with
  | passing k _ hsteps hpages hahead =>
    rw [hsplit] at hahead
    refine .passing k items ?_ hpages hahead
    simp only [List.length_cons] at hsteps
    show s.jobSteps + 1 + items.length + 1 ≤ _
    omega
  | last k _ hsteps hpages hseen =>
    rw [hsplit] at hseen
    refine .last k items ?_ hpages hseen
    simp only [List.length_cons] at hsteps
    show s.jobSteps + 1 + items.length + 1 ≤ _
    omega

theorem BackfillOk.step (hs : BackfillOk jwt settings createdAt s)
    (h : BackfillMove jwt settings createdAt s a s') : BackfillOk jwt settings createdAt s' := by
  have hjob := hs.job
  have htoken {offset : ℤ} (hstage : s.stage = .requesting offset) := hs.token (by simp [hstage])
  have htoken' {items : List Vehicle} {nextOffset : Option ℤ}
      (hstage : s.stage = .passing items nextOffset) := hs.token (by simp [hstage])
  cases h with
  | operated op w db hw =>
    exact ⟨hw.ids hs.ids, hw.length.trans (Nat.succ_le_succ hs.length), hs.token,
      hjob.grow (listedIds_execute hs.ids hw)⟩
  | applied i row hi hearlier hnew =>
    exact ⟨hs.ids, hs.length, hs.token, hjob.consumed _ _ _⟩
  | started index userId now hstage =>
    rw [hstage] at hjob
    cases hjob with
    | idle _ hsteps =>
      refine ⟨hs.ids, hs.length, fun _ => ⟨userId, rfl⟩, .requesting 0 ?_ ?_ ?_⟩
      · rw [Nat.zero_mul]
        exact hsteps.le
      · rw [Nat.zero_mul]
        exact Nat.zero_le _
      · rw [Nat.zero_mul]
        exact .start _
  | refused now offset e hstage hbody =>
    exact ⟨hs.ids, hs.length, fun _ => htoken hstage, hjob.refuse hstage⟩
  | requested now offset body hstage hbody =>
    exact ⟨hs.ids, hs.length, fun _ => htoken hstage,
      hjob.request hs.length hstage (listVehicles_of_getVehicles hbody)⟩
  | passed vehicle items nextOffset hstage =>
    exact ⟨hs.ids, hs.length, fun _ => htoken' hstage, hjob.pass hstage⟩
  | turned offset hstage =>
    refine ⟨hs.ids, hs.length, fun _ => htoken' hstage, ?_⟩
    rw [hstage] at hjob
    cases hjob with
    | passing k _ hsteps hpages hahead =>
      rw [List.map_nil, List.append_nil] at hahead
      exact .requesting (k + 1) hsteps hpages hahead
  | ended hstage =>
    refine ⟨hs.ids, hs.length, fun _ => htoken' hstage, ?_⟩
    rw [hstage] at hjob
    cases hjob with
    | last k _ hsteps hpages hseen =>
      rw [List.map_nil, List.append_nil] at hseen
      exact .ended k hsteps hpages hseen

variable {jwt settings}

theorem backfillOk_of_reachable (h : (backfill jwt settings createdAt).Reachable s) :
    BackfillOk jwt settings createdAt s :=
  h.invariant _ ⟨.nil, le_rfl, fun hidle => absurd rfl hidle, .idle rfl rfl⟩
    fun _ _ _ _ hs hstep => hs.step jwt settings (backfillStep_cases hstep)

/-- The number of pages is bounded by the number of vehicles there ever are. -/
theorem JobOk.steps_le (h : JobOk createdAt s stage) :
    s.jobSteps ≤ (s.operations / pageSize + 1) * (pageSize + 2) := by
  have hpos : 0 < pageSize := Nat.succ_pos _
  have hbound : ∀ k, k * pageSize ≤ s.operations →
      (k + 1) * (pageSize + 2) ≤ (s.operations / pageSize + 1) * (pageSize + 2) := fun k hk =>
    Nat.mul_le_mul_right _ (Nat.succ_le_succ ((Nat.le_div_iff_mul_le hpos).mpr hk))
  cases h with
  | idle _ hsteps =>
    rw [hsteps]
    exact Nat.zero_le _
  | requesting k hsteps hpages =>
    exact hsteps.trans ((Nat.mul_le_mul_right _ (Nat.le_succ k)).trans (hbound k hpages))
  | passing k items hsteps hpages =>
    have hle := hbound k ((Nat.mul_le_mul_right _ (Nat.le_succ k)).trans hpages)
    omega
  | last k items hsteps hpages =>
    have hle := hbound k hpages
    omega
  | aborted k hsteps hpages => exact hsteps.trans (hbound k hpages)
  | ended k hsteps hpages => exact hsteps.trans (hbound k hpages)

/-! ### What is written

The index is compared with the writes that were made since the start, in order. -/

/-- What the writes make of an index. -/
def SearchIndex.replay (index : SearchIndex) (writes : List (IndexWriter × VehicleSnapshot)) :
    SearchIndex :=
  (writes.map Prod.snd).foldl SearchIndex.handleVehicleEvent index

theorem SearchIndex.replay_concat (index : SearchIndex)
    (writes : List (IndexWriter × VehicleSnapshot)) (w : IndexWriter × VehicleSnapshot) :
    index.replay (writes ++ [w]) = (index.replay writes).handleVehicleEvent w.2 := by
  rw [replay, List.map_append, List.map_singleton, List.foldl_concat]
  rfl

/-- The index is what the writes have made of it, and the job writes approved vehicles. -/
structure WritesOk (s : BackfillState) : Prop where
  index : s.index = s.origin.replay s.writes
  items : ∀ items nextOffset, s.stage = .passing items nextOffset →
    ∀ vehicle ∈ items, vehicle.approvalStatus = .approved
  job : ∀ data, (.job, data) ∈ s.writes → data.approvalStatus = .approved

theorem WritesOk.step (hs : WritesOk s) (h : BackfillMove jwt settings createdAt s a s') :
    WritesOk s' := by
  cases h with
  | operated op w db hw => exact { hs with }
  | applied i row hi hearlier hnew =>
    refine { hs with index := ?_, job := fun data hdata => ?_ }
    · rw [SearchIndex.replay_concat, ← hs.index]
    · exact hs.job data (by simpa using hdata)
  | started index userId now hstage =>
    exact ⟨rfl, nofun, fun _ hdata => absurd hdata List.not_mem_nil⟩
  | refused now offset e hstage hbody => exact { hs with items := nofun }
  | requested now offset body hstage hbody =>
    refine { hs with items := fun items nextOffset hpassing vehicle hvehicle => ?_ }
    cases hpassing
    exact (mem_listApproved.mp
      (mem_of_mem_page (listVehicles_of_getVehicles hbody) hvehicle)).2
  | passed vehicle items nextOffset hstage =>
    have hitems := hs.items _ _ hstage
    refine ⟨?_, fun items' nextOffset' hpassing vehicle' hvehicle' => ?_, fun data hdata => ?_⟩
    · rw [SearchIndex.replay_concat, ← hs.index]
    · cases hpassing
      exact hitems vehicle' (List.mem_cons_of_mem _ hvehicle')
    · rcases List.mem_append.mp hdata with hdata | hdata
      · exact hs.job data hdata
      · cases List.mem_singleton.mp hdata
        exact hitems vehicle List.mem_cons_self
  | turned offset hstage => exact { hs with items := nofun }
  | ended hstage => exact { hs with items := nofun }

theorem writesOk_of_reachable (h : (backfill jwt settings createdAt).Reachable s) : WritesOk s :=
  h.invariant _ ⟨rfl, nofun, fun _ hdata => absurd hdata List.not_mem_nil⟩
    fun _ _ _ _ hs hstep => hs.step (backfillStep_cases hstep)

/-- What a job has started from does not change. -/
theorem BackfillMove.start_kept (h : BackfillMove jwt settings createdAt s a s')
    (hstage : s.stage ≠ .idle) :
    s'.stage ≠ .idle ∧ s'.targets = s.targets ∧ s'.origin = s.origin := by
  cases h with
  | operated | applied => exact ⟨hstage, rfl, rfl⟩
  | started _ _ _ hidle => exact absurd hidle hstage
  | refused | requested | passed | turned | ended => exact ⟨nofun, rfl, rfl⟩

/-- **What the job started from**: the vehicles that were approved then, and the index. -/
theorem started_from {run : List (BackfillState × BackfillAction)}
    (h : (backfill jwt settings createdAt).Exec (backfill jwt settings createdAt).init run s)
    {x : BackfillState × BackfillAction} (hx : x ∈ run) {index : SearchIndex} {userId : Uuid}
    {now : ℤ} (hstart : x.2 = .start index userId now) :
    s.stage ≠ .idle ∧ s.origin = index ∧ ∀ id, id ∈ s.targets ↔
      ∃ row, x.1.db.getById id = some row ∧ row.approvalStatus = .approved := by
  induction h with
  | nil => exact absurd hx List.not_mem_nil
  | snoc hexec hstep ih =>
    have hmove := backfillStep_cases hstep
    rcases List.mem_append.mp hx with hx | hx
    · obtain ⟨hstage, horigin, htargets⟩ := ih hx
      obtain ⟨hstage', htargets', horigin'⟩ := hmove.start_kept hstage
      exact ⟨hstage', horigin'.trans horigin, fun id => htargets' ▸ htargets id⟩
    · cases List.mem_singleton.mp hx
      cases hstart
      cases hmove with
      | started =>
        exact ⟨nofun, rfl,
          fun id => mem_listedIds_iff (backfillOk_of_reachable hexec.reachable).ids⟩

/-! ### The whole job

In a run whose requests are all accepted the job comes to its end, and by then it has passed all. -/

/-- The token of the job has not expired when a page is requested. -/
def InTime (s : BackfillState) : BackfillAction → Prop
  | .request now => now < s.mintedAt + backfillTtlSeconds
  | _ => True

instance (s : BackfillState) : (a : BackfillAction) → Decidable (InTime s a)
  | .request now => inferInstanceAs (Decidable (now < s.mintedAt + backfillTtlSeconds))
  | .operate _ | .apply _ | .start .. | .pass | .turn => isTrue True.intro

variable (jwt settings createdAt) in
/-- **The loop ends, and no vehicle is missed.** -/
structure MissesNone (s : BackfillState) : Prop where
  /-- No exception has ended the job. -/
  unraised : s.stage ≠ .aborted
  /-- It takes no more steps than the number of transactions allows ... -/
  bounded : s.jobSteps ≤ (s.operations / pageSize + 1) * (pageSize + 2)
  /-- ... and it can always take one until it has ended. -/
  enabled : s.stage ≠ .idle → s.stage ≠ .ended → ∃ a, a.isJob = true ∧ InTime s a ∧
    ((backfill jwt settings createdAt).step s a).isSome
  /-- Then every vehicle that was approved at its start has been passed to
  `handle_vehicle_event`, as an approved one. -/
  passed : s.stage = .ended → ∀ id ∈ s.targets, ∃ data, (.job, data) ∈ s.writes ∧
    data.vehicleId = id ∧ data.approvalStatus = .approved

/-- A job that has started and not ended can take a step. -/
theorem exists_jobStep (hidle : s.stage ≠ .idle) (hended : s.stage ≠ .ended)
    (haborted : s.stage ≠ .aborted) :
    ∃ a, a.isJob = true ∧ InTime s a ∧ ((backfill jwt settings createdAt).step s a).isSome := by
  cases hstage : s.stage with
  | idle => exact absurd hstage hidle
  | ended => exact absurd hstage hended
  | aborted => exact absurd hstage haborted
  | requesting offset =>
    refine ⟨.request s.mintedAt, rfl, Int.lt_add_of_pos_right _ (by decide), ?_⟩
    simp only [backfill, backfillStep, hstage]
    split <;> rfl
  | passing items nextOffset =>
    cases items with
    | cons vehicle items =>
      refine ⟨.pass, rfl, True.intro, ?_⟩
      simp [backfill, backfillStep, hstage]
    | nil =>
      refine ⟨.turn, rfl, True.intro, ?_⟩
      cases nextOffset <;> simp [backfill, backfillStep, hstage]

/-- A job that has not been aborted misses nothing. -/
theorem missesNone_iff (hs : BackfillOk jwt settings createdAt s) (hw : WritesOk s) :
    MissesNone jwt settings createdAt s ↔ s.stage ≠ .aborted := by
  refine ⟨MissesNone.unraised, fun haborted => ⟨haborted, hs.job.steps_le,
    fun hidle hended => exists_jobStep hidle hended haborted, fun hstage id hid => ?_⟩⟩
  have hjob := hs.job
  rw [hstage] at hjob
  cases hjob with
  | ended k hsteps hpages hseen =>
    obtain ⟨data, hdata, hvehicle⟩ := mem_passedIds.mp (hseen id hid)
    exact ⟨data, hdata, hvehicle, hw.job data hdata⟩

/-- **A step aborts the job exactly if it is a request that comes too late.** -/
theorem unaborted_step_iff (hjwt : jwt.Correct) (hs : BackfillOk jwt settings createdAt s)
    (haborted : s.stage ≠ .aborted) (h : BackfillMove jwt settings createdAt s a s') :
    s'.stage ≠ .aborted ↔ InTime s a := by
  have hanswer {offset now : ℤ} (hstage : s.stage = .requesting offset) :
      (∃ body, getVehicles jwt settings createdAt s.db s.authorization now pageSize offset =
        .ok body) ↔ InTime s (.request now) := by
    obtain ⟨userId, hheader⟩ := hs.token (by simp [hstage])
    obtain ⟨body, hlist⟩ : ∃ body, listVehicles createdAt s.db pageSize offset = some body := by
      have hjob := hs.job
      rw [hstage] at hjob
      cases hjob with
      | requesting k => exact ⟨_, listVehicles_eq _ _⟩
    rw [hheader]
    constructor
    · rintro ⟨body', hok⟩
      obtain rfl := Option.some.inj (hlist.symm.trans (listVehicles_of_getVehicles hok))
      exact (getVehicles_ok_iff hjwt hlist).mp hok
    · exact fun hnow => ⟨body, (getVehicles_ok_iff hjwt hlist).mpr hnow⟩
  cases h with
  | operated | applied => exact iff_of_true haborted True.intro
  | started | passed | turned | ended => exact iff_of_true nofun True.intro
  | refused now offset e hstage hbody =>
    refine iff_of_false (fun hne => hne rfl) fun hnow => ?_
    obtain ⟨body, hok⟩ := (hanswer hstage).mpr hnow
    cases hbody.symm.trans hok
  | requested now offset body hstage hbody =>
    exact iff_of_true nofun ((hanswer hstage).mp ⟨body, hbody⟩)

/-- The job passes all that it has in hand. -/
theorem exists_pass_all (h : (backfill jwt settings createdAt).Reachable s) {items : List Vehicle}
    {nextOffset : Option ℤ} (hstage : s.stage = .passing items nextOffset) :
    ∃ s', (backfill jwt settings createdAt).Reachable s' ∧ s'.stage = .passing [] nextOffset ∧
      passedIds s'.writes = passedIds s.writes ++ items.map Vehicle.id ∧
      s'.targets = s.targets ∧ s'.mintedAt = s.mintedAt := by
  induction items generalizing s with
  | nil => exact ⟨s, h, hstage, by simp, rfl, rfl⟩
  | cons vehicle items ih =>
    have hstep : (backfill jwt settings createdAt).step s .pass = some { s with
        index := s.index.handleVehicleEvent (eventData vehicle)
        writes := s.writes ++ [(.job, eventData vehicle)]
        stage := .passing items nextOffset
        jobSteps := s.jobSteps + 1 } := by
      simp [backfill, backfillStep, hstage]
    obtain ⟨s', hreach, hstage', hpassed, htargets, hminted⟩ := ih (.step h hstep) rfl
    exact ⟨s', hreach, hstage', by rw [hpassed]; simp [eventData], htargets, hminted⟩

/-- **The loop ends, and no vehicle is missed**, throughout a run, exactly if every page is
requested before the token of the job expires. The vehicles are those that were approved when the
job started, and to be passed is to be written: the index is what the writes since then have made of
it. -/
theorem backfill_misses_no_vehicle (hjwt : jwt.Correct)
    {run : List (BackfillState × BackfillAction)}
    (h : (backfill jwt settings createdAt).Exec (backfill jwt settings createdAt).init run s) :
    (TransitionSystem.Throughout (MissesNone jwt settings createdAt) run s ↔
      ∀ x ∈ run, InTime x.1 x.2) ∧
    ∀ x ∈ run, ∀ index userId now, x.2 = .start index userId now →
      (∀ id, id ∈ s.targets ↔
        ∃ row, x.1.db.getById id = some row ∧ row.approvalStatus = .approved) ∧
      s.index = index.replay s.writes := by
  constructor
  · refine h.forall_iff (MissesNone jwt settings createdAt) InTime ?_
      fun s a s' hr hnone hstep => ?_
    · exact (missesNone_iff (backfillOk_of_reachable .init) (writesOk_of_reachable .init)).mpr nofun
    · have hs := backfillOk_of_reachable hr
      rw [missesNone_iff (backfillOk_of_reachable (hr.step hstep))
        (writesOk_of_reachable (hr.step hstep))]
      exact unaborted_step_iff hjwt hs hnone.unraised (backfillStep_cases hstep)
  · intro x hx index userId now hstart
    obtain ⟨-, horigin, htargets⟩ := started_from h hx hstart
    exact ⟨htargets, horigin ▸ (writesOk_of_reachable h.reachable).index⟩

end Job

/-! ### A sample job -/

/-- A car is listed at 50 and approved. -/
def sampleListed : List BackfillAction :=
  [.operate (.createVehicle 7 1 ⟨"make", "model", 2020, 5000, 200, .instant, 0, 0⟩),
    .operate (.approveVehicle 7)]

/-- The price is raised. -/
def sampleRaise : BackfillAction := .operate (.updateVehicle 7 1 { dailyPriceCents := some 6000 })

/-- The sample job, with the default settings. -/
abbrev sampleBackfill : TransitionSystem BackfillState BackfillAction :=
  backfill sampleJwt {} fun _ => 0

/-- The job starts at 1000. -/
def sampleStarted : BackfillState where
  db := {
    vehicles := [⟨7, 1, "make", "model", 2020, 5000, 200, .instant, .approved, 0, 0⟩]
    outbox := [⟨0, 7, .vehicleApproved,
      ⟨7, 1, "make", "model", 2020, 5000, 200, .instant, .approved, 0, 0⟩⟩] }
  stage := .requesting 0
  authorization := some (backfillAuthorization sampleJwt {} 9 1000)
  mintedAt := 1000
  targets := [7]
  operations := 2

theorem sampleStarted_run :
    sampleBackfill.run {} (sampleListed ++ [.start (fun _ => none) 9 1000]) = some sampleStarted :=
  rfl

/-- It has the page with the car in hand. -/
def sampleRequested : BackfillState :=
  { sampleStarted with
    stage := .passing sampleStarted.db.vehicles none
    jobSteps := sampleStarted.jobSteps + 1 }

/-- The token that was made at 1000 passes until 1300. -/
theorem sampleStarted_request (now : ℤ) :
    sampleBackfill.step sampleStarted (.request now) =
      some (if now < sampleStarted.mintedAt + backfillTtlSeconds then sampleRequested
        else { sampleStarted with stage := .aborted, jobSteps := sampleStarted.jobSteps + 1 }) := by
  have hlist : listVehicles (fun _ => 0) sampleStarted.db pageSize 0 =
      some ⟨sampleStarted.db.vehicles, none⟩ := by decide
  have hheader : sampleStarted.authorization =
      some (backfillAuthorization sampleJwt {} 9 sampleStarted.mintedAt) := rfl
  have hstage : sampleStarted.stage = .requesting 0 := rfl
  rw [backfillStep_request sampleJwt_correct hstage hheader hlist now]
  rfl

/-- The run that goes on from there. -/
theorem sampleRequested_exec {rest : List BackfillAction} {s : BackfillState}
    (hrest : sampleBackfill.run sampleRequested rest = some s) :
    sampleBackfill.Exec {}
      (sampleBackfill.steps {} (sampleListed ++ [.start (fun _ => none) 9 1000]) ++
        [(sampleStarted, .request 1299)] ++ sampleBackfill.steps sampleRequested rest) s :=
  ((TransitionSystem.exec_steps sampleStarted_run).snoc (sampleStarted_request 1299)).trans
    (TransitionSystem.exec_steps hrest)

/-- The price is raised while the job has the page in hand, and the events are applied after the
job. -/
def sampleEventsLast : List BackfillAction := [sampleRaise, .pass, .turn, .apply 0, .apply 1]

/-- The job ends with the car passed, though its page was requested in the last second. -/
theorem backfill_misses_no_vehicle_sampleEventsLast :
    ∃ s, sampleBackfill.run sampleRequested sampleEventsLast = some s ∧
      sampleBackfill.Reachable s ∧ s.stage = .ended ∧ s.targets = [7] ∧
      (s.index 7).map (·.dailyPriceCents) = some 6000 ∧
      (∃ data, (.job, data) ∈ s.writes ∧ data.vehicleId = 7 ∧ data.approvalStatus = .approved) ∧
      s.index = SearchIndex.replay (fun _ => none) s.writes := by
  have hend : (sampleBackfill.run sampleRequested sampleEventsLast).map (fun s =>
      (s.stage, s.targets, (s.index 7).map (·.dailyPriceCents))) =
        some (.ended, [7], some 6000) := by decide
  obtain ⟨s, hrun, hs⟩ := Option.map_eq_some_iff.mp hend
  simp only [Prod.mk.injEq] at hs
  obtain ⟨hended, htargets, hprice⟩ := hs
  have hexec := sampleRequested_exec hrun
  obtain ⟨hmisses, hstarted⟩ := backfill_misses_no_vehicle sampleJwt_correct hexec
  have hnone := hmisses.mpr (List.forall_mem_append.mpr
    ⟨List.forall_mem_append.mpr ⟨by decide, by decide⟩, by decide⟩)
  have hstart := hstarted (_, .start (fun _ => none) 9 1000) (List.mem_append_left _
    (List.mem_append_left _ (List.mem_cons_of_mem _ (List.mem_cons_of_mem _ List.mem_cons_self))))
    _ _ _ rfl
  exact ⟨s, hrun, hexec.reachable, hended, htargets, hprice,
    hnone.2.passed hended 7 (htargets ▸ List.mem_singleton_self 7), hstart.2⟩

/-- A hundred and one cars are listed and approved, and the job starts at 1000. -/
def sampleFleet : List BackfillAction :=
  (List.range 101).flatMap (fun id => [
    .operate (.createVehicle id 1 ⟨"make", "model", 2020, 5000, 200, .instant, 0, 0⟩),
    .operate (.approveVehicle id)]) ++ [.start (fun _ => none) 9 1000]

/-- It takes the job until 1300 to pass the first hundred cars: its request for the next page aborts
it, and the last car has not been passed. -/
theorem backfill_aborted_by_expired_token :
    ∃ s, sampleBackfill.Reachable s ∧ s.stage = .aborted ∧ s.targets = List.range 101 ∧
      passedIds s.writes = List.range 100 ∧ ¬ MissesNone sampleJwt {} (fun _ => 0) s := by
  have hstarted : (sampleBackfill.run {} sampleFleet).map (fun s =>
      (s.stage, s.mintedAt, s.targets, passedIds s.writes)) =
        some (.requesting 0, 1000, List.range 101, []) := by decide +kernel
  have hpage : (sampleBackfill.run {} sampleFleet).bind (fun s =>
      (listVehicles (fun _ => 0) s.db pageSize 0).map fun body =>
        (body.items.map Vehicle.id, body.nextOffset)) = some (List.range 100, some 100) := by
    decide +kernel
  obtain ⟨s, hrun, hs⟩ := Option.map_eq_some_iff.mp hstarted
  rw [hrun, Option.bind_some] at hpage
  obtain ⟨body, hlist, hbody⟩ := Option.map_eq_some_iff.mp hpage
  simp only [Prod.mk.injEq] at hs hbody
  obtain ⟨hstage, hminted, htargets, hpassed⟩ := hs
  obtain ⟨hitems, hnext⟩ := hbody
  have hreach := TransitionSystem.reachable_of_run .init hrun
  obtain ⟨userId, hheader⟩ := (backfillOk_of_reachable hreach).token (by simp [hstage])
  have hfirst := backfillStep_request sampleJwt_correct hstage hheader hlist 1001
  rw [if_pos (by rw [hminted]; decide), hnext] at hfirst
  obtain ⟨s', hreach', hstage', hpassed', htargets', hminted'⟩ :=
    exists_pass_all (.step hreach hfirst) rfl
  have hturn : sampleBackfill.step s' .turn =
      some { s' with stage := .requesting 100, jobSteps := s'.jobSteps + 1 } := by
    simp [backfill, backfillStep, hstage']
  have hturned := hreach'.step hturn
  obtain ⟨userId', hheader'⟩ := (backfillOk_of_reachable hturned).token nofun
  have hlist' : listVehicles (fun _ => 0) s'.db pageSize 100 = _ := listVehicles_eq s'.db 100
  have hlate := backfillStep_request sampleJwt_correct rfl hheader' hlist' 1300
  rw [if_neg (by rw [hminted', hminted]; decide)] at hlate
  refine ⟨_, .step hturned hlate, rfl, htargets'.trans htargets, ?_,
    fun hnone => hnone.unraised rfl⟩
  exact hpassed'.trans (by rw [hpassed, hitems, List.nil_append])

end CarFlow
