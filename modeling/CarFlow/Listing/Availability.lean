import CarFlow.Lib.ExclusionConstraint
import CarFlow.Listing.Transactions
import CarFlow.Shared.JwtAuth
import CarFlow.Shared.Uuid

/-!
# Availability blocks

`POST /vehicles/{vehicle_id}/availability-blocks`: a host takes a vehicle off for some days. Any
number of requests are under way, side by side with everything else the listing service does to its
vehicles. The route reads the vehicle and leaves the rest to `ex_availability_blocks_overlap`; every
`IntegrityError` is answered as an overlap.

## The model

* The insert has three more constraints: the primary key, the order of the dates, and the vehicle
  that is referred to. A `uuid4` is an identifier that no block has.
* An insert that overlaps with one of an unfinished transaction waits.
* A transaction commits, or is aborted at any point.

## Implementation notes

`Lib.ExclusionConstraint` has the argument for both tables with such a constraint: rows that are
committed are apart, rows that are pending are apart from them and from each other, and an insert
that would break this waits or fails. What is added here is what an `IntegrityError` is due to. The
other three constraints cannot be violated by an owner's request, so the one answer that the route
has for all of them is true.

## Main results

* `AvailabilityOk.step` — the invariant
* `availability_blocks_disjoint` — **no day of a vehicle is blocked twice**, only its host blocks
  it, a refusal is due to a committed block, and days that are free can be blocked
-/

namespace CarFlow

/-! ### The route

A request checks the vehicle, inserts the row, and commits. In between the vehicle may be changed by
others, but never its host. -/

/-- `CreateAvailabilityBlockRequest`, validated. -/
structure CreateAvailabilityBlockRequest where
  startDate : Date
  endDate : Date
  /-- `check_date_order`. -/
  date_order : startDate.ordinal ≤ endDate.ordinal
  deriving DecidableEq

/-- A row of `availability_blocks`. -/
structure AvailabilityBlock where
  id : Uuid
  vehicleId : Uuid
  startDate : Date
  endDate : Date
  deriving DecidableEq

/-- A row, and who made it. Nothing reads that. -/
structure MadeBlock extends AvailabilityBlock where
  hostId : Uuid
  deriving DecidableEq

/-- How far a request is. -/
inductive BlockStage
  | asked
  /-- `get_owned_vehicle` has found the vehicle to be the caller's. -/
  | owned (hostId : Uuid)
  | inserted (block : MadeBlock)

/-- A request under way. -/
structure BlockRequest where
  claims : TokenClaims
  vehicleId : Uuid
  payload : CreateAvailabilityBlockRequest
  stage : BlockStage := .asked

/-- A request and what was answered. -/
structure BlockAnswer where
  claims : TokenClaims
  vehicleId : Uuid
  payload : CreateAvailabilityBlockRequest
  outcome : Except HttpException AvailabilityBlock

/-- The listing service with its blocks. Nothing reads the answers. -/
structure AvailabilityServer where
  listing : ListingServer := {}
  blocks : List MadeBlock := []
  requests : List BlockRequest := []
  answers : List BlockAnswer := []

inductive AvailabilityAction
  /-- Anything else that the service does. -/
  | listing (a : ListingAction)
  | ask (claims : TokenClaims) (vehicleId : Uuid) (payload : CreateAvailabilityBlockRequest)
  | check (i : ℕ)
  | insert (i : ℕ) (id : Uuid)
  | commit (i : ℕ)
  | abort (i : ℕ)

namespace AvailabilityBlock

/-- The days of a block. -/
def Covers (block : AvailabilityBlock) (day : ℤ) : Prop :=
  block.startDate.ordinal ≤ day ∧ day ≤ block.endDate.ordinal

/-- The inclusive date ranges of two blocks of one vehicle overlap. -/
def Overlaps (block block' : AvailabilityBlock) : Prop :=
  block.vehicleId = block'.vehicleId ∧ block.startDate.ordinal ≤ block'.endDate.ordinal ∧
    block'.startDate.ordinal ≤ block.endDate.ordinal

instance (block block' : AvailabilityBlock) : Decidable (block.Overlaps block') :=
  inferInstanceAs (Decidable (_ ∧ _ ∧ _))

theorem Overlaps.symm {block block' : AvailabilityBlock} (h : block.Overlaps block') :
    block'.Overlaps block :=
  ⟨h.1.symm, h.2.2, h.2.1⟩

/-- Blocks of one vehicle overlap if they have a day in common. -/
theorem overlaps_iff {block block' : AvailabilityBlock}
    (h : block.startDate.ordinal ≤ block.endDate.ordinal)
    (h' : block'.startDate.ordinal ≤ block'.endDate.ordinal) :
    block.Overlaps block' ↔
      block.vehicleId = block'.vehicleId ∧ ∃ day, block.Covers day ∧ block'.Covers day := by
  refine and_congr_right fun _ => ⟨fun ⟨hb, hb'⟩ => ?_, ?_⟩
  · refine ⟨max block.startDate.ordinal block'.startDate.ordinal, ?_⟩
    unfold Covers
    omega
  · rintro ⟨day, ⟨hlow, hhigh⟩, hlow', hhigh'⟩
    exact ⟨Int.le_trans hlow hhigh', Int.le_trans hlow' hhigh⟩

end AvailabilityBlock

namespace BlockRequest

/-- The row that a transaction has inserted. -/
def row? (r : BlockRequest) : Option MadeBlock :=
  match r.stage with
  | .inserted block => some block
  | .asked | .owned _ => none

/-- The row that a request inserts. -/
def block (r : BlockRequest) (hostId id : Uuid) : MadeBlock where
  id := id
  vehicleId := r.vehicleId
  startDate := r.payload.startDate
  endDate := r.payload.endDate
  hostId := hostId

/-- The first part of `add_availability_block`, with the errors as the route answers them. -/
def owner (r : BlockRequest) (found : Option Vehicle) : Except HttpException Uuid :=
  match uuidOfString r.claims.sub with
  | none => .error ⟨500, "Internal Server Error"⟩
  | some hostId =>
    match getOwnedVehicle found r.vehicleId hostId with
    | .error (.vehicleNotFound _) => .error ⟨404, "vehicle not found"⟩
    | .error (.notVehicleOwner _) => .error ⟨403, "not your vehicle"⟩
    | .error (.invalidApprovalTransition _) => .error ⟨500, "Internal Server Error"⟩
    | .ok _ => .ok hostId

end BlockRequest

namespace AvailabilityServer

/-- A request is answered. -/
def answer (s : AvailabilityServer) (i : ℕ) (r : BlockRequest)
    (outcome : Except HttpException AvailabilityBlock) : AvailabilityServer :=
  { s with
    requests := s.requests.eraseIdx i
    answers := s.answers ++ [⟨r.claims, r.vehicleId, r.payload, outcome⟩] }

/-- No block has the identifier, committed or not. -/
def Draws (s : AvailabilityServer) (id : Uuid) : Prop :=
  (∀ block ∈ s.blocks, block.id ≠ id) ∧ ∀ r ∈ s.requests, ∀ block ∈ r.row?, block.id ≠ id

instance (s : AvailabilityServer) (id : Uuid) : Decidable (s.Draws id) :=
  inferInstanceAs (Decidable (_ ∧ _))

/-- The database refuses the row. -/
def Refuses (s : AvailabilityServer) (block : AvailabilityBlock) : Prop :=
  ¬ block.startDate.ordinal ≤ block.endDate.ordinal ∨
    s.listing.db.getById block.vehicleId = none ∨ ∃ b ∈ s.blocks, b.Overlaps block

instance (s : AvailabilityServer) (block : AvailabilityBlock) : Decidable (s.Refuses block) :=
  inferInstanceAs (Decidable (_ ∨ _ ∨ _))

/-- An unfinished transaction has inserted an overlapping row. -/
def Waits (others : List BlockRequest) (block : AvailabilityBlock) : Prop :=
  ∃ r ∈ others, ∃ b ∈ r.row?, b.Overlaps block

instance (others : List BlockRequest) (block : AvailabilityBlock) :
    Decidable (Waits others block) := by
  unfold Waits
  infer_instance

end AvailabilityServer

/-- The answer to every `IntegrityError`. -/
def blockOverlaps : HttpException := ⟨409, "availability block overlaps an existing one"⟩

/-- One step. -/
def availabilityStep (s : AvailabilityServer) :
    AvailabilityAction → Option AvailabilityServer
  | .listing a => (listingStep s.listing a).map fun listing => { s with listing }
  | .ask claims vehicleId payload => some <|
    match requireRole claims ["host"] with
    | .error e => { s with answers := s.answers ++ [⟨claims, vehicleId, payload, .error e⟩] }
    | .ok _ => { s with requests := s.requests ++ [{ claims, vehicleId, payload }] }
  | .check i => do
    let r ← s.requests[i]?
    match r.stage with
    | .asked => some <|
      match r.owner (s.listing.db.getById r.vehicleId) with
      | .error e => s.answer i r (.error e)
      | .ok hostId => { s with requests := s.requests.set i { r with stage := .owned hostId } }
    | _ => none
  | .insert i id => do
    let r ← s.requests[i]?
    match r.stage with
    | .owned hostId =>
      let block := r.block hostId id
      if ¬ s.Draws id then none
      else if s.Refuses block.toAvailabilityBlock then some (s.answer i r (.error blockOverlaps))
      else if AvailabilityServer.Waits (s.requests.eraseIdx i) block.toAvailabilityBlock then none
      else some { s with requests := s.requests.set i { r with stage := .inserted block } }
    | _ => none
  | .commit i => do
    let r ← s.requests[i]?
    let block ← r.row?
    some { s.answer i r (.ok block.toAvailabilityBlock) with blocks := s.blocks ++ [block] }
  | .abort i => do
    let _ ← s.requests[i]?
    some { s with requests := s.requests.eraseIdx i }

/-- The listing service. -/
def availabilityServer : TransitionSystem AvailabilityServer AvailabilityAction where
  init := {}
  step := availabilityStep

/-- The ways a step can go. -/
inductive AvailabilityStep (s : AvailabilityServer) : AvailabilityServer → Prop
  | listing (a : ListingAction) (listing : ListingServer)
      (hstep : listingStep s.listing a = some listing) : AvailabilityStep s { s with listing }
  | forbidden (answer : BlockAnswer)
      (hanswer : answer.outcome = .error ⟨403, "insufficient role"⟩) :
      AvailabilityStep s { s with answers := s.answers ++ [answer] }
  | asked (r : BlockRequest) (hstage : r.stage = .asked) :
      AvailabilityStep s { s with requests := s.requests ++ [r] }
  | refused (i : ℕ) (r : BlockRequest) (e : HttpException)
      (howner : r.owner (s.listing.db.getById r.vehicleId) = .error e) :
      AvailabilityStep s (s.answer i r (.error e))
  | owned (i : ℕ) (r : BlockRequest) (hostId : Uuid) (hi : s.requests[i]? = some r)
      (howner : r.owner (s.listing.db.getById r.vehicleId) = .ok hostId) :
      AvailabilityStep s { s with
        requests := s.requests.set i { r with stage := .owned hostId } }
  | overlapped (i : ℕ) (r : BlockRequest) (hostId id : Uuid) (hi : s.requests[i]? = some r)
      (hstage : r.stage = .owned hostId)
      (hrefuses : s.Refuses (r.block hostId id).toAvailabilityBlock) :
      AvailabilityStep s (s.answer i r (.error blockOverlaps))
  | inserted (i : ℕ) (r : BlockRequest) (hostId id : Uuid) (hi : s.requests[i]? = some r)
      (hstage : r.stage = .owned hostId) (hdraws : s.Draws id)
      (hrefuses : ¬ s.Refuses (r.block hostId id).toAvailabilityBlock)
      (hwaits : ¬ AvailabilityServer.Waits (s.requests.eraseIdx i)
        (r.block hostId id).toAvailabilityBlock) :
      AvailabilityStep s { s with
        requests := s.requests.set i { r with stage := .inserted (r.block hostId id) } }
  | committed (i : ℕ) (r : BlockRequest) (block : MadeBlock) (hi : s.requests[i]? = some r)
      (hblock : r.row? = some block) :
      AvailabilityStep s
        { s.answer i r (.ok block.toAvailabilityBlock) with blocks := s.blocks ++ [block] }
  | aborted (i : ℕ) : AvailabilityStep s { s with requests := s.requests.eraseIdx i }

theorem availabilityStep_cases {s s' : AvailabilityServer} {a : AvailabilityAction}
    (h : availabilityStep s a = some s') : AvailabilityStep s s' := by
  cases a with
  | listing a =>
    obtain ⟨listing, hstep, rfl⟩ := Option.map_eq_some_iff.mp h
    exact .listing a listing hstep
  | ask claims vehicleId payload =>
    simp only [availabilityStep, requireRole, Option.some.injEq] at h
    split at h
    · rename_i e he
      split at he <;> cases he
      subst h
      exact .forbidden _ rfl
    · subst h
      exact .asked _ rfl
  | check i =>
    simp only [availabilityStep, Option.bind_eq_bind, Option.bind_eq_some_iff] at h
    obtain ⟨r, hi, h⟩ := h
    split at h
    swap
    · cases h
    rw [Option.some.injEq] at h
    split at h
    · rename_i e howner
      subst h
      exact .refused i r e howner
    · rename_i hostId howner
      subst h
      exact .owned i r hostId hi howner
  | insert i id =>
    simp only [availabilityStep, Option.bind_eq_bind, Option.bind_eq_some_iff] at h
    obtain ⟨r, hi, h⟩ := h
    split at h
    swap
    · cases h
    rename_i hostId hstage
    split at h
    · cases h
    rename_i hdraws
    split at h
    · rename_i hrefuses
      cases h
      exact .overlapped i r hostId id hi hstage hrefuses
    rename_i hrefuses
    split at h
    · cases h
    rename_i hwaits
    cases h
    exact .inserted i r hostId id hi hstage (not_not.mp hdraws) hrefuses hwaits
  | commit i =>
    simp only [availabilityStep, Option.bind_eq_bind, Option.bind_eq_some_iff] at h
    obtain ⟨r, hi, block, hblock, h⟩ := h
    cases h
    exact .committed i r block hi hblock
  | abort i =>
    simp only [availabilityStep, Option.bind_eq_bind, Option.bind_eq_some_iff] at h
    obtain ⟨r, -, h⟩ := h
    cases h
    exact .aborted i

/-! ### The invariant

Committed blocks and those of unfinished requests are apart. Answers are compared with the blocks at
any later time, since blocks are never deleted. -/

/-- The vehicle is there, and the host's. -/
def ListingDb.Owns (db : ListingDb) (hostId vehicleId : Uuid) : Prop :=
  ∃ vehicle, db.getById vehicleId = some vehicle ∧ vehicle.hostId = hostId

/-- Vehicles stay, and stay with their hosts. -/
def ListingDb.KeepsHosts (db db' : ListingDb) : Prop :=
  ∀ k vehicle, db.getById k = some vehicle →
    ∃ vehicle', db'.getById k = some vehicle' ∧ vehicle'.hostId = vehicle.hostId

/-- Two rows of `availability_blocks`: the constraints between them. -/
def MadeBlock.Apart (block block' : MadeBlock) : Prop :=
  block.id ≠ block'.id ∧ ¬ block.Overlaps block'.toAvailabilityBlock

theorem MadeBlock.Apart.symm (block block' : MadeBlock) (h : block.Apart block') :
    block'.Apart block :=
  ⟨h.1.symm, fun ho => h.2 ho.symm⟩

/-- The days that are asked for. -/
def CreateAvailabilityBlockRequest.Covers (payload : CreateAvailabilityBlockRequest) (day : ℤ) :
    Prop :=
  payload.startDate.ordinal ≤ day ∧ day ≤ payload.endDate.ordinal

/-- What holds of a row, inserted or committed. -/
structure MadeBlock.Ok (db : ListingDb) (block : MadeBlock) : Prop where
  owns : db.Owns block.hostId block.vehicleId
  date_order : block.startDate.ordinal ≤ block.endDate.ordinal

/-- What holds of a request under way. -/
def BlockRequest.Ok (db : ListingDb) (r : BlockRequest) : Prop :=
  match r.stage with
  | .asked => True
  | .owned hostId => uuidOfString r.claims.sub = some hostId ∧ db.Owns hostId r.vehicleId
  | .inserted block => ∃ id hostId, block = r.block hostId id ∧
      uuidOfString r.claims.sub = some hostId ∧ block.Ok db

/-- A refusal has its reason, and an answer its row. -/
structure BlockAnswer.Ok (s : AvailabilityServer) (x : BlockAnswer) : Prop where
  overlaps : x.outcome = .error blockOverlaps → ∃ block ∈ s.blocks,
    block.vehicleId = x.vehicleId ∧ ∃ day, block.Covers day ∧ x.payload.Covers day
  foreign : x.outcome = .error ⟨403, "not your vehicle"⟩ → ∃ hostId vehicle,
    uuidOfString x.claims.sub = some hostId ∧
      s.listing.db.getById x.vehicleId = some vehicle ∧ vehicle.hostId ≠ hostId
  created : ∀ block, x.outcome = .ok block → ∃ made ∈ s.blocks, made.toAvailabilityBlock = block ∧
    uuidOfString x.claims.sub = some made.hostId ∧ block.vehicleId = x.vehicleId ∧
      block.startDate = x.payload.startDate ∧ block.endDate = x.payload.endDate

/-- **The invariant of the blocks.** -/
structure AvailabilityOk (s : AvailabilityServer) : Prop where
  listing : ListingServerOk s.listing
  exclusive : Exclusive MadeBlock.Apart BlockRequest.row? s.blocks s.requests
  blocks : ∀ block ∈ s.blocks, block.Ok s.listing.db
  requests : ∀ r ∈ s.requests, r.Ok s.listing.db
  answers : ∀ x ∈ s.answers, x.Ok s

section Invariant

variable {s s' : AvailabilityServer} {db db' : ListingDb} {r : BlockRequest} {hostId : Uuid}
  {found : Option Vehicle} {block : MadeBlock} {x : BlockAnswer}

/-- The check passes the host of the vehicle. -/
theorem BlockRequest.owner_ok_iff :
    r.owner found = .ok hostId ↔ uuidOfString r.claims.sub = some hostId ∧
      ∃ vehicle, found = some vehicle ∧ vehicle.hostId = hostId := by
  cases hsub : uuidOfString r.claims.sub with
  | none => simp [owner, hsub]
  | some hostId' =>
    cases hres : getOwnedVehicle found r.vehicleId hostId' with
    | ok vehicle =>
      obtain ⟨rfl, hhost⟩ := getOwnedVehicle_ok_iff.mp hres
      simp only [owner, hsub, hres, Except.ok.injEq, Option.some.injEq, exists_eq_left']
      exact ⟨fun he => ⟨he, hhost.trans he⟩, And.left⟩
    | error e =>
      constructor
      · intro h
        simp only [owner, hsub, hres] at h
        cases e <;> cases h
      · rintro ⟨he, vehicle, hfound, hhost⟩
        rw [Option.some.injEq] at he
        cases hres.symm.trans (getOwnedVehicle_ok_iff.mpr ⟨hfound, hhost.trans he.symm⟩)

/-- The check never speaks of an overlap, and what it says of the vehicle's host is true. -/
theorem BlockRequest.owner_error {e : HttpException} (h : r.owner found = .error e) :
    e ≠ blockOverlaps ∧ (e = ⟨403, "not your vehicle"⟩ → ∃ hostId vehicle,
      uuidOfString r.claims.sub = some hostId ∧ found = some vehicle ∧
        vehicle.hostId ≠ hostId) := by
  cases hsub : uuidOfString r.claims.sub with
  | none =>
    simp only [owner, hsub, Except.error.injEq] at h
    subst h
    exact ⟨by decide, fun he => absurd he (by decide)⟩
  | some hostId =>
    cases found with
    | none =>
      simp only [owner, hsub, getOwnedVehicle, requireVehicle, bind, Except.bind,
        Except.error.injEq] at h
      subst h
      exact ⟨by decide, fun he => absurd he (by decide)⟩
    | some vehicle =>
      by_cases hhost : vehicle.hostId = hostId
      · cases h.symm.trans (owner_ok_iff.mpr ⟨hsub, vehicle, rfl, hhost⟩)
      · have herr : getOwnedVehicle (some vehicle) r.vehicleId hostId =
            .error (.notVehicleOwner r.vehicleId) := by
          simp only [getOwnedVehicle, requireVehicle, bind, Except.bind, hhost, ne_eq,
            not_false_eq_true, if_true]
          rfl
        simp only [owner, hsub, herr, Except.error.injEq] at h
        subst h
        exact ⟨by decide, fun _ => ⟨hostId, vehicle, rfl, rfl, hhost⟩⟩

theorem ListingDb.KeepsHosts.refl : db.KeepsHosts db := fun _ vehicle h => ⟨vehicle, h, rfl⟩

theorem ListingDb.Owns.mono {vehicleId : Uuid} (h : db.Owns hostId vehicleId)
    (hkeeps : db.KeepsHosts db') : db'.Owns hostId vehicleId := by
  obtain ⟨vehicle, hvehicle, hhost⟩ := h
  obtain ⟨vehicle', hvehicle', hsame⟩ := hkeeps _ _ hvehicle
  exact ⟨vehicle', hvehicle', hsame.trans hhost⟩

theorem MadeBlock.Ok.mono (h : block.Ok db) (hkeeps : db.KeepsHosts db') : block.Ok db' :=
  ⟨h.owns.mono hkeeps, h.date_order⟩

theorem BlockRequest.Ok.mono (h : r.Ok db) (hkeeps : db.KeepsHosts db') : r.Ok db' := by
  unfold Ok at h ⊢
  cases hstage : r.stage with
  | asked => trivial
  | owned hostId =>
    simp only [hstage] at h
    exact ⟨h.1, h.2.mono hkeeps⟩
  | inserted block =>
    simp only [hstage] at h
    obtain ⟨id, hostId, hblock, hsub, hok⟩ := h
    exact ⟨id, hostId, hblock, hsub, hok.mono hkeeps⟩

theorem BlockAnswer.Ok.mono (h : x.Ok s) (hblocks : s.blocks ⊆ s'.blocks)
    (hkeeps : s.listing.db.KeepsHosts s'.listing.db) : x.Ok s' where
  overlaps hx := by
    obtain ⟨block, hblock, hdays⟩ := h.overlaps hx
    exact ⟨block, hblocks hblock, hdays⟩
  foreign hx := by
    obtain ⟨hostId, vehicle, hsub, hvehicle, hhost⟩ := h.foreign hx
    obtain ⟨vehicle', hvehicle', hsame⟩ := hkeeps _ _ hvehicle
    exact ⟨hostId, vehicle', hsub, hvehicle', hsame.trans_ne hhost⟩
  created block hx := by
    obtain ⟨made, hmade, hrest⟩ := h.created block hx
    exact ⟨made, hblocks hmade, hrest⟩

/-- An answer is added. -/
theorem BlockAnswer.ok_concat (h : ∀ y ∈ s.answers, y.Ok s) (hblocks : s.blocks ⊆ s'.blocks)
    (hdb : s'.listing = s.listing) (hx : x.Ok s') : ∀ y ∈ s.answers ++ [x], y.Ok s' := by
  intro y hy
  rcases List.mem_append.mp hy with hy | hy
  · exact (h y hy).mono hblocks (hdb ▸ .refl)
  · exact List.mem_singleton.mp hy ▸ hx

/-- An error other than the two that say something of the data. -/
theorem BlockAnswer.Ok.of_error {e : HttpException} (hx : x.outcome = .error e)
    (hoverlaps : e ≠ blockOverlaps) (hforeign : e ≠ ⟨403, "not your vehicle"⟩) : x.Ok s where
  overlaps he := absurd (Except.error.inj (hx.symm.trans he)) hoverlaps
  foreign he := absurd (Except.error.inj (hx.symm.trans he)) hforeign
  created _ he := by cases hx.symm.trans he

/-- The row that an owner's request inserts is refused only for the days. -/
theorem BlockRequest.refuses_iff (howns : s.listing.db.Owns hostId r.vehicleId) {id : Uuid}
    (hblocks : ∀ b ∈ s.blocks, b.Ok s.listing.db) :
    s.Refuses (r.block hostId id).toAvailabilityBlock ↔ ∃ b ∈ s.blocks,
      b.vehicleId = r.vehicleId ∧ ∃ day, b.Covers day ∧ r.payload.Covers day := by
  obtain ⟨vehicle, hvehicle, -⟩ := howns
  have hover : ∀ b ∈ s.blocks, b.Overlaps (r.block hostId id).toAvailabilityBlock ↔
      b.vehicleId = r.vehicleId ∧ ∃ day, b.Covers day ∧ r.payload.Covers day := fun b hb =>
    AvailabilityBlock.overlaps_iff (hblocks b hb).date_order r.payload.date_order
  constructor
  · rintro (horder | hnone | ⟨b, hb, ho⟩)
    · exact absurd r.payload.date_order horder
    · cases hnone.symm.trans hvehicle
    · exact ⟨b, hb, (hover b hb).mp ho⟩
  · rintro ⟨b, hb, ho⟩
    exact .inr (.inr ⟨b, hb, (hover b hb).mpr ho⟩)

/-- The rest of listing takes a step. -/
theorem AvailabilityOk.listing_step (h : AvailabilityOk s) {a : ListingAction}
    {listing : ListingServer} (hstep : listingStep s.listing a = some listing) :
    AvailabilityOk { s with listing } := by
  have hstep' := listingStep_cases hstep
  have hkeeps : s.listing.db.KeepsHosts listing.db := fun _ _ hv =>
    hstep'.host_stable h.listing hv
  exact {
    listing := h.listing.step hstep'
    exclusive := h.exclusive
    blocks := fun b hb => (h.blocks b hb).mono hkeeps
    requests := fun u hu => (h.requests u hu).mono hkeeps
    answers := fun x hx => (h.answers x hx).mono (List.Subset.refl _) hkeeps }

theorem AvailabilityOk.ask (h : AvailabilityOk s) (hstage : r.stage = .asked) :
    AvailabilityOk { s with requests := s.requests ++ [r] } := by
  refine { h with exclusive := h.exclusive.start ?_, requests := ?_, answers := ?_ }
  · rw [BlockRequest.row?, hstage]
  · intro u hu
    rcases List.mem_append.mp hu with hu | hu
    · exact h.requests u hu
    · rw [List.mem_singleton.mp hu, BlockRequest.Ok, hstage]
      trivial
  · exact fun x hx => (h.answers x hx).mono (List.Subset.refl _) .refl

/-- A request is answered with an error that is true of the data. -/
theorem AvailabilityOk.answer_error (h : AvailabilityOk s) (i : ℕ) {e : HttpException}
    (hx : BlockAnswer.Ok s ⟨r.claims, r.vehicleId, r.payload, .error e⟩) :
    AvailabilityOk (s.answer i r (.error e)) :=
  { h with
    exclusive := h.exclusive.finish i
    requests := fun u hu => h.requests u (List.mem_of_mem_eraseIdx hu)
    answers := BlockAnswer.ok_concat h.answers (List.Subset.refl _) rfl
      ⟨hx.overlaps, hx.foreign, hx.created⟩ }

/-- The check refuses a request. -/
theorem BlockAnswer.Ok.of_owner {e : HttpException}
    (howner : r.owner (s.listing.db.getById r.vehicleId) = .error e) :
    BlockAnswer.Ok s ⟨r.claims, r.vehicleId, r.payload, .error e⟩ := by
  obtain ⟨hoverlaps, hforeign⟩ := BlockRequest.owner_error howner
  exact {
    overlaps := fun he => absurd (Except.error.inj he) hoverlaps
    foreign := fun he => hforeign (Except.error.inj he)
    created := fun _ he => by cases he }

/-- The exclusion constraint refuses a request. -/
theorem AvailabilityOk.ok_of_refuses (h : AvailabilityOk s) {i : ℕ} {id : Uuid}
    (hi : s.requests[i]? = some r) (hstage : r.stage = .owned hostId)
    (hrefuses : s.Refuses (r.block hostId id).toAvailabilityBlock) :
    BlockAnswer.Ok s ⟨r.claims, r.vehicleId, r.payload, .error blockOverlaps⟩ := by
  have hr := h.requests r (List.mem_of_getElem? hi)
  rw [BlockRequest.Ok, hstage] at hr
  exact {
    overlaps := fun _ => (BlockRequest.refuses_iff hr.2 h.blocks).mp hrefuses
    foreign := fun he => absurd (Except.error.inj he) (by decide)
    created := fun _ he => by cases he }

/-- The check passes a request. -/
theorem AvailabilityOk.own (h : AvailabilityOk s) (i : ℕ)
    (howner : r.owner (s.listing.db.getById r.vehicleId) = .ok hostId) :
    AvailabilityOk { s with requests := s.requests.set i { r with stage := .owned hostId } } := by
  refine { h with
    exclusive := h.exclusive.idle rfl
    requests := fun u hu => ?_
    answers := fun x hx => (h.answers x hx).mono (List.Subset.refl _) .refl }
  rcases List.mem_or_eq_of_mem_set hu with hu | rfl
  · exact h.requests u hu
  · exact BlockRequest.owner_ok_iff.mp howner

/-- A request inserts its row. -/
theorem AvailabilityOk.insert (h : AvailabilityOk s) {i : ℕ} {id : Uuid}
    (hi : s.requests[i]? = some r) (hstage : r.stage = .owned hostId) (hdraws : s.Draws id)
    (hrefuses : ¬ s.Refuses (r.block hostId id).toAvailabilityBlock)
    (hwaits : ¬ AvailabilityServer.Waits (s.requests.eraseIdx i)
      (r.block hostId id).toAvailabilityBlock) :
    AvailabilityOk { s with
      requests := s.requests.set i { r with stage := .inserted (r.block hostId id) } } := by
  have hr := h.requests r (List.mem_of_getElem? hi)
  rw [BlockRequest.Ok, hstage] at hr
  refine { h with
    exclusive := h.exclusive.insert MadeBlock.Apart.symm hi rfl ?_ ?_
    requests := fun u hu => ?_
    answers := fun x hx => (h.answers x hx).mono (List.Subset.refl _) .refl }
  · exact fun b hb => ⟨hdraws.1 b hb, fun ho => hrefuses (.inr (.inr ⟨b, hb, ho⟩))⟩
  · exact fun u hu b hb =>
      ⟨hdraws.2 u (List.mem_of_mem_eraseIdx hu) b hb, fun ho => hwaits ⟨u, hu, b, hb, ho⟩⟩
  · rcases List.mem_or_eq_of_mem_set hu with hu | rfl
    · exact h.requests u hu
    · exact ⟨id, hostId, rfl, hr.1, hr.2, r.payload.date_order⟩

/-- A request commits its row. -/
theorem AvailabilityOk.commit (h : AvailabilityOk s) {i : ℕ} (hi : s.requests[i]? = some r)
    (hblock : r.row? = some block) :
    AvailabilityOk
      { s.answer i r (.ok block.toAvailabilityBlock) with blocks := s.blocks ++ [block] } := by
  have hr := h.requests r (List.mem_of_getElem? hi)
  have hstage : r.stage = .inserted block := by
    cases hstage : r.stage <;> simp [BlockRequest.row?, hstage] at hblock
    rw [hblock]
  rw [BlockRequest.Ok, hstage] at hr
  obtain ⟨id, hostId, rfl, hsub, hok⟩ := hr
  have hlast : r.block hostId id ∈ s.blocks ++ [r.block hostId id] :=
    List.mem_append_right _ (List.mem_singleton_self _)
  refine { h with
    exclusive := h.exclusive.commit MadeBlock.Apart.symm hi hblock
    blocks := fun b hb => ?_
    requests := fun u hu => h.requests u (List.mem_of_mem_eraseIdx hu)
    answers := BlockAnswer.ok_concat h.answers (List.subset_append_left _ _) rfl {
      overlaps := fun he => by cases he
      foreign := fun he => by cases he
      created := fun made he => ?_ } }
  · rcases List.mem_append.mp hb with hb | hb
    · exact h.blocks b hb
    · exact List.mem_singleton.mp hb ▸ hok
  · cases he
    exact ⟨_, hlast, rfl, hsub, rfl, rfl, rfl⟩

/-- **Every step keeps the invariant.** -/
theorem AvailabilityOk.step (h : AvailabilityOk s) (hstep : AvailabilityStep s s') :
    AvailabilityOk s' := by
  cases hstep with
  | listing a listing hstep => exact h.listing_step hstep
  | forbidden answer hanswer =>
    exact { h with
      answers := BlockAnswer.ok_concat h.answers (List.Subset.refl _) rfl
        (.of_error hanswer (by decide) (by decide)) }
  | asked r hstage => exact h.ask hstage
  | refused i r e howner => exact h.answer_error i (.of_owner howner)
  | owned i r hostId hi howner => exact h.own i howner
  | overlapped i r hostId id hi hstage hrefuses =>
    exact h.answer_error i (h.ok_of_refuses hi hstage hrefuses)
  | inserted i r hostId id hi hstage hdraws hrefuses hwaits =>
    exact h.insert hi hstage hdraws hrefuses hwaits
  | committed i r block hi hblock => exact h.commit hi hblock
  | aborted i =>
    exact { h with
      exclusive := h.exclusive.finish i
      requests := fun u hu => h.requests u (List.mem_of_mem_eraseIdx hu)
      answers := fun x hx => (h.answers x hx).mono (List.Subset.refl _) .refl }

theorem availabilityOk_of_reachable (h : availabilityServer.Reachable s) : AvailabilityOk s := by
  refine h.invariant AvailabilityOk ?_ fun _ _ _ _ hok hstep =>
    hok.step (availabilityStep_cases hstep)
  exact {
    listing := .nil
    exclusive := .nil .nil
    blocks := List.forall_mem_nil _
    requests := List.forall_mem_nil _
    answers := List.forall_mem_nil _ }

/-- A request that nothing is in the way of, from its arrival to its commit. -/
theorem availabilityServer_books {claims : TokenClaims} {vehicleId : Uuid} (id : Uuid)
    (payload : CreateAvailabilityBlockRequest) (hrole : claims.role = "host")
    (hsub : uuidOfString claims.sub = some hostId) (howns : s.listing.db.Owns hostId vehicleId)
    (hdraws : s.Draws id)
    (hrefuses : ¬ s.Refuses ⟨id, vehicleId, payload.startDate, payload.endDate⟩)
    (hwaits : ¬ AvailabilityServer.Waits s.requests
      ⟨id, vehicleId, payload.startDate, payload.endDate⟩) :
    ∃ s', availabilityServer.run s [.ask claims vehicleId payload, .check s.requests.length,
        .insert s.requests.length id, .commit s.requests.length] = some s' ∧
      s'.listing = s.listing ∧ s'.requests = s.requests ∧ s'.blocks = s.blocks ++
        [⟨⟨id, vehicleId, payload.startDate, payload.endDate⟩, hostId⟩] := by
  have hget : ∀ r : BlockRequest, (s.requests ++ [r])[s.requests.length]? = some r := fun r =>
    List.getElem?_concat_length
  have herase : ∀ r : BlockRequest, (s.requests ++ [r]).eraseIdx s.requests.length = s.requests :=
    fun r => by simp [List.eraseIdx_append_of_length_le]
  have hset : ∀ r r' : BlockRequest, (s.requests ++ [r]).set s.requests.length r' =
      s.requests ++ [r'] := fun r r' => by simp
  have hdraws' : ∀ r : BlockRequest, r.row? = none →
      AvailabilityServer.Draws { s with requests := s.requests ++ [r] } id := by
    intro r hr
    refine ⟨hdraws.1, fun u hu b hb => ?_⟩
    rcases List.mem_append.mp hu with hu | hu
    · exact hdraws.2 u hu b hb
    · rw [List.mem_singleton.mp hu, hr] at hb
      cases hb
  let r : BlockRequest := { claims, vehicleId, payload }
  let with' : BlockRequest → AvailabilityServer := fun r => { s with requests := s.requests ++ [r] }
  let done : AvailabilityServer :=
    { s with
      blocks := s.blocks ++ [r.block hostId id]
      answers := s.answers ++ [⟨claims, vehicleId, payload,
        .ok (r.block hostId id).toAvailabilityBlock⟩] }
  have hask : availabilityStep s (.ask claims vehicleId payload) = some (with' r) := by
    have hpass : requireRole claims ["host"] = .ok () :=
      requireRole_ok_iff.mpr (hrole ▸ List.mem_singleton_self _)
    simp only [availabilityStep, hpass]
    rfl
  have hcheck : availabilityStep (with' r) (.check s.requests.length) =
      some (with' { r with stage := .owned hostId }) := by
    have howner : r.owner (s.listing.db.getById vehicleId) = .ok hostId :=
      BlockRequest.owner_ok_iff.mpr ⟨hsub, howns⟩
    refine Option.bind_eq_some_iff.mpr ⟨r, hget r, ?_⟩
    simp only [r, howner, with', hset]
  have hinsert : availabilityStep (with' { r with stage := .owned hostId })
      (.insert s.requests.length id) =
        some (with' { r with stage := .inserted (r.block hostId id) }) := by
    refine Option.bind_eq_some_iff.mpr ⟨_, hget _, ?_⟩
    simp only [with', herase, hset]
    exact (if_neg (not_not.mpr (hdraws' _ rfl))).trans <| (if_neg hrefuses).trans <| if_neg hwaits
  have hcommit : availabilityStep (with' { r with stage := .inserted (r.block hostId id) })
      (.commit s.requests.length) = some done := by
    refine Option.bind_eq_some_iff.mpr ⟨_, hget _, ?_⟩
    simp only [with', AvailabilityServer.answer, herase]
    rfl
  refine ⟨done, ?_, rfl, rfl, rfl⟩
  simp only [TransitionSystem.run_cons_iff]
  exact ⟨_, hask, _, hcheck, _, hinsert, _, hcommit, rfl⟩

/-- **No day of a vehicle is blocked twice.** Only the host of a vehicle blocks its days, every
answer is true of the data, and a host whose days are free, and not being blocked by someone, blocks
them. -/
theorem availability_blocks_disjoint (h : availabilityServer.Reachable s) :
    (s.blocks.Pairwise fun b b' => b.vehicleId = b'.vehicleId →
      ∀ day, ¬ (b.Covers day ∧ b'.Covers day)) ∧
    (∀ b ∈ s.blocks, s.listing.db.Owns b.hostId b.vehicleId) ∧
    (∀ x ∈ s.answers, x.Ok s) ∧
    ∀ claims vehicleId hostId id, ∀ payload : CreateAvailabilityBlockRequest,
      claims.role = "host" → uuidOfString claims.sub = some hostId →
      s.listing.db.Owns hostId vehicleId → s.Draws id →
      (∀ b ∈ s.blocks, b.vehicleId = vehicleId → ∀ day, ¬ (b.Covers day ∧ payload.Covers day)) →
      ¬ AvailabilityServer.Waits s.requests
        ⟨id, vehicleId, payload.startDate, payload.endDate⟩ →
      ∃ s', availabilityServer.run s [.ask claims vehicleId payload, .check s.requests.length,
          .insert s.requests.length id, .commit s.requests.length] = some s' ∧
        s'.blocks = s.blocks ++
          [⟨⟨id, vehicleId, payload.startDate, payload.endDate⟩, hostId⟩] := by
  have hok := availabilityOk_of_reachable h
  refine ⟨?_, fun b hb => (hok.blocks b hb).owns, hok.answers, ?_⟩
  · refine hok.exclusive.committed.imp_of_mem fun {b b'} hb hb' hapart hvehicle day hdays => ?_
    refine hapart.2 ((AvailabilityBlock.overlaps_iff ?_ ?_).mpr ⟨hvehicle, day, hdays⟩)
    · exact (hok.blocks b hb).date_order
    · exact (hok.blocks b' hb').date_order
  · intro claims vehicleId hostId id payload hrole hsub howns hdraws hfree hwaits
    have hrefuses : ¬ s.Refuses ⟨id, vehicleId, payload.startDate, payload.endDate⟩ := by
      intro hrefuses
      let r : BlockRequest := { claims, vehicleId, payload }
      obtain ⟨b, hb, hvehicle, day, hdays⟩ :=
        (BlockRequest.refuses_iff (r := r) howns hok.blocks).mp hrefuses
      exact hfree b hb hvehicle day hdays
    obtain ⟨s', hrun, -, -, hblocks⟩ :=
      availabilityServer_books id payload hrole hsub howns hdraws hrefuses hwaits
    exact ⟨s', hrun, hblocks⟩

end Invariant

/-- A host lists a car. -/
def sampleBlockable : List AvailabilityAction :=
  [.listing (.begin (.createVehicle 7 1 ⟨"make", "model", 2020, 5000, 200, .instant, 0, 0⟩)),
    .listing (.flush 0), .listing (.commit 0)]

/-- The host. -/
def sampleHost : TokenClaims := ⟨uuidStr 1, "host", .access, "carflow", 0, 900⟩

/-- Four days in a row. -/
def sampleHoliday (first : ℤ) (hfirst : 1 ≤ first ∧ first ≤ 3652056) :
    CreateAvailabilityBlockRequest where
  startDate := ⟨first, hfirst.1, by omega⟩
  endDate := ⟨first + 3, by omega, by omega⟩
  date_order := by simp

/-- The days after a block that is there already are blocked as well. -/
theorem availability_blocks_disjoint_sampleHoliday :
    ∃ s, availabilityServer.Reachable s ∧ s.blocks.length = 2 ∧
      s.blocks.Pairwise fun b b' => b.vehicleId = b'.vehicleId →
        ∀ day, ¬ (b.Covers day ∧ b'.Covers day) := by
  obtain ⟨s, hrun, hs⟩ : ∃ s, availabilityServer.run {} sampleBlockable = some s ∧
      (s.listing.db.getById 7).map Vehicle.hostId = some 1 ∧ s.requests = [] ∧ s.blocks = [] :=
    ⟨_, rfl, rfl, rfl, rfl⟩
  obtain ⟨hhost, hrequests, hblocks⟩ := hs
  have howns : s.listing.db.Owns 1 7 := Option.map_eq_some_iff.mp hhost
  have hreachable := TransitionSystem.reachable_of_run .init hrun
  have hsub : uuidOfString sampleHost.sub = some 1 := uuidOfString_uuidStr (by decide)
  have hnobody : ∀ block, ¬ AvailabilityServer.Waits [] block := fun block hwaits => by
    obtain ⟨r, hr, -⟩ := hwaits
    cases hr
  have hexists : s.listing.db.getById 7 ≠ none := by
    obtain ⟨vehicle, hvehicle, -⟩ := howns
    simp [hvehicle]
  -- the first block
  obtain ⟨s₁, hrun₁, hlisting₁, hrequests₁, hblocks₁⟩ :=
    availabilityServer_books 20 (sampleHoliday 738886 (by decide)) rfl hsub howns
      ⟨by simp [hblocks], by simp [hrequests]⟩ (by
        rintro (horder | hnone | ⟨b, hb, -⟩)
        · exact absurd (sampleHoliday 738886 (by decide)).date_order horder
        · exact hexists hnone
        · rw [hblocks] at hb
          cases hb)
      (hrequests ▸ hnobody _)
  rw [hblocks, List.nil_append] at hblocks₁
  have hreachable₁ := TransitionSystem.reachable_of_run hreachable hrun₁
  -- the second, by the theorem
  obtain ⟨s₂, hrun₂, hblocks₂⟩ := (availability_blocks_disjoint hreachable₁).2.2.2 sampleHost 7 1 21
    (sampleHoliday 738890 (by decide)) rfl hsub (hlisting₁ ▸ howns)
    ⟨by simp [hblocks₁], by simp [hrequests₁, hrequests]⟩
    (by
      intro b hb _ day ⟨hday, hday'⟩
      rw [hblocks₁, List.mem_singleton] at hb
      subst hb
      exact absurd (Int.le_trans hday'.1 hday.2) (by decide))
    (hrequests₁ ▸ hrequests ▸ hnobody _)
  have hreachable₂ := TransitionSystem.reachable_of_run hreachable₁ hrun₂
  exact ⟨s₂, hreachable₂, by simp [hblocks₂, hblocks₁],
    (availability_blocks_disjoint hreachable₂).1⟩

end CarFlow
