import CarFlow.Platform.Accounts

/-!
# The parties of a booking

The invariant of the three services together, and what it says of the rows of booking and listing.

## Implementation notes

A fact about the platform is kept in the form in which the next step needs it. `Vouches` says of a
booking operation what its caller was, `Shows` of the terms in a request that listing has shown
them at some time, and `Decided` of a vehicle that an administrator has asked for a decision. All
three only grow (`Platform.Extends`): users stay, roles and hosts do not change, and what was shown
was shown. So each field of the invariant is monotone, and a step has only to account for what it
adds.

That a renter and a host are not one user is nowhere compared: a user has one role, and the routes
ask for two.

## Main results

* `PlatformOk.step` — every operation under way was begun by a user with the role for it, and every
  vehicle in a request was shown by listing
* `bookings_have_two_parties` — **nobody books their own car**, although no code compares the two
* `vehicles_decided_by_admins` — no vehicle is approved or rejected but by a seeded administrator
-/

namespace CarFlow

/-! ### Statements that stay true

What the invariant says of an operation is stated so that later steps cannot make it false. -/

/-- What a state of the platform has of an earlier one. -/
structure Platform.Extends (s s' : Platform) : Prop where
  users : s.auth.registrations.users ⊆ s'.auth.registrations.users
  hosts : ∀ id v, s.listing.db.getById id = some v →
    ∃ v', s'.listing.db.getById id = some v' ∧ v'.hostId = v.hostId
  shown : s.shown ⊆ s'.shown
  decisions : s.decisions ⊆ s'.decisions

namespace Platform

variable {s s' : Platform}

/-- An administrator has begun a decision about the vehicle. -/
def Decided (s : Platform) (vehicleId : Uuid) : Prop :=
  ∃ adminId, (vehicleId, adminId) ∈ s.decisions ∧ s.HasRole "admin" adminId

/-- Listing has shown the vehicle on these terms, and it is a vehicle of that host. -/
def Shows (s : Platform) (vehicleId : Uuid) (info : VehicleInfo) : Prop :=
  (∃ v, s.listing.db.getById vehicleId = some v ∧ v.hostId = info.hostId) ∧
    ∃ v ∈ s.shown, v.id = vehicleId ∧ v.info = info

/-- Who may begin an operation of listing. -/
def Entitled (s : Platform) : ListingOperation → Prop
  | .createVehicle _ hostId _ => s.HasRole "host" hostId
  | .updateVehicle .. => True
  | .approveVehicle vehicleId | .rejectVehicle vehicleId => s.Decided vehicleId

/-- Who may begin an operation of booking, and on which vehicle. -/
def Vouches (s : Platform) : BookingOperation → Prop
  | .requestBooking _ vehicle renterId payload =>
    s.HasRole "renter" renterId ∧ ∀ info ∈ vehicle, s.Shows payload.vehicleId info
  | .acceptBookingRequest _ hostId | .rejectBookingRequest _ hostId
  | .recordHandover _ hostId _ | .recordReturn _ hostId _ => s.HasRole "host" hostId
  | .applyPaymentAuthorized _ | .applyPaymentAuthorizationFailed _
  | .applyPaymentCaptured _ | .applyPaymentCaptureFailed _ => True

theorem HasRole.mono {role : String} {userId : Uuid} (h : s.HasRole role userId)
    (hext : s.Extends s') : s'.HasRole role userId := by
  obtain ⟨user, huser, hid, hrole⟩ := h
  exact ⟨user, hext.users huser, hid, hrole⟩

theorem Decided.mono {vehicleId : Uuid} (h : s.Decided vehicleId) (hext : s.Extends s') :
    s'.Decided vehicleId := by
  obtain ⟨adminId, hmem, hrole⟩ := h
  exact ⟨adminId, hext.decisions hmem, hrole.mono hext⟩

theorem Shows.mono {vehicleId : Uuid} {info : VehicleInfo} (h : s.Shows vehicleId info)
    (hext : s.Extends s') : s'.Shows vehicleId info := by
  obtain ⟨⟨v, hv, hhost⟩, shown, hmem, hshown⟩ := h
  obtain ⟨v', hv', hsame⟩ := hext.hosts vehicleId v hv
  exact ⟨⟨v', hv', hsame.trans hhost⟩, shown, hext.shown hmem, hshown⟩

theorem Entitled.mono {op : ListingOperation} (h : s.Entitled op) (hext : s.Extends s') :
    s'.Entitled op := by
  cases op with
  | createVehicle id hostId payload => exact HasRole.mono h hext
  | updateVehicle vehicleId hostId fields => trivial
  | approveVehicle vehicleId => exact Decided.mono h hext
  | rejectVehicle vehicleId => exact Decided.mono h hext

theorem Vouches.mono {op : BookingOperation} (h : s.Vouches op) (hext : s.Extends s') :
    s'.Vouches op := by
  cases op with
  | requestBooking id vehicle renterId payload =>
    exact ⟨h.1.mono hext, fun info hinfo => (h.2 info hinfo).mono hext⟩
  | acceptBookingRequest | rejectBookingRequest | recordHandover | recordReturn =>
    exact HasRole.mono h hext
  | applyPaymentAuthorized | applyPaymentAuthorizationFailed | applyPaymentCaptured
  | applyPaymentCaptureFailed => trivial

end Platform

/-- **The invariant of the platform.** -/
structure PlatformOk (hasher : PasswordHasher) (jwt : PyJwt) (settings : AuthSettings)
    (seeded : List UserRow) (s : Platform) : Prop where
  auth : (authServer hasher jwt settings seeded).Reachable s.auth
  listing : ListingServerOk s.listing
  booking : ServerOk s.booking
  vehicles : ∀ id v, s.listing.db.getById id = some v →
    s.HasRole "host" v.hostId ∧ (v.approvalStatus ≠ .pending → s.Decided id)
  transactions : ∀ t ∈ s.listing.transactions, s.Entitled t.op
  requests : ∀ request ∈ s.requests, s.HasRole "renter" request.renterId ∧
    ∀ vehicle ∈ request.vehicle, ∀ info ∈ vehicle, s.Shows request.payload.vehicleId info
  ops : ∀ op ∈ s.booking.ops, s.Vouches op

section Invariant

variable {hasher : PasswordHasher} {jwt : PyJwt} {settings : AuthSettings}
  {seeded : List UserRow} {s s' : Platform}

theorem authStep_users_subset {auth auth' : AuthServer} {a : AuthAction}
    (h : authStep hasher jwt settings auth a = some auth') :
    auth.registrations.users ⊆ auth'.registrations.users := by
  cases a with
  | tick seconds =>
    cases h
    exact List.Subset.refl _
  | register a =>
    simp only [authStep, Option.bind_eq_bind, Option.bind_eq_some_iff] at h
    obtain ⟨r, hr, h⟩ := h
    cases h
    exact (registrationStep_cases hr).users_subset
  | login email password seconds =>
    simp only [authStep] at h
    split at h
    · cases h
    · cases h
      exact List.Subset.refl _
  | refresh i =>
    simp only [authStep, Option.bind_eq_bind, Option.bind_eq_some_iff] at h
    obtain ⟨old, -, h⟩ := h
    split at h
    · cases h
    · cases h
      exact List.Subset.refl _

theorem PlatformStep.extends (hlisting : ListingServerOk s.listing)
    (h : PlatformStep hasher jwt settings s s') : s.Extends s' := by
  have hsame : ∀ id v, s.listing.db.getById id = some v →
      ∃ v', s.listing.db.getById id = some v' ∧ v'.hostId = v.hostId :=
    fun _ v hv => ⟨v, hv, rfl⟩
  cases h with
  | auth a auth hstep =>
    exact ⟨authStep_users_subset hstep, hsame, List.Subset.refl _, List.Subset.refl _⟩
  | listing a listing decisions hstep =>
    exact ⟨List.Subset.refl _, fun _ _ => (listingStep_cases hstep).host_stable hlisting,
      List.Subset.refl _, List.subset_append_left _ _⟩
  | read i request vehicle shown =>
    exact ⟨List.Subset.refl _, hsame, List.subset_append_left _ _, List.Subset.refl _⟩
  | _ => exact ⟨List.Subset.refl _, hsame, List.Subset.refl _, List.Subset.refl _⟩

/-- The rows of listing after a step of listing. -/
theorem PlatformOk.vehicles_step (h : PlatformOk hasher jwt settings seeded s)
    (hext : s.Extends s') {a : ListingAction}
    (hstep : ListingStep s.listing a s'.listing) {id : Uuid} {v : Vehicle}
    (hv : s'.listing.db.getById id = some v) :
    s'.HasRole "host" v.hostId ∧ (v.approvalStatus ≠ .pending → s'.Decided id) := by
  cases hstep.vehicleOrigin h.listing hv with
  | kept old hold hhost hstatus =>
    obtain ⟨hrole, hdecided⟩ := h.vehicles id old hold
    rw [hhost] at hrole
    rw [hstatus] at hdecided
    exact ⟨hrole.mono hext, fun hp => (hdecided hp).mono hext⟩
  | created t payload ht hop hstatus =>
    have hentitled := h.transactions t ht
    rw [hop] at hentitled
    exact ⟨Platform.HasRole.mono hentitled hext, fun hp => absurd hstatus hp⟩
  | decided old t hold hhost ht hop =>
    have hrole := (h.vehicles id old hold).1
    rw [hhost] at hrole
    have hentitled := h.transactions t ht
    refine ⟨hrole.mono hext, fun _ => ?_⟩
    rcases hop with hop | hop
    · rw [hop] at hentitled
      exact Platform.Decided.mono hentitled hext
    · rw [hop] at hentitled
      exact Platform.Decided.mono hentitled hext

/-- Whoever begins an operation of listing is entitled to. -/
theorem Platform.BeginsListing.entitled {op : ListingOperation} {decisions : List (Uuid × Uuid)}
    (h : s.BeginsListing op decisions) (hext : s.Extends s')
    (hsub : decisions ⊆ s'.decisions) : s'.Entitled op := by
  cases h with
  | create id hostId payload hrole => exact hrole.mono hext
  | update => trivial
  | decide _ adminId hrole hop =>
    have hdecided : s'.Decided op.vehicleId :=
      ⟨adminId, hsub (List.mem_singleton_self _), hrole.mono hext⟩
    rcases hop with hop | hop
    · rw [hop]
      exact hdecided
    · rw [hop]
      exact hdecided

/-- Whoever begins an operation of booking is vouched for. -/
theorem PlatformOk.vouches (h : PlatformOk hasher jwt settings seeded s) {op : BookingOperation}
    (hop : s.BeginsBooking op) : s.Vouches op := by
  cases hop with
  | request request vehicle id hmem hvehicle =>
    obtain ⟨hrole, hshows⟩ := h.requests request hmem
    exact ⟨hrole, hshows vehicle hvehicle⟩
  | operate op bookingId hostId hrole => cases op <;> exact hrole
  | react op hreact => cases hreact <;> trivial

/-- **Every step keeps the invariant.** -/
theorem PlatformOk.step (h : PlatformOk hasher jwt settings seeded s)
    (hstep : PlatformStep hasher jwt settings s s') :
    PlatformOk hasher jwt settings seeded s' := by
  have hext := hstep.extends h.listing
  have hvehicles (id : Uuid) (v : Vehicle) (hv : s.listing.db.getById id = some v) :
      s'.HasRole "host" v.hostId ∧ (v.approvalStatus ≠ .pending → s'.Decided id) :=
    ⟨(h.vehicles id v hv).1.mono hext, fun hp => ((h.vehicles id v hv).2 hp).mono hext⟩
  have htransactions (t : ListingTransaction) (ht : t ∈ s.listing.transactions) :
      s'.Entitled t.op := (h.transactions t ht).mono hext
  have hrequests (request : BookingRequest) (hr : request ∈ s.requests) :
      s'.HasRole "renter" request.renterId ∧
        ∀ vehicle ∈ request.vehicle, ∀ info ∈ vehicle, s'.Shows request.payload.vehicleId info :=
    ⟨(h.requests request hr).1.mono hext,
      fun vehicle hv info hinfo => ((h.requests request hr).2 vehicle hv info hinfo).mono hext⟩
  have hops (op : BookingOperation) (hop : op ∈ s.booking.ops) : s'.Vouches op :=
    (h.ops op hop).mono hext
  cases hstep with
  | auth a auth hstep =>
    exact ⟨.step h.auth hstep, h.listing, h.booking, hvehicles, htransactions, hrequests, hops⟩
  | listing a listing decisions hstep hbegin =>
    have hstep := listingStep_cases hstep
    refine ⟨h.auth, h.listing.step hstep, h.booking, fun id v => h.vehicles_step hext hstep,
      fun t ht => ?_, hrequests, hops⟩
    rcases hstep.op_mem ht with ⟨u, hu, hop⟩ | ha
    · exact hop ▸ htransactions u hu
    · exact (hbegin t.op ha).entitled hext (List.subset_append_right _ _)
  | asked request hrole hnone =>
    refine ⟨h.auth, h.listing, h.booking, hvehicles, htransactions, fun r hr => ?_, hops⟩
    rcases List.mem_append.mp hr with hr | hr
    · exact hrequests r hr
    · rw [List.mem_singleton.mp hr]
      refine ⟨hrole.mono hext, fun vehicle hv => ?_⟩
      rw [hnone] at hv
      cases hv
  | read i request vehicle shown hi hshown hvehicle =>
    refine ⟨h.auth, h.listing, h.booking, hvehicles, htransactions, fun r hr => ?_, hops⟩
    rcases List.mem_or_eq_of_mem_set hr with hr | rfl
    · exact hrequests r hr
    · refine ⟨(hrequests request (List.mem_of_getElem? hi)).1, fun found hfound info hinfo => ?_⟩
      obtain rfl : vehicle = found := Option.some.inj hfound
      obtain ⟨v, hv, rfl⟩ := hvehicle info hinfo
      have hrow := hshown v hv
      exact ⟨⟨v, hrow, rfl⟩, v, List.mem_append_right _ hv, RowTable.key_of_lookup hrow, rfl⟩
  | dropped i =>
    exact ⟨h.auth, h.listing, h.booking, hvehicles, htransactions,
      fun r hr => hrequests r (ProcessFamily.mem_of_mem_eraseIdx hr), hops⟩
  | booking a booking requests hstep hsub hbegin =>
    refine ⟨h.auth, h.listing, h.booking.step (serverStep_cases hstep), hvehicles, htransactions,
      fun r hr => hrequests r (hsub hr), fun op hop => ?_⟩
    rcases ServerStep.op_mem hstep hop with hop | ⟨autoflush, ha⟩
    · exact hops op hop
    · exact (h.vouches (hbegin op autoflush ha)).mono hext

theorem platformOk_of_reachable (hjwt : jwt.Correct) (hseeded : Seeded seeded)
    (h : (platform hasher jwt settings seeded).Reachable s) :
    PlatformOk hasher jwt settings seeded s := by
  refine h.invariant _ ?_ fun s a s' _ hs hstep =>
    hs.step (platformStep_cases hjwt hseeded hs.auth hstep)
  have hnone : ∀ id v, ListingDb.getById {} id = some v →
      (platform hasher jwt settings seeded).init.HasRole "host" v.hostId ∧
        (v.approvalStatus ≠ .pending → (platform hasher jwt settings seeded).init.Decided id) :=
    fun _ _ hv => by cases hv
  exact ⟨.init, .nil, serverOk_init, hnone, by simp [platform], by simp [platform],
    by simp [platform, BookingServer.ops]⟩

/-- Two roles, two users. -/
theorem PlatformOk.ne_of_role (hseeded : Seeded seeded)
    (h : PlatformOk hasher jwt settings seeded s) {role role' : String} {userId userId' : Uuid}
    (hrole : s.HasRole role userId) (hrole' : s.HasRole role' userId') (hne : role ≠ role') :
    userId ≠ userId' := by
  have hok := registrationsOk_of_reachable hseeded (authServer_registrations h.auth)
  obtain ⟨user, huser, hid, rfl⟩ := hrole
  obtain ⟨user', huser', hid', rfl⟩ := hrole'
  rintro rfl
  have hrow := hok.getUserById_iff.mpr ⟨huser, hid⟩
  have hrow' := hok.getUserById_iff.mpr ⟨huser', hid'⟩
  exact hne (congrArg (fun user => user.role) (Option.some.inj (hrow.symm.trans hrow')))

end Invariant

/-! ### The parties -/

/-- The host who begins an operation. -/
def BookingOperation.host? : BookingOperation → Option Uuid
  | .acceptBookingRequest _ hostId | .rejectBookingRequest _ hostId
  | .recordHandover _ hostId _ | .recordReturn _ hostId _ => some hostId
  | .requestBooking .. | .applyPaymentAuthorized _ | .applyPaymentAuthorizationFailed _
  | .applyPaymentCaptured _ | .applyPaymentCaptureFailed _ => none

theorem Accepts.host_eq {row : Booking} {op : BookingOperation} {w : Writes} {hostId : Uuid}
    (h : Accepts row op w) (hop : op.host? = some hostId) : row.hostId = hostId := by
  cases h <;> cases hop <;> rfl

/-- An operation of a host was on a booking of that host. -/
theorem host_of_serial {ops : List BookingOperation} {db : BookingDb}
    (h : ops.foldlM BookingDb.execute {} = .ok db) {op : BookingOperation} (hop : op ∈ ops)
    {hostId : Uuid} (hhost : op.host? = some hostId) :
    ∃ row, db.getById op.bookingId = some row ∧ row.hostId = hostId := by
  induction ops using List.reverseRecOn generalizing db with
  | nil => cases hop
  | append_singleton ops last ih =>
    rw [List.foldlM_append, Except.bind_eq_ok_iff] at h
    obtain ⟨db₀, h₀, h⟩ := h
    have hexec : db₀.execute last = .ok db := by simpa using h
    obtain ⟨w, -, -, heffect, hself, hothers, -⟩ := BookingDb.execute_writes hexec
    have hself : db.getById last.bookingId = some w.booking := congrArg BookingView.row hself
    rcases List.mem_append.mp hop with hop | hop
    · obtain ⟨row, hrow, hsame⟩ := ih h₀ hop
      by_cases hb : last.bookingId = op.bookingId
      swap
      · exact ⟨row, (congrArg BookingView.row (hothers _ hb)).trans hrow, hsame⟩
      rw [hb] at heffect hself
      refine ⟨w.booking, hself, ?_⟩
      cases heffect with
      | opened id vehicle renterId payload hnone => cases hnone.symm.trans hrow
      | operated _ _ old hold haccepts =>
        obtain rfl : old = row := Option.some.inj (hold.symm.trans hrow)
        exact (congrArg Booking.hostId haccepts.opened_eq).trans hsame
    · rw [List.mem_singleton.mp hop] at hhost ⊢
      refine ⟨w.booking, hself, ?_⟩
      cases heffect with
      | opened => cases hhost
      | operated _ _ old hold haccepts =>
        exact (congrArg Booking.hostId haccepts.opened_eq).trans (haccepts.host_eq hhost)

section Parties

variable {hasher : PasswordHasher} {jwt : PyJwt} {settings : AuthSettings}
  {seeded : List UserRow} {s : Platform}

/-- **Nobody books their own car.** Every booking has a host who is registered as a host and hosts
the vehicle, and a renter who is registered as a renter and is somebody else. It is made on the
terms on which listing has shown the vehicle, then approved; and whatever a host has committed about
it was begun by its own host. -/
theorem bookings_have_two_parties (hjwt : jwt.Correct) (hseeded : Seeded seeded)
    (h : (platform hasher jwt settings seeded).Reachable s) :
    ∀ b row, s.booking.db.getById b = some row →
      s.HasRole "host" row.hostId ∧ s.HasRole "renter" row.renterId ∧
      row.hostId ≠ row.renterId ∧
      (∃ v, s.listing.db.getById row.vehicleId = some v ∧ v.hostId = row.hostId) ∧
      (∃ v ∈ s.shown, v.id = row.vehicleId ∧ v.approvalStatus = .approved ∧
        v.hostId = row.hostId ∧ v.dailyPriceCents = row.dailyPriceCents ∧
        v.dailyMileageLimit = row.dailyMileageLimit ∧ v.bookingMode = row.bookingMode) ∧
      ∀ c ∈ s.booking.history, c.op.bookingId = b → ∀ hostId, c.op.host? = some hostId →
        hostId = row.hostId := by
  have hok := platformOk_of_reachable hjwt hseeded h
  intro b row hrow
  obtain ⟨info, renterId, payload, hop, happroved, hopened⟩ :=
    opened_of_serial hok.booking.serial hrow
  obtain ⟨hrenter, hshows⟩ := hok.ops _ (List.mem_append_right _ hop)
  obtain ⟨⟨v, hv, hhost⟩, shown, hmem, hid, rfl⟩ := hshows info rfl
  have hrowHost : row.hostId = shown.hostId := congrArg Booking.hostId hopened
  have hrowRenter : row.renterId = renterId := congrArg Booking.renterId hopened
  have hrowVehicle : row.vehicleId = payload.vehicleId := congrArg Booking.vehicleId hopened
  rw [hrowHost, hrowRenter, hrowVehicle]
  have hhosts : s.HasRole "host" v.hostId := (hok.vehicles _ v hv).1
  rw [show v.hostId = shown.hostId from hhost] at hhosts
  refine ⟨hhosts, hrenter, hok.ne_of_role hseeded hhosts hrenter (by decide), ⟨v, hv, hhost⟩,
    ⟨shown, hmem, hid, happroved, rfl, (congrArg Booking.dailyPriceCents hopened).symm,
      (congrArg Booking.dailyMileageLimit hopened).symm,
      (congrArg Booking.bookingMode hopened).symm⟩, fun c hc hb hostId hhost => ?_⟩
  obtain ⟨row', hrow', hsame⟩ :=
    host_of_serial hok.booking.serial (List.mem_map_of_mem hc) hhost
  rw [hb, hrow, Option.some.injEq] at hrow'
  rw [← hsame, ← hrow', hrowHost]

/-- **No vehicle is approved or rejected but by a seeded administrator**, and every vehicle has a
host who is registered as one. -/
theorem vehicles_decided_by_admins (hjwt : jwt.Correct) (hseeded : Seeded seeded)
    (h : (platform hasher jwt settings seeded).Reachable s) :
    ∀ id v, s.listing.db.getById id = some v →
      s.HasRole "host" v.hostId ∧
      (v.approvalStatus ≠ .pending → ∃ admin ∈ seeded, (id, admin.id) ∈ s.decisions) := by
  have hok := platformOk_of_reachable hjwt hseeded h
  have husers := registrationsOk_of_reachable hseeded (authServer_registrations hok.auth)
  intro id v hv
  obtain ⟨hhost, hdecided⟩ := hok.vehicles id v hv
  refine ⟨hhost, fun hp => ?_⟩
  obtain ⟨adminId, hmem, user, huser, rfl, hrole⟩ := hdecided hp
  exact ⟨user, (husers.role_admin_iff hseeded huser).mp hrole, hmem⟩

end Parties

/-! ### A sample run -/

/-- A user with that email registers with that identifier, and logs in. -/
def sampleSignUp (role : RegisterRole) (email : String) (id : Uuid) : List PlatformAction :=
  let request : RegisterRequest := { sampleRegistration with email, role }
  [.auth (.register (.begin request)), .auth (.register (.lookUp 0)),
    .auth (.register (.insert 0 id "")), .auth (.register (.commit 0)),
    .auth (.login email sampleRegistration.password 0)]

/-- A host, a renter and the administrator. -/
def sampleLogins : List PlatformAction :=
  sampleSignUp .host "h@example.com" 5 ++ sampleSignUp .renter "r@example.com" 6 ++
    [.auth (.login "admin@example.com" "adminpassword123" 0)]

/-- The tokens of a user who has logged in at the beginning. -/
def sampleTokens (id : Uuid) (role : String) : String × String :=
  issueTokenPair sampleJwt { id, role } sampleAuthSettings 0 0

def sampleHeader (id : Uuid) (role : String) : String := "Bearer " ++ (sampleTokens id role).1

/-- The transaction of a request. -/
def sampleBooking : List ServerAction := [.run 0, .run 0, .run 0, .run 0, .commit 0]

/-- What listing shows of the car. -/
def samplePanda : VehicleInfo where
  id := 7
  hostId := 5
  dailyPriceCents := 5000
  dailyMileageLimit := 200
  bookingMode := .instant
  approvalStatus := .approved

/-- The event of its approval. -/
def samplePandaEvent : OutboxRow ListingMessage where
  id := 0
  aggregateId := 7
  payload :=
    { eventType := .vehicleApproved
      data := { vehicleId := 7, hostId := 5, make := "Fiat", model := "Panda", year := 2020
                dailyPriceCents := 5000, dailyMileageLimit := 200, bookingMode := .instant
                approvalStatus := .approved, latitude := 0, longitude := 0 } }

/-- The host lists a car, the administrator approves it, and the renter books it. -/
def sampleMarket : List PlatformAction :=
  [.createVehicle (sampleHeader 5 "host") 7
      { make := "Fiat", model := "Panda", year := 2020, dailyPriceCents := 5000
        dailyMileageLimit := 200, latitude := 0, longitude := 0 },
    .listing (.flush 0), .listing (.commit 0),
    .approveVehicle (sampleHeader 1 "admin") 7, .listing (.flush 0), .listing (.commit 0),
    .askBooking (sampleHeader 6 "renter") sampleDates, .getVehicle 0,
    .requestBooking 0 9 true] ++ sampleBooking.map .booking

/-- The sample platform. -/
abbrev samplePlatform : TransitionSystem Platform PlatformAction :=
  platform sampleHasher sampleJwt sampleAuthSettings sampleSeeded

theorem sampleLogins_run :
    ∃ auth : AuthServer, samplePlatform.run samplePlatform.init sampleLogins = some { auth } ∧
      auth.now = 0 ∧ auth.issued.map (·.tokens) =
        [sampleTokens 5 "host", sampleTokens 6 "renter", sampleTokens 1 "admin"] :=
  ⟨_, rfl, rfl, rfl⟩

theorem run_booking {s : Platform} {booking : BookingServer} {as : List ServerAction}
    (hbegin : ∀ a ∈ as, ∀ op autoflush, a ≠ .begin op autoflush)
    (hrun : bookingServer.run s.booking as = some booking) :
    samplePlatform.run s (as.map .booking) = some { s with booking } := by
  induction as generalizing s with
  | nil =>
    obtain rfl : s.booking = booking := Option.some.inj hrun
    rfl
  | cons a as ih =>
    obtain ⟨next, hstep, hrun⟩ := TransitionSystem.run_cons_iff.mp hrun
    have ih : samplePlatform.run { s with booking := next } (as.map .booking) =
        some { s with booking } :=
      ih (fun b hb => hbegin b (.tail _ hb)) hrun
    refine TransitionSystem.run_cons_iff.mpr ⟨_, ?_, ih⟩
    have hstep : s.stepBooking a = some { s with booking := next } :=
      Option.bind_eq_some_iff.mpr ⟨next, hstep, rfl⟩
    cases a with
    | begin op autoflush => exact absurd rfl (hbegin _ (.head _) op autoflush)
    | _ => exact hstep

theorem sampleMarket_run {auth : AuthServer} (hnow : auth.now = 0)
    (hissued : auth.issued.map (·.tokens) =
      [sampleTokens 5 "host", sampleTokens 6 "renter", sampleTokens 1 "admin"]) :
    ∃ s, samplePlatform.run { auth } sampleMarket = some s ∧ s.auth = auth ∧
      (s.booking.db.getById 9).map (·.renterId) = some 6 ∧
      (s.listing.db.getById 7).map (·.approvalStatus) = some .approved ∧
      s.listing.db.outbox = [samplePandaEvent] := by
  have hcaller {s : Platform} {route : Route} {id : Uuid} {role : String} (hs : s.auth = auth)
      (hmem : sampleTokens id role ∈ auth.issued.map (·.tokens)) (hid : id < 16 ^ 32)
      (hrole : ∀ r, route.role = some r → role = r) :
      s.caller sampleJwt sampleAuthSettings route (sampleHeader id role) = some id := by
    subst hs
    obtain ⟨issued, hmem, htokens⟩ := List.mem_map.mp hmem
    have hexp : s.auth.now < 0 + sampleAuthSettings.accessTokenTtlSeconds := by
      rw [hnow]
      decide
    have hcaller := caller_issued sampleJwt_correct hmem htokens hid hexp hrole
    rwa [htokens] at hcaller
  have hhost {s : Platform} (hs : s.auth = auth) : s.caller sampleJwt sampleAuthSettings
      .listingCreate (sampleHeader 5 "host") = some 5 :=
    hcaller hs (by simp [hissued]) (by decide) fun r hr => Option.some.inj hr
  have hadmin {s : Platform} (hs : s.auth = auth) : s.caller sampleJwt sampleAuthSettings
      .listingApprove (sampleHeader 1 "admin") = some 1 :=
    hcaller hs (by simp [hissued]) (by decide) fun r hr => Option.some.inj hr
  have hrenter {s : Platform} (hs : s.auth = auth) : s.caller sampleJwt sampleAuthSettings
      .bookingCreate (sampleHeader 6 "renter") = some 6 :=
    hcaller hs (by simp [hissued]) (by decide) fun r hr => Option.some.inj hr
  have hget {s : Platform} {payload : CreateBookingRequest} {v : Vehicle} (hs : s.auth = auth)
      (hi : s.requests[0]? = some
        { authorization := sampleHeader 6 "renter", renterId := 6, payload })
      (hv : s.listing.db.getById payload.vehicleId = some v)
      (happroved : v.approvalStatus = .approved) :
      samplePlatform.step s (.getVehicle 0) = some { s with
        requests := s.requests.set 0 { authorization := sampleHeader 6 "renter", renterId := 6
                                       payload, vehicle := some (some v.info) }
        shown := s.shown ++ [v] } := by
    subst hs
    obtain ⟨issued, hmem, htokens⟩ := List.mem_map.mp
      (show sampleTokens 6 "renter" ∈ s.auth.issued.map (·.tokens) by simp [hissued])
    have hexp : s.auth.now < 0 + sampleAuthSettings.accessTokenTtlSeconds := by
      rw [hnow]
      decide
    have hroute := getVehicleRoute_approved sampleJwt_correct htokens (by decide) hexp hv happroved
    rw [htokens] at hroute
    refine Option.bind_eq_some_iff.mpr ⟨_, hi, ?_⟩
    simp only [sampleHeader, hroute]
    rfl
  have hbook : (bookingServer.run {} (.begin (.requestBooking 9 (some samplePanda) 6 sampleDates)
      true :: sampleBooking)).map (fun booking => (booking.db.getById 9).map (·.renterId)) =
        some (some 6) := by
    decide
  obtain ⟨booking, hbook, hrow⟩ := Option.map_eq_some_iff.mp hbook
  obtain ⟨begun, hbegin, hbook⟩ := TransitionSystem.run_cons_iff.mp hbook
  have hrequest {s : Platform} {request : BookingRequest} (hi : s.requests[0]? = some request)
      (hvehicle : request.vehicle = some (some samplePanda)) (hrenter : request.renterId = 6)
      (hpayload : request.payload = sampleDates) (hbooking : s.booking = {}) :
      samplePlatform.step s (.requestBooking 0 9 true) =
        some { s with requests := s.requests.eraseIdx 0, booking := begun } := by
    refine Option.bind_eq_some_iff.mpr ⟨request, hi, Option.bind_eq_some_iff.mpr ⟨_, hvehicle, ?_⟩⟩
    rw [hrenter, hpayload, Platform.stepBooking, hbooking]
    exact Option.bind_eq_some_iff.mpr ⟨begun, hbegin, rfl⟩
  have run_cons {s s' s'' : Platform} {a : PlatformAction} {as : List PlatformAction}
      (hstep : samplePlatform.step s a = some s') (hrun : samplePlatform.run s' as = some s'') :
      samplePlatform.run s (a :: as) = some s'' :=
    TransitionSystem.run_cons_iff.mpr ⟨s', hstep, hrun⟩
  exact ⟨_, run_cons (Option.bind_eq_some_iff.mpr ⟨5, hhost rfl, rfl⟩) <| run_cons rfl <|
    run_cons rfl <| run_cons (Option.bind_eq_some_iff.mpr ⟨1, hadmin rfl, rfl⟩) <| run_cons rfl <|
    run_cons rfl <| run_cons (Option.bind_eq_some_iff.mpr ⟨6, hrenter rfl, rfl⟩) <|
    run_cons (hget rfl rfl rfl rfl) <| run_cons (hrequest rfl rfl rfl rfl rfl) <|
    run_booking (by simp [sampleBooking]) hbook, rfl, hrow, rfl, rfl⟩

theorem sampleMarket_reachable :
    ∃ s, samplePlatform.Reachable s ∧ s.auth.now = 0 ∧
      sampleTokens 6 "renter" ∈ s.auth.issued.map (·.tokens) ∧
      (s.booking.db.getById 9).map (·.renterId) = some 6 ∧
      (s.listing.db.getById 7).map (·.approvalStatus) = some .approved ∧
      s.listing.db.outbox = [samplePandaEvent] := by
  obtain ⟨auth, hlogins, hnow, hissued⟩ := sampleLogins_run
  obtain ⟨s, hrun, rfl, hend⟩ := sampleMarket_run hnow hissued
  have hreachable := TransitionSystem.reachable_of_run .init hlogins
  exact ⟨s, TransitionSystem.reachable_of_run hreachable hrun, hnow, by simp [hissued], hend⟩

theorem bookings_have_two_parties_sampleMarket :
    ∃ s, samplePlatform.Reachable s ∧ ∃ row, s.booking.db.getById 9 = some row ∧
      s.HasRole "host" row.hostId ∧ s.HasRole "renter" row.renterId ∧
      row.hostId ≠ row.renterId := by
  obtain ⟨s, hs, -, -, hrow, -⟩ := sampleMarket_reachable
  obtain ⟨row, hrow, -⟩ := Option.map_eq_some_iff.mp hrow
  obtain ⟨hhost, hrenter, hne, -⟩ :=
    bookings_have_two_parties sampleJwt_correct sampleSeeded_seeded hs 9 row hrow
  exact ⟨s, hs, row, hrow, hhost, hrenter, hne⟩

theorem vehicles_decided_by_admins_sampleMarket :
    ∃ s, samplePlatform.Reachable s ∧ ∃ v, s.listing.db.getById 7 = some v ∧
      v.approvalStatus = .approved ∧ s.HasRole "host" v.hostId ∧
      ∃ admin ∈ sampleSeeded, (7, admin.id) ∈ s.decisions := by
  obtain ⟨s, hs, -, -, -, hv, -⟩ := sampleMarket_reachable
  obtain ⟨v, hv, happroved⟩ := Option.map_eq_some_iff.mp hv
  obtain ⟨hhost, hdecided⟩ :=
    vehicles_decided_by_admins sampleJwt_correct sampleSeeded_seeded hs 7 v hv
  exact ⟨s, hs, v, hv, happroved, hhost, hdecided (by rw [happroved]; decide)⟩

end CarFlow
