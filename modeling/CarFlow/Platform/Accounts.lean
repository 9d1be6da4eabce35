import CarFlow.Platform.System

/-!
# What a step of the platform does

Neither listing nor booking has a table of users: all they know of a caller is what its token says.
Tokens name a user and the role it was registered with, and roles never change.

## Implementation notes

The three services share no data, so what one of them knows of a user has to be read off a token.
`presented_user` does that once: a token that is accepted was issued to a user of `users`, and names
the role of that row. `caller_user` and `caller_issued` are the two directions of it for a route.

`PlatformStep` has for each step what its caller was checked for, in the terms of the platform
(`BeginsListing`, `BeginsBooking`): the invariants that follow are proved from it, and do not
mention headers any more.

## Main results

* `caller_user`, `caller_issued` — who the callers of a route are: the users of its role
* `platformStep_cases` — the ways a step can go, with what its caller may do
* `ListingStep.vehicleOrigin`, `opened_of_serial` — where the rows of listing and booking come from
-/

namespace CarFlow

/-! ### The rows of listing

A row comes from a transaction that was begun, and a transaction from a request. So what is known of
the caller of the request is known of the row. -/

section Listing

variable {s s' : ListingServer} {a : ListingAction} {id : Uuid} {v v' : Vehicle}

/-- Where the row of a vehicle comes from. -/
inductive VehicleOrigin (s : ListingServer) (id : Uuid) (v' : Vehicle) : Prop
  /-- It was there, with the same host and status. -/
  | kept (v : Vehicle) (hv : s.db.getById id = some v) (hhost : v.hostId = v'.hostId)
      (hstatus : v.approvalStatus = v'.approvalStatus)
  | created (t : ListingTransaction) (payload : CreateVehicleRequest) (ht : t ∈ s.transactions)
      (hop : t.op = .createVehicle id v'.hostId payload) (hstatus : v'.approvalStatus = .pending)
  | decided (v : Vehicle) (t : ListingTransaction) (hv : s.db.getById id = some v)
      (hhost : v.hostId = v'.hostId) (ht : t ∈ s.transactions)
      (hop : t.op = .approveVehicle id ∨ t.op = .rejectVehicle id)

/-- The row after a commit. -/
theorem ListingTransaction.Ok.vehicleOrigin {t : ListingTransaction} (ht : t.Ok s.db)
    (hmem : t ∈ s.transactions) (hflushed : t.flushed = true)
    (hv' : (s.db.commit t).getById id = some v') : VehicleOrigin s id v' := by
  by_cases hid : t.op.vehicleId = id
  swap
  · rw [ht.commit_getById_of_ne hid] at hv'
    exact .kept v' hv' rfl rfl
  subst hid
  cases hread : t.read with
  | none =>
    obtain ⟨hc, -⟩ := ht.opens hread
    rw [(ht.commit_getById hflushed).1 hread, Option.some.injEq] at hv'
    subst hv'
    have hplanned := ht.planned
    cases hop : t.op with
    | createVehicle id hostId payload =>
      rw [hop, ListingOperation.plan, Except.ok.injEq] at hplanned
      rw [← hplanned]
      exact .created t payload hmem hop rfl
    | _ =>
      rw [hop] at hc
      cases hc
  | some row =>
    obtain ⟨-, current, hcurrent, -⟩ := ht.read row hread
    rw [(ht.commit_getById hflushed).2 row hread current hcurrent, Option.some.injEq] at hv'
    subst hv'
    have hacc := ht.accepts hread
    generalize hop : t.op = op at hacc hcurrent
    generalize t.writes = w at hacc
    cases hacc with
    | update vehicleId fields =>
      exact .kept current hcurrent rfl (by simp [Vehicle.updateColumns, Vehicle.assign])
    | approve vehicleId => exact .decided current t hcurrent rfl hmem (.inl hop)
    | reject vehicleId => exact .decided current t hcurrent rfl hmem (.inr hop)

theorem ListingStep.vehicleOrigin (hok : ListingServerOk s) (hstep : ListingStep s a s')
    (hv' : s'.db.getById id = some v') : VehicleOrigin s id v' := by
  cases hstep with
  | committed i t hi hflushed =>
    have hmem : t ∈ s.transactions := List.mem_of_getElem? hi
    exact (hok.each t hmem).vehicleOrigin hmem hflushed hv'
  | _ => exact .kept v' hv' rfl rfl

/-- A transaction under way was there before the step, or begins with it. -/
theorem ListingStep.op_mem (hstep : ListingStep s a s') {t : ListingTransaction}
    (ht : t ∈ s'.transactions) : (∃ u ∈ s.transactions, u.op = t.op) ∨ a = .begin t.op := by
  cases hstep with
  | began op w hplan =>
    rcases List.mem_append.mp ht with ht | ht
    · exact .inl ⟨t, ht, rfl⟩
    · rw [List.mem_singleton.mp ht]
      exact .inr rfl
  | flushed i u own hi hflush =>
    rcases List.mem_or_eq_of_mem_set ht with ht | rfl
    · exact .inl ⟨t, ht, rfl⟩
    · exact .inl ⟨u, List.mem_of_getElem? hi, rfl⟩
  | _ => exact .inl ⟨t, ProcessFamily.mem_of_mem_eraseIdx ht, rfl⟩

end Listing

/-! ### The rows of booking

The same for booking, where the operations are in a history. -/

section Booking

variable {s s' : BookingServer}

/-- The row was opened by a request that was committed. -/
def OpenedBy (ops : List BookingOperation) (row : Booking) : Prop :=
  ∃ info renterId payload, .requestBooking row.id (some info) renterId payload ∈ ops ∧
    info.approvalStatus = .approved ∧
    row.opened = createRequested row.id info renterId payload

/-- Each booking was opened by one of the operations that made the database. -/
theorem opened_of_serial {ops : List BookingOperation} {db : BookingDb}
    (h : ops.foldlM BookingDb.execute {} = .ok db) {b : Uuid} {row : Booking}
    (hrow : db.getById b = some row) : OpenedBy ops row := by
  induction ops using List.reverseRecOn generalizing db b row with
  | nil =>
    cases h
    cases hrow
  | append_singleton ops op ih =>
    rw [List.foldlM_append, Except.bind_eq_ok_iff] at h
    obtain ⟨db₀, h₀, h⟩ := h
    have hexec : db₀.execute op = .ok db := by simpa using h
    have hmono {row : Booking} (h : OpenedBy ops row) : OpenedBy (ops ++ [op]) row := by
      obtain ⟨info, renterId, payload, hop, hrest⟩ := h
      exact ⟨info, renterId, payload, List.mem_append_left _ hop, hrest⟩
    obtain ⟨w, -, -, heffect, hself, hothers, -⟩ := BookingDb.execute_writes hexec
    by_cases hb : op.bookingId = b
    swap
    · exact hmono (ih h₀ ((congrArg BookingView.row (hothers b hb)).symm.trans hrow))
    subst hb
    have hrow' : row = w.booking :=
      Option.some.inj (hrow.symm.trans (congrArg BookingView.row hself))
    cases heffect with
    | opened id info renterId payload hnone =>
      have happroved : info.approvalStatus = .approved := by
        obtain ⟨w, hplan, -⟩ := BookingDb.execute_ok_iff.mp hexec
        have hplan : requestBooking id (some info) renterId payload = .ok w := hplan
        obtain ⟨v, hv, happroved, -⟩ := requestBooking_ok_iff.mp hplan
        rwa [Option.some.inj hv]
      subst hrow'
      exact ⟨info, renterId, payload, List.mem_append_right _ (List.mem_singleton_self _),
        happroved, rfl⟩
    | operated _ _ old hold haccepts =>
      have hopened : row.opened = old.opened := hrow' ▸ haccepts.opened_eq
      have hid : row.opened.id = old.opened.id := congrArg Booking.id hopened
      change row.id = old.id at hid
      obtain ⟨info, renterId, payload, hop, happroved, hterms⟩ := hmono (ih h₀ hold)
      exact ⟨info, renterId, payload, hid ▸ hop, happroved, by rw [hopened, hterms, hid]⟩

/-- The operations of the transactions that are under way or committed. -/
def BookingServer.ops (s : BookingServer) : List BookingOperation :=
  s.transactions.map (·.op) ++ s.history.map (·.op)

/-- They were there before the step, or begin with it. -/
theorem ServerStep.op_mem {a : ServerAction} (h : serverStep s a = some s')
    {op : BookingOperation} (hop : op ∈ s'.ops) :
    op ∈ s.ops ∨ ∃ autoflush, a = .begin op autoflush := by
  have hold {t : Transaction} (ht : t ∈ s.transactions) : t.op ∈ s.ops :=
    List.mem_append_left _ (List.mem_map_of_mem ht)
  have hset {i : ℕ} {t t' : Transaction} (hi : s.transactions[i]? = some t)
      (hop : op ∈ { s with transactions := s.transactions.set i t' }.ops) (ht' : t'.op = t.op) :
      op ∈ s.ops := by
    rcases List.mem_append.mp hop with hop | hop
    · obtain ⟨u, hu, rfl⟩ := List.mem_map.mp hop
      rcases List.mem_or_eq_of_mem_set hu with hu | rfl
      · exact hold hu
      · exact ht' ▸ hold (List.mem_of_getElem? hi)
    · exact List.mem_append_right _ hop
  have herase {i : ℕ}
      (hop : op ∈ (s.transactions.eraseIdx i).map (·.op) ++ s.history.map (·.op)) : op ∈ s.ops := by
    rcases List.mem_append.mp hop with hop | hop
    · obtain ⟨u, hu, rfl⟩ := List.mem_map.mp hop
      exact hold (ProcessFamily.mem_of_mem_eraseIdx hu)
    · exact List.mem_append_right _ hop
  cases a with
  | begin op' autoflush =>
    simp only [serverStep] at h
    split at h
    · cases h
    · cases h
      simp only [BookingServer.ops, List.map_append, List.map_cons, List.map_nil,
        List.mem_append, List.mem_singleton] at hop ⊢
      rcases hop with (hop | rfl) | hop
      · exact .inl (.inl hop)
      · exact .inr ⟨autoflush, rfl⟩
      · exact .inl (.inr hop)
  | run i =>
    simp only [serverStep, Option.bind_eq_bind, Option.bind_eq_some_iff] at h
    obtain ⟨t, hi, h⟩ := h
    split at h
    · cases h
    · split at h
      · cases h
      · cases h
        exact .inl (herase hop)
      · cases h
        exact .inl (hset hi hop rfl)
  | commit i =>
    simp only [serverStep, Option.bind_eq_bind, Option.bind_eq_some_iff] at h
    obtain ⟨t, hi, h⟩ := h
    split at h
    · cases h
      simp only [BookingServer.ops, List.map_append, List.map_cons, List.map_nil,
        List.mem_append, List.mem_singleton] at hop
      rcases hop with hop | hop | rfl
      · exact .inl (herase (List.mem_append_left _ hop))
      · exact .inl (List.mem_append_right _ hop)
      · exact .inl (hold (List.mem_of_getElem? hi))
    · cases h
  | abort i =>
    simp only [serverStep, Option.bind_eq_bind, Option.bind_eq_some_iff] at h
    obtain ⟨t, hi, h⟩ := h
    cases h
    exact .inl (herase hop)

end Booking

/-! ### Callers

From a token to a user, and from a user to a token. -/

/-- A user with the role. -/
def Platform.HasRole (s : Platform) (role : String) (userId : Uuid) : Prop :=
  ∃ user ∈ s.auth.registrations.users, user.id = userId ∧ user.role = role

section Callers

variable {hasher : PasswordHasher} {jwt : PyJwt} {settings : AuthSettings}
  {seeded : List UserRow} {s s' : Platform} {userId : Uuid}

/-- A route that lets a request pass has seen the role it asks for. -/
theorem Route.authorize_role {settings : JwtSettings} {route : Route}
    {guard : Except HttpException Unit} {authorization : Option String} {now : ℤ}
    {claims : TokenClaims} {role : String}
    (h : route.authorize jwt settings guard authorization now = .ok claims)
    (hrole : route.role = some role) : claims.role = role := by
  simp only [Route.authorize, Except.bind_eq_ok_iff] at h
  obtain ⟨_, _, found, _, _, hfound, h⟩ := h
  rw [Except.ok.injEq] at h
  simp only [Route.requireRole, hrole] at hfound
  rw [← h]
  exact List.mem_singleton.mp (requireRole_ok_iff.mp hfound)

/-- Whoever presents a token that is accepted is a user, of the role that the token names. -/
theorem presented_user (hjwt : jwt.Correct) (hseeded : Seeded seeded)
    (hauth : (authServer hasher jwt settings seeded).Reachable s.auth) {authorization : String}
    {claims : TokenClaims} {now : ℤ} (hpresents : s.auth.Presents authorization)
    (hclaims : claimsDependency jwt settings.toJwtSettings .access (some authorization) now =
      .ok claims) :
    ∃ user ∈ s.auth.registrations.users, uuidOfString claims.sub = some user.id ∧
      claims.role = user.role := by
  obtain ⟨issued, hissued, token, htoken, hbearer⟩ := hpresents
  have hok := registrationsOk_of_reachable hseeded (authServer_registrations hauth)
  obtain ⟨user, huser, -, -, hof⟩ := sessionsOk_of_reachable hjwt hseeded hauth issued hissued
  obtain ⟨token', hbearer', hdecode, -⟩ := claimsDependency_ok_iff.mp hclaims
  obtain rfl := Except.ok.inj (hbearer.symm.trans hbearer')
  obtain ⟨hsub, hrole⟩ := hof.claims_eq hjwt htoken hdecode
  exact ⟨user, huser, by rw [hsub, uuidOfString_uuidStr (hok.id_lt hseeded huser)], hrole⟩

/-- **A caller is a user**, of the role that the route asks for. -/
theorem caller_user (hjwt : jwt.Correct) (hseeded : Seeded seeded)
    (hauth : (authServer hasher jwt settings seeded).Reachable s.auth) {route : Route}
    {authorization role : String}
    (h : s.caller jwt settings route authorization = some userId)
    (hrole : route.role = some role) : s.HasRole role userId := by
  unfold Platform.caller at h
  split at h
  swap
  · cases h
  rename_i hpresents
  split at h
  · cases h
  rename_i claims hpass
  obtain ⟨user, huser, hsub, hclaims⟩ :=
    presented_user hjwt hseeded hauth hpresents (Route.authorize_ok hpass)
  rw [hsub, Option.some.injEq] at h
  exact ⟨user, huser, h, hclaims.symm.trans (Route.authorize_role hpass hrole)⟩

/-- A route lets a request pass with an access token of the role that it asks for. -/
theorem Route.authorize_ok_iff {settings : JwtSettings} {route : Route}
    {authorization : Option String} {now : ℤ} {claims : TokenClaims} :
    route.authorize jwt settings (.ok ()) authorization now = .ok claims ↔
      claimsDependency jwt settings .access authorization now = .ok claims ∧
        ∀ role, route.role = some role → claims.role = role := by
  constructor
  · exact fun h => ⟨Route.authorize_ok h, fun role hrole => Route.authorize_role h hrole⟩
  · rintro ⟨hclaims, hrole⟩
    have hguard : route.getGuard (.ok ()) = .ok () := by
      unfold Route.getGuard
      split <;> rfl
    have hrequire : route.requireRole claims = .ok () := by
      unfold Route.requireRole
      split
      · rfl
      · rename_i role hr
        exact requireRole_ok_iff.mpr (List.mem_singleton.mpr (hrole role hr))
    simp only [Route.authorize, hguard, hclaims, hrequire, bind, Except.bind]

/-- The holder of an access token passes every route that asks for its role. -/
theorem Route.authorize_bearer {settings : JwtSettings} {route : Route} {token : String} {now : ℤ}
    {claims : TokenClaims} (hdecode : decodeToken jwt settings token now = some claims)
    (htype : claims.type = .access) (hrole : ∀ role, route.role = some role → claims.role = role) :
    route.authorize jwt settings (.ok ()) (some ("Bearer " ++ token)) now = .ok claims :=
  authorize_ok_iff.mpr
    ⟨claimsDependency_ok_iff.mpr ⟨token, bearerToken_bearer token, hdecode, htype⟩, hrole⟩

section Issued

variable {user : User} {issued : IssuedPair} {accessAt refreshAt : ℤ} {route : Route}

theorem decodeToken_issued (hjwt : jwt.Correct)
    (htokens : issued.tokens = issueTokenPair jwt user settings accessAt refreshAt) {now : ℤ}
    (hexp : now < accessAt + settings.accessTokenTtlSeconds) :
    decodeToken jwt settings.toJwtSettings issued.tokens.1 now =
      some (tokenClaims user.id user.role .access settings.jwtIssuer
        settings.accessTokenTtlSeconds accessAt) := by
  rw [htokens]
  exact hjwt.decodeToken_iff.mpr ⟨rfl, rfl, hexp⟩

/-- **A user is a caller** for as long as the access token lasts, on every route that asks for the
role of the user or for none. -/
theorem caller_issued (hjwt : jwt.Correct) (hissued : issued ∈ s.auth.issued)
    (htokens : issued.tokens = issueTokenPair jwt user settings accessAt refreshAt)
    (hid : user.id < 16 ^ 32) (hexp : s.auth.now < accessAt + settings.accessTokenTtlSeconds)
    (hrole : ∀ role, route.role = some role → user.role = role) :
    s.caller jwt settings route ("Bearer " ++ issued.tokens.1) = some user.id := by
  have hpresents : s.auth.Presents ("Bearer " ++ issued.tokens.1) :=
    ⟨issued, hissued, issued.tokens.1, .inl rfl, bearerToken_bearer _⟩
  have hpass := Route.authorize_bearer (decodeToken_issued hjwt htokens hexp) rfl hrole
  rw [Platform.caller, if_pos hpresents, hpass]
  exact uuidOfString_uuidStr hid

end Issued

end Callers

/-! ### What a step does -/

/-- The listing operations that a caller may begin, with the decisions they leave. -/
inductive Platform.BeginsListing (s : Platform) : ListingOperation → List (Uuid × Uuid) → Prop
  | create (id hostId : Uuid) (payload : CreateVehicleRequest) (hrole : s.HasRole "host" hostId) :
      BeginsListing s (.createVehicle id hostId payload) []
  | update (vehicleId hostId : Uuid) (fields : UpdateVehicleRequest)
      (hrole : s.HasRole "host" hostId) :
      BeginsListing s (.updateVehicle vehicleId hostId fields) []
  | decide (op : ListingOperation) (adminId : Uuid) (hrole : s.HasRole "admin" adminId)
      (hop : op = .approveVehicle op.vehicleId ∨ op = .rejectVehicle op.vehicleId) :
      BeginsListing s op [(op.vehicleId, adminId)]

/-- The booking operations that a caller or the consumer may begin. -/
inductive Platform.BeginsBooking (s : Platform) : BookingOperation → Prop
  | request (request : BookingRequest) (vehicle : Option VehicleInfo) (id : Uuid)
      (hmem : request ∈ s.requests) (hvehicle : request.vehicle = some vehicle) :
      BeginsBooking s (.requestBooking id vehicle request.renterId request.payload)
  | operate (op : HostOperation) (bookingId hostId : Uuid) (hrole : s.HasRole "host" hostId) :
      BeginsBooking s (op.operation bookingId hostId)
  | react (op : BookingOperation) (hop : PaymentReaction op) : BeginsBooking s op

/-- The ways a step can go. -/
inductive PlatformStep (hasher : PasswordHasher) (jwt : PyJwt) (settings : AuthSettings)
    (s : Platform) : Platform → Prop
  | auth (a : AuthAction) (auth : AuthServer)
      (hstep : authStep hasher jwt settings s.auth a = some auth) :
      PlatformStep hasher jwt settings s { s with auth }
  | listing (a : ListingAction) (listing : ListingServer) (decisions : List (Uuid × Uuid))
      (hstep : listingStep s.listing a = some listing)
      (hbegin : ∀ op, a = .begin op → s.BeginsListing op decisions) :
      PlatformStep hasher jwt settings s
        { s with listing, decisions := s.decisions ++ decisions }
  | asked (request : BookingRequest) (hrole : s.HasRole "renter" request.renterId)
      (hnone : request.vehicle = none) :
      PlatformStep hasher jwt settings s { s with requests := s.requests ++ [request] }
  | read (i : ℕ) (request : BookingRequest) (vehicle : Option VehicleInfo) (shown : List Vehicle)
      (hi : s.requests[i]? = some request)
      (hshown : ∀ v ∈ shown, s.listing.db.getById request.payload.vehicleId = some v)
      (hvehicle : ∀ info ∈ vehicle, ∃ v ∈ shown, v.info = info) :
      PlatformStep hasher jwt settings s { s with
        requests := s.requests.set i { request with vehicle := some vehicle }
        shown := s.shown ++ shown }
  | dropped (i : ℕ) :
      PlatformStep hasher jwt settings s { s with requests := s.requests.eraseIdx i }
  | booking (a : ServerAction) (booking : BookingServer) (requests : List BookingRequest)
      (hstep : serverStep s.booking a = some booking) (hsub : requests ⊆ s.requests)
      (hbegin : ∀ op autoflush, a = .begin op autoflush → s.BeginsBooking op) :
      PlatformStep hasher jwt settings s { s with booking, requests }

section Steps

variable {hasher : PasswordHasher} {jwt : PyJwt} {settings : AuthSettings}
  {seeded : List UserRow} {s s' : Platform}

theorem platformStep_listing {a : ListingAction} {decisions : List (Uuid × Uuid)}
    (h : { s with decisions := s.decisions ++ decisions }.stepListing a = some s')
    (hbegin : ∀ op, a = .begin op → s.BeginsListing op decisions) :
    PlatformStep hasher jwt settings s s' := by
  simp only [Platform.stepListing, Option.bind_eq_bind, Option.bind_eq_some_iff] at h
  obtain ⟨listing, hstep, h⟩ := h
  cases h
  exact .listing a listing decisions hstep hbegin

theorem platformStep_listing_nil {a : ListingAction} (h : s.stepListing a = some s')
    (hbegin : ∀ op, a = .begin op → s.BeginsListing op []) :
    PlatformStep hasher jwt settings s s' :=
  platformStep_listing (by rwa [List.append_nil]) hbegin

theorem platformStep_booking {a : ServerAction} {requests : List BookingRequest}
    (h : { s with requests }.stepBooking a = some s') (hsub : requests ⊆ s.requests)
    (hbegin : ∀ op autoflush, a = .begin op autoflush → s.BeginsBooking op) :
    PlatformStep hasher jwt settings s s' := by
  simp only [Platform.stepBooking, Option.bind_eq_bind, Option.bind_eq_some_iff] at h
  obtain ⟨booking, hstep, h⟩ := h
  cases h
  exact .booking a booking requests hstep hsub hbegin

theorem getVehicleForViewer_ok_iff {found : Option Vehicle} {vehicleId viewerId : Uuid}
    {viewerRole : String} {v : Vehicle} :
    getVehicleForViewer found vehicleId viewerId viewerRole = .ok v ↔ found = some v ∧
      (v.approvalStatus = .approved ∨ v.hostId = viewerId ∨ viewerRole = "admin") := by
  simp only [getVehicleForViewer, Except.bind_eq_ok_iff, requireVehicle_ok_iff]
  constructor
  · rintro ⟨vehicle, hfound, hpass⟩
    split at hpass
    · cases hpass
    · rename_i hshown
      obtain rfl : vehicle = v := by simpa using hpass
      refine ⟨hfound, ?_⟩
      by_contra hno
      simp only [not_or] at hno
      exact hshown ⟨fun h => h.elim hno.2.2 hno.2.1, hno.1⟩
  · rintro ⟨hfound, hshown⟩
    refine ⟨v, hfound, if_neg ?_⟩
    rintro ⟨hno, hne⟩
    rcases hshown with happroved | hhost | hadmin
    · exact hne happroved
    · exact hno (.inr hhost)
    · exact hno (.inl hadmin)

/-- What the route shows is the committed row, to those who may see it. -/
theorem getVehicleRoute_ok_iff {settings : JwtSettings} {db : ListingDb} {vehicleId viewerId : Uuid}
    {authorization : Option String} {now : ℤ} {claims : TokenClaims} {v : Vehicle}
    (hclaims : claimsDependency jwt settings .access authorization now = .ok claims)
    (hviewer : uuidOfString claims.sub = some viewerId) :
    getVehicleRoute jwt settings db vehicleId authorization now = .ok v ↔
      db.getById vehicleId = some v ∧
        (v.approvalStatus = .approved ∨ v.hostId = viewerId ∨ claims.role = "admin") := by
  have hpass : Route.listingGetVehicle.authorize jwt settings (.ok ()) authorization now =
      .ok claims := Route.authorize_ok_iff.mpr ⟨hclaims, fun role hrole => by cases hrole⟩
  rw [getVehicleRoute, hpass]
  simp only [bind, Except.bind, hviewer, Except.mapError_eq_ok_iff, getVehicleForViewer_ok_iff]

/-- What the route shows is the committed row. -/
theorem getVehicleRoute_ok {db : ListingDb} {vehicleId : Uuid} {authorization : Option String}
    {now : ℤ} {v : Vehicle}
    (h : getVehicleRoute jwt settings.toJwtSettings db vehicleId authorization now = .ok v) :
    db.getById vehicleId = some v := by
  simp only [getVehicleRoute, Except.bind_eq_ok_iff] at h
  obtain ⟨claims, -, h⟩ := h
  split at h
  · cases h
  · rw [Except.mapError_eq_ok_iff, getVehicleForViewer_ok_iff] at h
    exact h.1

/-- An approved vehicle is shown to every caller. -/
theorem getVehicleRoute_approved {user : User} {issued : IssuedPair} {accessAt refreshAt : ℤ}
    (hjwt : jwt.Correct)
    (htokens : issued.tokens = issueTokenPair jwt user settings accessAt refreshAt)
    (hid : user.id < 16 ^ 32) {now : ℤ} (hexp : now < accessAt + settings.accessTokenTtlSeconds)
    {db : ListingDb} {vehicleId : Uuid} {v : Vehicle} (hv : db.getById vehicleId = some v)
    (happroved : v.approvalStatus = .approved) :
    getVehicleRoute jwt settings.toJwtSettings db vehicleId (some ("Bearer " ++ issued.tokens.1))
      now = .ok v := by
  have hclaims : claimsDependency jwt settings.toJwtSettings .access
      (some ("Bearer " ++ issued.tokens.1)) now = .ok _ :=
    claimsDependency_ok_iff.mpr
      ⟨_, bearerToken_bearer _, decodeToken_issued hjwt htokens hexp, rfl⟩
  exact (getVehicleRoute_ok_iff hclaims (uuidOfString_uuidStr hid)).mpr ⟨hv, .inl happroved⟩

/-- What the client returns is what the route has shown. -/
theorem listingClientGetVehicle_ok {response : Except HttpException Vehicle}
    {vehicle : Option VehicleInfo} (h : listingClientGetVehicle response = .ok vehicle)
    {info : VehicleInfo} (hinfo : info ∈ vehicle) : ∃ v, response = .ok v ∧ v.info = info := by
  unfold listingClientGetVehicle at h
  split at h
  · rename_i v
    cases h
    exact ⟨v, rfl, Option.some.inj hinfo⟩
  · split at h
    · cases h
      cases hinfo
    · cases h

theorem platformStep_cases (hjwt : jwt.Correct) (hseeded : Seeded seeded)
    (hauth : (authServer hasher jwt settings seeded).Reachable s.auth) {a : PlatformAction}
    (h : platformStep hasher jwt settings s a = some s') :
    PlatformStep hasher jwt settings s s' := by
  have hcaller {route : Route} {authorization role : String} {userId : Uuid}
      (h : s.caller jwt settings route authorization = some userId)
      (hrole : route.role = some role) : s.HasRole role userId :=
    caller_user hjwt hseeded hauth h hrole
  cases a with
  | auth a =>
    simp only [platformStep, Option.bind_eq_bind, Option.bind_eq_some_iff] at h
    obtain ⟨auth, hstep, h⟩ := h
    cases h
    exact .auth a auth hstep
  | createVehicle authorization id payload =>
    simp only [platformStep, Option.bind_eq_bind, Option.bind_eq_some_iff] at h
    obtain ⟨hostId, hpass, h⟩ := h
    exact platformStep_listing_nil h fun op hop => by
      cases hop
      exact .create id hostId payload (hcaller hpass rfl)
  | updateVehicle authorization vehicleId fields =>
    simp only [platformStep, Option.bind_eq_bind, Option.bind_eq_some_iff] at h
    obtain ⟨hostId, hpass, h⟩ := h
    exact platformStep_listing_nil h fun op hop => by
      cases hop
      exact .update vehicleId hostId fields (hcaller hpass rfl)
  | approveVehicle authorization vehicleId =>
    simp only [platformStep, Platform.decide, Option.bind_eq_bind, Option.bind_eq_some_iff] at h
    obtain ⟨adminId, hpass, h⟩ := h
    exact platformStep_listing h fun op hop => by
      cases hop
      exact .decide _ adminId (hcaller hpass rfl) (.inl rfl)
  | rejectVehicle authorization vehicleId =>
    simp only [platformStep, Platform.decide, Option.bind_eq_bind, Option.bind_eq_some_iff] at h
    obtain ⟨adminId, hpass, h⟩ := h
    exact platformStep_listing h fun op hop => by
      cases hop
      exact .decide _ adminId (hcaller hpass rfl) (.inr rfl)
  | listing a =>
    cases a with
    | begin op => cases h
    | flush i => exact platformStep_listing_nil h (by simp)
    | commit i => exact platformStep_listing_nil h (by simp)
    | abort i => exact platformStep_listing_nil h (by simp)
  | askBooking authorization payload =>
    simp only [platformStep, Option.bind_eq_bind, Option.bind_eq_some_iff] at h
    obtain ⟨renterId, hpass, h⟩ := h
    cases h
    exact .asked _ (hcaller hpass rfl) rfl
  | getVehicle i =>
    simp only [platformStep, Option.bind_eq_bind, Option.bind_eq_some_iff] at h
    obtain ⟨request, hi, h⟩ := h
    split at h
    · cases h
      exact .dropped i
    · rename_i vehicle hget
      cases h
      refine .read i request vehicle _ hi (fun v hv => ?_) fun info hinfo => ?_
      · exact getVehicleRoute_ok (Except.toOption_eq_some_iff.mp (Option.mem_toList.mp hv))
      · obtain ⟨v, hv, rfl⟩ := listingClientGetVehicle_ok hget hinfo
        exact ⟨v, Option.mem_toList.mpr (Except.toOption_eq_some_iff.mpr hv), rfl⟩
  | requestBooking i id autoflush =>
    simp only [platformStep, Option.bind_eq_bind, Option.bind_eq_some_iff] at h
    obtain ⟨request, hi, vehicle, hvehicle, h⟩ := h
    refine platformStep_booking h (List.eraseIdx_subset ..) fun op b hop => ?_
    cases hop
    exact .request request vehicle id (List.mem_of_getElem? hi) hvehicle
  | operate authorization op bookingId autoflush =>
    simp only [platformStep, Option.bind_eq_bind, Option.bind_eq_some_iff] at h
    obtain ⟨hostId, hpass, h⟩ := h
    refine platformStep_booking h (List.Subset.refl _) fun op' b hop => ?_
    cases hop
    exact .operate op bookingId hostId (hcaller hpass (by cases op <;> rfl))
  | react op autoflush =>
    simp only [platformStep] at h
    split at h
    · rename_i hop
      refine platformStep_booking h (List.Subset.refl _) fun op' b hop' => ?_
      cases hop'
      exact .react op hop
    · cases h
  | booking a =>
    cases a with
    | begin op b => cases h
    | run i => exact platformStep_booking h (List.Subset.refl _) (by simp)
    | commit i => exact platformStep_booking h (List.Subset.refl _) (by simp)
    | abort i => exact platformStep_booking h (List.Subset.refl _) (by simp)

end Steps

end CarFlow
