import CarFlow.Booking.ListRoutes
import CarFlow.Platform.Parties

/-!
# Who is shown what

The routes that only read: `GET /booking/bookings/{booking_id}`, `GET /booking/bookings`,
`GET /listing/vehicles/{vehicle_id}`, `GET /payment/payments/{booking_id}`, and
`GET /admin/bookings`, which asks booking with the caller's own token.

## The model

* Between the check of `GET /admin/bookings` and that of booking the clock may move on.
* The payment database is any database: the other services do not see it.
* The error of a proxied request has the status of booking's, and its text as the detail. How that
  text is spelled is a parameter.

## Implementation notes

A reading route has no transaction to interleave with, so it is a function of a database and a
header, and the result is about what it returns in any reachable state. The user is found from the
header first, for all routes at once; each route is then an equivalence between its answer and what
this user is.

## Main results

* `reads_confined` — **a booking is shown to its renter, its host and the administrators**, a
  vehicle that is not approved to its host and them, and the lists and payments to them alone
-/

namespace CarFlow

/-! ### The routes -/

/-- `get_booking_for_viewer`. -/
def getBookingForViewer (found : Option Booking) (bookingId viewerId : Uuid)
    (viewerRole : String) : Except BookingError Booking := do
  let booking ← requireFound found bookingId
  if viewerRole ≠ "admin" ∧ ¬ (viewerId = booking.renterId ∨ viewerId = booking.hostId) then
    throw (.notBookingParty bookingId)
  return booking

/-- The response of `GET /booking/bookings/{booking_id}` to what the service raises. -/
def getBookingError : BookingError → HttpException
  | .bookingNotFound _ => ⟨404, "booking not found"⟩
  | .notBookingParty _ => ⟨403, "not your booking"⟩
  | _ => ⟨500, "Internal Server Error"⟩

/-- `PaymentResponse`. -/
structure PaymentResponse where
  bookingId : String
  renterId : String
  status : PaymentStatus
  holdAmountCents : ℤ
  overageCents : ℤ
  stripePaymentIntentId : Option String

/-- `_payment_response`. -/
def paymentResponse (payment : Payment) : PaymentResponse where
  bookingId := uuidStr payment.bookingId
  renterId := uuidStr payment.renterId
  status := payment.status
  holdAmountCents := payment.holdAmountCents
  overageCents := payment.overageCents
  stripePaymentIntentId := payment.stripePaymentIntentId

section Routes

variable (jwt : PyJwt) (settings : JwtSettings) (encodes : ℤ → Bool) (createdAt : Uuid → ℤ)

/-- `GET /booking/bookings/{booking_id}`. -/
def getBookingRoute (db : BookingDb) (bookingId : Uuid) (authorization : Option String) (now : ℤ) :
    Except HttpException BookingResponse := do
  let claims ← Route.bookingGetBooking.authorize jwt settings (.ok ()) authorization now
  match uuidOfString claims.sub with
  | none => throw ⟨500, "Internal Server Error"⟩
  | some viewerId =>
    ((getBookingForViewer (db.getById bookingId) bookingId viewerId claims.role).mapError
      getBookingError).map bookingResponse

/-- `GET /booking/bookings`. -/
def bookingsRoute (db : BookingDb) (limit offset : ℤ) (authorization : Option String) (now : ℤ) :
    Except HttpException (Page BookingResponse) := do
  let claims ← claimsDependency jwt settings .access authorization now
  listBookingsRoute encodes createdAt db claims limit offset

/-- `GET /payment/payments/{booking_id}`. -/
def getPaymentRoute (db : PaymentDb) (bookingId : Uuid) (authorization : Option String)
    (now : ℤ) : Except HttpException PaymentResponse := do
  let _ ← Route.paymentGetPayment.authorize jwt settings (.ok ()) authorization now
  match db.getByBookingId bookingId with
  | none => throw ⟨404, "payment not found"⟩
  | some payment => return paymentResponse payment

/-- `GET /admin/bookings`, through `BookingClient.list_bookings`. It reaches booking at `later`. -/
def adminBookingsRoute (responseText : HttpException → String) (db : BookingDb)
    (limit offset : ℤ) (authorization : Option String) (now later : ℤ) :
    Except HttpException (Page BookingResponse) := do
  let _ ← Route.adminBookings.authorize jwt settings (.ok ()) authorization now
  -- `authorization.split(" ", 1)[1]`
  let token ← bearerToken authorization
  (bookingsRoute jwt settings encodes createdAt db limit offset (some ("Bearer " ++ token))
    later).mapError fun e => ⟨e.statusCode, responseText e⟩

end Routes

/-! ### Who passes -/

section Confined

variable {jwt : PyJwt} {settings : JwtSettings} {encodes : ℤ → Bool} {createdAt : Uuid → ℤ}
  {responseText : HttpException → String} {authorization : Option String} {now later : ℤ}
  {claims : TokenClaims} {db : BookingDb} {limit offset : ℤ} {page : Page BookingResponse}

theorem getBookingForViewer_ok_iff {found : Option Booking} {bookingId viewerId : Uuid}
    {viewerRole : String} {booking : Booking} :
    getBookingForViewer found bookingId viewerId viewerRole = .ok booking ↔ found = some booking ∧
      (viewerId = booking.renterId ∨ viewerId = booking.hostId ∨ viewerRole = "admin") := by
  simp only [getBookingForViewer, Except.bind_eq_ok_iff, requireFound_ok_iff]
  constructor
  · rintro ⟨row, hfound, hpass⟩
    split at hpass
    · cases hpass
    · rename_i hshown
      obtain rfl : row = booking := by simpa using hpass
      refine ⟨hfound, ?_⟩
      by_contra hno
      simp only [not_or] at hno
      exact hshown ⟨hno.2.2, fun h => h.elim hno.1 hno.2.1⟩
  · rintro ⟨hfound, hshown⟩
    refine ⟨booking, hfound, if_neg ?_⟩
    rintro ⟨hrole, hno⟩
    rcases hshown with hrenter | hhost | hadmin
    · exact hno (.inl hrenter)
    · exact hno (.inr hhost)
    · exact hrole hadmin

theorem getBookingRoute_ok_iff {bookingId viewerId : Uuid} {response : BookingResponse}
    (hclaims : claimsDependency jwt settings .access authorization now = .ok claims)
    (hviewer : uuidOfString claims.sub = some viewerId) :
    getBookingRoute jwt settings db bookingId authorization now = .ok response ↔
      ∃ row, db.getById bookingId = some row ∧ response = bookingResponse row ∧
        response.id = uuidStr bookingId ∧ (viewerId = row.renterId ∨ viewerId = row.hostId ∨
          claims.role = "admin") := by
  have hpass : Route.bookingGetBooking.authorize jwt settings (.ok ()) authorization now =
      .ok claims := Route.authorize_ok_iff.mpr ⟨hclaims, fun role hrole => by cases hrole⟩
  rw [getBookingRoute, hpass]
  simp only [bind, Except.bind, hviewer]
  constructor
  · intro h
    cases hviewed : getBookingForViewer (db.getById bookingId) bookingId viewerId claims.role with
    | error e =>
      rw [hviewed] at h
      cases h
    | ok row =>
      rw [hviewed] at h
      obtain ⟨hrow, hshown⟩ := getBookingForViewer_ok_iff.mp hviewed
      obtain rfl := Except.ok.inj h
      exact ⟨row, hrow, rfl, congrArg uuidStr (RowTable.key_of_lookup hrow), hshown⟩
  · rintro ⟨row, hrow, rfl, -, hshown⟩
    rw [getBookingForViewer_ok_iff.mpr ⟨hrow, hshown⟩]
    rfl

theorem getPaymentRoute_ok_iff {db : PaymentDb} {bookingId : Uuid} {response : PaymentResponse}
    (hclaims : claimsDependency jwt settings .access authorization now = .ok claims) :
    getPaymentRoute jwt settings db bookingId authorization now = .ok response ↔
      claims.role = "admin" ∧ ∃ payment, db.getByBookingId bookingId = some payment ∧
        response = paymentResponse payment ∧ response.bookingId = uuidStr bookingId := by
  simp only [getPaymentRoute, Except.bind_eq_ok_iff]
  constructor
  · rintro ⟨claims', hpass, h⟩
    obtain ⟨hclaims', hrole⟩ := Route.authorize_ok_iff.mp hpass
    obtain rfl := Except.ok.inj (hclaims.symm.trans hclaims')
    cases hpayment : db.getByBookingId bookingId with
    | none =>
      rw [hpayment] at h
      cases h
    | some payment =>
      rw [hpayment] at h
      obtain rfl := Except.ok.inj h
      exact ⟨hrole "admin" rfl, payment, rfl, rfl,
        congrArg uuidStr (RowTable.key_of_lookup hpayment)⟩
  · rintro ⟨hadmin, payment, hpayment, rfl, -⟩
    refine ⟨claims, Route.authorize_ok_iff.mpr ⟨hclaims, fun role hrole => ?_⟩, ?_⟩
    · rw [← Option.some.inj hrole]
      exact hadmin
    · rw [hpayment]
      rfl

theorem bookingsRoute_ok (h : bookingsRoute jwt settings encodes createdAt db limit offset
    authorization now = .ok page) :
    ∃ claims, claimsDependency jwt settings .access authorization now = .ok claims ∧
      claims.role = "admin" := by
  simp only [bookingsRoute, listBookingsRoute, Except.bind_eq_ok_iff] at h
  obtain ⟨claims, hclaims, _, hrole, _⟩ := h
  exact ⟨claims, hclaims, List.mem_singleton.mp (requireRole_ok_iff.mp hrole)⟩

/-- **The proxy answers what booking answers**, at the time when it asks. -/
theorem adminBookingsRoute_ok_iff (hjwt : jwt.Correct) (hnow : now ≤ later) :
    adminBookingsRoute jwt settings encodes createdAt responseText db limit offset authorization now
        later = .ok page ↔
      bookingsRoute jwt settings encodes createdAt db limit offset authorization later =
        .ok page := by
  -- the header that the proxy makes carries the same token
  have hsame : ∀ {token}, bearerToken authorization = .ok token →
      bookingsRoute jwt settings encodes createdAt db limit offset (some ("Bearer " ++ token))
        later =
      bookingsRoute jwt settings encodes createdAt db limit offset authorization later := by
    intro token htoken
    simp only [bookingsRoute, claimsDependency, bearerToken_bearer, htoken]
  simp only [adminBookingsRoute, Except.bind_eq_ok_iff, Except.mapError_eq_ok_iff]
  constructor
  · rintro ⟨_, -, token, htoken, h⟩
    rwa [hsame htoken] at h
  · intro h
    obtain ⟨claims, hclaims, hrole⟩ := bookingsRoute_ok h
    obtain ⟨token, htoken, hdecode, htype⟩ := claimsDependency_ok_iff.mp hclaims
    obtain ⟨hencode, hiss, hexp⟩ := hjwt.decodeToken_iff.mp hdecode
    -- a token that is valid later is valid now
    have hdecode' := hjwt.decodeToken_iff.mpr ⟨hencode, hiss, Int.lt_of_le_of_lt hnow hexp⟩
    refine ⟨claims, Route.authorize_ok_iff.mpr
      ⟨claimsDependency_ok_iff.mpr ⟨token, htoken, hdecode', htype⟩, fun role hr => ?_⟩,
      token, htoken, (hsame htoken).trans h⟩
    rw [← Option.some.inj hr]
    exact hrole

end Confined

/-! ### Who the viewers are -/

section Platform

variable {hasher : PasswordHasher} {jwt : PyJwt} {settings : AuthSettings}
  {seeded : List UserRow} {s : Platform}

/-- **Who is shown what.** Whoever presents a token that was issued to somebody, and that a service
accepts, is a user of the platform; and this user is shown exactly: the bookings that they are the
renter or the host of, the vehicles that are approved or theirs, and, if they are an administrator
that was seeded, every booking, every vehicle and every payment. Only administrators are shown the
list of bookings, and the proxy for it shows them what booking does. -/
theorem reads_confined (encodes : ℤ → Bool) (createdAt : Uuid → ℤ)
    (responseText : HttpException → String) (hjwt : jwt.Correct) (hseeded : Seeded seeded)
    (h : (platform hasher jwt settings seeded).Reachable s) {authorization : String}
    (hpresents : s.auth.Presents authorization) {claims : TokenClaims}
    (hclaims : claimsDependency jwt settings.toJwtSettings .access (some authorization) s.auth.now =
      .ok claims) :
    ∃ user ∈ s.auth.registrations.users, uuidOfString claims.sub = some user.id ∧
      (∀ b response, getBookingRoute jwt settings.toJwtSettings s.booking.db b (some authorization)
        s.auth.now = .ok response ↔ ∃ row, s.booking.db.getById b = some row ∧
          response = bookingResponse row ∧ response.id = uuidStr b ∧
          (user.id = row.renterId ∨ user.id = row.hostId ∨ user ∈ seeded)) ∧
      (∀ id v, getVehicleRoute jwt settings.toJwtSettings s.listing.db id (some authorization)
        s.auth.now = .ok v ↔ s.listing.db.getById id = some v ∧
          (v.approvalStatus = .approved ∨ v.hostId = user.id ∨ user ∈ seeded)) ∧
      (∀ payments b response, getPaymentRoute jwt settings.toJwtSettings payments b
        (some authorization) s.auth.now = .ok response ↔
          user ∈ seeded ∧ ∃ payment, payments.getByBookingId b = some payment ∧
            response = paymentResponse payment ∧ response.bookingId = uuidStr b) ∧
      (∀ limit offset page, bookingsRoute jwt settings.toJwtSettings encodes createdAt
        s.booking.db limit offset (some authorization) s.auth.now = .ok page → user ∈ seeded) ∧
      ∀ limit offset later page, s.auth.now ≤ later →
        (adminBookingsRoute jwt settings.toJwtSettings encodes createdAt responseText s.booking.db
            limit offset (some authorization) s.auth.now later = .ok page ↔
          bookingsRoute jwt settings.toJwtSettings encodes createdAt s.booking.db limit offset
            (some authorization) later = .ok page) := by
  have hok := platformOk_of_reachable hjwt hseeded h
  have husers := registrationsOk_of_reachable hseeded (authServer_registrations hok.auth)
  obtain ⟨user, huser, hsub, hrole⟩ := presented_user hjwt hseeded hok.auth hpresents hclaims
  have hadmin : claims.role = "admin" ↔ user ∈ seeded := by
    rw [hrole]
    exact husers.role_admin_iff hseeded huser
  refine ⟨user, huser, hsub, fun b response => ?_, fun id v => ?_, fun payments b response => ?_,
    fun limit offset page hpage => ?_, fun limit offset later page hlater => ?_⟩
  · rw [getBookingRoute_ok_iff hclaims hsub, hadmin]
  · rw [getVehicleRoute_ok_iff hclaims hsub, hadmin]
  · rw [getPaymentRoute_ok_iff hclaims, hadmin]
  · obtain ⟨claims', hclaims', hrole'⟩ := bookingsRoute_ok hpage
    obtain rfl := Except.ok.inj (hclaims.symm.trans hclaims')
    exact hadmin.mp hrole'
  · exact adminBookingsRoute_ok_iff hjwt hlater

theorem reads_confined_sampleMarket :
    ∃ s, samplePlatform.Reachable s ∧
      (∃ response, getBookingRoute sampleJwt sampleAuthSettings.toJwtSettings s.booking.db 9
        (some (sampleHeader 6 "renter")) s.auth.now = .ok response ∧
          response.id = "00000000-0000-0000-0000-000000000009" ∧
          response.renterId = "00000000-0000-0000-0000-000000000006") ∧
      ∀ payments b response, getPaymentRoute sampleJwt sampleAuthSettings.toJwtSettings payments b
        (some (sampleHeader 6 "renter")) s.auth.now ≠ .ok response := by
  obtain ⟨s, hs, hnow, hmem, hrow, -⟩ := sampleMarket_reachable
  obtain ⟨issued, hmem, htokens⟩ := List.mem_map.mp hmem
  have hexp : s.auth.now < 0 + sampleAuthSettings.accessTokenTtlSeconds := by
    rw [hnow]
    decide
  have hbearer : bearerToken (some (sampleHeader 6 "renter")) = .ok issued.tokens.1 := by
    rw [htokens]
    exact bearerToken_bearer _
  obtain ⟨user, -, hsub, hbooking, -, hpayment, -⟩ := reads_confined (fun _ => true)
    (fun _ => 0) (fun e => e.detail) sampleJwt_correct sampleSeeded_seeded hs
    ⟨issued, hmem, issued.tokens.1, .inl rfl, hbearer⟩
    (claimsDependency_ok_iff.mpr
      ⟨issued.tokens.1, hbearer, decodeToken_issued sampleJwt_correct htokens hexp, rfl⟩)
  have hid : user.id = 6 := Option.some.inj (hsub.symm.trans (uuidOfString_uuidStr (by decide)))
  obtain ⟨row, hrow, hrenter⟩ := Option.map_eq_some_iff.mp hrow
  have hshown : (bookingResponse row).id = uuidStr 9 :=
    congrArg uuidStr (RowTable.key_of_lookup hrow)
  refine ⟨s, hs, ⟨bookingResponse row, (hbooking 9 _).mpr ⟨row, hrow, rfl, hshown, .inl ?_⟩,
    hshown, ?_⟩, fun payments b response h => ?_⟩
  · exact hid.trans hrenter.symm
  · rw [show (bookingResponse row).renterId = uuidStr 6 from congrArg uuidStr hrenter]
    rfl
  · obtain ⟨hseeded, -⟩ := (hpayment payments b response).mp h
    -- the administrator that is seeded is another
    rw [List.mem_singleton.mp hseeded] at hid
    exact absurd hid (by decide)

end Platform

end CarFlow
