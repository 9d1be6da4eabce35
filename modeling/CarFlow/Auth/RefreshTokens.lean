import CarFlow.Auth.Service
import CarFlow.Telemetry.Ingest

/-!
# What a refresh token opens

Three pieces of code read tokens: `claims_dependency` of the HTTP routes, `POST /auth/refresh`, and
the handshake of `/telemetry/ingest/{vehicle_id}`. The first two check the `type` of the token, the
handshake does not: a refresh token opens the WebSocket, and its frames are published.

## The model

* A caller presents tokens it holds: the refresh token it was given, and what `POST /auth/refresh`
  returns to it. Any other text is not signed, and is refused everywhere.
* A request is handled in one step, and writes whatever it writes under the token it came with.
* All services have the same secret and issuer.

## Implementation notes

All routes that look at a token are in the enumeration `Route`, with the role that each asks for, so
that a statement about all of them is one over a finite type and a route that is added has to be put
there. The holder is a party with a set of tokens that grows; what it cannot do is to sign.

## Main results

* `rejects_refreshToken_iff` — where a refresh token is rejected
* `HolderOk.step`, `onlyThroughAccess_step_iff` — what a step of a holder does
* `refresh_tokens_only_refresh_iff` — **when refresh tokens only refresh**
-/

namespace CarFlow

/-! ### The entry points

Each route checks a token in its own way, and most of them by `claims_dependency`. The handshake of
the WebSocket is the one that does not look at the `type`. -/

/-- The HTTP routes behind `claims_dependency`, by service and function. -/
inductive Route
  | authMe
  | listingCreate
  | listingListVehicles
  | listingGetVehicle
  | listingUpdate
  | listingApprove
  | listingReject
  | listingCreateAvailabilityBlock
  | bookingCreate
  | bookingListBookings
  | bookingGetBooking
  | bookingAccept
  | bookingReject
  | bookingHandover
  | bookingReturnCar
  | paymentGetPayment
  | telemetryGetLocation
  | adminApprove
  | adminReject
  | adminBookings
  | adminEnableKillSwitch
  | adminDisableKillSwitch
  | adminListActions
  deriving DecidableEq

namespace Route

/-- The role that `require_role` asks for. -/
def role : Route → Option String
  | authMe | listingGetVehicle | bookingGetBooking | telemetryGetLocation => none
  | listingCreate | listingUpdate | listingCreateAvailabilityBlock => some "host"
  | bookingAccept | bookingReject | bookingHandover | bookingReturnCar => some "host"
  | bookingCreate => some "renter"
  | listingListVehicles | listingApprove | listingReject => some "admin"
  | bookingListBookings | paymentGetPayment => some "admin"
  | adminApprove | adminReject | adminBookings => some "admin"
  | adminEnableKillSwitch | adminDisableKillSwitch | adminListActions => some "admin"

/-- The routes that write: those that are not `GET`. They have the guard of
`shared/idempotency.py` before the claims. -/
def writes : Route → Bool
  | listingCreate | listingUpdate | listingApprove | listingReject => true
  | listingCreateAvailabilityBlock => true
  | bookingCreate | bookingAccept | bookingReject | bookingHandover | bookingReturnCar => true
  | adminApprove | adminReject | adminEnableKillSwitch | adminDisableKillSwitch => true
  | _ => false

/-- `Depends(get_guard)`, where a route has it: the guard may refuse the request. -/
def getGuard (route : Route) (guard : Except HttpException Unit) : Except HttpException Unit :=
  if route.writes then guard else .ok ()

/-- The first statement of a route, where it asks for a role. -/
def requireRole (route : Route) (claims : TokenClaims) : Except HttpException Unit :=
  match route.role with
  | none => .ok ()
  | some role => CarFlow.requireRole claims [role]

end Route

/-- An entry point that reads a token. -/
inductive EntryPoint
  | route (route : Route)
  /-- The WebSocket of the telemetry service. -/
  | ingest
  /-- `POST /auth/refresh`. -/
  | refresh
  deriving DecidableEq

section EntryPoints

variable (jwt : PyJwt)

/-- What comes before the work of a route: the guard, the claims and the role. -/
def Route.authorize (settings : JwtSettings) (route : Route) (guard : Except HttpException Unit)
    (authorization : Option String) (now : ℤ) : Except HttpException TokenClaims := do
  route.getGuard guard
  let claims ← claimsDependency jwt settings .access authorization now
  route.requireRole claims
  .ok claims

/-- The handshake of `ingest`, for its query parameter `token`. A refusal is the code that the
socket is closed with. -/
def ingestHandshake (settings : JwtSettings) (token : Option String) (now : ℤ) : Except ℕ Unit :=
  match decodeToken jwt settings (token.getD "") now with
  | none => .error 4401
  | some _ => .ok ()

/-- An entry point rejects a token, however it is presented. -/
def EntryPoint.Rejects (settings : AuthSettings) (token : String) (now : ℤ) : EntryPoint → Prop
  | .route r => ∀ guard authorization, bearerToken authorization = .ok token →
      ∃ e, r.authorize jwt settings.toJwtSettings guard authorization now = .error e
  | .ingest => ∃ code, ingestHandshake jwt settings.toJwtSettings (some token) now = .error code
  | .refresh => ∀ users, ∃ e, CarFlow.refresh jwt settings users token now = .error e

/-- A token that is signed by the services, of this type. -/
def IsToken (settings : JwtSettings) (tokenType : TokenType) (token : String) : Prop :=
  ∃ claims, claims.type = tokenType ∧ claims.iss = settings.jwtIssuer ∧
    jwt.encode claims settings.jwtSecret = token

variable {jwt} {settings : AuthSettings} {token : String} {now : ℤ} {entry : EntryPoint}

/-- A route that lets a request pass has seen an access token. -/
theorem Route.authorize_ok {settings : JwtSettings} {route : Route}
    {guard : Except HttpException Unit} {authorization : Option String} {claims : TokenClaims}
    (h : route.authorize jwt settings guard authorization now = .ok claims) :
    claimsDependency jwt settings .access authorization now = .ok claims := by
  simp only [Route.authorize, Except.bind_eq_ok_iff] at h
  obtain ⟨-, -, found, hfound, -, -, h⟩ := h
  exact Except.ok.inj h ▸ hfound

section Types

variable (hjwt : jwt.Correct)
include hjwt

/-- A token has one type. -/
theorem IsToken.type_unique {settings : JwtSettings} {tokenType tokenType' : TokenType}
    (h : IsToken jwt settings tokenType token) (h' : IsToken jwt settings tokenType' token) :
    tokenType = tokenType' := by
  obtain ⟨claims, rfl, hiss, hencode⟩ := h
  obtain ⟨claims', rfl, hiss', hencode'⟩ := h'
  have hclaims := hjwt.encode_inj (hiss.trans hiss'.symm) (hencode.trans hencode'.symm)
  exact congrArg TokenClaims.type hclaims

theorem isToken_of_decodeToken {settings : JwtSettings} {claims : TokenClaims}
    (h : decodeToken jwt settings token now = some claims) :
    IsToken jwt settings claims.type token := by
  obtain ⟨hencode, hiss, -⟩ := hjwt.decodeToken_iff.mp h
  exact ⟨claims, rfl, hiss, hencode⟩

/-- A route lets a request pass with an access token only. -/
theorem IsToken.route_rejects (h : IsToken jwt settings.toJwtSettings .refresh token) (r : Route) :
    (EntryPoint.route r).Rejects jwt settings token now := by
  intro guard authorization hbearer
  cases hpass : r.authorize jwt settings.toJwtSettings guard authorization now with
  | error e => exact ⟨e, rfl⟩
  | ok claims =>
    obtain ⟨token', hbearer', hdecode, htype⟩ :=
      claimsDependency_ok_iff.mp (Route.authorize_ok hpass)
    obtain rfl := Except.ok.inj (hbearer.symm.trans hbearer')
    have haccess := htype ▸ isToken_of_decodeToken hjwt hdecode
    cases h.type_unique hjwt haccess

theorem IsToken.refresh_rejects (h : IsToken jwt settings.toJwtSettings .access token) :
    EntryPoint.refresh.Rejects jwt settings token now := by
  intro users
  cases hpass : refresh jwt settings users token now with
  | error e => exact ⟨e, rfl⟩
  | ok pair =>
    obtain ⟨claims, -, -, hdecode, htype, -⟩ := refresh_ok_iff.mp hpass
    have hrefresh := htype ▸ isToken_of_decodeToken hjwt hdecode
    cases h.type_unique hjwt hrefresh

end Types

theorem isToken_access (user : User) (accessAt refreshAt : ℤ) :
    IsToken jwt settings.toJwtSettings .access
      (issueTokenPair jwt user settings accessAt refreshAt).1 :=
  ⟨_, rfl, rfl, rfl⟩

theorem isToken_refresh (user : User) (accessAt refreshAt : ℤ) :
    IsToken jwt settings.toJwtSettings .refresh
      (issueTokenPair jwt user settings accessAt refreshAt).2 :=
  ⟨_, rfl, rfl, rfl⟩

/-- The handshake takes a refresh token that has not expired. -/
theorem ingestHandshake_refreshToken (hjwt : jwt.Correct) {user : User} {accessAt refreshAt : ℤ}
    (hnow : now < refreshAt + settings.refreshTokenTtlSeconds) :
    ingestHandshake jwt settings.toJwtSettings
      (some (issueTokenPair jwt user settings accessAt refreshAt).2) now = .ok () := by
  have hdecode : decodeToken jwt settings.toJwtSettings
      (issueTokenPair jwt user settings accessAt refreshAt).2 now =
        some (tokenClaims user.id user.role .refresh settings.jwtIssuer
          settings.refreshTokenTtlSeconds refreshAt) :=
    hjwt.decodeToken_iff.mpr ⟨rfl, rfl, hnow⟩
  rw [ingestHandshake, Option.getD_some, hdecode]

/-- **Where a refresh token is rejected** before it expires: everywhere but at the WebSocket. -/
theorem rejects_refreshToken_iff (hjwt : jwt.Correct) {user : User} {accessAt refreshAt : ℤ}
    (hnow : now < refreshAt + settings.refreshTokenTtlSeconds) (hentry : entry ≠ .refresh) :
    entry.Rejects jwt settings (issueTokenPair jwt user settings accessAt refreshAt).2 now ↔
      entry ≠ .ingest := by
  have htoken : IsToken jwt settings.toJwtSettings .refresh
      (issueTokenPair jwt user settings accessAt refreshAt).2 := isToken_refresh ..
  cases entry with
  | route r => exact iff_of_true (htoken.route_rejects hjwt r) (fun h => by cases h)
  | refresh => exact absurd rfl hentry
  | ingest =>
    refine iff_of_false ?_ (fun h => h rfl)
    rintro ⟨code, h⟩
    cases (ingestHandshake_refreshToken hjwt hnow).symm.trans h

end EntryPoints

/-! ### The holder of a refresh token

What the holder may send, and what comes back: a refresh returns two new tokens, which are its own
from then on. -/

/-- What is written for a request. -/
inductive Write
  /-- The tables and flags that a route writes. -/
  | route (route : Route)
  /-- A packet on the raw topic. -/
  | published (message : TelemetryMessage)
  deriving DecidableEq

/-- An open connection to `ingest`. -/
structure Socket where
  /-- The token it was opened with. -/
  token : String
  vehicleId : String
  deriving DecidableEq

structure HolderState where
  now : ℤ
  /-- What the holder can present. -/
  held : List String
  /-- The access tokens that `POST /auth/refresh` has issued to it. -/
  issued : List String := []
  sockets : List Socket := []
  /-- What was written, with the token of the request or of the socket. Nothing reads this. -/
  writes : List (String × Write) := []
  deriving DecidableEq

inductive HolderAction
  | tick (seconds : ℕ)
  /-- A request to a route, with what its guard says, and whether it writes once it is let pass. -/
  | request (route : Route) (token : String) (guard : Except HttpException Unit) (performed : Bool)
  /-- `POST /auth/refresh`, with the table of users as it is then. -/
  | refresh (token : String) (users : Uuid → Option User)
  | connect (token vehicleId : String)
  /-- A frame, and whether the kill switch is on then. -/
  | frame (i : ℕ) (raw : String) (active : Bool)
  /-- A connection ends, be it because a send failed. -/
  | disconnect (i : ℕ)

section Holder

variable (jwt : PyJwt) (settings : AuthSettings) (decode : String → Option PacketFields)

def holderStep (s : HolderState) : HolderAction → Option HolderState
  | .tick seconds => some { s with now := s.now + seconds }
  | .request route token guard performed =>
    if token ∉ s.held then none
    else
      match route.authorize jwt settings.toJwtSettings guard (some ("Bearer " ++ token)) s.now with
      | .error _ => some s
      | .ok _ => some { s with
          writes := if route.writes ∧ performed then s.writes ++ [(token, .route route)]
            else s.writes }
  | .refresh token users =>
    if token ∉ s.held then none
    else match refresh jwt settings users token s.now with
      | .error _ => some s
      | .ok (access, new) =>
        some { s with held := s.held ++ [access, new], issued := s.issued ++ [access] }
  | .connect token vehicleId =>
    if token ∉ s.held then none
    else match ingestHandshake jwt settings.toJwtSettings (some token) s.now with
      | .error _ => some s
      | .ok _ => some { s with sockets := s.sockets ++ [{ token, vehicleId }] }
  | .frame i raw active => do
    let c ← s.sockets[i]?
    match parsePacket decode raw with
      | none => some s
      | some packet =>
        let message := (applyKillSwitch packet active).message c.vehicleId
        some { s with writes := s.writes ++ [(c.token, .published message)] }
  | .disconnect i => some { s with sockets := s.sockets.eraseIdx i }

/-- The holder of a refresh token, and of nothing else, from a time on. -/
def holder (refreshToken : String) (now : ℤ) : TransitionSystem HolderState HolderAction where
  init := { now, held := [refreshToken] }
  step := holderStep jwt settings decode

/-- Everything is written under an access token that was issued since. -/
def OnlyThroughAccess (s : HolderState) : Prop := ∀ w ∈ s.writes, w.1 ∈ s.issued

/-- No frame is published over a socket that a refresh token has opened. -/
def NoRefreshFrame (s : HolderState) : HolderAction → Prop
  | .frame i raw _ => ∀ c ∈ s.sockets[i]?, (parsePacket decode raw).isSome →
      ¬ IsToken jwt settings.toJwtSettings .refresh c.token
  | _ => True

/-- The ways a step can go. -/
inductive HolderStep (s : HolderState) : HolderAction → HolderState → Prop
  | ticked (seconds : ℕ) : HolderStep s (.tick seconds) { s with now := s.now + seconds }
  /-- A request is refused, or it does not write. -/
  | refused (a : HolderAction) (ha : ∀ i raw active, a ≠ .frame i raw active) : HolderStep s a s
  | written (route : Route) (token : String) (guard : Except HttpException Unit)
      (claims : TokenClaims) (hheld : token ∈ s.held)
      (hpass : route.authorize jwt settings.toJwtSettings guard (some ("Bearer " ++ token)) s.now =
        .ok claims) :
      HolderStep s (.request route token guard true)
        { s with writes := s.writes ++ [(token, .route route)] }
  | refreshed (token : String) (users : Uuid → Option User) (access new : String)
      (hpair : refresh jwt settings users token s.now = .ok (access, new)) :
      HolderStep s (.refresh token users)
        { s with held := s.held ++ [access, new], issued := s.issued ++ [access] }
  | connected (token vehicleId : String) (hheld : token ∈ s.held) :
      HolderStep s (.connect token vehicleId)
        { s with sockets := s.sockets ++ [{ token, vehicleId }] }
  | rejected (i : ℕ) (raw : String) (active : Bool) (hpacket : parsePacket decode raw = none) :
      HolderStep s (.frame i raw active) s
  | published (i : ℕ) (raw : String) (active : Bool) (c : Socket) (packet : TelemetryPacket)
      (hi : s.sockets[i]? = some c) (hpacket : parsePacket decode raw = some packet) :
      HolderStep s (.frame i raw active) { s with writes := s.writes ++
        [(c.token, .published ((applyKillSwitch packet active).message c.vehicleId))] }
  | disconnected (i : ℕ) :
      HolderStep s (.disconnect i) { s with sockets := s.sockets.eraseIdx i }

variable {jwt settings decode} {s s' : HolderState} {a : HolderAction} {token : String}

theorem holderStep_cases (h : holderStep jwt settings decode s a = some s') :
    HolderStep jwt settings decode s a s' := by
  cases a with
  | tick seconds =>
    cases h
    exact .ticked seconds
  | request route token guard performed =>
    simp only [holderStep, Option.ite_none_left_eq_some, not_not] at h
    obtain ⟨hheld, h⟩ := h
    split at h
    · cases h
      exact .refused _ fun _ _ _ h => by cases h
    · rename_i claims hpass
      by_cases hwrites : route.writes ∧ performed
      · rw [if_pos hwrites] at h
        cases h
        obtain rfl := hwrites.2
        exact .written route token guard claims hheld hpass
      · rw [if_neg hwrites] at h
        cases h
        exact .refused _ fun _ _ _ h => by cases h
  | refresh token users =>
    simp only [holderStep, Option.ite_none_left_eq_some] at h
    obtain ⟨-, h⟩ := h
    split at h
    · cases h
      exact .refused _ fun _ _ _ h => by cases h
    · rename_i access new hpair
      cases h
      exact .refreshed token users access new hpair
  | connect token vehicleId =>
    simp only [holderStep, Option.ite_none_left_eq_some, not_not] at h
    obtain ⟨hheld, h⟩ := h
    split at h
    · cases h
      exact .refused _ fun _ _ _ h => by cases h
    · cases h
      exact .connected token vehicleId hheld
  | frame i raw active =>
    simp only [holderStep, Option.bind_eq_bind, Option.bind_eq_some_iff] at h
    obtain ⟨c, hi, h⟩ := h
    split at h
    · rename_i hpacket
      cases h
      exact .rejected i raw active hpacket
    · rename_i packet hpacket
      cases h
      exact .published i raw active c packet hi hpacket
  | disconnect i =>
    cases h
    exact .disconnected i

/-- A token that the handshake takes publishes whatever valid frame it sends. -/
theorem holder_publishes {now : ℤ} {raw : String} {packet : TelemetryPacket}
    (hhandshake : ingestHandshake jwt settings.toJwtSettings (some token) now = .ok ())
    (hpacket : parsePacket decode raw = some packet) (vehicleId : String) :
    ∃ s, (holder jwt settings decode token now).Reachable s ∧ s.issued = [] ∧
      s.writes = [(token, .published (packet.message vehicleId))] := by
  let opened : HolderState := { now, held := [token], sockets := [⟨token, vehicleId⟩] }
  have hconnect : (holder jwt settings decode token now).step
      (holder jwt settings decode token now).init (.connect token vehicleId) = some opened := by
    show holderStep jwt settings decode { now, held := [token] } (.connect token vehicleId) = _
    rw [holderStep, if_neg (not_not.mpr List.mem_cons_self)]
    simp only [hhandshake]
    rfl
  have hframe : (holder jwt settings decode token now).step opened (.frame 0 raw false) =
      some { opened with writes := [(token, .published (packet.message vehicleId))] } := by
    show holderStep jwt settings decode opened (.frame 0 raw false) = _
    simp only [holderStep, hpacket]
    rfl
  exact ⟨_, .step (.step .init hconnect) hframe, rfl, rfl⟩

/-! ### Runs of a holder -/

variable (jwt settings) in
/-- What holds of every reachable state. -/
structure HolderOk (s : HolderState) : Prop where
  held : ∀ t ∈ s.held, t ∈ s.issued ∨ IsToken jwt settings.toJwtSettings .refresh t
  issued : ∀ t ∈ s.issued, IsToken jwt settings.toJwtSettings .access t
  sockets : ∀ c ∈ s.sockets,
    c.token ∈ s.issued ∨ IsToken jwt settings.toJwtSettings .refresh c.token

theorem HolderOk.step (h : HolderOk jwt settings s)
    (hstep : HolderStep jwt settings decode s a s') : HolderOk jwt settings s' := by
  cases hstep with
  | ticked => exact { h with }
  | refused => exact h
  | written => exact { h with }
  | rejected => exact h
  | published => exact { h with }
  | refreshed token users access new hpair =>
    obtain ⟨-, -, user, -, -, -, -, hpair⟩ := refresh_ok_iff.mp hpair
    have haccess := congrArg Prod.fst hpair ▸ isToken_access user s.now s.now
    have hnew := congrArg Prod.snd hpair ▸ isToken_refresh user s.now s.now
    refine ⟨fun t ht => ?_, fun t ht => ?_, fun c hc => ?_⟩
    · rcases List.mem_append.mp ht with ht | ht
      · exact (h.held t ht).imp_left (List.mem_append_left _)
      · rcases List.mem_pair.mp ht with rfl | rfl
        · exact .inl (List.mem_append_right _ List.mem_cons_self)
        · exact .inr hnew
    · rcases List.mem_append.mp ht with ht | ht
      · exact h.issued t ht
      · exact List.mem_singleton.mp ht ▸ haccess
    · exact (h.sockets c hc).imp_left (List.mem_append_left _)
  | connected token vehicleId hheld =>
    refine { h with sockets := fun c hc => ?_ }
    rcases List.mem_append.mp hc with hc | hc
    · exact h.sockets c hc
    · obtain rfl := List.mem_singleton.mp hc
      exact h.held token hheld
  | disconnected i =>
    exact { h with sockets := fun c hc => h.sockets c (List.mem_of_mem_eraseIdx hc) }

section Runs

variable (hjwt : jwt.Correct)
include hjwt

/-- What a request writes is written under an access token. -/
theorem HolderOk.mem_issued (h : HolderOk jwt settings s) (hheld : token ∈ s.held) {route : Route}
    {guard : Except HttpException Unit} {claims : TokenClaims}
    (hpass : route.authorize jwt settings.toJwtSettings guard (some ("Bearer " ++ token)) s.now =
      .ok claims) : token ∈ s.issued := by
  refine (h.held token hheld).resolve_right fun hrefresh => ?_
  obtain ⟨e, he⟩ := hrefresh.route_rejects hjwt route guard _ (bearerToken_bearer token)
  cases he.symm.trans hpass

/-- A step keeps to the access tokens exactly if it does not publish for a refresh token. -/
theorem onlyThroughAccess_step_iff (hok : HolderOk jwt settings s) (h : OnlyThroughAccess s)
    (hstep : HolderStep jwt settings decode s a s') :
    OnlyThroughAccess s' ↔ NoRefreshFrame jwt settings decode s a := by
  cases hstep with
  | ticked => exact iff_of_true h True.intro
  | refused a ha =>
    refine iff_of_true h ?_
    cases a with
    | frame i raw active => exact absurd rfl (ha i raw active)
    | _ => exact True.intro
  | written route token guard claims hheld hpass =>
    have hissued := hok.mem_issued hjwt hheld hpass
    refine iff_of_true (fun w hw => ?_) True.intro
    rcases List.mem_append.mp hw with hw | hw
    · exact h w hw
    · obtain rfl := List.mem_singleton.mp hw
      exact hissued
  | refreshed =>
    exact iff_of_true (fun w hw => List.mem_append_left _ (h w hw)) True.intro
  | connected => exact iff_of_true h True.intro
  | disconnected => exact iff_of_true h True.intro
  | rejected i raw active hpacket =>
    refine iff_of_true h fun c _ hvalid => ?_
    rw [hpacket] at hvalid
    cases hvalid
  | published i raw active c packet hi hpacket =>
    constructor
    · intro hs' c' hc' _ hrefresh
      obtain rfl := Option.some.inj (hi.symm.trans hc')
      have haccess := hok.issued _ (hs' _ (List.mem_append_right _ List.mem_cons_self))
      cases haccess.type_unique hjwt hrefresh
    · intro hframe w hw
      rcases List.mem_append.mp hw with hw | hw
      · exact h w hw
      · obtain rfl := List.mem_singleton.mp hw
        have hvalid : (parsePacket decode raw).isSome := by
          rw [hpacket]
          rfl
        exact (hok.sockets c (List.mem_of_getElem? hi)).resolve_right (hframe c hi hvalid)

/-- **When refresh tokens only refresh.** Until it expires, the refresh token of a pair is rejected
by every entry point but the WebSocket, and the access token is never taken by `POST /auth/refresh`.
A run of a holder of the refresh token writes under new access tokens only, exactly if no frame is
published over a socket that a refresh token has opened. -/
theorem refresh_tokens_only_refresh_iff (user : User) (accessAt refreshAt : ℤ)
    (pair : String × String) (hpair : issueTokenPair jwt user settings accessAt refreshAt = pair) :
    (∀ now < refreshAt + settings.refreshTokenTtlSeconds, ∀ entry, entry ≠ .refresh →
      (EntryPoint.Rejects jwt settings pair.2 now entry ↔ entry ≠ .ingest)) ∧
    (∀ now, EntryPoint.Rejects jwt settings pair.1 now .refresh) ∧
    ∀ run s,
      (holder jwt settings decode pair.2 refreshAt).Exec
          (holder jwt settings decode pair.2 refreshAt).init run s →
        (TransitionSystem.Throughout OnlyThroughAccess run s ↔
          ∀ x ∈ run, NoRefreshFrame jwt settings decode x.1 x.2) := by
  subst hpair
  refine ⟨fun now hnow entry hentry => rejects_refreshToken_iff hjwt hnow hentry,
    fun now => (isToken_access user accessAt refreshAt).refresh_rejects hjwt, fun run s h => ?_⟩
  refine h.forall_iff OnlyThroughAccess (NoRefreshFrame jwt settings decode)
    (fun _ hw => absurd hw List.not_mem_nil) fun s a s' hr hs hstep => ?_
  have hok : HolderOk jwt settings s := by
    refine hr.invariant (HolderOk jwt settings) ⟨fun t ht => ?_,
      fun _ ht => absurd ht List.not_mem_nil, fun _ hc => absurd hc List.not_mem_nil⟩
      fun _ _ _ _ h hstep => h.step (holderStep_cases hstep)
    exact .inr (List.mem_singleton.mp ht ▸ isToken_refresh user accessAt refreshAt)
  exact onlyThroughAccess_step_iff hjwt hok hs (holderStep_cases hstep)

end Runs

end Holder

/-- The pair of a renter, with the default settings. -/
def samplePair : String × String := issueTokenPair sampleJwt { id := 1 } {} 0 0

theorem refresh_tokens_only_refresh_iff_samplePair :
    (∀ now < 0 + 604800, ∀ entry, entry ≠ .refresh →
      (EntryPoint.Rejects sampleJwt {} samplePair.2 now entry ↔ entry ≠ .ingest)) ∧
    (∀ now, EntryPoint.Rejects sampleJwt {} samplePair.1 now .refresh) ∧
    ∀ run s,
      (holder sampleJwt {} sampleDecode samplePair.2 0).Exec
          (holder sampleJwt {} sampleDecode samplePair.2 0).init run s →
        (TransitionSystem.Throughout OnlyThroughAccess run s ↔
          ∀ x ∈ run, NoRefreshFrame sampleJwt {} sampleDecode x.1 x.2) :=
  refresh_tokens_only_refresh_iff sampleJwt_correct { id := 1 } 0 0 samplePair rfl

theorem sample_not_expired : (0 : ℤ) < 0 + ({} : AuthSettings).refreshTokenTtlSeconds := by
  decide

/-- The packet of the frame. -/
def samplePublished : TelemetryMessage := ⟨"car", 37, -122, 80, "2026-01-01T00:00:00"⟩

/-- The refresh token of a renter opens the WebSocket of a car, and a packet is published. -/
theorem refresh_token_publishes :
    sampleJwt.Correct ∧ ¬ EntryPoint.Rejects sampleJwt {} samplePair.2 0 .ingest ∧
      ∃ s, (holder sampleJwt {} sampleDecode samplePair.2 0).Reachable s ∧
        s.writes = [(samplePair.2, .published samplePublished)] ∧ ¬ OnlyThroughAccess s := by
  have hpacket : parsePacket sampleDecode sampleFrame =
      some ⟨sampleFields, sampleFields_inBounds⟩ := by
    decide +kernel
  obtain ⟨s, hs, hissued, hwrites⟩ := holder_publishes (ingestHandshake_refreshToken
    sampleJwt_correct sample_not_expired) hpacket "car"
  refine ⟨sampleJwt_correct, fun h => ?_, s, hs, hwrites, fun h => ?_⟩
  · exact (rejects_refreshToken_iff sampleJwt_correct sample_not_expired (by decide)).mp h rfl
  · rw [OnlyThroughAccess, hwrites, hissued] at h
    exact absurd (h _ List.mem_cons_self) List.not_mem_nil

end CarFlow
