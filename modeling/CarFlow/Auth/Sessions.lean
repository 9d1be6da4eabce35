import CarFlow.Auth.RefreshTokens
import CarFlow.Auth.Registration

/-!
# Login, refresh and the tokens they issue

The routes of `services/auth` beside registrations, over time. A login reads the row of an email and
verifies the password, a refresh reads the row that the token names, and both issue a new pair of
tokens for the row they read; `GET /auth/me` shows the row that an access token names. There is no
table of sessions, and nothing revokes a token.

A caller presents the tokens that were issued to it or to others; any other text is not signed, and
is refused.

## Implementation notes

`IssuedPair` remembers the email and the password of the login that began a chain of refreshes. The
service does not store them: they are there to say whose the last token of a chain is, and
`SessionsOk` carries them along. A refresh proves nothing by itself but what the token names, so the
invariant holds for the reason that a token of the right kind was issued before.

## Main results

* `login_iff_registered` — **who can log in**, and as whom
* `sessions_belong_to_accounts` — **whose a token is**, along any chain of refreshes: the role of a
  token is the one its account was registered with
-/

namespace CarFlow

/-! ### The routes -/

/-- `UserResponse`. -/
structure UserResponse where
  id : String
  email : String
  name : String
  role : String
  deriving DecidableEq

/-- The response about a row. -/
def userResponse (user : UserRow) : UserResponse where
  id := uuidStr user.id
  email := user.email
  name := user.name
  role := user.role

section Routes

variable (hasher : PasswordHasher) (jwt : PyJwt) (settings : AuthSettings)

/-- `verify_password`. An error of argon2 other than a mismatch is not caught. -/
def verifyPassword (password passwordHash : String) : Except HttpException Bool :=
  match hasher.verify passwordHash password with
  | .returns => .ok true
  | .mismatch => .ok false
  | .raises => .error ⟨500, "Internal Server Error"⟩

/-- `authenticate_user`, with the status that the route gives its `InvalidCredentialsError`. -/
def authenticateUser (users : List UserRow) (email password : String) :
    Except HttpException UserRow :=
  match getByEmail users email with
  | none => .error ⟨401, "invalid email or password"⟩
  | some user => do
    if ← verifyPassword hasher password user.passwordHash then return user
    throw ⟨401, "invalid email or password"⟩

/-- `POST /auth/login`. The clock is read for each of the two tokens. -/
def login (users : List UserRow) (email password : String) (accessAt refreshAt : ℤ) :
    Except HttpException (String × String) := do
  let user ← authenticateUser hasher users email password
  return issueTokenPair jwt user.toUser settings accessAt refreshAt

/-- `GET /auth/me`. -/
def me (users : List UserRow) (authorization : Option String) (now : ℤ) :
    Except HttpException UserResponse := do
  let claims ← claimsDependency jwt settings.toJwtSettings .access authorization now
  match uuidOfString claims.sub with
  | none => throw ⟨500, "Internal Server Error"⟩
  | some userId => match getUserById users userId with
    | none => throw ⟨401, "user no longer exists"⟩
    | some user => return userResponse user

end Routes

/-! ### The service over time

Tokens are issued at times, and expire; the clock moves on by steps of its own. -/

/-- A pair of tokens that was issued, with the email and the password of the login at the beginning
of its chain of refreshes. -/
structure IssuedPair where
  tokens : String × String
  email : String
  password : String

/-- The service: the clock, its table with the registrations under way, and what it has issued.
Nothing but its caller reads the last. -/
structure AuthServer where
  now : ℤ := 0
  registrations : Registrations
  issued : List IssuedPair := []

inductive AuthAction
  | tick (seconds : ℕ)
  | register (a : RegistrationAction)
  /-- A login; its second token is made some seconds after its first. -/
  | login (email password : String) (seconds : ℕ)
  /-- A refresh with the refresh token of a pair that was issued. -/
  | refresh (i : ℕ)

section Server

variable (hasher : PasswordHasher) (jwt : PyJwt) (settings : AuthSettings)

/-- The table by its key. -/
def userOf (users : List UserRow) (userId : Uuid) : Option User :=
  (getUserById users userId).map UserRow.toUser

/-- One step. A login or a refresh that is refused changes nothing, and is no step. -/
def authStep (s : AuthServer) : AuthAction → Option AuthServer
  | .tick seconds => some { s with now := s.now + seconds }
  | .register a => do
    let registrations ← registrationStep hasher s.registrations a
    some { s with registrations }
  | .login email password seconds =>
    match login hasher jwt settings s.registrations.users email password s.now
        (s.now + seconds) with
    | .error _ => none
    | .ok tokens => some { s with
        now := s.now + seconds
        issued := s.issued ++ [{ tokens, email, password }] }
  | .refresh i => do
    let old ← s.issued[i]?
    match refresh jwt settings (userOf s.registrations.users) old.tokens.2 s.now with
    | .error _ => none
    | .ok tokens => some { s with issued := s.issued ++ [{ old with tokens }] }

/-- The auth service, on a table that holds some administrators. -/
def authServer (seeded : List UserRow) : TransitionSystem AuthServer AuthAction where
  init := { registrations := { users := seeded } }
  step := authStep hasher jwt settings

end Server

/-! ### Who can log in -/

section Accounts

variable {hasher : PasswordHasher} {jwt : PyJwt} {settings : AuthSettings}
  {seeded users : List UserRow} {r r' : Registrations} {s s' : AuthServer} {user : UserRow}
  {email password : String}

theorem authenticateUser_ok_iff : authenticateUser hasher users email password = .ok user ↔
    getByEmail users email = some user ∧ hasher.verify user.passwordHash password = .returns := by
  unfold authenticateUser
  split
  · rename_i hnone
    simp [hnone]
  · rename_i found hfound
    rw [hfound, Option.some.injEq]
    cases hverify : hasher.verify found.passwordHash password with
    | returns =>
      simp only [verifyPassword, hverify, bind, Except.bind, if_true, Except.pure_eq_ok_iff]
      exact ⟨fun h => ⟨h, h ▸ hverify⟩, And.left⟩
    | mismatch =>
      simp only [verifyPassword, hverify, bind, Except.bind, Bool.false_eq_true, if_false,
        Except.throw_eq_ok_iff, false_iff]
      rintro ⟨rfl, h⟩
      cases hverify.symm.trans h
    | raises =>
      simp only [verifyPassword, hverify, bind, Except.bind, reduceCtorEq, false_iff]
      rintro ⟨rfl, h⟩
      cases hverify.symm.trans h

/-- A step of registration leaves the rows that are there. -/
theorem RegistrationStep.users_subset {a : RegistrationAction}
    (h : RegistrationStep hasher r a r') : r.users ⊆ r'.users := by
  cases h with
  | committed => exact List.subset_append_left _ _
  | _ => exact List.Subset.refl _

theorem RegistrationsOk.getByEmail_iff (h : RegistrationsOk hasher seeded r) :
    getByEmail r.users email = some user ↔ user ∈ r.users ∧ user.email = email :=
  RowTable.lookup_eq_some_iff (List.pairwise_map.mpr (h.exclusive.committed.imp And.left))

theorem RegistrationsOk.getUserById_iff (h : RegistrationsOk hasher seeded r) {userId : Uuid} :
    getUserById r.users userId = some user ↔ user ∈ r.users ∧ user.id = userId :=
  RowTable.lookup_eq_some_iff (List.pairwise_map.mpr (h.exclusive.committed.imp And.right))

/-- The password opens the account: that of its registration, or that it was seeded with. -/
def Registrations.Opens (r : Registrations) (hasher : PasswordHasher) (seeded : List UserRow)
    (user : UserRow) (password : String) : Prop :=
  (user ∈ seeded ∧ hasher.verify user.passwordHash password = .returns) ∨
    ∃ request, (request, user) ∈ r.created ∧ request.password = password

/-- A password is verified for an account exactly if it opens it. -/
theorem RegistrationsOk.verify_iff (hhasher : hasher.Correct) (h : RegistrationsOk hasher seeded r)
    (huser : user ∈ r.users) :
    hasher.verify user.passwordHash password = .returns ↔ r.Opens hasher seeded user password := by
  have hcreated {request : RegisterRequest} (hr : (request, user) ∈ r.created) :
      hasher.verify user.passwordHash password = .returns ↔ request.password = password := by
    obtain ⟨salt, hhash⟩ := (h.created _ hr).passwordHash
    rw [show user.passwordHash = hasher.hash request.password salt from hhash, hhasher]
    split
    · exact iff_of_true rfl (Eq.symm ‹_›)
    · exact iff_of_false (fun h => by cases h) (Ne.symm ‹_›)
  constructor
  · intro hverify
    rw [h.users, List.mem_append, List.mem_map] at huser
    rcases huser with huser | ⟨⟨request, _⟩, hr, rfl⟩
    · exact .inl ⟨huser, hverify⟩
    · exact .inr ⟨request, hr, (hcreated hr).mp hverify⟩
  · rintro (⟨-, hverify⟩ | ⟨request, hr, hpassword⟩)
    · exact hverify
    · exact (hcreated hr).mpr hpassword

/-- The role of an account that registration has made. -/
theorem RegistrationsOk.role_eq (h : RegistrationsOk hasher seeded r) {request : RegisterRequest}
    (hr : (request, user) ∈ r.created) : user.role = request.role.code := by
  have hrole : user.role = _ := (h.created _ hr).role
  rw [hrole]
  cases request.role <;> rfl

/-- Who is an administrator. -/
theorem RegistrationsOk.role_admin_iff (hseeded : Seeded seeded)
    (h : RegistrationsOk hasher seeded r) (huser : user ∈ r.users) :
    user.role = "admin" ↔ user ∈ seeded := by
  refine ⟨fun hrole => ?_, hseeded.role user⟩
  rw [h.users, List.mem_append, List.mem_map] at huser
  rcases huser with huser | ⟨⟨request, _⟩, hr, rfl⟩
  · exact huser
  · have hcode := (h.role_eq hr).symm.trans hrole
    cases hrole' : request.role with
    | renter => rw [hrole'] at hcode; exact absurd hcode (by decide)
    | host => rw [hrole'] at hcode; exact absurd hcode (by decide)

theorem RegistrationsOk.id_lt (hseeded : Seeded seeded) (h : RegistrationsOk hasher seeded r)
    (huser : user ∈ r.users) : user.id < 16 ^ 32 := by
  rw [h.users, List.mem_append, List.mem_map] at huser
  rcases huser with huser | ⟨x, hx, rfl⟩
  · exact hseeded.id_lt user huser
  · exact (h.created x hx).id_lt

theorem authServer_registrations (h : (authServer hasher jwt settings seeded).Reachable s) :
    (registrations hasher seeded).Reachable s.registrations := by
  refine h.invariant (fun s => (registrations hasher seeded).Reachable s.registrations) .init
    fun s a s' _ hs hstep => ?_
  cases a with
  | tick seconds =>
    cases hstep
    exact hs
  | register a =>
    simp only [authServer, authStep, Option.bind_eq_bind, Option.bind_eq_some_iff] at hstep
    obtain ⟨r, hr, hstep⟩ := hstep
    cases hstep
    exact .step hs hr
  | login email password seconds =>
    simp only [authServer, authStep] at hstep
    split at hstep
    · cases hstep
    · cases hstep
      exact hs
  | refresh i =>
    simp only [authServer, authStep, Option.bind_eq_bind, Option.bind_eq_some_iff] at hstep
    obtain ⟨old, -, hstep⟩ := hstep
    split at hstep
    · cases hstep
    · cases hstep
      exact hs

theorem login_ok_iff {accessAt refreshAt : ℤ} {tokens : String × String} :
    login hasher jwt settings users email password accessAt refreshAt = .ok tokens ↔
      ∃ user, getByEmail users email = some user ∧
        hasher.verify user.passwordHash password = .returns ∧
        issueTokenPair jwt user.toUser settings accessAt refreshAt = tokens := by
  simp only [login, Except.bind_eq_ok_iff, authenticateUser_ok_iff, Except.pure_eq_ok_iff,
    and_assoc]

/-- **Who can log in**: with the email of an account and the password of its registration, and as
nobody else than that account. -/
theorem login_iff_registered (hhasher : hasher.Correct) (hseeded : Seeded seeded)
    (h : (authServer hasher jwt settings seeded).Reachable s) (email password : String)
    (accessAt refreshAt : ℤ) (tokens : String × String) :
    login hasher jwt settings s.registrations.users email password accessAt refreshAt =
        .ok tokens ↔
      ∃ user ∈ s.registrations.users, user.email = email ∧
        s.registrations.Opens hasher seeded user password ∧
        issueTokenPair jwt user.toUser settings accessAt refreshAt = tokens := by
  have hok := registrationsOk_of_reachable hseeded (authServer_registrations h)
  rw [login_ok_iff]
  constructor
  · rintro ⟨user, hfound, hverify, hpair⟩
    obtain ⟨huser, hemail⟩ := hok.getByEmail_iff.mp hfound
    exact ⟨user, huser, hemail, (hok.verify_iff hhasher huser).mp hverify, hpair⟩
  · rintro ⟨user, huser, hemail, hopens, hpair⟩
    exact ⟨user, hok.getByEmail_iff.mpr ⟨huser, hemail⟩,
      (hok.verify_iff hhasher huser).mpr hopens, hpair⟩

/-! ### Whose a token is

The claims of a token are read back as they were written, so a token leads to the row it was issued
for, and a refresh to another token of that row. -/

/-- A pair of tokens that is the account's. -/
def IssuedPair.Of (issued : IssuedPair) (jwt : PyJwt) (settings : AuthSettings) (user : UserRow) :
    Prop :=
  ∃ accessAt refreshAt, issued.tokens = issueTokenPair jwt user.toUser settings accessAt refreshAt

/-- What is issued is issued for an account that the login of its chain opened. -/
def SessionsOk (hasher : PasswordHasher) (jwt : PyJwt) (settings : AuthSettings)
    (s : AuthServer) : Prop :=
  ∀ issued ∈ s.issued, ∃ user ∈ s.registrations.users, user.email = issued.email ∧
    hasher.verify user.passwordHash issued.password = .returns ∧ issued.Of jwt settings user

/-- The claims of the tokens of an account. -/
theorem IssuedPair.Of.claims_eq (hjwt : jwt.Correct) {issued : IssuedPair}
    (h : issued.Of jwt settings user) {token : String} {now : ℤ} {claims : TokenClaims}
    (htoken : token = issued.tokens.1 ∨ token = issued.tokens.2)
    (hdecode : decodeToken jwt settings.toJwtSettings token now = some claims) :
    claims.sub = uuidStr user.id ∧ claims.role = user.role := by
  obtain ⟨accessAt, refreshAt, htokens⟩ := h
  obtain ⟨hencode, hiss, -⟩ := hjwt.decodeToken_iff.mp hdecode
  rw [htokens] at htoken
  rcases htoken with rfl | rfl
  · obtain rfl := hjwt.encode_inj hiss hencode
    exact ⟨rfl, rfl⟩
  · obtain rfl := hjwt.encode_inj hiss hencode
    exact ⟨rfl, rfl⟩

/-- A refresh issues a pair of the account that the token belongs to. -/
theorem IssuedPair.Of.refresh (hjwt : jwt.Correct) (hseeded : Seeded seeded)
    (hok : RegistrationsOk hasher seeded r) {issued : IssuedPair}
    (h : issued.Of jwt settings user) (huser : user ∈ r.users) {now : ℤ}
    {tokens : String × String}
    (hrefresh : CarFlow.refresh jwt settings (userOf r.users) issued.tokens.2 now = .ok tokens) :
    tokens = issueTokenPair jwt user.toUser settings now now := by
  obtain ⟨claims, userId, found, hdecode, -, hsub, hfound, rfl⟩ := refresh_ok_iff.mp hrefresh
  obtain ⟨hclaims, -⟩ := h.claims_eq hjwt (.inr rfl) hdecode
  rw [hclaims, uuidOfString_uuidStr (hok.id_lt hseeded huser), Option.some.injEq] at hsub
  have hrow : getUserById r.users userId = some user := hok.getUserById_iff.mpr ⟨huser, hsub⟩
  rw [userOf, hrow, Option.map_some, Option.some.injEq] at hfound
  rw [hfound]

theorem SessionsOk.mono {hasher : PasswordHasher} (h : SessionsOk hasher jwt settings s)
    (hissued : s'.issued = s.issued) (husers : s.registrations.users ⊆ s'.registrations.users) :
    SessionsOk hasher jwt settings s' := by
  intro issued hmem
  rw [hissued] at hmem
  obtain ⟨user, huser, hrest⟩ := h issued hmem
  exact ⟨user, husers huser, hrest⟩

/-- One more pair is issued. -/
theorem SessionsOk.issue {now : ℤ} (h : SessionsOk hasher jwt settings s) {issued : IssuedPair}
    (hissued : ∃ user ∈ s.registrations.users, user.email = issued.email ∧
      hasher.verify user.passwordHash issued.password = .returns ∧
      issued.Of jwt settings user) :
    SessionsOk hasher jwt settings { s with now, issued := s.issued ++ [issued] } := by
  intro x hx
  rcases List.mem_append.mp hx with hx | hx
  · exact h x hx
  · rwa [List.mem_singleton.mp hx]

theorem sessionsOk_of_reachable (hjwt : jwt.Correct) (hseeded : Seeded seeded)
    (h : (authServer hasher jwt settings seeded).Reachable s) :
    SessionsOk hasher jwt settings s := by
  refine h.invariant _ (fun _ hx => absurd hx List.not_mem_nil) fun s a s' hr hs hstep => ?_
  have hok := registrationsOk_of_reachable hseeded (authServer_registrations hr)
  cases a with
  | tick seconds =>
    cases hstep
    exact hs.mono rfl (List.Subset.refl _)
  | register a =>
    simp only [authServer, authStep, Option.bind_eq_bind, Option.bind_eq_some_iff] at hstep
    obtain ⟨r, hstep', hstep⟩ := hstep
    cases hstep
    exact hs.mono rfl (registrationStep_cases hstep').users_subset
  | login email password seconds =>
    simp only [authServer, authStep] at hstep
    split at hstep
    · cases hstep
    rename_i tokens hlogin
    cases hstep
    obtain ⟨user, hfound, hverify, hpair⟩ := login_ok_iff.mp hlogin
    obtain ⟨huser, hemail⟩ := hok.getByEmail_iff.mp hfound
    exact hs.issue ⟨user, huser, hemail, hverify, _, _, hpair.symm⟩
  | refresh i =>
    simp only [authServer, authStep, Option.bind_eq_bind, Option.bind_eq_some_iff] at hstep
    obtain ⟨old, hi, hstep⟩ := hstep
    split at hstep
    · cases hstep
    rename_i tokens hrefresh
    cases hstep
    obtain ⟨user, huser, hemail, hverify, hof⟩ := hs old (List.mem_of_getElem? hi)
    exact hs.issue ⟨user, huser, hemail, hverify, s.now, s.now,
      hof.refresh hjwt hseeded hok huser hrefresh⟩

/-- `GET /auth/me` shows the account of an access token. -/
theorem me_ok {hasher : PasswordHasher} (hseeded : Seeded seeded)
    (hok : RegistrationsOk hasher seeded r) (huser : user ∈ r.users) {token : String} {now : ℤ}
    {claims : TokenClaims} (htype : claims.type = .access) (hsub : claims.sub = uuidStr user.id)
    (hdecode : decodeToken jwt settings.toJwtSettings token now = some claims) :
    me jwt settings r.users (some ("Bearer " ++ token)) now = .ok (userResponse user) := by
  have hclaims : claimsDependency jwt settings.toJwtSettings .access (some ("Bearer " ++ token))
      now = .ok claims :=
    claimsDependency_ok_iff.mpr ⟨token, bearerToken_bearer token, hdecode, htype⟩
  have hrow : getUserById r.users user.id = some user := hok.getUserById_iff.mpr ⟨huser, rfl⟩
  simp only [me, hclaims, bind, Except.bind, hsub,
    uuidOfString_uuidStr (hok.id_lt hseeded huser), hrow]
  rfl

/-- **Whose a token is.** However a pair of tokens was issued, by a login or by a chain of refreshes
that began with one, it is a pair of the account which that login's email and password open: both
tokens name it and the role it was registered with, `GET /auth/me` shows it for as long as the
access token lasts, and the role is that of an administrator for the accounts that were seeded
only. -/
theorem sessions_belong_to_accounts (hjwt : jwt.Correct) (hhasher : hasher.Correct)
    (hseeded : Seeded seeded) (h : (authServer hasher jwt settings seeded).Reachable s) :
    ∀ issued ∈ s.issued, ∃ user ∈ s.registrations.users, user.email = issued.email ∧
      s.registrations.Opens hasher seeded user issued.password ∧
      (∀ request, (request, user) ∈ s.registrations.created → user.role = request.role.code) ∧
      (∀ token now claims, token = issued.tokens.1 ∨ token = issued.tokens.2 →
        decodeToken jwt settings.toJwtSettings token now = some claims →
        claims.sub = uuidStr user.id ∧ claims.role = user.role ∧
        (requireRole claims ["admin"] = .ok () ↔ user ∈ seeded)) ∧
      ∀ now, decodeToken jwt settings.toJwtSettings issued.tokens.1 now ≠ none →
        me jwt settings s.registrations.users (some ("Bearer " ++ issued.tokens.1)) now =
          .ok { id := uuidStr user.id, email := user.email, name := user.name
                role := user.role } := by
  have hok := registrationsOk_of_reachable hseeded (authServer_registrations h)
  intro issued hissued
  obtain ⟨user, huser, hemail, hverify, hof⟩ :=
    sessionsOk_of_reachable hjwt hseeded h issued hissued
  refine ⟨user, huser, hemail, (hok.verify_iff hhasher huser).mp hverify,
    fun request hr => hok.role_eq hr, fun token now claims htoken hdecode => ?_,
    fun now hdecode => ?_⟩
  · obtain ⟨hsub, hrole⟩ := hof.claims_eq hjwt htoken hdecode
    refine ⟨hsub, hrole, ?_⟩
    rw [requireRole_ok_iff, List.mem_singleton, hrole]
    exact hok.role_admin_iff hseeded huser
  · obtain ⟨claims, hdecode⟩ := Option.ne_none_iff_exists'.mp hdecode
    have haccess : IsToken jwt settings.toJwtSettings .access issued.tokens.1 := by
      obtain ⟨accessAt, refreshAt, htokens⟩ := hof
      rw [htokens]
      exact isToken_access ..
    exact me_ok hseeded hok huser
      ((isToken_of_decodeToken hjwt hdecode).type_unique hjwt haccess)
      (hof.claims_eq hjwt (.inl rfl) hdecode).1 hdecode

end Accounts

/-! ### A sample session -/

/-- An administrator with the identifier 1. -/
def sampleSeeded : List UserRow :=
  [{ id := 1, role := "admin", email := "admin@example.com", name := "Admin"
     passwordHash := "adminpassword123" }]

theorem sampleSeeded_seeded : Seeded sampleSeeded where
  apart := List.pairwise_singleton ..
  role := by simp [sampleSeeded]
  id_lt := by simp [sampleSeeded]

theorem sampleHasher_correct : sampleHasher.Correct := fun _ _ _ => rfl

/-- Tokens that expire soon. -/
def sampleAuthSettings : AuthSettings where
  accessTokenTtlSeconds := 2
  refreshTokenTtlSeconds := 5

/-- A renter registers, logs in, and refreshes its tokens three seconds later. -/
def sampleSession : List AuthAction :=
  [.register (.begin sampleRegistration), .register (.lookUp 0), .register (.insert 0 5 ""),
    .register (.commit 0), .login "a@example.com" "supersecret123" 1, .tick 2, .refresh 0]

theorem sampleSession_reachable :
    ∃ s, (authServer sampleHasher sampleJwt sampleAuthSettings sampleSeeded).Reachable s ∧
      s.issued.length = 2 := by
  have hrun : ((authServer sampleHasher sampleJwt sampleAuthSettings sampleSeeded).run
      (authServer sampleHasher sampleJwt sampleAuthSettings sampleSeeded).init
      sampleSession).map (·.issued.length) = some 2 := by
    decide +kernel
  obtain ⟨s, hs, hissued⟩ := Option.map_eq_some_iff.mp hrun
  exact ⟨s, TransitionSystem.reachable_of_run .init hs, hissued⟩

theorem login_iff_registered_sampleSession :
    ∃ s, (authServer sampleHasher sampleJwt sampleAuthSettings sampleSeeded).Reachable s ∧
      s.issued.length = 2 ∧ ∀ password tokens,
      login sampleHasher sampleJwt sampleAuthSettings s.registrations.users "a@example.com"
          password 3 3 = .ok tokens ↔
        ∃ user ∈ s.registrations.users, user.email = "a@example.com" ∧
          s.registrations.Opens sampleHasher sampleSeeded user password ∧
          issueTokenPair sampleJwt user.toUser sampleAuthSettings 3 3 = tokens := by
  obtain ⟨s, hs, hissued⟩ := sampleSession_reachable
  exact ⟨s, hs, hissued, fun password tokens => login_iff_registered sampleHasher_correct
    sampleSeeded_seeded hs "a@example.com" password 3 3 tokens⟩

theorem sessions_belong_to_accounts_sampleSession :
    ∃ s, (authServer sampleHasher sampleJwt sampleAuthSettings sampleSeeded).Reachable s ∧
      s.issued.length = 2 ∧
      ∀ issued ∈ s.issued, ∃ user ∈ s.registrations.users, user.email = issued.email := by
  obtain ⟨s, hs, hlength⟩ := sampleSession_reachable
  refine ⟨s, hs, hlength, fun issued hissued => ?_⟩
  obtain ⟨user, huser, hemail, -⟩ := sessions_belong_to_accounts sampleJwt_correct
    sampleHasher_correct sampleSeeded_seeded hs issued hissued
  exact ⟨user, huser, hemail⟩

end CarFlow
