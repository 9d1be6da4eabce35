import CarFlow.Shared.JwtAuth
import CarFlow.Shared.Uuid

/-!
# The auth service

`services/auth`: the pair of tokens of a user, and `POST /auth/refresh`, which makes a new pair out
of a refresh token. Of a user only what goes into a token matters here.

## Main results

* `refresh_ok_iff` — when a pair is issued for a token
-/

namespace CarFlow

/-- A row of `users`, without the columns that only registration and login read. -/
structure User where
  id : Uuid
  role : String := "renter"
  deriving DecidableEq

/-- `AuthSettings`, without its database and the name of the service. -/
structure AuthSettings extends JwtSettings where
  accessTokenTtlSeconds : ℤ := 900
  refreshTokenTtlSeconds : ℤ := 604800
  deriving DecidableEq

/-- The claims of `create_token`. -/
def tokenClaims (userId : Uuid) (role : String) (tokenType : TokenType) (issuer : String)
    (ttlSeconds now : ℤ) : TokenClaims where
  sub := uuidStr userId
  role := role
  type := tokenType
  iss := issuer
  iat := now
  exp := now + ttlSeconds

section Pairs

variable (jwt : PyJwt)

/-- `create_token`. -/
def createToken (userId : Uuid) (role : String) (tokenType : TokenType) (secret issuer : String)
    (ttlSeconds now : ℤ) : String :=
  jwt.encode (tokenClaims userId role tokenType issuer ttlSeconds now) secret

/-- `issue_token_pair`. The clock is read for each of the two tokens. -/
def issueTokenPair (user : User) (settings : AuthSettings) (accessAt refreshAt : ℤ) :
    String × String :=
  (createToken jwt user.id user.role .access settings.jwtSecret settings.jwtIssuer
      settings.accessTokenTtlSeconds accessAt,
    createToken jwt user.id user.role .refresh settings.jwtSecret settings.jwtIssuer
      settings.refreshTokenTtlSeconds refreshAt)

/-- `POST /auth/refresh`, of a token at a time: `users` is the table, by its key. A pair that is
issued is issued at that time. -/
def refresh (settings : AuthSettings) (users : Uuid → Option User) (refreshToken : String)
    (now : ℤ) : Except HttpException (String × String) :=
  match decodeToken jwt settings.toJwtSettings refreshToken now with
  | none => .error ⟨401, "invalid refresh token"⟩
  | some claims =>
    if claims.type ≠ .refresh then .error ⟨401, "not a refresh token"⟩
    else match uuidOfString claims.sub with
      | none => .error ⟨500, "Internal Server Error"⟩
      | some userId => match users userId with
        | none => .error ⟨401, "user no longer exists"⟩
        | some user => .ok (issueTokenPair jwt user settings now now)

variable {jwt} {settings : AuthSettings} {users : Uuid → Option User} {token : String} {now : ℤ}
  {pair : String × String}

theorem refresh_ok_iff : refresh jwt settings users token now = .ok pair ↔
    ∃ claims userId user, decodeToken jwt settings.toJwtSettings token now = some claims ∧
      claims.type = .refresh ∧ uuidOfString claims.sub = some userId ∧
      users userId = some user ∧ pair = issueTokenPair jwt user settings now now := by
  constructor
  · intro h
    unfold refresh at h
    split at h
    · cases h
    · rename_i claims hdecode
      split at h
      · cases h
      · rename_i htype
        split at h
        · cases h
        · rename_i userId hsub
          split at h
          · cases h
          · rename_i user huser
            cases h
            exact ⟨claims, userId, user, hdecode, not_not.mp htype, hsub, huser, rfl⟩
  · rintro ⟨claims, userId, user, hdecode, htype, hsub, huser, rfl⟩
    simp only [refresh, hdecode, htype, hsub, huser, ne_eq, not_true_eq_false, if_false]

end Pairs

end CarFlow
