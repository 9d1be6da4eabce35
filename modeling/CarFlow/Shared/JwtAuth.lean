import CarFlow.Lib.ExceptLemmas
import Mathlib.Algebra.Ring.Int.Defs

/-!
# Tokens

`shared/jwt_auth.py`: how a service reads the token of a caller, and which callers it lets pass.
PyJWT is a parameter. All that is assumed of it is `PyJwt.Correct`: a token decodes exactly as long
as it is signed with the secret, of the issuer and not expired, and to the claims it was made of.

## Main results

* `claimsDependency_ok_iff`, `requireRole_ok_iff` — who passes
* `PyJwt.Correct.encode_inj` — a token is made of one set of claims
-/

namespace CarFlow

/-- An `HTTPException`. -/
structure HttpException where
  statusCode : ℕ
  detail : String
  deriving DecidableEq

/-- `TokenType`. -/
inductive TokenType
  | access
  | refresh
  deriving DecidableEq

/-- The `type` of a token, as it is written. -/
def TokenType.text : TokenType → String
  | .access => "access"
  | .refresh => "refresh"

/-- The payload of a token. Its times are whole seconds. -/
structure TokenClaims where
  sub : String
  role : String
  type : TokenType
  iss : String
  iat : ℤ
  exp : ℤ
  deriving DecidableEq

/-- PyJWT, with HS256. -/
structure PyJwt where
  /-- `jwt.encode`, of a payload and a secret. -/
  encode : TokenClaims → String → String
  /-- `jwt.decode`, of a token, for a secret and an issuer, at a time. An `InvalidTokenError` is
  `none`. -/
  decode : String → String → String → ℤ → Option TokenClaims

/-- A token decodes exactly if it is correctly signed, of the issuer and not expired. -/
def PyJwt.Correct (jwt : PyJwt) : Prop :=
  ∀ token secret issuer now claims, jwt.decode token secret issuer now = some claims ↔
    jwt.encode claims secret = token ∧ claims.iss = issuer ∧ now < claims.exp

/-- The secret and the issuer, which all services are given. -/
structure JwtSettings where
  jwtSecret : String := "dev-secret-change-me"
  jwtIssuer : String := "carflow-auth"
  deriving DecidableEq

section Callers

variable (jwt : PyJwt) (settings : JwtSettings)

/-- `decode_token`. -/
def decodeToken (token : String) (now : ℤ) : Option TokenClaims :=
  jwt.decode token settings.jwtSecret settings.jwtIssuer now

/-- `bearer_token`. A scheme of six letters and a blank come first, so the rest of
`split(" ", 1)` begins behind them. -/
def bearerToken : Option String → Except HttpException String
  | none => .error ⟨401, "missing bearer token"⟩
  | some authorization =>
    if (authorization.toList.take 7).map Char.toLower = "bearer ".toList then
      .ok (String.ofList ((authorization.toList.dropWhile (· ≠ ' ')).drop 1))
    else .error ⟨401, "missing bearer token"⟩

/-- `claims_dependency`, of a request at a time. -/
def claimsDependency (tokenType : TokenType) (authorization : Option String) (now : ℤ) :
    Except HttpException TokenClaims := do
  let token ← bearerToken authorization
  match decodeToken jwt settings token now with
  | none => .error ⟨401, "invalid or expired token"⟩
  | some claims =>
    if claims.type ≠ tokenType then .error ⟨401, s!"expected a {tokenType.text} token"⟩
    else .ok claims

/-- `require_role`. -/
def requireRole (claims : TokenClaims) (allowedRoles : List String) : Except HttpException Unit :=
  if claims.role ∈ allowedRoles then .ok () else .error ⟨403, "insufficient role"⟩

variable {jwt settings} {token : String} {authorization : Option String} {now : ℤ}
  {claims claims' : TokenClaims} {tokenType : TokenType}

theorem claimsDependency_ok_iff :
    claimsDependency jwt settings tokenType authorization now = .ok claims ↔
      ∃ token, bearerToken authorization = .ok token ∧
        decodeToken jwt settings token now = some claims ∧ claims.type = tokenType := by
  simp only [claimsDependency, Except.bind_eq_ok_iff]
  refine exists_congr fun token => and_congr_right fun _ => ?_
  split
  · rename_i hdecode
    simp [hdecode]
  · rename_i found hdecode
    rw [hdecode, Option.some.injEq]
    split
    · rename_i htype
      refine iff_of_false (fun h => by cases h) ?_
      rintro ⟨rfl, htype'⟩
      exact htype htype'
    · rename_i htype
      rw [Except.ok.injEq]
      exact ⟨fun h => ⟨h, h ▸ not_not.mp htype⟩, And.left⟩

theorem requireRole_ok_iff {allowedRoles : List String} :
    requireRole claims allowedRoles = .ok () ↔ claims.role ∈ allowedRoles := by
  unfold requireRole
  split <;> simp [*]

/-- A caller with the role passes. -/
theorem requireRole_bind {α : Type} {allowedRoles : List String} (h : claims.role ∈ allowedRoles)
    (next : Unit → Except HttpException α) :
    (requireRole claims allowedRoles >>= next) = next () := by
  rw [requireRole_ok_iff.mpr h]
  rfl

/-- The header that carries a token. -/
theorem bearerToken_bearer (token : String) :
    bearerToken (some ("Bearer " ++ token)) = .ok token := by
  have hlist : ("Bearer " ++ token).toList =
      ['B', 'e', 'a', 'r', 'e', 'r', ' '] ++ token.toList := String.toList_append
  have hrest : (("Bearer " ++ token).toList.dropWhile (· ≠ ' ')).drop 1 = token.toList := by
    rw [hlist]
    rfl
  have hscheme : (("Bearer " ++ token).toList.take 7).map Char.toLower = "bearer ".toList := by
    rw [hlist]
    rfl
  rw [bearerToken, if_pos hscheme, hrest, String.ofList_toList]

/-- **A token is made of one set of claims**, as far as the tokens of one issuer go. -/
theorem PyJwt.Correct.encode_inj (hjwt : jwt.Correct) {secret : String}
    (hiss : claims.iss = claims'.iss) (h : jwt.encode claims secret = jwt.encode claims' secret) :
    claims = claims' := by
  obtain ⟨now, hnow, hnow'⟩ : ∃ now, now < claims.exp ∧ now < claims'.exp :=
    ⟨min claims.exp claims'.exp - 1, by omega, by omega⟩
  have hdecode := (hjwt _ secret claims.iss now claims).mpr ⟨rfl, rfl, hnow⟩
  have hdecode' := (hjwt _ secret claims.iss now claims').mpr ⟨h.symm, hiss.symm, hnow'⟩
  exact Option.some.inj (hdecode.symm.trans hdecode')

theorem PyJwt.Correct.decodeToken_iff (hjwt : jwt.Correct) :
    decodeToken jwt settings token now = some claims ↔
      jwt.encode claims settings.jwtSecret = token ∧ claims.iss = settings.jwtIssuer ∧
        now < claims.exp :=
  hjwt ..

end Callers

/-- The claims of an admin. -/
def sampleAdmin : TokenClaims where
  sub := "00000000-0000-0000-0000-000000000001"
  role := "admin"
  type := .access
  iss := "carflow-auth"
  iat := 0
  exp := 900

/-! ### A concrete PyJWT -/

/-- A text as a field of a token: a mark before each character, and another one at the end. -/
def jwtField : List Char → List Char
  | [] => ['.']
  | c :: cs => '+' :: c :: jwtField cs

/-- The first field, and the rest. -/
def readField : List Char → List Char × List Char
  | '+' :: c :: rest => (c :: (readField rest).1, (readField rest).2)
  | rest => ([], rest.drop 1)

theorem readField_jwtField (cs rest : List Char) :
    readField (jwtField cs ++ rest) = (cs, rest) := by
  induction cs with
  | nil => rfl
  | cons c cs ih => simp only [jwtField, List.cons_append, readField, ih]

/-- A number as a text: a sign, and a tally. -/
def tally (n : ℤ) : List Char :=
  (if n < 0 then '-' else '+') :: List.replicate n.natAbs '1'

def readTally (cs : List Char) : ℤ :=
  if cs.head? = some '-' then -cs.tail.length else cs.tail.length

theorem readTally_tally (n : ℤ) : readTally (tally n) = n := by
  have hlength : (tally n).tail.length = n.natAbs := List.length_replicate
  rw [readTally, hlength, tally, List.head?_cons]
  by_cases hn : n < 0
  · rw [if_pos hn, if_pos rfl]
    omega
  · rw [if_neg hn, if_neg (by decide)]
    omega

/-- A token with the claims in the clear, and the secret for a signature. -/
def sampleEncode (claims : TokenClaims) (secret : String) : String :=
  String.ofList (jwtField claims.sub.toList ++ jwtField claims.role.toList ++
    jwtField claims.type.text.toList ++ jwtField claims.iss.toList ++
    jwtField (tally claims.iat) ++ jwtField (tally claims.exp) ++ jwtField secret.toList)

/-- The claims of a token, whoever has signed it. -/
def sampleClaims (token : String) : TokenClaims :=
  let (sub, rest) := readField token.toList
  let (role, rest) := readField rest
  let (type, rest) := readField rest
  let (iss, rest) := readField rest
  let (iat, rest) := readField rest
  let (exp, _) := readField rest
  { sub := String.ofList sub
    role := String.ofList role
    type := if String.ofList type = TokenType.access.text then .access else .refresh
    iss := String.ofList iss
    iat := readTally iat
    exp := readTally exp }

/-- A token decodes if it is the one that its claims are signed as. -/
def sampleJwt : PyJwt where
  encode := sampleEncode
  decode token secret issuer now :=
    let claims := sampleClaims token
    if sampleEncode claims secret = token ∧ claims.iss = issuer ∧ now < claims.exp then some claims
    else none

theorem sampleClaims_sampleEncode (claims : TokenClaims) (secret : String) :
    sampleClaims (sampleEncode claims secret) = claims := by
  have htype : (if claims.type.text = TokenType.access.text then TokenType.access else .refresh) =
      claims.type := by
    cases claims.type <;> rfl
  simp only [sampleClaims, sampleEncode, String.toList_ofList, List.append_assoc,
    readField_jwtField, String.ofList_toList, readTally_tally, htype]

theorem sampleJwt_correct : sampleJwt.Correct := by
  intro token secret issuer now claims
  simp only [sampleJwt, Option.ite_none_right_eq_some, Option.some.injEq]
  constructor
  · rintro ⟨⟨hencode, hiss, hexp⟩, rfl⟩
    exact ⟨hencode, hiss, hexp⟩
  · rintro ⟨rfl, hiss, hexp⟩
    rw [sampleClaims_sampleEncode]
    exact ⟨⟨rfl, hiss, hexp⟩, rfl⟩

end CarFlow
