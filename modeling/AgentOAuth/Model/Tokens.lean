import AgentOAuth.Model.Errors
import AgentOAuth.Model.Text

/-!
# Minting and verifying tokens

`src/crypto/tokens.py`.  PyJWT is a parameter, `PyJwt`: its functions, together
with the documented behaviour the server relies on.  `signedBy` is the ES256
relation between a public key and the compact tokens whose signature verifies
under it.

The minter works with `datetime` values; `jwt.encode` writes them as whole
seconds.  `signedPayload` is what ends up inside the signature.
-/

namespace AgentOAuth

open Effect Binary64

/-- The only algorithm that signs and verifies. -/
def ALGORITHM : String := "ES256"

/-- `ACCESS_TOKEN_TYPE` of `crypto/tokens.py`: the `typ` of an access token. -/
def AT_JWT : String := "at+jwt"

/-- The claims a caller of `mint` may not bring. -/
def MINTER_OWNED_CLAIMS : List String := ["iss", "iat", "exp", "jti"]

/-- The claims without which no token verifies. -/
def REQUIRED_CLAIMS : List String := ["iss", "sub", "aud", "iat", "exp", "jti"]

/-! ## Keys -/

/-- The coordinates of a P-256 public key. -/
structure PublicKey where
  x : ℕ
  y : ℕ
  deriving DecidableEq

/-- A P-256 private key, with the public key that belongs to it. -/
structure PrivateKey where
  scalar : ℕ
  publicKey : PublicKey

/-- The active private key and the `kid` it is published under. -/
structure SigningKey where
  privateKey : PrivateKey
  kid : String

/-- `public_key`. -/
def SigningKey.publicKey (key : SigningKey) : PublicKey :=
  key.privateKey.publicKey

/-! ## PyJWT -/

/-- The keyword arguments of `jwt.decode`. -/
structure DecodeOptions where
  algorithms : List String
  issuer : Option String
  audience : Option String
  require : List String
  verifyAud : Bool

/-- What `jwt.encode` writes for one entry of the payload. -/
def numericDate (name : String) : Value → Value
  | .datetime t => if name ∈ ["exp", "iat", "nbf"] then .int ⌊t⌋ else .datetime t
  | value => value

@[simp] theorem numericDate_null (name : String) : numericDate name .null = .null := rfl

@[simp] theorem numericDate_str (name s : String) : numericDate name (.str s) = .str s := rfl

@[simp] theorem numericDate_int (name : String) (n : ℤ) : numericDate name (.int n) = .int n := rfl

@[simp] theorem numericDate_dict (name : String) (d : Dict) :
    numericDate name (.dict d) = .dict d := rfl

/-- The payload `jwt.encode` signs: `datetime` claims become whole seconds. -/
def signedPayload (payload : Dict) : Dict :=
  payload.map fun entry => (entry.1, numericDate entry.1 entry.2)

/-- The functions of PyJWT the server calls, and what it relies on. -/
structure PyJwt where
  getUnverifiedHeader : String → Except JwtExc Dict
  /-- `jwt.decode(token, options={"verify_signature": False})`. -/
  decodeUnverified : String → Except JwtExc Dict
  /-- `jwt.PyJWK.from_dict(jwk).key`. -/
  keyOfJwk : Dict → Except JwtExc PublicKey
  /-- `jwt.decode(token, key, …)` at a clock reading. -/
  decode : DecodeOptions → PublicKey → ℚ → String → Except JwtExc Dict
  /-- `jwt.encode(payload, key, algorithm=ALGORITHM, headers=headers)`. -/
  encode : Dict → PrivateKey → Dict → Except JwtExc String
  signedBy : PublicKey → String → Prop
  /-- A token carries the payload it was made from. -/
  encode_claims : ∀ {payload key headers token},
    encode payload key headers = .ok token → decodeUnverified token = .ok (signedPayload payload)
  /-- Verification returns the claims the token carries. -/
  decode_claims : ∀ {options key now token claims},
    decode options key now token = .ok claims → decodeUnverified token = .ok claims
  /-- The signature of a decoded token verifies under the key. -/
  decode_signed : ∀ {options key now token claims},
    decode options key now token = .ok claims → signedBy key token
  /-- Every required claim is there. -/
  decode_required : ∀ {options key now token claims},
    decode options key now token = .ok claims →
      ∀ name ∈ options.require, Dict.get claims name ≠ .null
  /-- A numeric `exp`, read as an integer, is in the future. -/
  decode_exp : ∀ {options key now token claims},
    decode options key now token = .ok claims →
      ∀ exp, (Dict.get claims "exp").number? = some exp → now < truncate exp
  /-- `sub` and `jti` are strings where they are present. -/
  decode_text : ∀ {options key now token claims},
    decode options key now token = .ok claims →
      ∀ name ∈ ["sub", "jti"], Dict.get claims name ≠ .null →
        ∃ text, Dict.get claims name = .str text

/-- What PyJWT raises when it decodes: `InvalidTokenError`. -/
structure PyJwt.RaisesInvalidToken (jwt : PyJwt) : Prop where
  header : ∀ token e, jwt.getUnverifiedHeader token = .error e → e = .invalidToken
  decode : ∀ options key now token e, jwt.decode options key now token = .error e → e = .invalidToken

theorem get_signedPayload (payload : Dict) (name : String) :
    Dict.get (signedPayload payload) name = numericDate name (Dict.get payload name) := by
  induction payload with
  | nil => rfl
  | cons entry rest ih =>
      obtain ⟨k, v⟩ := entry
      rw [signedPayload, List.map_cons, Dict.get_cons, Dict.get_cons]
      split
      · next h => rw [h]
      · exact ih

theorem numericDate_of_notMem {name : String} (h : name ∉ ["exp", "iat", "nbf"]) (v : Value) :
    numericDate name v = v := by
  cases v with
  | datetime t => exact if_neg h
  | _ => rfl

theorem lookup_signedPayload (payload : Dict) (name : String) :
    List.lookup name (signedPayload payload) = (List.lookup name payload).map (numericDate name) := by
  induction payload with
  | nil => rfl
  | cons entry rest ih =>
      obtain ⟨k, v⟩ := entry
      rw [signedPayload, List.map_cons, Dict.lookup_cons, Dict.lookup_cons]
      split
      · next h => rw [h, Option.map_some]
      · exact ih

/-! ## The seconds of a `timedelta` -/

/-- `delta.total_seconds()`: its whole microseconds over a million, one `int`
divided by another, so rounded once, to a float. -/
def totalSeconds (delta : ℚ) : ℚ :=
  nearest (⌊delta * 1000000⌋ / 1000000)

theorem totalSeconds_intCast {n : ℤ} (h : |n| < 2 ^ 53) : totalSeconds n = n := by
  have hcount : ⌊(n : ℚ) * 1000000⌋ = n * 1000000 := by exact_mod_cast Int.floor_intCast (n * 1000000)
  have hexact : ((n * 1000000 : ℤ) : ℚ) / 1000000 = n := by
    push_cast
    field_simp
  rw [totalSeconds, hcount, hexact, nearest_intCast h]

/-- The float is above the `timedelta` by one part in `2⁵³` at most. -/
theorem totalSeconds_le {delta : ℚ} (hpos : 0 ≤ delta) :
    totalSeconds delta ≤ delta + delta / 2 ^ 53 := by
  have hcount : (⌊delta * 1000000⌋ : ℚ) / 1000000 ≤ delta := by
    rw [div_le_iff₀ (by norm_num)]
    exact Int.floor_le _
  have hnonneg : (0 : ℚ) ≤ (⌊delta * 1000000⌋ : ℚ) / 1000000 :=
    div_nonneg (by exact_mod_cast Int.floor_nonneg.mpr (by positivity)) (by norm_num)
  have herror := (abs_le.mp (abs_nearest_sub_le ((⌊delta * 1000000⌋ : ℚ) / 1000000))).2
  rw [abs_of_nonneg hnonneg] at herror
  rw [totalSeconds]
  linarith

/-- Below `2⁵³` microseconds it has the whole seconds of the `timedelta`. -/
theorem truncate_totalSeconds {delta : ℚ} (hpos : 0 ≤ delta) (hshort : delta * 1000000 < 2 ^ 53) :
    truncate (totalSeconds delta) = ⌊delta⌋ := by
  have hcount : 0 ≤ ⌊delta * 1000000⌋ := Int.floor_nonneg.mpr (by positivity)
  have hbits : ⌊delta * 1000000⌋ < 2 ^ 53 := by
    rw [Int.floor_lt]
    exact_mod_cast hshort
  have hquotient : (0 : ℚ) ≤ (⌊delta * 1000000⌋ : ℚ) / 1000000 :=
    div_nonneg (by exact_mod_cast hcount) (by norm_num)
  calc truncate (totalSeconds delta) = ⌊nearest ((⌊delta * 1000000⌋ : ℚ) / 1000000)⌋ :=
        if_pos (nearest_nonneg hquotient)
    _ = ⌊delta * 1000000⌋ / 1000000 := by
        exact_mod_cast floor_nearest_div hcount (d := 1000000) (by norm_num) hbits
    _ = ⌊delta⌋ := by
        exact_mod_cast Int.mul_natCast_floor_div_cancel (n := 1000000) (by norm_num) delta

/-- Far above that it may have one second more. -/
example : totalSeconds (20000000000 - 1 / 1000000) = 20000000000 := by decide +kernel

/-- Rounding makes no second where there is none. -/
theorem one_le_totalSeconds {delta : ℚ} : 1 ≤ totalSeconds delta ↔ 1 ≤ delta := by
  rcases lt_or_ge delta 0 with hneg | hpos
  · have hcount : (⌊delta * 1000000⌋ : ℚ) / 1000000 ≤ 0 := by
      have hfloor := Int.floor_le (delta * 1000000)
      rw [div_le_iff₀ (by norm_num)]
      linarith
    have hseconds : totalSeconds delta ≤ 0 := nearest_nonpos hcount
    constructor <;> intro h <;> linarith
  rcases lt_or_ge (delta * 1000000) (2 ^ 53) with hshort | hlong
  · rw [← truncate_pos_iff, truncate_totalSeconds hpos hshort, Int.floor_pos]
  · have hcount : (2 ^ 53 : ℚ) ≤ ⌊delta * 1000000⌋ := by
      exact_mod_cast Int.le_floor.mpr (by exact_mod_cast hlong : ((2 ^ 53 : ℤ) : ℚ) ≤ delta * 1000000)
    have hnonneg : (0 : ℚ) ≤ (⌊delta * 1000000⌋ : ℚ) / 1000000 := by positivity
    have herror := (abs_le.mp (abs_nearest_sub_le ((⌊delta * 1000000⌋ : ℚ) / 1000000))).1
    rw [abs_of_nonneg hnonneg] at herror
    have hseconds : 1 ≤ totalSeconds delta := by
      rw [totalSeconds]
      linarith
    exact iff_of_true hseconds (by linarith)

/-! ## The minter -/

/-- `MintedToken`. -/
structure MintedToken where
  token : String
  claims : Dict
  expiresIn : ℤ

/-- `TokenMinter(issuer, signing_key, default_ttl_seconds)`. -/
structure TokenMinter where
  jwt : PyJwt
  issuer : String
  signingKey : SigningKey
  defaultTtlSeconds : ℤ

namespace TokenMinter

/-- The end of the lifetime: `now` plus the lifetime, but not after the ceiling. -/
def expiresAt (minter : TokenMinter) (now : ℚ) (ttlSeconds : Option ℤ) (notAfter : Option ℚ) : ℚ :=
  let expiresAt := now + (ttlSeconds.getD minter.defaultTtlSeconds : ℤ)
  match notAfter with
  | none => expiresAt
  | some ceiling => min expiresAt ceiling

theorem expiresAt_le_ttl (minter : TokenMinter) (now : ℚ) (ttlSeconds : Option ℤ)
    (notAfter : Option ℚ) :
    minter.expiresAt now ttlSeconds notAfter ≤
      now + (ttlSeconds.getD minter.defaultTtlSeconds : ℤ) := by
  cases notAfter with
  | none => exact le_rfl
  | some ceiling => exact min_le_left _ _

theorem expiresAt_le_ceiling (minter : TokenMinter) (now : ℚ) (ttlSeconds : Option ℤ)
    (ceiling : ℚ) : minter.expiresAt now ttlSeconds (some ceiling) ≤ ceiling :=
  min_le_right _ _

/-- The dictionary `mint` passes to `jwt.encode`. -/
def fullClaims (minter : TokenMinter) (now : ℚ) (jti : String) (claims : Dict)
    (ttlSeconds : Option ℤ) (notAfter : Option ℚ) : Dict :=
  Dict.update
    [("iss", .str minter.issuer), ("iat", .datetime now),
      ("exp", .datetime (minter.expiresAt now ttlSeconds notAfter)), ("jti", .str jti)] claims

/-- The `jwt.encode` of `mint`. -/
def encode (minter : TokenMinter) (payload : Dict) : Except JwtExc String :=
  minter.jwt.encode payload minter.signingKey.privateKey
    [("kid", .str minter.signingKey.kid), ("typ", .str AT_JWT)]

/-- `mint(claims, ttl_seconds, not_after)`, at a clock reading and with the
random `jti` drawn. -/
def mint (minter : TokenMinter) (now : ℚ) (jti : String) (claims : Dict)
    (ttlSeconds : Option ℤ) (notAfter : Option ℚ) : Except Exc MintedToken := do
  let supplied := MINTER_OWNED_CLAIMS.filter fun name => name ∈ Dict.keys claims
  raiseIf (supplied ≠ [])
    (.token ("the caller may not set " ++ ", ".intercalate (sorted supplied)))
  let remaining := truncate (totalSeconds (minter.expiresAt now ttlSeconds notAfter - now))
  raiseIf (remaining ≤ 0) (.token "the requested lifetime has already elapsed")
  let fullClaims := minter.fullClaims now jti claims ttlSeconds notAfter
  let token ← uncaught (minter.encode fullClaims)
  pure ⟨token, fullClaims, remaining⟩

variable {minter : TokenMinter} {now : ℚ} {jti : String} {claims : Dict}
  {ttlSeconds : Option ℤ} {notAfter : Option ℚ} {minted : MintedToken}

/-- The minter signs exactly when the caller sets none of its claims and at
least one whole second of life is left. -/
theorem mint_eq_ok :
    minter.mint now jti claims ttlSeconds notAfter = .ok minted ↔
      (∀ name ∈ MINTER_OWNED_CLAIMS, name ∉ Dict.keys claims) ∧
        1 ≤ minter.expiresAt now ttlSeconds notAfter - now ∧
        ∃ token, minter.encode (minter.fullClaims now jti claims ttlSeconds notAfter) = .ok token ∧
          minted = ⟨token, minter.fullClaims now jti claims ttlSeconds notAfter,
            truncate (totalSeconds (minter.expiresAt now ttlSeconds notAfter - now))⟩ := by
  simp only [mint, bind_eq_ok, raiseIf_eq_ok, ne_eq, not_not, not_le, pure_eq_ok, uncaught,
    exceptInvalidToken_error_eq_ok, truncate_pos_iff, one_le_totalSeconds]
  have hsupplied : (MINTER_OWNED_CLAIMS.filter fun name => name ∈ Dict.keys claims) = [] ↔
      ∀ name ∈ MINTER_OWNED_CLAIMS, name ∉ Dict.keys claims := by
    simp [List.filter_eq_nil_iff]
  constructor
  · rintro ⟨_, hnone, _, halive, token, htoken, rfl⟩
    exact ⟨hsupplied.mp hnone, halive, token, htoken, rfl⟩
  · rintro ⟨hnone, halive, token, htoken, rfl⟩
    exact ⟨(), hsupplied.mpr hnone, (), halive, token, htoken, rfl⟩

/-- A minted token carries what was signed. -/
theorem decodeUnverified_of_mint (h : minter.mint now jti claims ttlSeconds notAfter = .ok minted) :
    minter.jwt.decodeUnverified minted.token = .ok (signedPayload minted.claims) := by
  obtain ⟨_, _, token, htoken, rfl⟩ := mint_eq_ok.mp h
  exact minter.jwt.encode_claims htoken

/-- The minter raises nothing that is an `OAuthError`. -/
theorem raises_mint :
    Raises (fun e => e.error? = none) (minter.mint now jti claims ttlSeconds notAfter) := by
  have hraised : ∀ (condition : Prop) [Decidable condition] (description : String),
      Raises (fun e => e.error? = none) (raiseIf condition (Exc.token description)) :=
    fun _ _ _ => raises_raiseIf rfl
  refine (hraised _ _).bind fun _ => (hraised _ _).bind fun _ => Raises.bind ?_ fun _ =>
    raises_pure _
  exact raises_exceptInvalidToken (P := fun e => e.error? = none) rfl fun _ => rfl

/-- The entries of the dictionary that is signed. -/
theorem get_of_mint (h : minter.mint now jti claims ttlSeconds notAfter = .ok minted)
    (hnodup : (Dict.keys claims).Nodup) (name : String) :
    Dict.get minted.claims name =
      if name = "iss" then .str minter.issuer
      else if name = "iat" then .datetime now
      else if name = "exp" then .datetime (minter.expiresAt now ttlSeconds notAfter)
      else if name = "jti" then .str jti
      else Dict.get claims name := by
  obtain ⟨hnone, _, token, _, rfl⟩ := mint_eq_ok.mp h
  have howned : name ∈ MINTER_OWNED_CLAIMS → List.lookup name claims = none := by
    intro hname
    rw [← Option.not_isSome_iff_eq_none, Dict.lookup_isSome_iff_mem_keys]
    exact hnone name hname
  rw [fullClaims, Dict.get, Dict.lookup_update hnodup]
  by_cases hiss : name = "iss"
  · subst hiss
    simp [howned (by decide)]
  by_cases hiat : name = "iat"
  · subst hiat
    simp [howned (by decide), Dict.lookup_cons]
  by_cases hexp : name = "exp"
  · subst hexp
    simp [howned (by decide), Dict.lookup_cons]
  by_cases hjti : name = "jti"
  · subst hjti
    simp [howned (by decide), Dict.lookup_cons]
  simp [hiss, hiat, hexp, hjti, Dict.lookup_cons, Dict.get]

/-- The minter adds its own claims and leaves the others as they are. -/
theorem lookup_of_mint (h : minter.mint now jti claims ttlSeconds notAfter = .ok minted)
    (hnodup : (Dict.keys claims).Nodup) {name : String} (hname : name ∉ MINTER_OWNED_CLAIMS) :
    List.lookup name minted.claims = List.lookup name claims := by
  obtain ⟨_, _, token, _, rfl⟩ := mint_eq_ok.mp h
  simp only [MINTER_OWNED_CLAIMS, List.mem_cons, List.not_mem_nil, or_false, not_or] at hname
  obtain ⟨hiss, hiat, hexp, hjti⟩ := hname
  rw [fullClaims, Dict.lookup_update hnodup]
  simp [Dict.lookup_cons, hiss, hiat, hexp, hjti]

end TokenMinter

/-! ## The verifier -/

/-- `TokenVerifier(issuer, signing_key)`. -/
structure TokenVerifier where
  jwt : PyJwt
  issuer : String
  signingKey : SigningKey

namespace TokenVerifier

/-- `_verify(token, audience)` at a clock reading. -/
def verifyToken (verifier : TokenVerifier) (now : ℚ) (token : String) (audience : Option String) :
    Except Exc Dict := do
  let header ← exceptInvalidToken (verifier.jwt.getUnverifiedHeader token)
    (.error (.token "token header is malformed"))
  raiseIf (Dict.get header "alg" ≠ .str ALGORITHM) (.token "unsupported token algorithm")
  raiseIf (Dict.get header "typ" ≠ .str AT_JWT) (.token "token is not an access token")
  raiseIf (Dict.get header "kid" ≠ .str verifier.signingKey.kid)
    (.token "token was not signed by the active key")
  exceptInvalidToken
    (verifier.jwt.decode
      { algorithms := [ALGORITHM], issuer := some verifier.issuer, audience := audience,
        require := REQUIRED_CLAIMS, verifyAud := audience.isSome }
      verifier.signingKey.publicKey now token)
    (.error (.token "token validation failed"))

/-- `verify_any_audience(token)`. -/
def verifyAnyAudience (verifier : TokenVerifier) (now : ℚ) (token : String) : Except Exc Dict :=
  verifier.verifyToken now token none

/-- `verify(token, audience=…)`. -/
def verify (verifier : TokenVerifier) (now : ℚ) (token audience : String) : Except Exc Dict :=
  verifier.verifyToken now token (some audience)

variable {verifier : TokenVerifier} {now : ℚ} {token : String} {audience : Option String}
  {claims : Dict}

/-- Verification raises nothing that is an `OAuthError`. -/
theorem raises_verifyToken :
    Raises (fun e => e.error? = none) (verifier.verifyToken now token audience) := by
  have hcaught : ∀ {α : Type} (x : Except JwtExc α) (description : String),
      Raises (fun e => e.error? = none) (exceptInvalidToken x (.error (.token description))) :=
    fun _ _ => raises_exceptInvalidToken (P := fun e => e.error? = none) rfl fun _ => rfl
  have hraised : ∀ (condition : Prop) [Decidable condition] (description : String),
      Raises (fun e => e.error? = none) (raiseIf condition (Exc.token description)) :=
    fun _ _ _ => raises_raiseIf rfl
  exact (hcaught _ _).bind fun _ => (hraised _ _).bind fun _ => (hraised _ _).bind fun _ =>
    (hraised _ _).bind fun _ => hcaught _ _

/-- A token is accepted for its header, which has to name the server's own key,
and for what `jwt.decode` says under that key. -/
theorem verifyToken_eq_ok :
    verifier.verifyToken now token audience = .ok claims ↔
      (∃ header, verifier.jwt.getUnverifiedHeader token = .ok header ∧
        Dict.get header "alg" = .str ALGORITHM ∧ Dict.get header "typ" = .str AT_JWT ∧
          Dict.get header "kid" = .str verifier.signingKey.kid) ∧
        verifier.jwt.decode
          { algorithms := [ALGORITHM], issuer := some verifier.issuer, audience := audience,
            require := REQUIRED_CLAIMS, verifyAud := audience.isSome }
          verifier.signingKey.publicKey now token = .ok claims := by
  simp only [verifyToken, bind_eq_ok, raiseIf_eq_ok, exceptInvalidToken_error_eq_ok, not_not]
  constructor
  · rintro ⟨header, hheader, _, halg, _, htyp, _, hkid, hdecode⟩
    exact ⟨⟨header, hheader, halg, htyp, hkid⟩, hdecode⟩
  · rintro ⟨⟨header, hheader, halg, htyp, hkid⟩, hdecode⟩
    exact ⟨header, hheader, (), halg, (), htyp, (), hkid, hdecode⟩

/-- Verification ends in `jwt.decode` under the server's own key. -/
theorem decode_of_verifyToken (h : verifier.verifyToken now token audience = .ok claims) :
    verifier.jwt.decode
      { algorithms := [ALGORITHM], issuer := some verifier.issuer, audience := audience,
        require := REQUIRED_CLAIMS, verifyAud := audience.isSome }
      verifier.signingKey.publicKey now token = .ok claims :=
  (verifyToken_eq_ok.mp h).2

/-- The claims that verification returns are those the token carries. -/
theorem decodeUnverified_of_verifyToken (h : verifier.verifyToken now token audience = .ok claims) :
    verifier.jwt.decodeUnverified token = .ok claims :=
  verifier.jwt.decode_claims (decode_of_verifyToken h)

end TokenVerifier

end AgentOAuth
