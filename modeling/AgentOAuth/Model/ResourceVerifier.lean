import AgentOAuth.Model.Metadata

/-!
# The resource server's verifier

`AuthorizationServerVerifier` of `tests/resource_server/verifier.py`: it finds
the JWKS of an authorization server through discovery, caches it, and validates
ES256 access tokens against it.  The state is the cache; the readings of
`time.monotonic()` and what the GET requests give are inputs.
-/

namespace AgentOAuth

open Effect

/-- What the verifier raises. -/
inductive ValidationExc
  /-- `TokenValidationError(message)`. -/
  | tokenValidation (message : String)
  /-- Any other exception, by the name of its class. -/
  | python (className : String)
  deriving DecidableEq

/-- What a GET request, `raise_for_status` and `json` raise, as far as the
verifier tells them apart. -/
inductive HttpExc
  /-- `httpx.HTTPError`. -/
  | http
  /-- `ValueError`. -/
  | value
  | other (className : String)
  deriving DecidableEq

/-- `except jwt.InvalidTokenError`. -/
def refuseInvalidToken {α : Type} (x : Except JwtExc α) (message : String) :
    Except ValidationExc α :=
  match x with
  | .ok a => .ok a
  | .error .invalidToken => .error (.tokenValidation message)
  | .error .pyJwk => .error (.python "PyJWKError")
  | .error (.other className) => .error (.python className)

/-- `except (httpx.HTTPError, ValueError)`. -/
def refuseFailedRequest {α : Type} (x : Except HttpExc α) : Except ValidationExc α :=
  match x with
  | .ok a => .ok a
  | .error (.other className) => .error (.python className)
  | .error _ => .error (.tokenValidation "could not retrieve authorization-server keys")

/-- A decoded body the source calls `.get` on. -/
def Value.members : Value → Except ValidationExc Dict
  | .dict entries => .ok entries
  | _ => .error (.python "AttributeError")

/-- `isinstance(v, str)`, or else `TokenValidationError(message)`. -/
def Value.requireStr (v : Value) (message : String) : Except ValidationExc String :=
  match v with
  | .str s => .ok s
  | _ => .error (.tokenValidation message)

/-- `isinstance(v, list)`, or else `TokenValidationError(message)`. -/
def Value.requireList (v : Value) (message : String) : Except ValidationExc (List Value) :=
  match v with
  | .list items => .ok items
  | _ => .error (.tokenValidation message)

theorem refuseInvalidToken_eq_ok {α : Type} {x : Except JwtExc α} {message : String} {a : α} :
    refuseInvalidToken x message = .ok a ↔ x = .ok a := by
  rcases x with (_ | _ | _) | _ <;> simp [refuseInvalidToken]

theorem refuseFailedRequest_eq_ok {α : Type} {x : Except HttpExc α} {a : α} :
    refuseFailedRequest x = .ok a ↔ x = .ok a := by
  rcases x with (_ | _ | _) | _ <;> simp [refuseFailedRequest]

theorem Value.members_eq_ok {v : Value} {d : Dict} : v.members = .ok d ↔ v = .dict d := by
  cases v <;> simp [Value.members]

theorem Value.requireStr_eq_ok {v : Value} {message s : String} :
    v.requireStr message = .ok s ↔ v = .str s := by
  cases v <;> simp [Value.requireStr]

theorem Value.requireList_eq_ok {v : Value} {message : String} {items : List Value} :
    v.requireList message = .ok items ↔ v = .list items := by
  cases v <;> simp [Value.requireList]

/-! ## The cache -/

/-- The parsed keys, by `kid`. -/
abbrev KeysByKid := List (String × Dict)

/-- The fields of the verifier that change. -/
structure KeyCache where
  keysByKid : KeysByKid := []
  cacheExpiresAt : ℚ := 0
  earliestNextRefreshAt : ℚ := 0
  deriving DecidableEq

/-- What one `_refresh` meets: the clock once it holds the lock, the decoded
body of a GET, and the clock after the last one. -/
structure Refresh where
  now : ℚ
  get : String → Except HttpExc Value
  fetchedAt : ℚ

/-- What one `validate` meets: the clock when it looks at the cache, and the two
refreshes it may make. -/
structure Visit where
  arrival : ℚ
  regular : Refresh
  forced : Refresh

/-- `AuthorizationServerVerifier(issuer, audience, …)`. -/
structure AuthorizationServerVerifier where
  jwt : PyJwt
  issuer : String
  audience : String
  cacheTtlSeconds : ℚ := 60
  forcedRefreshIntervalSeconds : ℚ := 5

namespace AuthorizationServerVerifier

/-- `AuthorizationServerVerifier(issuer, audience=…)`. -/
def configure (jwt : PyJwt) (issuer audience : String)
    (cacheTtlSeconds forcedRefreshIntervalSeconds : ℚ) : AuthorizationServerVerifier where
  jwt := jwt
  issuer := String.ofList (issuer.toList.rdropWhile (· = '/'))
  audience := audience
  cacheTtlSeconds := cacheTtlSeconds
  forcedRefreshIntervalSeconds := forcedRefreshIntervalSeconds

/-- One round of the loop over the array: a usable key replaces an earlier one
with its `kid`. -/
def addKey (parsedKeys : KeysByKid) (key : Value) : KeysByKid :=
  match key with
  | .dict key =>
      match Dict.get key "kid" with
      | .str kid =>
          if Dict.get key "kty" = .str "EC" ∧ Dict.get key "crv" = .str "P-256" ∧
              Dict.get key "alg" = .str "ES256" then
            (kid, key) :: parsedKeys.filter fun entry => entry.1 ≠ kid
          else parsedKeys
      | _ => parsedKeys
  | _ => parsedKeys

/-- The requests of `_refresh`, and the checks of what they return. -/
def fetchKeys (verifier : AuthorizationServerVerifier) (get : String → Except HttpExc Value) :
    Except ValidationExc KeysByKid := do
  let metadataBody ← refuseFailedRequest
    (get (verifier.issuer ++ "/.well-known/oauth-authorization-server"))
  let metadata ← metadataBody.members
  raiseIf (Dict.get metadata "issuer" ≠ .str verifier.issuer)
    (.tokenValidation "discovered issuer does not match the configured issuer")
  let jwksUri ← (Dict.get metadata "jwks_uri").requireStr
    "authorization-server metadata has no JWKS URI"
  let jwksBody ← refuseFailedRequest (get jwksUri)
  let jwks ← jwksBody.members
  let keys ← (Dict.get jwks "keys").requireList "JWKS response has no keys array"
  let parsedKeys := keys.foldl addKey []
  raiseIf (parsedKeys = []) (.tokenValidation "JWKS contains no usable ES256 keys")
  pure parsedKeys

/-- The cache after a fetch. -/
def filled (verifier : AuthorizationServerVerifier) (keys : KeysByKid) (fetchedAt : ℚ) :
    KeyCache where
  keysByKid := keys
  cacheExpiresAt := fetchedAt + verifier.cacheTtlSeconds
  earliestNextRefreshAt := fetchedAt + verifier.forcedRefreshIntervalSeconds

/-- `_refresh` returns at once: the cache is still good, or it is too early for
another forced fetch. -/
def Skips (cache : KeyCache) (force : Bool) (now : ℚ) : Prop :=
  if force then now < cache.earliestNextRefreshAt else now < cache.cacheExpiresAt

instance (cache : KeyCache) (force : Bool) (now : ℚ) : Decidable (Skips cache force now) :=
  inferInstanceAs (Decidable
    (if force then now < cache.earliestNextRefreshAt else now < cache.cacheExpiresAt))

/-- `_refresh(force)`. -/
def refresh (verifier : AuthorizationServerVerifier) (force : Bool) (visit : Refresh) :
    EStateM ValidationExc KeyCache Unit := do
  let cache ← get
  if Skips cache force visit.now then pure ()
  else
    let keys ← lift (verifier.fetchKeys visit.get)
    set (verifier.filled keys visit.fetchedAt)

/-- `_refresh_if_needed()`. -/
def refreshIfNeeded (verifier : AuthorizationServerVerifier) (visit : Visit) :
    EStateM ValidationExc KeyCache Unit := do
  let cache ← get
  if cache.cacheExpiresAt ≤ visit.arrival then verifier.refresh false visit.regular
  else pure ()

/-- `_key_for(kid)`. -/
def keyFor (verifier : AuthorizationServerVerifier) (visit : Visit) (kid : String) :
    EStateM ValidationExc KeyCache Dict := do
  verifier.refreshIfNeeded visit
  let cache ← get
  match cache.keysByKid.lookup kid with
  | some key => pure key
  | none =>
      -- a missing `kid` can mean key rotation: one fresh fetch, then fail closed
      verifier.refresh true visit.forced
      let cache ← get
      match cache.keysByKid.lookup kid with
      | some key => pure key
      | none => throw (.tokenValidation "token key ID is not published by the authorization server")

/-- The checks of the token's header; what is left is the `kid`. -/
def namedKey (verifier : AuthorizationServerVerifier) (accessToken : String) :
    Except ValidationExc String := do
  let header ← refuseInvalidToken (verifier.jwt.getUnverifiedHeader accessToken)
    "token header is malformed"
  raiseIf (Dict.get header "alg" ≠ .str "ES256")
    (.tokenValidation "only ES256 access tokens are accepted")
  raiseIf (Dict.get header "typ" ≠ .str "at+jwt") (.tokenValidation "token is not an access token")
  let kid ← (Dict.get header "kid").requireStr "token does not name a signing key"
  raiseIf (kid = "") (.tokenValidation "token does not name a signing key")
  pure kid

/-- `PyJWK.from_dict(jwk)` and `jwt.decode`, in one `try`. -/
def decodeWith (verifier : AuthorizationServerVerifier) (now : ℚ) (accessToken : String)
    (jwk : Dict) : Except ValidationExc Dict :=
  refuseInvalidToken
    (do
      let publicKey ← verifier.jwt.keyOfJwk jwk
      verifier.jwt.decode
        { algorithms := ["ES256"], issuer := some verifier.issuer,
          audience := some verifier.audience,
          require := ["iss", "sub", "aud", "iat", "exp", "jti"], verifyAud := true }
        publicKey now accessToken)
    "token validation failed"

/-- `validate(access_token)`, with the reading of the wall clock that
`jwt.decode` uses. -/
def validate (verifier : AuthorizationServerVerifier) (visit : Visit) (now : ℚ)
    (accessToken : String) : EStateM ValidationExc KeyCache Dict := do
  let kid ← lift (verifier.namedKey accessToken)
  let jwk ← verifier.keyFor visit kid
  lift (verifier.decodeWith now accessToken jwk)

/-! ## Running a refresh -/

variable {verifier : AuthorizationServerVerifier} {force : Bool} {refreshed : Refresh}
  {cache : KeyCache}

/-- A refresh that is skipped or fails leaves the cache as it is. -/
theorem run_refresh :
    (verifier.refresh force refreshed).run cache =
      if Skips cache force refreshed.now then .ok () cache
      else
        match verifier.fetchKeys refreshed.get with
        | .ok keys => .ok () (verifier.filled keys refreshed.fetchedAt)
        | .error e => .error e cache := by
  rw [refresh, run_get_bind]
  split
  · rfl
  · cases hfetch : verifier.fetchKeys refreshed.get with
    | ok keys => exact run_lift_bind_of_ok rfl _ _
    | error e => rfl

theorem run_refreshIfNeeded {visit : Visit} :
    (verifier.refreshIfNeeded visit).run cache =
      if cache.cacheExpiresAt ≤ visit.arrival then (verifier.refresh false visit.regular).run cache
      else .ok () cache := by
  rw [refreshIfNeeded, run_get_bind]
  split <;> rfl

/-- What the checks of the header let through. -/
theorem namedKey_eq_ok {accessToken kid : String} :
    verifier.namedKey accessToken = .ok kid ↔
      (∃ header, verifier.jwt.getUnverifiedHeader accessToken = .ok header ∧
        Dict.get header "alg" = .str "ES256" ∧ Dict.get header "typ" = .str "at+jwt" ∧
          Dict.get header "kid" = .str kid) ∧ kid ≠ "" := by
  simp only [namedKey, bind_eq_ok, refuseInvalidToken_eq_ok, raiseIf_eq_ok, not_not,
    Value.requireStr_eq_ok, pure_eq_ok]
  constructor
  · intro h
    obtain ⟨header, hheader, _, halg, _, htyp, _, hkid, _, hne, rfl⟩ := h
    exact ⟨⟨header, hheader, halg, htyp, hkid⟩, hne⟩
  · intro h
    obtain ⟨⟨header, hheader, halg, htyp, hkid⟩, hne⟩ := h
    exact ⟨header, hheader, (), halg, (), htyp, kid, hkid, (), hne, rfl⟩

end AuthorizationServerVerifier

end AgentOAuth
