import AgentOAuth.Model.Forms
import AgentOAuth.Model.Storage
import AgentOAuth.Model.Tokens

/-!
# Client authentication

`src/auth/` and `src/services/clients.py`.  A method extracts what a form
presents and verifies it against a stored client; the registry decides which
method is in use, and `authenticate` what a failure looks like.

`PrivateKeyJwt.verify` is `check`, which reads the clock and the key table,
followed by the insert that claims the assertion.
-/

namespace AgentOAuth

open Effect

/-- What a caller sent, before anything has been checked. -/
structure PresentedCredential where
  clientId : String
  method : String
  secret : Option String := none
  assertion : Option String := none
  deriving DecidableEq

/-- One way for a client to prove who it is. -/
structure ClientAuthMethod where
  name : String
  extract : TokenForm → Except Exc (Option PresentedCredential)
  verify : Moment → PresentedCredential → Option RegisteredClient → ServerM Bool

/-! ## `client_secret_post` -/

/-- What `PasswordHasher.verify` raises: `VerificationError` with its subclass
`VerifyMismatchError`, or something else. -/
inductive HashExc
  | verification
  | other (className : String)
  deriving DecidableEq

/-- argon2, and the placeholder hash computed at import. -/
structure PasswordHasher where
  verify : String → String → Except HashExc Unit
  absentSecretHash : String

/-- `verify_secret(secret, secret_hash)`. -/
def verifySecret (hasher : PasswordHasher) (secret : String) (secretHash : Option String) :
    Except Exc Bool :=
  match hasher.verify (secretHash.getD hasher.absentSecretHash) secret with
  | .ok () => .ok secretHash.isSome
  | .error .verification => .ok false
  | .error (.other className) => .error (.python className)

theorem verifySecret_eq_ok_true {hasher : PasswordHasher} {secret : String}
    {secretHash : Option String} :
    verifySecret hasher secret secretHash = .ok true ↔
      ∃ hash, secretHash = some hash ∧ hasher.verify hash secret = .ok () := by
  unfold verifySecret
  cases secretHash with
  | none => rcases hasher.verify _ secret with (_ | _) | _ <;> simp
  | some hash =>
      simp only [Option.getD_some, Option.isSome_some, Option.some.injEq, exists_eq_left']
      rcases hasher.verify hash secret with (_ | _) | _ <;> simp

namespace ClientSecretPost

/-- The name it is registered under. -/
def name : String := "client_secret_post"

/-- `extract(headers, form)`: a form that names neither field is none of its business. -/
def extract (form : TokenForm) : Except Exc (Option PresentedCredential) :=
  if !form.present "client_id" && !form.present "client_secret" then .ok none
  else do
    let clientId ← form.require "client_id"
    let secret ← form.require "client_secret"
    pure (some { clientId, secret := some secret, method := name })

/-- `verify(presented, client)`. -/
def verify (hasher : PasswordHasher) (presented : PresentedCredential)
    (client : Option RegisteredClient) : ServerM Bool :=
  lift (verifySecret hasher (presented.secret.getD "") (client.bind RegisteredClient.secretHash))

end ClientSecretPost

/-- `ClientSecretPost()`. -/
def clientSecretPost (hasher : PasswordHasher) : ClientAuthMethod where
  name := ClientSecretPost.name
  extract := ClientSecretPost.extract
  verify _ := ClientSecretPost.verify hasher

/-! ## `private_key_jwt` -/

/-- The only `client_assertion_type` that is taken. -/
def ASSERTION_TYPE : String := "urn:ietf:params:oauth:client-assertion-type:jwt-bearer"

/-- Five minutes, in seconds. -/
def MAXIMUM_LIFETIME : ℚ := 300

/-- `PrivateKeyJwt(issuer, token_endpoint, …)`, with the library that checks assertions. -/
structure PrivateKeyJwt where
  issuer : String
  tokenEndpoint : String
  jwt : PyJwt
  interpreter : Interpreter

namespace PrivateKeyJwt

/-- The name it is registered under. -/
def name : String := "private_key_jwt"

/-- `_unverified_subject(assertion)`. -/
def unverifiedSubject (config : PrivateKeyJwt) (assertion : String) : Except Exc String := do
  let claims ← exceptInvalidToken (config.jwt.decodeUnverified assertion)
    (.error (.oauth "invalid_request" "client assertion is malformed" 400))
  match Dict.get claims "sub" with
  | .str subject =>
      if subject = "" then
        .error (.oauth "invalid_request" "client assertion has no subject" 400)
      else pure subject
  | _ => .error (.oauth "invalid_request" "client assertion has no subject" 400)

/-- `extract(headers, form)`: the subject is read without a check, to find the client. -/
def extract (config : PrivateKeyJwt) (form : TokenForm) : Except Exc (Option PresentedCredential) :=
  if !form.present "client_assertion" && !form.present "client_assertion_type" then .ok none
  else do
    let assertionType ← form.require "client_assertion_type"
    raiseIf (assertionType ≠ ASSERTION_TYPE)
      (.oauth "invalid_request" "unsupported client assertion type" 400)
    let assertion ← form.require "client_assertion"
    let claimed ← config.unverifiedSubject assertion
    raiseIf (form.present "client_id" ∧ form.get "client_id" ≠ some claimed)
      (.oauth "invalid_request" "client_id does not match the client assertion" 400)
    pure (some { clientId := claimed, assertion := some assertion, method := name })

/-- The `kid` of a header `verify` goes on with. -/
def acceptableKid (header : Dict) : Option String :=
  if Dict.get header "alg" ≠ .str ALGORITHM then none
  else
    match Dict.get header "kid" with
    | .str kid => if kid = "" then none else some kid
    | _ => none

/-- The arguments of `jwt.decode` in `verify`: the audience is left to
`_claims_are_acceptable`. -/
def decodeOptions : DecodeOptions where
  algorithms := [ALGORITHM]
  issuer := none
  audience := none
  require := ["iss", "sub", "aud", "exp", "jti"]
  verifyAud := false

/-- The `jwt.decode` of `verify`, with its `except` clause. -/
def verifySignature (config : PrivateKeyJwt) (key : ClientKey) (now : ℚ) (assertion : String) :
    Except Exc (Option Dict) :=
  match (do
    let publicKey ← config.jwt.keyOfJwk key.publicJwk
    config.jwt.decode decodeOptions publicKey now assertion : Except JwtExc Dict) with
  | .ok claims => .ok (some claims)
  | .error .invalidToken => .ok none
  | .error .pyJwk => .ok none
  | .error (.other className) => .error (.python className)

/-- `verify` up to the verified claims; `none` stands for `return False`. -/
def decodeAssertion (config : PrivateKeyJwt) (keys : ClientKeyTable) (now : ℚ) (assertion : String)
    (client : Option RegisteredClient) : Except Exc (Option Dict) := do
  let header ← exceptInvalidToken ((config.jwt.getUnverifiedHeader assertion).map some) (.ok none)
  match header.bind acceptableKid, client with
  | some kid, some client => do
      match ← keys.get client.clientId kid with
      | some key => config.verifySignature key now assertion
      -- the source verifies against its own key here, to take as long, and drops the result
      | none => pure none
  | _, _ => pure none

/-- `set(audience) if isinstance(audience, list) else {audience}`: lists and
dictionaries cannot be members of a set. -/
def audienceValues (audience : Value) : Except Exc (List Value) :=
  let values := match audience with
    | .list items => items
    | value => [value]
  if values.any Value.unhashable then .error (.python "TypeError") else .ok values

/-- `_claims_are_acceptable(claims, client)` at a clock reading. -/
def claimsAreAcceptable (config : PrivateKeyJwt) (now : ℚ) (claims : Dict)
    (client : RegisteredClient) : Except Exc Bool :=
  if Dict.get claims "iss" ≠ .str client.clientId ∨ Dict.get claims "sub" ≠ .str client.clientId then
    .ok false
  else do
    let values ← audienceValues (Dict.get claims "aud")
    if .str config.issuer ∉ values ∧ .str config.tokenEndpoint ∉ values then pure false
    else
      let expiresAt ← fromTimestamp (Dict.get claims "exp")
      pure (decide (expiresAt - now ≤ MAXIMUM_LIFETIME))

/-- The arguments `_is_first_use(claims)` passes to `claim`. -/
def replayRow (config : PrivateKeyJwt) (claims : Dict) : Except Exc ReplayRow := do
  let clientId ← (Dict.get claims "sub").text
  let expiresAt ← fromTimestamp (Dict.get claims "exp")
  pure { clientId, jti := config.interpreter.str (Dict.get claims "jti"), expiresAt }

/-- `verify` up to the claim of the assertion, at the two clock readings it
takes; `none` stands for `return False`. -/
def check (config : PrivateKeyJwt) (keys : ClientKeyTable) (decoded checked : ℚ)
    (presented : PresentedCredential) (client : Option RegisteredClient) :
    Except Exc (Option ReplayRow) := do
  let claims ← config.decodeAssertion keys decoded (presented.assertion.getD "") client
  match claims, client with
  | some claims, some client =>
      if ← config.claimsAreAcceptable checked claims client then
        let row ← config.replayRow claims
        pure (some row)
      else pure none
  | _, _ => pure none

/-- The call of `claim` in `_is_first_use(claims)`.  The insert may fail for reasons of
the database, a `jti` that is too long for its index among them. -/
def isFirstUse (moment : Moment) (row : ReplayRow) : ServerM Bool := do
  lift (raiseIf (moment.claimFails = true) (.python "OperationalError"))
  claimAssertion row

/-- `verify(presented, client)`: the checks, then the claim of the `jti`. -/
def verify (config : PrivateKeyJwt) (moment : Moment) (presented : PresentedCredential)
    (client : Option RegisteredClient) : ServerM Bool := do
  let state ← get
  let row ← lift (config.check state.clientKeys moment.assertionDecoded moment.assertionChecked
    presented client)
  match row with
  | some row => isFirstUse moment row
  | none => pure false

theorem run_isFirstUse (moment : Moment) (row : ReplayRow) (s : ServerState) :
    (isFirstUse moment row).run s =
      if moment.claimFails then .error (.python "OperationalError") s
      else (claimAssertion row).run s := by
  rw [isFirstUse]
  cases moment.claimFails <;> rfl

theorem isFirstUse_eq_ok {moment : Moment} {row : ReplayRow} {first : Bool} {s t : ServerState} :
    (isFirstUse moment row).run s = .ok first t ↔
      moment.claimFails = false ∧ (claimAssertion row).run s = .ok first t := by
  rw [run_isFirstUse]
  cases moment.claimFails <;> simp

/-- `verify` accepts in two steps: it checks the assertion, and claims its row. -/
theorem verify_eq_ok_true {config : PrivateKeyJwt} {moment : Moment}
    {presented : PresentedCredential} {client : Option RegisteredClient} {s t : ServerState} :
    (config.verify moment presented client).run s = .ok true t ↔
      ∃ row, config.check s.clientKeys moment.assertionDecoded moment.assertionChecked presented
        client = .ok (some row) ∧ moment.claimFails = false ∧
          (claimAssertion row).run s = .ok true t := by
  simp only [verify, run_bind_eq_ok, EStateM.run_get, EStateM.Result.ok.injEq, run_lift_eq_ok]
  constructor
  · rintro ⟨_, _, ⟨rfl, rfl⟩, row?, _, ⟨hcheck, rfl⟩, h⟩
    cases row? with
    | none => simp [EStateM.run_pure] at h
    | some row => exact ⟨row, hcheck, isFirstUse_eq_ok.mp h⟩
  · rintro ⟨row, hcheck, hclaim⟩
    exact ⟨s, s, ⟨rfl, rfl⟩, some row, s, ⟨hcheck, rfl⟩, isFirstUse_eq_ok.mpr hclaim⟩

/-! ### What an accepted assertion is -/

/-- What `check` reads on its way. -/
structure Evidence where
  header : Dict
  kid : String
  key : ClientKey
  publicKey : PublicKey
  claims : Dict

/-- Everything `check` has found out about an assertion it accepts for `client`. -/
structure Accepted (config : PrivateKeyJwt) (keys : ClientKeyTable) (decoded checked : ℚ)
    (assertion : String) (client : RegisteredClient) (row : ReplayRow) (evidence : Evidence) :
    Prop where
  header : config.jwt.getUnverifiedHeader assertion = .ok evidence.header
  alg : Dict.get evidence.header "alg" = .str ALGORITHM
  kid : Dict.get evidence.header "kid" = .str evidence.kid
  mem_keys : evidence.key ∈ keys
  keyClientId : evidence.key.clientId = client.clientId
  keyKid : evidence.key.kid = evidence.kid
  publicKey : config.jwt.keyOfJwk evidence.key.publicJwk = .ok evidence.publicKey
  decode : config.jwt.decode decodeOptions evidence.publicKey decoded assertion = .ok evidence.claims
  iss : Dict.get evidence.claims "iss" = .str client.clientId
  sub : Dict.get evidence.claims "sub" = .str client.clientId
  aud : ∃ values, audienceValues (Dict.get evidence.claims "aud") = .ok values ∧
    (.str config.issuer ∈ values ∨ .str config.tokenEndpoint ∈ values)
  expiresAt : fromTimestamp (Dict.get evidence.claims "exp") = .ok row.expiresAt
  lifetime : row.expiresAt - checked ≤ MAXIMUM_LIFETIME
  rowClientId : row.clientId = client.clientId
  rowJti : Dict.get evidence.claims "jti" = .str row.jti

variable {config : PrivateKeyJwt} {keys : ClientKeyTable} {decoded checked : ℚ}
  {presented : PresentedCredential} {row : ReplayRow}

theorem acceptableKid_eq_some {header : Dict} {kid : String} (h : acceptableKid header = some kid) :
    Dict.get header "alg" = .str ALGORITHM ∧ Dict.get header "kid" = .str kid := by
  unfold acceptableKid at h
  split at h
  · simp at h
  · next halg =>
      rw [ne_eq, not_not] at halg
      split at h
      · next kid' hkid =>
          split at h
          · simp at h
          · exact ⟨halg, by rw [hkid, Option.some.inj h]⟩
      · simp at h

theorem verifySignature_eq_ok_some {key : ClientKey} {assertion : String} {claims : Dict}
    (h : config.verifySignature key decoded assertion = .ok (some claims)) :
    ∃ publicKey, config.jwt.keyOfJwk key.publicJwk = .ok publicKey ∧
      config.jwt.decode decodeOptions publicKey decoded assertion = .ok claims := by
  unfold verifySignature at h
  split at h <;> simp only [Except.ok.injEq, Option.some.injEq, reduceCtorEq] at h
  next heq =>
    subst h
    exact bind_eq_ok.mp heq

theorem decodeAssertion_eq_ok_some {assertion : String} {client : Option RegisteredClient}
    {claims : Dict} (h : config.decodeAssertion keys decoded assertion client = .ok (some claims)) :
    ∃ stored header kid key publicKey, client = some stored ∧
      config.jwt.getUnverifiedHeader assertion = .ok header ∧ acceptableKid header = some kid ∧
        keys.get stored.clientId kid = .ok (some key) ∧
          config.jwt.keyOfJwk key.publicJwk = .ok publicKey ∧
            config.jwt.decode decodeOptions publicKey decoded assertion = .ok claims := by
  rw [decodeAssertion, bind_eq_ok] at h
  obtain ⟨header?, hheader, h⟩ := h
  split at h
  · next kid stored hkid =>
      obtain ⟨key?, hkey, h⟩ := bind_eq_ok.mp h
      split at h
      · next key =>
          obtain ⟨header, rfl, hkid⟩ := Option.bind_eq_some_iff.mp hkid
          obtain ⟨publicKey, hpublic, hdecode⟩ := verifySignature_eq_ok_some h
          refine ⟨stored, header, kid, key, publicKey, rfl, ?_, hkid, hkey, hpublic, hdecode⟩
          revert hheader
          rcases config.jwt.getUnverifiedHeader assertion with (_ | _ | _) | _ <;>
            simp [exceptInvalidToken, Except.map]
      · simp [pure_eq_ok] at h
  · simp [pure_eq_ok] at h

theorem claimsAreAcceptable_eq_ok_true {claims : Dict} {client : RegisteredClient} :
    config.claimsAreAcceptable checked claims client = .ok true ↔
      Dict.get claims "iss" = .str client.clientId ∧ Dict.get claims "sub" = .str client.clientId ∧
        (∃ values, audienceValues (Dict.get claims "aud") = .ok values ∧
          (.str config.issuer ∈ values ∨ .str config.tokenEndpoint ∈ values)) ∧
        ∃ expiresAt, fromTimestamp (Dict.get claims "exp") = .ok expiresAt ∧
          expiresAt - checked ≤ MAXIMUM_LIFETIME := by
  unfold claimsAreAcceptable
  split
  · next h =>
      simp only [Except.ok.injEq, Bool.false_eq_true, false_iff]
      rintro ⟨hiss, hsub, _⟩
      rcases h with h | h <;> contradiction
  · next h =>
      rw [not_or, ne_eq, not_not, ne_eq, not_not] at h
      simp only [h.1, h.2, true_and, bind_eq_ok]
      constructor
      · rintro ⟨values, hvalues, hrest⟩
        split at hrest
        · simp [pure_eq_ok] at hrest
        · next hnames =>
            obtain ⟨expiresAt, hexp, hlife⟩ := bind_eq_ok.mp hrest
            exact ⟨⟨values, hvalues, by tauto⟩, expiresAt, hexp, by simpa [pure_eq_ok] using hlife⟩
      · rintro ⟨⟨values, hvalues, hnames⟩, expiresAt, hexp, hlife⟩
        refine ⟨values, hvalues, ?_⟩
        rw [if_neg (by tauto)]
        exact bind_eq_ok.mpr ⟨expiresAt, hexp, by simpa [pure_eq_ok] using hlife⟩

/-- An assertion that passes `check` is accepted for the stored client. -/
theorem check_eq_ok_some {client : Option RegisteredClient}
    (h : config.check keys decoded checked presented client = .ok (some row)) :
    ∃ stored evidence, client = some stored ∧
      Accepted config keys decoded checked (presented.assertion.getD "") stored row evidence := by
  rw [check, bind_eq_ok] at h
  obtain ⟨claims?, hdecode, h⟩ := h
  split at h
  · next claims stored =>
      obtain ⟨stored', header, kid, key, publicKey, hstored, hheader, hkid, hkey, hpublic, hjwt⟩ :=
        decodeAssertion_eq_ok_some hdecode
      obtain rfl := Option.some.inj hstored
      obtain ⟨acceptable, hacceptable, h⟩ := bind_eq_ok.mp h
      cases acceptable with
      | false => simp [pure_eq_ok] at h
      | true =>
          rw [if_pos rfl] at h
          obtain ⟨row', hrow, h⟩ := bind_eq_ok.mp h
          obtain rfl : row' = row := by simpa [pure_eq_ok] using h
          obtain ⟨hiss, hsub, haud, expiresAt, hexp, hlife⟩ :=
            claimsAreAcceptable_eq_ok_true.mp hacceptable
          obtain ⟨clientId, hclient, expiresAt', hexp', hrow⟩ := by
            simpa only [replayRow, bind_eq_ok, pure_eq_ok] using hrow
          -- PyJWT has checked that `jti` is a string, so `str` leaves it alone
          obtain ⟨jti, hjti⟩ := config.jwt.decode_text hjwt "jti" (by decide)
            (config.jwt.decode_required hjwt "jti" (by simp [decodeOptions]))
          obtain rfl : expiresAt = expiresAt' := by simpa [hexp] using hexp'
          obtain rfl : stored.clientId = clientId := by
            simpa [hsub] using Value.text_eq_ok.mp hclient
          obtain ⟨hmem, hkeyClient, hkeyKid⟩ := ClientKeyTable.get_eq_ok_some hkey
          obtain ⟨halg, hkidClaim⟩ := acceptableKid_eq_some hkid
          subst hrow
          exact ⟨stored, ⟨header, kid, key, publicKey, claims⟩, rfl, hheader, halg, hkidClaim, hmem,
            hkeyClient, hkeyKid, hpublic, hjwt, hiss, hsub, haud, hexp, hlife, rfl,
            by rw [hjti, config.interpreter.str_str]⟩
  · simp [pure_eq_ok] at h

/-- An accepted assertion had not expired when it was decoded. -/
theorem Accepted.decoded_lt {assertion : String} {client : RegisteredClient} {evidence : Evidence}
    (h : Accepted config keys decoded checked assertion client row evidence) (hclock : 0 ≤ decoded) :
    decoded < row.expiresAt := by
  obtain ⟨exp, hexp, _, _, hround, _⟩ := fromTimestamp_eq_ok.mp h.expiresAt
  have halive : decoded < truncate exp := config.jwt.decode_exp h.decode exp hexp
  have hpos : 0 < truncate exp := by exact_mod_cast hclock.trans_lt halive
  have hle : (truncate exp : ℚ) ≤ exp :=
    truncate_le (zero_le_one.trans (truncate_pos_iff.mp hpos))
  calc decoded < truncate exp := halive
    _ ≤ roundMicroseconds exp := le_roundMicroseconds hle
    _ = row.expiresAt := hround.symm

end PrivateKeyJwt

/-- `PrivateKeyJwt(…)`. -/
def privateKeyJwt (config : PrivateKeyJwt) : ClientAuthMethod where
  name := PrivateKeyJwt.name
  extract := config.extract
  verify := config.verify

/-! ## The registry of methods -/

/-- The installed methods, in order, with different names. -/
abbrev ClientAuthRegistry := Table ClientAuthMethod.name

namespace ClientAuthRegistry

/-- What every method finds in the form. -/
def found (form : TokenForm) :
    List ClientAuthMethod → Except Exc (List (PresentedCredential × ClientAuthMethod))
  | [] => .ok []
  | method :: rest => do
      let presented ← method.extract form
      let others ← found form rest
      match presented with
      | some presented => pure ((presented, method) :: others)
      | none => pure others

/-- `ClientAuthRegistry.extract(headers, form)`; no method reads the headers. -/
def extract (methods : ClientAuthRegistry) (form : TokenForm) :
    Except Exc (PresentedCredential × ClientAuthMethod) := do
  match ← found form methods.rows with
  | [] => .error (.oauth "invalid_request" "missing required parameter: client_id" 400)
  | [one] => pure one
  | _ :: _ :: _ =>
      .error (.oauth "invalid_request" "client credentials must be presented exactly once" 400)

end ClientAuthRegistry

/-- `default_client_auth_registry(…)`. -/
def defaultClientAuthRegistry (hasher : PasswordHasher) (config : PrivateKeyJwt) :
    ClientAuthRegistry where
  rows := [clientSecretPost hasher, privateKeyJwt config]
  nodup := by
    simp [clientSecretPost, privateKeyJwt, ClientSecretPost.name, PrivateKeyJwt.name]

namespace ClientAuthRegistry

/-- Every method either found a credential or found nothing. -/
theorem found_eq_ok {form : TokenForm} {methods : List ClientAuthMethod}
    {pairs : List (PresentedCredential × ClientAuthMethod)} (h : found form methods = .ok pairs) :
    (∀ pair ∈ pairs, pair.2 ∈ methods ∧ pair.2.extract form = .ok (some pair.1)) ∧
      ∀ method ∈ methods, method.extract form = .ok none ∨ ∃ pair ∈ pairs, pair.2 = method := by
  induction methods generalizing pairs with
  | nil =>
      obtain rfl : [] = pairs := by simpa [found] using h
      simp
  | cons method rest ih =>
      simp only [found, bind_eq_ok] at h
      obtain ⟨presented, hpresented, others, hothers, h⟩ := h
      obtain ⟨ihpairs, ihmethods⟩ := ih hothers
      cases presented with
      | none =>
          obtain rfl := pure_eq_ok.mp h
          refine ⟨fun pair hpair => ?_, fun method' hmethod' => ?_⟩
          · exact ⟨List.mem_cons_of_mem _ (ihpairs pair hpair).1, (ihpairs pair hpair).2⟩
          · rcases List.mem_cons.mp hmethod' with rfl | hrest
            · exact .inl hpresented
            · exact ihmethods method' hrest
      | some presented =>
          obtain rfl := pure_eq_ok.mp h
          refine ⟨fun pair hpair => ?_, fun method' hmethod' => ?_⟩
          · rcases List.mem_cons.mp hpair with rfl | hpair
            · exact ⟨List.mem_cons_self, hpresented⟩
            · exact ⟨List.mem_cons_of_mem _ (ihpairs pair hpair).1, (ihpairs pair hpair).2⟩
          · rcases List.mem_cons.mp hmethod' with rfl | hrest
            · exact .inr ⟨_, List.mem_cons_self, rfl⟩
            · rcases ihmethods method' hrest with hnone | ⟨pair, hpair, heq⟩
              · exact .inl hnone
              · exact .inr ⟨pair, List.mem_cons_of_mem _ hpair, heq⟩

/-- Exactly one installed method found a credential. -/
theorem extract_eq_ok {methods : ClientAuthRegistry} {form : TokenForm}
    {presented : PresentedCredential} {method : ClientAuthMethod}
    (h : methods.extract form = .ok (presented, method)) :
    method ∈ methods ∧ method.extract form = .ok (some presented) ∧
      ∀ other ∈ methods, other ≠ method → other.extract form = .ok none := by
  rw [extract, bind_eq_ok] at h
  obtain ⟨pairs, hfound, h⟩ := h
  obtain ⟨hpairs, hmethods⟩ := found_eq_ok hfound
  match pairs, h with
  | [one], h =>
      obtain rfl := pure_eq_ok.mp h
      obtain ⟨hmem, hextract⟩ := hpairs _ List.mem_cons_self
      refine ⟨hmem, hextract, fun other hother hne => ?_⟩
      rcases hmethods other hother with hnone | ⟨pair, hpair, heq⟩
      · exact hnone
      · obtain rfl := List.mem_singleton.mp hpair
        exact absurd heq.symm hne

end ClientAuthRegistry

/-- The one refusal of a client, whatever was wrong with it. -/
def authenticationFailed : Exc := .oauth "invalid_client" "client authentication failed" 401

/-- `ClientRegistry.authenticate(presented, method)`. -/
def authenticate (moment : Moment) (presented : PresentedCredential) (method : ClientAuthMethod) :
    ServerM RegisteredClient := do
  let state ← get
  let client ← lift (state.clients.get presented.clientId)
  let proved ← method.verify moment presented client
  lift (raiseIf (proved = false) authenticationFailed)
  match client with
  | some client => pure client
  -- `assert client is not None`
  | none => throw (.python "AssertionError")

/-- A client is authenticated when it is stored and the method accepts its
proof. -/
theorem authenticate_eq_ok {moment : Moment} {presented : PresentedCredential}
    {method : ClientAuthMethod} {client : RegisteredClient} {s t : ServerState} :
    (authenticate moment presented method).run s = .ok client t ↔
      s.clients.get presented.clientId = .ok (some client) ∧
        (method.verify moment presented (some client)).run s = .ok true t := by
  simp only [authenticate, run_bind_eq_ok, EStateM.run_get, EStateM.Result.ok.injEq, run_lift_eq_ok,
    raiseIf_eq_ok, Bool.not_eq_false]
  constructor
  · rintro ⟨_, _, ⟨rfl, rfl⟩, stored, _, ⟨hstored, rfl⟩, proved, u, hverify, _, _, ⟨rfl, rfl⟩, h⟩
    cases stored with
    | none => cases h
    | some stored =>
        simp only [EStateM.run_pure, EStateM.Result.ok.injEq] at h
        obtain ⟨rfl, rfl⟩ := h
        exact ⟨hstored, hverify⟩
  · rintro ⟨hstored, hverify⟩
    exact ⟨s, s, ⟨rfl, rfl⟩, some client, s, ⟨hstored, rfl⟩, true, t, hverify, (), t, ⟨rfl, rfl⟩, rfl⟩

/-! ### What authentication leaves alone -/

/-- The state apart from the replay table. -/
def exceptReplays (s : ServerState) :
    ClientTable × ClientKeyTable × IssuedCredentialTable × List (String × Dict) :=
  (s.clients, s.clientKeys, s.issuedCredentials, s.signed)

theorem keeps_claimAssertion (row : ReplayRow) : Keeps exceptReplays (claimAssertion row) := by
  refine keeps_atomically fun s first t h => ?_
  simp only [bind_eq_ok, pure_eq_ok, Prod.mk.injEq] at h
  obtain ⟨_, _, _, _, _, rfl⟩ := h
  rfl

/-- No installed method writes to anything but the replay table. -/
theorem keeps_verify {hasher : PasswordHasher} {config : PrivateKeyJwt} {form : TokenForm}
    {found : PresentedCredential × ClientAuthMethod}
    (h : (defaultClientAuthRegistry hasher config).extract form = .ok found) (moment : Moment)
    (presented : PresentedCredential) (client : Option RegisteredClient) :
    Keeps exceptReplays (found.2.verify moment presented client) := by
  obtain ⟨_, method⟩ := found
  have hmem := (ClientAuthRegistry.extract_eq_ok h).1
  simp only [defaultClientAuthRegistry, Table.mem_iff, List.mem_cons, List.not_mem_nil,
    or_false] at hmem
  rcases hmem with hmethod | hmethod <;> rw [hmethod]
  · exact keeps_lift _
  · refine keeps_get.bind fun state => (keeps_lift _).bind fun row => ?_
    cases row with
    | none => exact keeps_pure _
    | some row => exact (keeps_lift _).bind fun _ => keeps_claimAssertion row

theorem keeps_authenticate {γ : Type} {view : ServerState → γ} {method : ClientAuthMethod}
    (hverify : ∀ moment presented client, Keeps view (method.verify moment presented client))
    (moment : Moment) (presented : PresentedCredential) :
    Keeps view (authenticate moment presented method) := by
  refine keeps_get.bind fun state => (keeps_lift _).bind fun client =>
    (hverify _ _ _).bind fun proved => (keeps_lift _).bind fun _ => ?_
  cases client with
  | none => exact keeps_throw _
  | some client => exact keeps_pure _

end AgentOAuth
