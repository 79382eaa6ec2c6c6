import AgentOAuth.Model.Pipeline

/-!
# The token endpoint

`create_app` and `get_oauth_token` of `src/api/routes.py`.  Every part of the
server is built from one set of values, so the issuer, the signing key and the
lifetime are the same wherever they are used.

`getOauthToken_eq_ok` takes a request that was answered with a token apart into
the steps it went through (`Succeeds`), `getOauthToken_eq_error` one that was
refused.
-/

namespace AgentOAuth

open Effect

/-- What `create_app` is built from, with the libraries it calls. -/
structure Server where
  settings : Settings
  signingKey : SigningKey
  jwt : PyJwt
  hasher : PasswordHasher
  interpreter : Interpreter

/-- The body of a token response; what is `none` is left out. -/
structure TokenResponse where
  accessToken : String
  tokenType : String := "Bearer"
  expiresIn : ℤ
  scope : Option String
  issuedTokenType : Option String
  deriving DecidableEq

/-- The body and the headers of an error response. -/
structure ErrorResponse where
  statusCode : ℕ
  error : String
  errorDescription : String
  headers : List (String × String)
  deriving DecidableEq

namespace Server

variable (server : Server)

/-- `TokenVerifier(issuer=settings.issuer, signing_key=signing_key)`. -/
def verifier : TokenVerifier where
  jwt := server.jwt
  issuer := server.settings.issuer
  signingKey := server.signingKey

/-- The token exchange grant of `default_grant_registry`. -/
def exchange : TokenExchangeGrant where
  verifier := server.verifier
  maximumDepth := server.settings.maxDelegationDepth

/-- The grants `create_app` installs. -/
def grants : GrantRegistry := defaultGrantRegistry server.exchange

/-- The `private_key_jwt` method of `default_client_auth_registry`. -/
def assertions : PrivateKeyJwt where
  issuer := server.settings.issuer
  tokenEndpoint := server.settings.urlFor "/oauth/token"
  jwt := server.jwt
  interpreter := server.interpreter

/-- The authentication methods `create_app` installs. -/
def authMethods : ClientAuthRegistry := defaultClientAuthRegistry server.hasher server.assertions

/-- `TokenMinter(…)` of `create_app`. -/
def minter : TokenMinter where
  jwt := server.jwt
  issuer := server.settings.issuer
  signingKey := server.signingKey
  defaultTtlSeconds := server.settings.accessTokenTtlSeconds

/-- `IssuancePipeline(…)` of `create_app`. -/
def pipeline : IssuancePipeline where
  settings := server.settings
  minter := server.minter
  interpreter := server.interpreter

/-- The client of a request, when its grant needs one. -/
def authenticatedClient (moment : Moment) (grant : Grant) (form : TokenForm) :
    ServerM (Option RegisteredClient) :=
  if grant.requiresClientAuth then do
    let (presented, method) ← lift (server.authMethods.extract form)
    let client ← authenticate moment presented method
    pure (some client)
  else pure none

/-- The response to an issued token. -/
def respond (token : IssuedToken) : TokenResponse where
  accessToken := token.accessToken
  expiresIn := token.expiresIn
  scope := if token.scope = "" then none else some token.scope
  issuedTokenType := token.issuedTokenType.filter fun name => name ≠ ""

/-- The headers of every answer of the token endpoint. -/
def NO_STORE : List (String × String) := [("Cache-Control", "no-store"), ("Pragma", "no-cache")]

/-- `oauth_error_handler(_, exc)`; the application handles no other exception. -/
def oauthErrorHandler (exc : Exc) : Option ErrorResponse :=
  exc.asOAuth?.map fun (error, description, statusCode) => {
    statusCode
    error
    errorDescription := description
    headers := if error = "invalid_client" then
      NO_STORE ++ [("WWW-Authenticate", "Basic realm=\"oauth/token\"")] else NO_STORE }

/-- Every `OAuthError` becomes a response that is not stored. -/
theorem oauthErrorHandler_isSome_iff {exc : Exc} :
    (∃ response, oauthErrorHandler exc = some response ∧
      ("Cache-Control", "no-store") ∈ response.headers) ↔ exc.error? ≠ none := by
  unfold oauthErrorHandler Exc.error?
  cases exc.asOAuth? with
  | none => simp
  | some arguments =>
      obtain ⟨error, description, statusCode⟩ := arguments
      by_cases herror : error = "invalid_client" <;> simp [herror, NO_STORE]

/-- `get_oauth_token` once the client is known. -/
def answer (moment : Moment) (form : TokenForm) (grant : Grant) (client : Option RegisteredClient) :
    ServerM TokenResponse := do
  let state ← get
  let result ← lift (grant.resolve state.clients moment form client)
  let token ← server.pipeline.issue moment result
  pure (respond token)

/-- `get_oauth_token(request)`. -/
def getOauthToken (moment : Moment) (request : Request) : ServerM TokenResponse := do
  let form ← lift (readTokenForm server.interpreter request)
  let grantType ← lift form.grantType
  let grant ← lift (server.grants.get grantType)
  let client ← server.authenticatedClient moment grant form
  server.answer moment form grant client

/-! ## Taking a request apart -/

/-- What the endpoint knows once it has authenticated a caller. -/
structure Login where
  form : TokenForm
  grant : Grant
  presented : PresentedCredential
  method : ClientAuthMethod
  caller : RegisteredClient
  state : ServerState

/-- The request gets as far as an authenticated caller. -/
structure Authenticated (moment : Moment) (request : Request) (s : ServerState) (x : Login) :
    Prop where
  form : readTokenForm server.interpreter request = .ok x.form
  grantType : x.form.get "grant_type" = some x.grant.grantType
  grant : x.grant ∈ server.grants
  presented : server.authMethods.extract x.form = .ok (x.presented, x.method)
  caller : (authenticate moment x.presented x.method).run s = .ok x.caller x.state

variable {server} {moment : Moment} {request : Request} {s t : ServerState}
  {response : TokenResponse} {grant : Grant} {x : Login}

theorem mem_grants : grant ∈ server.grants ↔
    grant = clientCredentialsGrant ∨ grant = tokenExchangeGrant server.exchange := by
  simp [grants, defaultGrantRegistry, Table.mem_iff]

theorem clientCredentialsGrant_ne : clientCredentialsGrant ≠ tokenExchangeGrant server.exchange :=
  fun h => absurd (congrArg Grant.grantType h)
    (show ClientCredentialsGrant.grantType ≠ GRANT_TYPE by decide)

/-- Both grants need a client. -/
theorem requiresClientAuth (h : grant ∈ server.grants) : grant.requiresClientAuth = true := by
  rcases mem_grants.mp h with rfl | rfl <;> rfl

theorem keeps_authenticatedClient (moment : Moment) (grant : Grant) (form : TokenForm) :
    Keeps exceptReplays (server.authenticatedClient moment grant form) := by
  unfold authenticatedClient
  split
  · intro s
    cases hextract : server.authMethods.extract form with
    | error e => rfl
    | ok found =>
        rw [run_lift_bind_of_ok rfl]
        exact ((keeps_authenticate (keeps_verify hextract) moment found.1).bind
          fun _ => keeps_pure _) s
  · exact keeps_pure _

theorem grantType_eq_ok {form : TokenForm} {grantType : String} :
    form.grantType = .ok grantType ↔ form.get "grant_type" = some grantType := by
  unfold TokenForm.grantType
  cases form.get "grant_type" <;> simp

/-- A caller that `authenticatedClient` returns went through authentication. -/
theorem authenticatedClient_eq_ok (hgrant : grant ∈ server.grants) {form : TokenForm}
    {client : Option RegisteredClient} :
    (server.authenticatedClient moment grant form).run s = .ok client t ↔
      ∃ presented method caller, server.authMethods.extract form = .ok (presented, method) ∧
        (authenticate moment presented method).run s = .ok caller t ∧ client = some caller := by
  rw [authenticatedClient, if_pos (requiresClientAuth hgrant)]
  simp only [run_bind_eq_ok, run_lift_eq_ok, EStateM.run_pure, EStateM.Result.ok.injEq]
  constructor
  · rintro ⟨⟨presented, method⟩, _, ⟨hextract, rfl⟩, caller, _, hcaller, rfl, rfl⟩
    exact ⟨presented, method, caller, hextract, hcaller, rfl⟩
  · rintro ⟨presented, method, caller, hextract, hcaller, rfl⟩
    exact ⟨(presented, method), s, ⟨hextract, rfl⟩, caller, t, hcaller, rfl, rfl⟩

/-- Once a caller is authenticated, the rest of the endpoint decides. -/
theorem Authenticated.run_eq (h : Authenticated server moment request s x) :
    (server.getOauthToken moment request).run s =
      (server.answer moment x.form x.grant (some x.caller)).run x.state := by
  have hclient : (server.authenticatedClient moment x.grant x.form).run s =
      .ok (some x.caller) x.state := by
    rw [authenticatedClient, if_pos (requiresClientAuth h.grant), run_lift_bind_of_ok h.presented]
    exact run_bind_of_ok h.caller _
  rw [getOauthToken, run_lift_bind_of_ok h.form, run_lift_bind_of_ok (grantType_eq_ok.mpr h.grantType),
    run_lift_bind_of_ok (GrantRegistry.get_eq_ok.mpr ⟨h.grant, rfl⟩), run_bind_of_ok hclient]

/-- A token is only ever handed to an authenticated caller. -/
theorem getOauthToken_eq_ok :
    (server.getOauthToken moment request).run s = .ok response t ↔
      ∃ x, Authenticated server moment request s x ∧
        (server.answer moment x.form x.grant (some x.caller)).run x.state = .ok response t := by
  constructor
  · intro h
    simp only [getOauthToken, run_bind_eq_ok, run_lift_eq_ok, grantType_eq_ok,
      GrantRegistry.get_eq_ok] at h
    obtain ⟨form, _, ⟨hform, rfl⟩, grantType, _, ⟨htype, rfl⟩, grant, _, ⟨⟨hgrant, rfl⟩, rfl⟩,
      client, state, hclient, hanswer⟩ := h
    obtain ⟨presented, method, caller, hextract, hcaller, rfl⟩ :=
      (authenticatedClient_eq_ok hgrant).mp hclient
    exact ⟨⟨form, grant, presented, method, caller, state⟩,
      ⟨hform, htype, hgrant, hextract, hcaller⟩, hanswer⟩
  · rintro ⟨x, hx, hanswer⟩
    rwa [hx.run_eq]

/-- A request is refused before its caller is authenticated, which writes to
the replay table only, or by the answer to that caller. -/
theorem getOauthToken_eq_error {e : Exc}
    (h : (server.getOauthToken moment request).run s = .error e t) :
    exceptReplays t = exceptReplays s ∨
      ∃ x, Authenticated server moment request s x ∧
        (server.answer moment x.form x.grant (some x.caller)).run x.state = .error e t := by
  simp only [getOauthToken, run_bind_eq_error, run_lift_eq_ok, run_lift_eq_error, grantType_eq_ok,
    GrantRegistry.get_eq_ok] at h
  rcases h with ⟨_, rfl⟩ | ⟨form, _, ⟨hform, rfl⟩, h⟩
  · exact .inl rfl
  rcases h with ⟨_, rfl⟩ | ⟨grantType, _, ⟨htype, rfl⟩, h⟩
  · exact .inl rfl
  rcases h with ⟨_, rfl⟩ | ⟨grant, _, ⟨⟨hgrant, rfl⟩, rfl⟩, h⟩
  · exact .inl rfl
  -- from here on a caller is being authenticated
  rcases h with h | ⟨client, state, hclient, hanswer⟩
  · exact .inl ((keeps_authenticatedClient moment grant form).of_error h)
  · obtain ⟨presented, method, caller, hextract, hcaller, rfl⟩ :=
      (authenticatedClient_eq_ok hgrant).mp hclient
    exact .inr ⟨⟨form, grant, presented, method, caller, state⟩,
      ⟨hform, htype, hgrant, hextract, hcaller⟩, hanswer⟩

/-- Authenticating a caller writes to the replay table only. -/
theorem Authenticated.keeps (h : Authenticated server moment request s x) :
    x.state.clients = s.clients ∧ x.state.clientKeys = s.clientKeys ∧
      x.state.issuedCredentials = s.issuedCredentials ∧ x.state.signed = s.signed := by
  have hkeeps := (keeps_authenticate (keeps_verify h.presented) moment x.presented).of_ok h.caller
  simpa [exceptReplays] using hkeeps

theorem answer_eq_ok {form : TokenForm} {client : Option RegisteredClient} :
    (server.answer moment form grant client).run s = .ok response t ↔
      ∃ result y written, grant.resolve s.clients moment form client = .ok result ∧
        server.pipeline.Prepared moment result y ∧
          s.issuedCredentials.record moment.insertFails y.row = .ok written ∧
            response = respond (y.token result) ∧
              t = { y.sign s with issuedCredentials := written } := by
  simp only [answer, run_bind_eq_ok, EStateM.run_get, EStateM.Result.ok.injEq, run_lift_eq_ok,
    IssuancePipeline.issue_eq_ok, EStateM.run_pure]
  constructor
  · rintro ⟨_, _, ⟨rfl, rfl⟩, result, _, ⟨hresolve, rfl⟩, _, _, ⟨y, written, hy, hwritten, rfl, rfl⟩,
      rfl, rfl⟩
    exact ⟨result, y, written, hresolve, hy, hwritten, rfl, rfl⟩
  · rintro ⟨result, y, written, hresolve, hy, hwritten, rfl, rfl⟩
    exact ⟨s, s, ⟨rfl, rfl⟩, result, s, ⟨hresolve, rfl⟩, _, _,
      ⟨y, written, hy, hwritten, rfl, rfl⟩, rfl, rfl⟩

/-- An answer is refused by the grant, which writes nothing, or by the pipeline. -/
theorem answer_eq_error {form : TokenForm} {client : Option RegisteredClient} {e : Exc} :
    (server.answer moment form grant client).run s = .error e t ↔
      grant.resolve s.clients moment form client = .error e ∧ s = t ∨
        ∃ result, grant.resolve s.clients moment form client = .ok result ∧
          (server.pipeline.issue moment result).run s = .error e t := by
  simp only [answer, run_bind_eq_error, EStateM.run_get, EStateM.Result.ok.injEq,
    run_lift_eq_ok, run_lift_eq_error, EStateM.run_pure, reduceCtorEq, false_or, or_false, and_false,
    exists_false]
  constructor
  · rintro ⟨_, _, ⟨rfl, rfl⟩, hresolve | ⟨result, _, ⟨hresolve, rfl⟩, hissue⟩⟩
    · exact .inl hresolve
    · exact .inr ⟨result, hresolve, hissue⟩
  · rintro (hresolve | ⟨result, hresolve, hissue⟩)
    · exact ⟨s, s, ⟨rfl, rfl⟩, .inl hresolve⟩
    · exact ⟨s, s, ⟨rfl, rfl⟩, .inr ⟨result, s, ⟨hresolve, rfl⟩, hissue⟩⟩

/-- A refused answer leaves the issued credentials alone. -/
theorem answer_error {form : TokenForm} {client : Option RegisteredClient} {e : Exc}
    (h : (server.answer moment form grant client).run s = .error e t) :
    t.issuedCredentials = s.issuedCredentials := by
  rcases answer_eq_error.mp h with ⟨_, rfl⟩ | ⟨result, _, hissue⟩
  · rfl
  · exact (IssuancePipeline.issue_error hissue).1

/-- **A refused request leaves the issued credentials alone**, wherever it was
refused. -/
theorem getOauthToken_error {e : Exc} (h : (server.getOauthToken moment request).run s = .error e t) :
    t.issuedCredentials = s.issuedCredentials := by
  rcases getOauthToken_eq_error h with hkept | ⟨x, hx, hanswer⟩
  · exact congrArg (fun kept => kept.2.2.1) hkept
  · exact (answer_error hanswer).trans hx.keeps.2.2.1

/-- No request touches the registry. -/
theorem keeps_getOauthToken (server : Server) (moment : Moment) (request : Request) :
    Keeps (fun s : ServerState => (s.clients, s.clientKeys)) (server.getOauthToken moment request) := by
  refine (keeps_lift _).bind fun form => (keeps_lift _).bind fun _ => (keeps_lift _).bind
    fun grant => Keeps.bind ?_ fun client => keeps_get.bind fun _ => (keeps_lift _).bind
      fun _ => Keeps.bind ?_ fun _ => keeps_pure _
  · exact (keeps_authenticatedClient moment grant form).map fun kept => (kept.1, kept.2.1)
  · exact IssuancePipeline.keeps_issue.map fun kept => (kept.1, kept.2.1)

/-- A request whose grant does not resolve is refused before anything is signed
or recorded. -/
theorem refused_of_resolve
    (h : ∀ x, server.Authenticated moment request s x → ∀ result,
      x.grant.resolve x.state.clients moment x.form (some x.caller) ≠ .ok result) :
    ∃ e t, (server.getOauthToken moment request).run s = .error e t ∧ t.signed = s.signed ∧
      t.issuedCredentials = s.issuedCredentials := by
  cases hrun : (server.getOauthToken moment request).run s with
  | ok response t =>
      obtain ⟨x, hx, hanswer⟩ := getOauthToken_eq_ok.mp hrun
      obtain ⟨result, _, _, hresolve, _⟩ := answer_eq_ok.mp hanswer
      exact absurd hresolve (h x hx result)
  | error e t =>
      refine ⟨e, t, rfl, ?_, getOauthToken_error hrun⟩
      rcases getOauthToken_eq_error hrun with hkept | ⟨x, hx, hanswer⟩
      · exact congrArg (fun kept => kept.2.2.2) hkept
      · rcases answer_eq_error.mp hanswer with ⟨_, rfl⟩ | ⟨result, hok, _⟩
        · exact hx.keeps.2.2.2
        · exact absurd hok (h x hx result)

/-! ## A request that is answered with a token -/

/-- What the endpoint computes on its way to a token. -/
structure Success where
  login : Login
  result : GrantResult
  issuance : IssuancePipeline.Issuance
  written : IssuedCredentialTable

/-- Every step of the endpoint passes. -/
structure Succeeds (server : Server) (moment : Moment) (request : Request) (s : ServerState)
    (x : Success) : Prop where
  login : server.Authenticated moment request s x.login
  resolve : x.login.grant.resolve x.login.state.clients moment x.login.form (some x.login.caller) =
    .ok x.result
  prepared : server.pipeline.Prepared moment x.result x.issuance
  recorded : x.login.state.issuedCredentials.record moment.insertFails x.issuance.row =
    .ok x.written

/-- The state a successful request leaves behind. -/
def Success.state (x : Success) : ServerState :=
  { x.issuance.sign x.login.state with issuedCredentials := x.written }

/-- The response of a successful request. -/
def Success.reply (x : Success) : TokenResponse := respond (x.issuance.token x.result)

/-- The payload a successful request signed. -/
def Success.payload (x : Success) : Dict := signedPayload x.issuance.minted.claims

/-- **The endpoint hands out a token exactly when every step passes.** -/
theorem getOauthToken_eq_ok_iff_succeeds :
    (server.getOauthToken moment request).run s = .ok response t ↔
      ∃ x, Succeeds server moment request s x ∧ response = x.reply ∧ t = x.state := by
  rw [getOauthToken_eq_ok]
  constructor
  · rintro ⟨login, hlogin, hanswer⟩
    obtain ⟨result, y, written, hresolve, hy, hwritten, rfl, rfl⟩ := answer_eq_ok.mp hanswer
    exact ⟨⟨login, result, y, written⟩, ⟨hlogin, hresolve, hy, hwritten⟩, rfl, rfl⟩
  · rintro ⟨x, hx, rfl, rfl⟩
    exact ⟨x.login, hx.login, answer_eq_ok.mpr
      ⟨x.result, x.issuance, x.written, hx.resolve, hx.prepared, hx.recorded, rfl, rfl⟩⟩

/-- The answer to a caller is a token exactly when the remaining steps pass. -/
theorem Authenticated.run_eq_ok (h : Authenticated server moment request s x) :
    (server.getOauthToken moment request).run s = .ok response t ↔
      ∃ y, y.login = x ∧ Succeeds server moment request s y ∧ response = y.reply ∧ t = y.state := by
  rw [h.run_eq, answer_eq_ok]
  constructor
  · rintro ⟨result, y, written, hresolve, hy, hwritten, rfl, rfl⟩
    exact ⟨⟨x, result, y, written⟩, rfl, ⟨h, hresolve, hy, hwritten⟩, rfl, rfl⟩
  · rintro ⟨y, rfl, hy, rfl, rfl⟩
    exact ⟨y.result, y.issuance, y.written, hy.resolve, hy.prepared, hy.recorded, rfl, rfl⟩

/-- The `grant_type` of the form decides the grant. -/
theorem Authenticated.grant_eq_exchange_iff (h : Authenticated server moment request s x) :
    x.grant = tokenExchangeGrant server.exchange ↔ x.form.get "grant_type" = some GRANT_TYPE := by
  rw [h.grantType, Option.some.injEq]
  rcases mem_grants.mp h.grant with hgrant | hgrant
  · have hne : clientCredentialsGrant.grantType ≠ GRANT_TYPE := by decide
    simp [hgrant, clientCredentialsGrant_ne, hne]
  · simp [hgrant, tokenExchangeGrant]

namespace Succeeds

variable {x : Success}

theorem signed_eq (h : Succeeds server moment request s x) :
    x.state.signed = (x.reply.accessToken, x.payload) :: s.signed := by
  rw [← h.login.keeps.2.2.2]
  rfl

/-- The ledger gains the row of the token, in front. -/
theorem rows_eq (h : Succeeds server moment request s x) :
    x.state.issuedCredentials.rows = x.issuance.row :: s.issuedCredentials.rows := by
  rw [← h.login.keeps.2.2.1]
  exact (Table.insert_eq_some.mp (IssuedCredentialTable.record_eq_ok.mp h.recorded).2).2

/-- The grant was one of the two, and resolved as it does. -/
theorem result_cases (h : Succeeds server moment request s x) :
    (x.login.grant = clientCredentialsGrant ∧
      x.result = ClientCredentialsGrant.result moment x.login.form x.login.caller) ∨
    ∃ y, x.login.grant = tokenExchangeGrant server.exchange ∧
      server.exchange.Admitted s.clients moment x.login.form x.login.caller y ∧
        x.result = y.result x.login.form x.login.caller := by
  have hresolve := h.resolve
  rw [h.login.keeps.1] at hresolve
  rcases mem_grants.mp h.login.grant with hgrant | hgrant <;> rw [hgrant] at hresolve
  · exact .inl ⟨hgrant, ClientCredentialsGrant.resolve_eq_ok.mp hresolve⟩
  · obtain ⟨caller, y, hcaller, hy, hresult⟩ := TokenExchangeGrant.resolve_eq_ok.mp hresolve
    obtain rfl := Option.some.inj hcaller
    exact .inr ⟨y, hgrant, hy, hresult⟩

/-- A token for an exchange has passed the checks of the exchange. -/
theorem admitted (h : Succeeds server moment request s x)
    (hgrant : x.login.grant = tokenExchangeGrant server.exchange) :
    ∃ y, server.exchange.Admitted s.clients moment x.login.form x.login.caller y ∧
      x.result = y.result x.login.form x.login.caller := by
  rcases h.result_cases with ⟨hroot, _⟩ | ⟨y, _, hy, hresult⟩
  · exact absurd (hroot.symm.trans hgrant) clientCredentialsGrant_ne
  · exact ⟨y, hy, hresult⟩

theorem extraClaims_eq (h : Succeeds server moment request s x) : x.result.extraClaims = [] := by
  rcases h.result_cases with ⟨_, hresult⟩ | ⟨y, _, _, hresult⟩ <;> rw [hresult] <;> rfl

theorem signedFrom (h : Succeeds server moment request s x) :
    server.pipeline.SignedFrom moment x.result x.issuance.scope x.payload :=
  h.prepared.signed h.extraClaims_eq

end Succeeds

end Server

end AgentOAuth
