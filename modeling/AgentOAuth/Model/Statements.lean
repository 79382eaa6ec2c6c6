import AgentOAuth.Lib.Workload
import AgentOAuth.Model.World

/-!
# The token endpoint, statement by statement

A request awaits the database up to five times, and between two of these other
requests may run, in this process or in another one.  `Server.requestScript` is
`get_oauth_token` cut at these points, and at the application of the signing
key.  `run_requestScript` shows that it is `getOauthToken` when nothing comes
between.

`Server.workload` is the server with any number of requests in progress, and
with the events of the world that are no requests.
-/

namespace AgentOAuth

open Effect Workloads

/-- Where a request stops: the statements it awaits, and the signing key. -/
inductive Statement
  /-- `ClientRepository.get(client_id)` -/
  | getClient (clientId : String)
  /-- `ClientKeyRepository.get(client_id, kid)` -/
  | getClientKey (clientId kid : String)
  /-- `AssertionReplayRepository.claim(client_id, jti, expires_at)` -/
  | claim (row : ReplayRow)
  /-- `jwt.encode` inside `TokenMinter.mint` -/
  | sign (minted : MintedToken)
  /-- `IssuedCredentialRepository.record(issuance)` -/
  | record (insertFails : Bool) (issuance : IssuanceRecord)

namespace Statement

/-- What the statement returns. -/
abbrev Answer : Statement → Type
  | getClient _ => Option RegisteredClient
  | getClientKey _ _ => Option ClientKey
  | claim _ => Bool
  | sign _ => Unit
  | record _ _ => Unit

/-- The statement on the state it finds, at once. -/
def exec : (x : Statement) → ServerM x.Answer
  | getClient clientId => do
      let state ← get
      lift (state.clients.get clientId)
  | getClientKey clientId kid => do
      let state ← get
      lift (state.clientKeys.get clientId kid)
  | claim row => claimAssertion row
  | sign minted => IssuancePipeline.noteSigned minted
  | record insertFails issuance => recordIssuance insertFails issuance

end Statement

/-- A request between two of its statements. -/
abbrev RequestScript (α : Type) := Script Statement.Answer Exc α

open Script

/-- `ClientRepository.get(client_id)`. -/
def ClientRepository.get (clientId : String) : RequestScript (Option RegisteredClient) :=
  op (Statement.getClient clientId)

/-- `ClientKeyRepository.get(client_id, kid)`. -/
def ClientKeyRepository.get (clientId kid : String) : RequestScript (Option ClientKey) :=
  op (Statement.getClientKey clientId kid)

/-- `AssertionReplayRepository.claim(client_id, jti, expires_at)`. -/
def AssertionReplayRepository.claim (row : ReplayRow) : RequestScript Bool :=
  op (Statement.claim row)

/-- `IssuedCredentialRepository.record(issuance)`. -/
def IssuedCredentialRepository.record (insertFails : Bool) (issuance : IssuanceRecord) :
    RequestScript Unit :=
  op (Statement.record insertFails issuance)

/-- The minter applies the signing key. -/
def applyKey (minted : MintedToken) : RequestScript Unit := op (Statement.sign minted)

/-! ## Authentication -/

namespace PrivateKeyJwt

variable (config : PrivateKeyJwt)

/-- `decodeAssertion`, which looks one key up. -/
def decodeScript (now : ℚ) (assertion : String) (client : Option RegisteredClient) :
    RequestScript (Option Dict) := do
  let header ← finish (exceptInvalidToken ((config.jwt.getUnverifiedHeader assertion).map some)
    (.ok none))
  match header.bind acceptableKid, client with
  | some kid, some client => do
      match ← ClientKeyRepository.get client.clientId kid with
      | some key => finish (config.verifySignature key now assertion)
      | none => pure none
  | _, _ => pure none

/-- The call of `claim` in `_is_first_use(claims)`. -/
def isFirstUseScript (moment : Moment) (row : ReplayRow) : RequestScript Bool := do
  finish (raiseIf (moment.claimFails = true) (.python "OperationalError"))
  AssertionReplayRepository.claim row

/-- `verify(presented, client)`. -/
def verifyScript (moment : Moment) (presented : PresentedCredential)
    (client : Option RegisteredClient) : RequestScript Bool := do
  let claims ← config.decodeScript moment.assertionDecoded (presented.assertion.getD "") client
  match claims, client with
  | some claims, some client =>
      if ← finish (config.claimsAreAcceptable moment.assertionChecked claims client) then
        let row ← finish (config.replayRow claims)
        isFirstUseScript moment row
      else pure false
  | _, _ => pure false

end PrivateKeyJwt

namespace Server

variable (server : Server)

/-- `method.verify(presented, client)`, for an installed method. -/
def verifyScript (method : ClientAuthMethod) (moment : Moment) (presented : PresentedCredential)
    (client : Option RegisteredClient) : RequestScript Bool :=
  if method.name = PrivateKeyJwt.name then server.assertions.verifyScript moment presented client
  else finish (verifySecret server.hasher (presented.secret.getD "")
    (client.bind RegisteredClient.secretHash))

/-- `ClientRegistry.authenticate(presented, method)`. -/
def authenticateScript (moment : Moment) (presented : PresentedCredential)
    (method : ClientAuthMethod) : RequestScript RegisteredClient := do
  let client ← ClientRepository.get presented.clientId
  let proved ← server.verifyScript method moment presented client
  finish (raiseIf (proved = false) authenticationFailed)
  match client with
  | some client => pure client
  | none => finish (.error (.python "AssertionError"))

end Server

/-! ## Grants and the pipeline -/

namespace TokenExchangeGrant

/-- `_actor_client(actor_claims)`. -/
def actorClientScript (actorClaims : Dict) : RequestScript RegisteredClient := do
  let stored ← (match Dict.get actorClaims "client_id" with
    | .str clientId => ClientRepository.get clientId
    | _ => pure none : RequestScript (Option RegisteredClient))
  match stored with
  | some client => pure client
  | none => finish (.error exchangeRefused)

/-- `resolve(form, client)`, which looks one client up. -/
def resolveScript (grant : TokenExchangeGrant) (moment : Moment) (form : TokenForm)
    (client : Option RegisteredClient) : RequestScript GrantResult := do
  let client ← finish (assertClient client)
  let audience ← finish (requiredAudience form client)
  let subjectToken ← finish (form.require "subject_token")
  let actorToken ← finish (form.require "actor_token")
  finish (checkTokenTypes form)
  let subjectClaims ← finish (grant.verify moment.subjectVerified subjectToken)
  let actorClaims ← finish (grant.verify moment.actorVerified actorToken)
  let actorClient ← actorClientScript actorClaims
  let actorSubject ← finish (Dict.get actorClaims "sub").text
  finish (checkMayAct subjectClaims actorSubject)
  let tenant ← finish (agreedTenant subjectClaims actorClient)
  let declared ← finish (declaredDepth subjectClaims)
  let newDepth := declared + 1
  finish (raiseIf (newDepth > grant.maximumDepth)
    (.oauth "invalid_grant" "delegation is too deep" 400))
  let subjectScopes ← finish (parseScopeClaim (Dict.get subjectClaims "scope"))
  let act ← finish (nest subjectClaims)
  let actRoot ← finish (root subjectClaims)
  let taskId ← finish (taskOf subjectClaims)
  let maxExpiresAt ← finish (fromTimestamp (Dict.get subjectClaims "exp"))
  pure {
    subject := actorSubject
    clientId := client.clientId
    requestedScopes := requestedScopes form subjectScopes
    ceilings := [subjectScopes.toFinset, actorClient.allowedScopes]
    act := some act
    actRoot := some actRoot
    taskId
    delegationDepth := newDepth
    tenant := some tenant
    audience := some audience
    maxExpiresAt := some maxExpiresAt
    issuedTokenType := some ACCESS_TOKEN_TYPE }

end TokenExchangeGrant

/-- `issue(result)`. -/
def IssuancePipeline.issueScript (pipeline : IssuancePipeline) (moment : Moment)
    (result : GrantResult) : RequestScript IssuedToken := do
  let subject := resolveIdentity result
  finish (checkIdentityIsUsable result)
  let ceilings := resolvePolicy result
  let grantedScopes ← finish (attenuate result.requestedScopes ceilings)
  let scope := joinSpaces grantedScopes
  let claims := pipeline.claims result subject scope
  let minted ← finish (pipeline.minter.mint moment.minted moment.jti claims none result.maxExpiresAt)
  applyKey minted
  let issuance ← finish (pipeline.issuanceRecord result subject scope claims minted)
  IssuedCredentialRepository.record moment.insertFails issuance
  pure {
    accessToken := minted.token
    expiresIn := minted.expiresIn
    scope
    issuedTokenType := result.issuedTokenType }

/-! ## The endpoint -/

namespace Server

variable (server : Server)

/-- `grant.resolve(form, client)`, for an installed grant. -/
def resolveScript (grant : Grant) (moment : Moment) (form : TokenForm)
    (client : Option RegisteredClient) : RequestScript GrantResult :=
  if grant.grantType = GRANT_TYPE then server.exchange.resolveScript moment form client
  else finish (ClientCredentialsGrant.resolve moment form client)

/-- The client of a request, when the grant asks for one. -/
def clientScript (moment : Moment) (grant : Grant) (form : TokenForm) :
    RequestScript (Option RegisteredClient) :=
  if grant.requiresClientAuth then do
    let (presented, method) ← finish (server.authMethods.extract form)
    let client ← server.authenticateScript moment presented method
    pure (some client)
  else pure none

/-- The rest of a request, once its client is known. -/
def answerScript (moment : Moment) (form : TokenForm) (grant : Grant)
    (client : Option RegisteredClient) : RequestScript TokenResponse := do
  let result ← server.resolveScript grant moment form client
  let token ← server.pipeline.issueScript moment result
  pure (respond token)

/-- `get_oauth_token(request)`. -/
def requestScript (moment : Moment) (request : Request) : RequestScript TokenResponse := do
  let form ← finish (readTokenForm server.interpreter request)
  let grantType ← finish form.grantType
  let grant ← finish (server.grants.get grantType)
  let client ← server.clientScript moment grant form
  server.answerScript moment form grant client

end Server

/-! ## Any number of requests in progress -/

/-- A request, with the clock readings and the random values it will draw. -/
structure Job where
  moment : Moment
  request : Request

/-- What happens to the store that is no request. -/
inductive Change
  | administer (clients : ClientTable) (clientKeys : ClientKeyTable)
  | purgeExpired (now : ℚ)

/-- `administer` and `purgeExpired`, as in `Server.step`. -/
def Change.apply : Change → ServerState → ServerState
  | administer clients clientKeys, s => { s with clients, clientKeys }
  | purgeExpired now, s => { s with assertionJtis := s.assertionJtis.purgeExpired now }

namespace Server

/-- The token endpoint under concurrent requests. -/
def workload (server : Server) :
    Workload Statement.Answer Job Change Exc ServerState TokenResponse where
  exec := Statement.exec
  script job := server.requestScript job.moment job.request
  environment := Change.apply

/-- The server with its requests interleaved statement by statement, started
with an empty ledger and any registry. -/
def interleaved (server : Server) :
    Transition.System (Interleaving.Config ServerState (Process Statement.Answer Job Exc TokenResponse))
      (Interleaving.Event Change (Act Job)) :=
  server.workload.program.system
    (fun s => s.signed = [] ∧ s.issuedCredentials.rows = []) .idle

end Server

/-! ## Uninterrupted, a script is the endpoint -/

theorem ClientRepository.reads_get (clientId : String) :
    Reads Statement.exec (ClientRepository.get clientId) fun s => s.clients.get clientId :=
  reads_op fun _ => rfl

theorem ClientKeyRepository.reads_get (clientId kid : String) :
    Reads Statement.exec (ClientKeyRepository.get clientId kid)
      fun s => s.clientKeys.get clientId kid :=
  reads_op fun _ => rfl

theorem AssertionReplayRepository.run_claim (row : ReplayRow) :
    (AssertionReplayRepository.claim row).run Statement.exec = claimAssertion row :=
  run_op _ (Statement.claim row)

theorem IssuedCredentialRepository.run_record (insertFails : Bool) (issuance : IssuanceRecord) :
    (IssuedCredentialRepository.record insertFails issuance).run Statement.exec =
      recordIssuance insertFails issuance :=
  run_op _ (Statement.record insertFails issuance)

theorem run_applyKey (minted : MintedToken) :
    (applyKey minted).run Statement.exec = IssuancePipeline.noteSigned minted :=
  run_op _ (Statement.sign minted)

namespace PrivateKeyJwt

variable (config : PrivateKeyJwt)

theorem reads_decodeScript (now : ℚ) (assertion : String) (client : Option RegisteredClient) :
    Reads Statement.exec (config.decodeScript now assertion client)
      fun s => config.decodeAssertion s.clientKeys now assertion client := by
  refine (reads_finish _).bind fun header => ?_
  cases header.bind acceptableKid with
  | none => exact reads_finish _
  | some kid =>
      cases client with
      | none => exact reads_finish _
      | some client =>
          refine (ClientKeyRepository.reads_get client.clientId kid).bind fun key => ?_
          cases key <;> exact reads_finish _

theorem run_isFirstUseScript (moment : Moment) (row : ReplayRow) :
    (isFirstUseScript moment row).run Statement.exec = isFirstUse moment row := by
  rw [isFirstUseScript, isFirstUse, run_bind, run_finish]
  simp only [AssertionReplayRepository.run_claim]

theorem run_verifyScript (moment : Moment) (presented : PresentedCredential)
    (client : Option RegisteredClient) :
    (config.verifyScript moment presented client).run Statement.exec =
      config.verify moment presented client := by
  funext s
  have hdecode := config.reads_decodeScript moment.assertionDecoded (presented.assertion.getD "") client s
  dsimp only at hdecode
  change ((config.verifyScript moment presented client).run Statement.exec).run s =
    (config.verify moment presented client).run s
  rw [verifyScript, run_bind, EStateM.run_bind, hdecode, verify, run_get_bind, check]
  cases config.decodeAssertion s.clientKeys moment.assertionDecoded (presented.assertion.getD "")
      client with
  | error e => rfl
  | ok claims =>
      cases claims with
      | none => rfl
      | some claims =>
          cases client with
          | none => rfl
          | some client =>
              rw [run_lift_ok, bind_of_ok (x := .ok (some claims)) rfl]
              dsimp only
              cases config.claimsAreAcceptable moment.assertionChecked claims client with
              | error e => rfl
              | ok acceptable =>
                  cases acceptable with
                  | false => rfl
                  | true =>
                      cases config.replayRow claims with
                      | error e => rfl
                      | ok row =>
                          change ((isFirstUseScript moment row).run Statement.exec).run s = _
                          rw [run_isFirstUseScript]
                          rfl

end PrivateKeyJwt

namespace TokenExchangeGrant

theorem reads_actorClientScript (actorClaims : Dict) :
    Reads Statement.exec (actorClientScript actorClaims) fun s => actorClient s.clients actorClaims := by
  refine Reads.bind (f := fun s : ServerState => (match Dict.get actorClaims "client_id" with
    | .str clientId => s.clients.get clientId
    | _ => .ok none : Except Exc (Option RegisteredClient))) ?_ fun stored => ?_
  · cases Dict.get actorClaims "client_id" with
    | str clientId => exact ClientRepository.reads_get clientId
    | _ => exact reads_finish _
  · cases stored <;> exact reads_finish _

theorem reads_resolveScript (grant : TokenExchangeGrant) (moment : Moment) (form : TokenForm)
    (client : Option RegisteredClient) :
    Reads Statement.exec (grant.resolveScript moment form client)
      fun s => grant.resolve s.clients moment form client := by
  -- one call, between steps that read nothing
  refine (reads_finish _).bind fun caller => (reads_finish _).bind fun audience =>
    (reads_finish _).bind fun subjectToken => (reads_finish _).bind fun actorToken =>
      (reads_finish _).bind fun _ => (reads_finish _).bind fun subjectClaims =>
        (reads_finish _).bind fun actorClaims => (reads_actorClientScript actorClaims).bind
          fun actorClient => ?_
  exact (reads_finish _).bind fun actorSubject => (reads_finish _).bind fun _ =>
    (reads_finish _).bind fun tenant => (reads_finish _).bind fun declared =>
      (reads_finish _).bind fun _ => (reads_finish _).bind fun subjectScopes =>
        (reads_finish _).bind fun act => (reads_finish _).bind fun actRoot =>
          (reads_finish _).bind fun taskId => (reads_finish _).bind fun maxExpiresAt => reads_finish _

end TokenExchangeGrant

theorem IssuancePipeline.run_issueScript (pipeline : IssuancePipeline) (moment : Moment)
    (result : GrantResult) :
    (pipeline.issueScript moment result).run Statement.exec = pipeline.issue moment result := by
  simp only [issueScript, issue, run_bind, run_finish, run_applyKey,
    IssuedCredentialRepository.run_record]
  rfl

namespace Server

variable (server : Server)

theorem run_verifyScript {method : ClientAuthMethod} (hmethod : method ∈ server.authMethods)
    (moment : Moment) (presented : PresentedCredential) (client : Option RegisteredClient) :
    (server.verifyScript method moment presented client).run Statement.exec =
      method.verify moment presented client := by
  simp only [authMethods, defaultClientAuthRegistry, Table.mem_iff, List.mem_cons,
    List.not_mem_nil, or_false] at hmethod
  rcases hmethod with rfl | rfl
  · have hname : ClientSecretPost.name ≠ PrivateKeyJwt.name := by decide
    rw [verifyScript, if_neg (by exact hname)]
    rfl
  · have hname : (privateKeyJwt server.assertions).name = PrivateKeyJwt.name := rfl
    rw [verifyScript, if_pos hname, PrivateKeyJwt.run_verifyScript]
    rfl

theorem run_authenticateScript {method : ClientAuthMethod} (hmethod : method ∈ server.authMethods)
    (moment : Moment) (presented : PresentedCredential) :
    (server.authenticateScript moment presented method).run Statement.exec =
      authenticate moment presented method := by
  funext s
  change ((server.authenticateScript moment presented method).run Statement.exec).run s =
    (authenticate moment presented method).run s
  have hget := ClientRepository.reads_get presented.clientId s
  dsimp only at hget
  rw [authenticateScript, run_bind, EStateM.run_bind, hget, authenticate, run_get_bind]
  cases s.clients.get presented.clientId with
  | error e => rfl
  | ok client =>
      simp only [run_lift_ok, run_bind, server.run_verifyScript hmethod, run_finish]
      cases client <;> rfl

theorem reads_resolveScript {grant : Grant} (hgrant : grant ∈ server.grants) (moment : Moment)
    (form : TokenForm) (client : Option RegisteredClient) :
    Reads Statement.exec (server.resolveScript grant moment form client)
      fun s => grant.resolve s.clients moment form client := by
  rcases mem_grants.mp hgrant with rfl | rfl
  · have htype : clientCredentialsGrant.grantType ≠ GRANT_TYPE := by decide
    rw [resolveScript, if_neg htype]
    exact reads_finish _
  · have htype : (tokenExchangeGrant server.exchange).grantType = GRANT_TYPE := rfl
    rw [resolveScript, if_pos htype]
    exact server.exchange.reads_resolveScript moment form client

theorem run_clientScript (moment : Moment) (grant : Grant) (form : TokenForm) :
    (server.clientScript moment grant form).run Statement.exec =
      server.authenticatedClient moment grant form := by
  unfold clientScript authenticatedClient
  split
  · cases hextract : server.authMethods.extract form with
    | error e => rfl
    | ok found =>
        rw [finish_ok_bind]
        dsimp only
        rw [run_bind, server.run_authenticateScript (ClientAuthRegistry.extract_eq_ok hextract).1]
        rfl
  · rfl

theorem run_answerScript {grant : Grant} (hgrant : grant ∈ server.grants) (moment : Moment)
    (form : TokenForm) (client : Option RegisteredClient) :
    (server.answerScript moment form grant client).run Statement.exec =
      server.answer moment form grant client := by
  funext s
  change ((server.answerScript moment form grant client).run Statement.exec).run s =
    (server.answer moment form grant client).run s
  have hresolve := server.reads_resolveScript hgrant moment form client s
  dsimp only at hresolve
  rw [answerScript, run_bind, EStateM.run_bind, hresolve, answer, run_get_bind]
  cases grant.resolve s.clients moment form client with
  | error e => rfl
  | ok result =>
      simp only [run_lift_ok, run_bind, IssuancePipeline.run_issueScript]
      rfl

/-- **Run without interruption, the script of a request is the endpoint.** -/
theorem run_requestScript (moment : Moment) (request : Request) :
    (server.requestScript moment request).run Statement.exec =
      server.getOauthToken moment request := by
  simp only [requestScript, getOauthToken, run_bind, run_finish, run_clientScript]
  refine lift_bind_congr fun form _ => lift_bind_congr fun grantType _ =>
    lift_bind_congr fun grant hgrant => ?_
  simp only [server.run_answerScript (GrantRegistry.get_eq_ok.mp hgrant).1]

end Server

end AgentOAuth
