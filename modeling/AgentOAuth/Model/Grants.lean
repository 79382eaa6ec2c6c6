import AgentOAuth.Model.Delegation
import AgentOAuth.Model.Forms
import AgentOAuth.Model.Scopes
import AgentOAuth.Model.Storage
import AgentOAuth.Model.Tokens

/-!
# Grants

`src/grants/`.  A grant decides where the authority of a new token comes from
and stops there: `resolve` reads the client table and the clock, and writes
nothing.

`TokenExchangeGrant.resolve_eq_ok` says once what an exchange that resolves has
checked (`Admitted`) and what it resolves to (`Exchange.result`).
-/

namespace AgentOAuth

open Effect

/-- Everything step 1 of the pipeline learned. -/
structure GrantResult where
  subject : String
  clientId : String
  requestedScopes : List String
  ceilings : List (Finset String)
  principalStatus : ClientStatus := .active
  audience : Option String := none
  issuedTokenType : Option String := none
  tenant : Option String := none
  maxExpiresAt : Option ℚ := none
  act : Option Dict := none
  actRoot : Option String := none
  taskId : Option String := none
  delegationDepth : ℤ := 0
  extraClaims : Dict := []

/-- One door into the shared issuance room. -/
structure Grant where
  grantType : String
  requiresClientAuth : Bool
  resolve : ClientTable → Moment → TokenForm → Option RegisteredClient → Except Exc GrantResult

/-- The installed grants, with different names. -/
abbrev GrantRegistry := Table Grant.grantType

/-- The refusal of a grant type that nothing is registered under. -/
def unsupportedGrantType : Exc := .oauth "unsupported_grant_type" "grant type is not supported" 400

/-- `GrantRegistry.get(grant_type)`. -/
def GrantRegistry.get (grants : GrantRegistry) (grantType : String) : Except Exc Grant :=
  match grants.find grantType with
  | some grant => .ok grant
  | none => .error unsupportedGrantType

theorem GrantRegistry.get_eq_ok {grants : GrantRegistry} {grantType : String} {grant : Grant} :
    grants.get grantType = .ok grant ↔ grant ∈ grants ∧ grant.grantType = grantType := by
  rw [← Table.find_eq_some, get]
  cases grants.find grantType <;> simp

/-- `assert client is not None`. -/
def assertClient : Option RegisteredClient → Except Exc RegisteredClient
  | some client => .ok client
  | none => .error (.python "AssertionError")

@[simp] theorem assertClient_eq_ok {client : Option RegisteredClient} {stored : RegisteredClient} :
    assertClient client = .ok stored ↔ client = some stored := by
  cases client <;> simp [assertClient]

/-! ## `client_credentials` -/

namespace ClientCredentialsGrant

/-- The grant type it is registered under. -/
def grantType : String := "client_credentials"

/-- What the client's request resolves to. -/
def result (moment : Moment) (form : TokenForm) (client : RegisteredClient) : GrantResult where
  subject := client.subject
  clientId := client.clientId
  requestedScopes := parseScope (form.get "scope")
  principalStatus := client.status
  taskId := some moment.taskId
  tenant := some client.tenant
  ceilings := [client.allowedScopes]

/-- `resolve(form, client)`. -/
def resolve (moment : Moment) (form : TokenForm) (client : Option RegisteredClient) :
    Except Exc GrantResult := do
  let client ← assertClient client
  pure (result moment form client)

theorem resolve_eq_ok {moment : Moment} {form : TokenForm} {client : RegisteredClient}
    {result' : GrantResult} :
    resolve moment form (some client) = .ok result' ↔ result' = result moment form client := by
  simp only [resolve, bind_eq_ok, assertClient_eq_ok, Option.some.injEq, pure_eq_ok]
  constructor
  · rintro ⟨_, rfl, rfl⟩
    rfl
  · rintro rfl
    exact ⟨client, rfl, rfl⟩

end ClientCredentialsGrant

/-- `ClientCredentialsGrant()`. -/
def clientCredentialsGrant : Grant where
  grantType := ClientCredentialsGrant.grantType
  requiresClientAuth := true
  resolve _ := ClientCredentialsGrant.resolve

/-! ## Token exchange -/

/-- The grant type of token exchange. -/
def GRANT_TYPE : String := "urn:ietf:params:oauth:grant-type:token-exchange"

/-- The type of the tokens that are exchanged and of those that are issued. -/
def ACCESS_TOKEN_TYPE : String := "urn:ietf:params:oauth:token-type:access_token"

/-- The types a request may name. -/
def SUPPORTED_TOKEN_TYPES : List String := [ACCESS_TOKEN_TYPE]

/-- The one refusal of the two tokens, whatever was wrong with them. -/
def exchangeRefused : Exc := .oauth "invalid_grant" "token exchange was refused" 400

/-- `TokenExchangeGrant(verifier, clients, maximum_depth=…)`; the registry is an
argument of `resolve`. -/
structure TokenExchangeGrant where
  verifier : TokenVerifier
  maximumDepth : ℤ

namespace TokenExchangeGrant

/-- `_verify(token, audience)`: the audience plays no part. -/
def verify (grant : TokenExchangeGrant) (now : ℚ) (token : String) : Except Exc Dict :=
  match grant.verifier.verifyAnyAudience now token with
  | .error (.token _) => .error exchangeRefused
  | outcome => outcome

/-- `_required_audience(form, client)`: only what the caller is registered for. -/
def requiredAudience (form : TokenForm) (client : RegisteredClient) : Except Exc String := do
  let audience ← form.require "audience"
  raiseIf (audience ∉ client.allowedAudiences)
    (.oauth "invalid_target" "audience is not permitted" 400)
  pure audience

/-- One round of the loop of `_check_token_types`. -/
def checkTokenType (form : TokenForm) (name : String) : Except Exc Unit := do
  let value ← form.require name
  raiseIf (value ∉ SUPPORTED_TOKEN_TYPES) (.oauth "invalid_request" s!"unsupported {name}" 400)

/-- `_check_token_types(form)`: the two types are required, the requested one is not. -/
def checkTokenTypes (form : TokenForm) : Except Exc Unit := do
  checkTokenType form "subject_token_type"
  checkTokenType form "actor_token_type"
  match form.get "requested_token_type" with
  | none => pure ()
  | some requested =>
      raiseIf (requested ∉ SUPPORTED_TOKEN_TYPES)
        (.oauth "invalid_request" "unsupported requested_token_type" 400)

/-- `_actor_client(actor_claims)`: the registration that the `client_id` of the
actor token names. -/
def actorClient (clients : ClientTable) (actorClaims : Dict) : Except Exc RegisteredClient := do
  let stored ← (match Dict.get actorClaims "client_id" with
    | .str clientId => clients.get clientId
    | _ => .ok none : Except Exc (Option RegisteredClient))
  match stored with
  | some client => pure client
  | none => .error exchangeRefused

/-- `_agreed_tenant(subject_claims, actor_client)`: a subject token without a tenant
takes that of the actor. -/
def agreedTenant (subjectClaims : Dict) (actorClient : RegisteredClient) : Except Exc String := do
  let tenant ← tenantOf subjectClaims
  raiseIf (tenant ≠ none ∧ tenant ≠ some actorClient.tenant) exchangeRefused
  pure (tenant.getD actorClient.tenant)

/-- `_check_may_act(subject_claims, actor_claims)`. -/
def checkMayAct (subjectClaims : Dict) (actorSubject : String) : Except Exc Unit := do
  let permitted ← mayActPermits subjectClaims actorSubject
  raiseIf (permitted = false) exchangeRefused

/-- `parse_scope(form.get("scope")) or tuple(sorted(subject_scopes))`. -/
def requestedScopes (form : TokenForm) (subjectScopes : List String) : List String :=
  let asked := parseScope (form.get "scope")
  if asked = [] then sorted subjectScopes else asked

/-- `resolve(form, client)`: the request, then the two tokens, the actor and its
registration, and the depth last. -/
def resolve (grant : TokenExchangeGrant) (clients : ClientTable) (moment : Moment)
    (form : TokenForm) (client : Option RegisteredClient) : Except Exc GrantResult := do
  let client ← assertClient client
  let audience ← requiredAudience form client
  let subjectToken ← form.require "subject_token"
  let actorToken ← form.require "actor_token"
  checkTokenTypes form
  -- both tokens are verified before any policy runs
  let subjectClaims ← grant.verify moment.subjectVerified subjectToken
  let actorClaims ← grant.verify moment.actorVerified actorToken
  let actorClient ← actorClient clients actorClaims
  let actorSubject ← (Dict.get actorClaims "sub").text
  checkMayAct subjectClaims actorSubject
  let tenant ← agreedTenant subjectClaims actorClient
  -- checked before anything is signed
  let declared ← declaredDepth subjectClaims
  let newDepth := declared + 1
  raiseIf (newDepth > grant.maximumDepth) (.oauth "invalid_grant" "delegation is too deep" 400)
  let subjectScopes ← parseScopeClaim (Dict.get subjectClaims "scope")
  let act ← nest subjectClaims
  let actRoot ← root subjectClaims
  let taskId ← taskOf subjectClaims
  let maxExpiresAt ← fromTimestamp (Dict.get subjectClaims "exp")
  pure {
    subject := actorSubject
    clientId := client.clientId
    requestedScopes := requestedScopes form subjectScopes
    ceilings := [subjectScopes.toFinset, actorClient.allowedScopes]
    act := some act
    actRoot := some actRoot
    taskId
    delegationDepth := newDepth
    tenant := some tenant
    audience := some audience
    maxExpiresAt := some maxExpiresAt
    issuedTokenType := some ACCESS_TOKEN_TYPE }

/-! ### What an exchange that resolves has checked -/

/-- What `resolve` reads on its way. -/
structure Exchange where
  audience : String
  subjectToken : String
  actorToken : String
  subjectClaims : Dict
  actorClaims : Dict
  actorClient : RegisteredClient
  actorSubject : String
  tenant : String
  declared : ℤ
  subjectScopes : List String
  act : Dict
  actRoot : String
  taskId : Option String
  maxExpiresAt : ℚ

/-- What the caller's exchange resolves to. -/
def Exchange.result (x : Exchange) (form : TokenForm) (caller : RegisteredClient) : GrantResult where
  subject := x.actorSubject
  clientId := caller.clientId
  requestedScopes := requestedScopes form x.subjectScopes
  ceilings := [x.subjectScopes.toFinset, x.actorClient.allowedScopes]
  act := some x.act
  actRoot := some x.actRoot
  taskId := x.taskId
  delegationDepth := x.declared + 1
  tenant := some x.tenant
  audience := some x.audience
  maxExpiresAt := some x.maxExpiresAt
  issuedTokenType := some ACCESS_TOKEN_TYPE

/-- Every check of `resolve` passes. -/
structure Admitted (grant : TokenExchangeGrant) (clients : ClientTable) (moment : Moment)
    (form : TokenForm) (caller : RegisteredClient) (x : Exchange) : Prop where
  audience : requiredAudience form caller = .ok x.audience
  subjectToken : form.require "subject_token" = .ok x.subjectToken
  actorToken : form.require "actor_token" = .ok x.actorToken
  tokenTypes : checkTokenTypes form = .ok ()
  subjectClaims : grant.verify moment.subjectVerified x.subjectToken = .ok x.subjectClaims
  actorClaims : grant.verify moment.actorVerified x.actorToken = .ok x.actorClaims
  actorClient : actorClient clients x.actorClaims = .ok x.actorClient
  actorSubject : Dict.get x.actorClaims "sub" = .str x.actorSubject
  mayAct : mayActPermits x.subjectClaims x.actorSubject = .ok true
  tenant : agreedTenant x.subjectClaims x.actorClient = .ok x.tenant
  declared : declaredDepth x.subjectClaims = .ok x.declared
  depth_le : x.declared + 1 ≤ grant.maximumDepth
  subjectScopes : parseScopeClaim (Dict.get x.subjectClaims "scope") = .ok x.subjectScopes
  act : nest x.subjectClaims = .ok x.act
  actRoot : root x.subjectClaims = .ok x.actRoot
  taskId : taskOf x.subjectClaims = .ok x.taskId
  maxExpiresAt : fromTimestamp (Dict.get x.subjectClaims "exp") = .ok x.maxExpiresAt

variable {grant : TokenExchangeGrant} {clients : ClientTable} {moment : Moment}
  {form : TokenForm} {client : Option RegisteredClient} {caller : RegisteredClient} {x : Exchange}

theorem verify_eq_ok {now : ℚ} {token : String} {claims : Dict} :
    grant.verify now token = .ok claims ↔ grant.verifier.verifyAnyAudience now token = .ok claims := by
  unfold verify
  split <;> simp_all

theorem checkMayAct_eq_ok {subjectClaims : Dict} {actorSubject : String} {u : Unit} :
    checkMayAct subjectClaims actorSubject = .ok u ↔
      mayActPermits subjectClaims actorSubject = .ok true := by
  simp only [checkMayAct, bind_eq_ok, raiseIf_eq_ok, Bool.not_eq_false]
  constructor
  · rintro ⟨_, hpermits, rfl⟩
    exact hpermits
  · exact fun hpermits => ⟨true, hpermits, rfl⟩

/-- The agreed tenant is that of the actor's registration, whatever the subject
token says; the subject token may only say the same. -/
theorem agreedTenant_eq_ok {subjectClaims : Dict} {actorClient : RegisteredClient}
    {tenant : String} :
    agreedTenant subjectClaims actorClient = .ok tenant ↔ tenant = actorClient.tenant ∧
      (tenantOf subjectClaims = .ok none ∨ tenantOf subjectClaims = .ok (some tenant)) := by
  simp only [agreedTenant, bind_eq_ok, raiseIf_eq_ok, pure_eq_ok]
  constructor
  · rintro ⟨claimed, hclaimed, _, hagree, rfl⟩
    cases claimed with
    | none => exact ⟨rfl, .inl hclaimed⟩
    | some claimed =>
        obtain rfl : claimed = actorClient.tenant := by simpa using hagree
        exact ⟨rfl, .inr hclaimed⟩
  · rintro ⟨rfl, hclaimed | hclaimed⟩
    · exact ⟨none, hclaimed, (), by simp, rfl⟩
    · exact ⟨some actorClient.tenant, hclaimed, (), by simp, rfl⟩

/-- `resolve` returns exactly when every check passes. -/
theorem resolve_eq_ok {result : GrantResult} :
    grant.resolve clients moment form client = .ok result ↔
      ∃ caller x, client = some caller ∧ Admitted grant clients moment form caller x ∧
        result = x.result form caller := by
  simp only [resolve, bind_eq_ok, pure_eq_ok, raiseIf_eq_ok, assertClient_eq_ok, gt_iff_lt, not_lt,
    checkMayAct_eq_ok, Value.text_eq_ok]
  constructor
  · rintro ⟨caller, rfl, audience, haud, subjectToken, hsubject, actorToken, hactor, _, htypes,
      subjectClaims, hsubjectClaims, actorClaims, hactorClaims, actorClient, hclient,
      actorSubject, hsub, _, hmay, tenant, htenant, declared, hdeclared, _, hdepth,
      subjectScopes, hscopes, act, hact, actRoot, hroot, taskId, htask, maxExpiresAt, hexp, rfl⟩
    exact ⟨caller, ⟨audience, subjectToken, actorToken, subjectClaims, actorClaims, actorClient,
      actorSubject, tenant, declared, subjectScopes, act, actRoot, taskId, maxExpiresAt⟩, rfl,
      ⟨haud, hsubject, hactor, htypes, hsubjectClaims, hactorClaims, hclient, hsub, hmay, htenant,
        hdeclared, hdepth, hscopes, hact, hroot, htask, hexp⟩, rfl⟩
  · rintro ⟨caller, x, rfl, hx, rfl⟩
    exact ⟨caller, rfl, x.audience, hx.audience, x.subjectToken, hx.subjectToken, x.actorToken,
      hx.actorToken, (), hx.tokenTypes, x.subjectClaims, hx.subjectClaims, x.actorClaims,
      hx.actorClaims, x.actorClient, hx.actorClient, x.actorSubject, hx.actorSubject, (), hx.mayAct,
      x.tenant, hx.tenant, x.declared, hx.declared, (), hx.depth_le, x.subjectScopes,
      hx.subjectScopes, x.act, hx.act, x.actRoot, hx.actRoot, x.taskId, hx.taskId, x.maxExpiresAt,
      hx.maxExpiresAt, rfl⟩

/-! ### How an exchange is refused -/

/-- The errors `resolve` ends in, by their `error`; `none` for exceptions that
are no `OAuthError`. -/
def Refusal (e : Exc) : Prop :=
  e.error? ∈ [none, some "invalid_request", some "invalid_target", some "invalid_grant"]

theorem invalidRequest_require (name : String) :
    Raises (fun e => e.error? = some "invalid_request") (form.require name) := by
  intro e he
  rw [TokenForm.require_eq_error he]
  rfl

theorem invalidRequest_checkTokenTypes (form : TokenForm) :
    Raises (fun e => e.error? = some "invalid_request") (checkTokenTypes form) := by
  have hone : ∀ name, Raises (fun e => e.error? = some "invalid_request") (checkTokenType form name) :=
    fun name => (invalidRequest_require name).bind fun _ => raises_raiseIf rfl
  refine (hone _).bind fun _ => (hone _).bind fun _ => ?_
  split
  · exact raises_pure _
  · exact raises_raiseIf rfl

theorem raises_of_invalidRequest {α : Type} {x : Except Exc α}
    (h : Raises (fun e => e.error? = some "invalid_request") x) : Raises Refusal x :=
  h.mono fun e he => by simp [Refusal, he]

/-- What raises no `OAuthError`. -/
theorem raises_of_python {α : Type} {x : Except Exc α} (h : Raises (fun e => e.error? = none) x) :
    Raises Refusal x :=
  h.mono fun e he => by simp [Refusal, he]

theorem raises_verify (now : ℚ) (token : String) : Raises Refusal (grant.verify now token) := by
  intro e he
  unfold verify at he
  split at he
  · obtain rfl := Except.error.inj he
    simp [exchangeRefused, Refusal]
  · simp [Refusal, TokenVerifier.raises_verifyToken e he]

/-- What reads a delegation chain raises `MalformedChainError` only. -/
theorem raises_of_malformed {α : Type} {x : Except Exc α} (h : Raises Exc.IsMalformedChain x) :
    Raises Refusal x :=
  h.mono fun e he => by simp [Refusal, he.error?]

theorem raises_actorClient (actorClaims : Dict) :
    Raises Refusal (actorClient clients actorClaims) := by
  unfold actorClient
  refine Raises.bind ?_ fun stored => ?_
  · split
    · exact (raises_textParameter (by simp [Refusal]) _).bind fun _ => raises_pure _
    · exact raises_ok _
  · cases stored with
    | none => exact raises_error (by simp [exchangeRefused, Refusal])
    | some client => exact raises_pure _

theorem raises_checkMayAct (subjectClaims : Dict) (actorSubject : String) :
    Raises Refusal (checkMayAct subjectClaims actorSubject) :=
  (raises_of_malformed (malformed_mayActPermits _ _)).bind fun _ =>
    raises_raiseIf (by simp [exchangeRefused, Refusal])

theorem raises_parseScopeClaim (v : Value) : Raises Refusal (parseScopeClaim v) := by
  cases v <;> simp [parseScopeClaim, Raises, Refusal]

/-- `resolve` never refuses for the scope; the pipeline does. -/
theorem raises_resolve : Raises Refusal (grant.resolve clients moment form client) := by
  unfold resolve
  refine Raises.bind ?_ fun caller => ?_
  · cases client <;> simp [assertClient, Raises, Refusal]
  have hrequire : ∀ name, Raises Refusal (form.require name) := fun name =>
    raises_of_invalidRequest (invalidRequest_require name)
  refine ((hrequire _).bind fun _ => (raises_raiseIf (by simp [Refusal])).bind
    fun _ => raises_pure _).bind fun audience => ?_
  refine (hrequire _).bind fun subjectToken => (hrequire _).bind fun actorToken => ?_
  refine (raises_of_invalidRequest (invalidRequest_checkTokenTypes _)).bind fun _ => ?_
  refine (raises_verify _ _).bind fun subjectClaims => (raises_verify _ _).bind fun actorClaims => ?_
  refine (raises_actorClient _).bind fun actorClient => (raises_of_python (Value.python_text _)).bind
    fun actorSubject => ?_
  refine (raises_checkMayAct _ _).bind fun _ => Raises.bind ?_ fun tenant => ?_
  · exact (raises_of_malformed (malformed_optionalText _ _)).bind fun _ =>
      (raises_raiseIf (by simp [exchangeRefused, Refusal])).bind fun _ => raises_pure _
  refine (raises_of_malformed (malformed_declaredDepth _)).bind fun declared =>
    (raises_raiseIf (by simp [Refusal])).bind fun _ => ?_
  refine (raises_parseScopeClaim _).bind fun _ => (raises_of_malformed (malformed_nest _)).bind
    fun _ => (raises_of_malformed (malformed_root _)).bind fun _ =>
      (raises_of_malformed (malformed_optionalText _ _)).bind fun _ =>
        (raises_of_python (python_fromTimestamp _)).bind fun _ => raises_pure _

end TokenExchangeGrant

/-- `TokenExchangeGrant(…)`. -/
def tokenExchangeGrant (grant : TokenExchangeGrant) : Grant where
  grantType := GRANT_TYPE
  requiresClientAuth := true
  resolve := grant.resolve

/-- `default_grant_registry(…)`. -/
def defaultGrantRegistry (exchange : TokenExchangeGrant) : GrantRegistry where
  rows := [clientCredentialsGrant, tokenExchangeGrant exchange]
  nodup := by
    simp [clientCredentialsGrant, tokenExchangeGrant, ClientCredentialsGrant.grantType, GRANT_TYPE]

end AgentOAuth
