import AgentOAuth.Proofs.Entitlement
import AgentOAuth.Proofs.IdealTokens
import AgentOAuth.Proofs.ReadBack
import AgentOAuth.Proofs.Reports

/-!
# What can be obtained

An exchange has more than a dozen ways to be refused.  Clients that are entitled
to scopes can obtain a token for them nevertheless (`exists_obtained`): all
happens within the first second, so that no token expires on the way.  The last
of the clients logs in; each one before it logs in and has the token of those
after it handed on by the broker.

With `entitled_of_holds` this says what the whole system grants
(`obtainable_iff`).
-/

namespace AgentOAuth

open Effect Provenance Transition

namespace Server

variable {server : Server} {clients : ClientTable} {agents : List RegisteredClient}
  {client : RegisteredClient} {scopes : Finset String} {w : World} {s : ServerState}
  {moment : Moment} {request : Request} {x : Success} {y : TokenExchangeGrant.Exchange}
  {a subject actor : Signed} {d : Derivation Signed}

/-! ## Requests that go through -/

/-- The fields show a secret of the client, and ask for a grant. -/
structure PostsSecret (server : Server) (client : RegisteredClient) (grant : Grant)
    (fields : List (String × String)) : Prop where
  nodup : (fields.map Prod.fst).Nodup
  grant_mem : grant ∈ server.grants
  grantType : fields.lookup "grant_type" = some grant.grantType
  clientId : fields.lookup "client_id" = some client.clientId
  secret : ∃ secret, fields.lookup "client_secret" = some secret ∧
    SecretOpens server.hasher client secret
  assertion : fields.lookup "client_assertion" = none
  assertionType : fields.lookup "client_assertion_type" = none

theorem grantType_ne {grant : Grant} (h : grant ∈ server.grants) : grant.grantType ≠ "" := by
  rcases mem_grants.mp h with rfl | rfl
  · exact show ClientCredentialsGrant.grantType ≠ "" by decide
  · exact show GRANT_TYPE ≠ "" by decide

/-- A client that shows a secret is authenticated. -/
theorem PostsSecret.authenticated {grant : Grant} {fields : List (String × String)}
    (h : server.PostsSecret client grant fields)
    (hclient : s.clients.get client.clientId = .ok (some client)) (moment : Moment) :
    ∃ login, server.Authenticated moment (requestOf fields) s login ∧ login.caller = client ∧
      login.grant = grant ∧ (∀ name, login.form.get name = fields.lookup name) ∧
        server.ShowsSecret (requestOf fields) := by
  obtain ⟨secret, hsecret, hne, hash, hhash, hverify⟩ := h.secret
  obtain ⟨form, hget, hform⟩ :=
    readTokenForm_get server.interpreter (formPost_requestOf fields) h.nodup
  -- the form has a grant type, so it is read
  rw [h.grantType, Option.getD_some, if_neg (grantType_ne h.grant_mem)] at hform
  have hextract : server.authMethods.extract form =
      .ok ({ clientId := client.clientId, secret := some secret, method := ClientSecretPost.name },
        clientSecretPost server.hasher) :=
    extract_of_secret ((hget _).trans h.clientId) ((hget _).trans hsecret) client.clientId_ne hne
      ((hget _).trans h.assertion) ((hget _).trans h.assertionType)
  have hauth : (authenticate moment
      { clientId := client.clientId, secret := some secret, method := ClientSecretPost.name }
      (clientSecretPost server.hasher)).run s = .ok client s :=
    authenticate_eq_ok.mpr ⟨hclient, ClientSecretPost.verify_eq_ok_true.mpr
      ⟨rfl, client, hash, rfl, hhash, hverify⟩⟩
  refine ⟨⟨form, grant, _, _, client, s⟩, ⟨hform, ?_, h.grant_mem, hextract, hauth⟩, rfl, rfl, hget,
    ?_⟩
  · rw [hget, h.grantType]
  · intro form' found hform' hfound
    rw [hform, Except.ok.injEq] at hform'
    obtain rfl := hform'
    rw [hextract, Except.ok.injEq] at hfound
    rw [← hfound]
    rfl

/-- There is always a `jti` that is not in the ledger. -/
theorem exists_fresh_jti (ledger : IssuedCredentialTable) : ∃ jti, ledger.find jti = none := by
  obtain ⟨jti, hjti⟩ := Infinite.exists_notMem_finset (ledger.rows.map IssuanceRecord.jti).toFinset
  refine ⟨jti, Table.find_eq_none.mpr fun row hrow heq => hjti ?_⟩
  rw [← heq]
  exact List.mem_toFinset.mpr (List.mem_map_of_mem hrow)

/-! ## What is signed can be signed, and verifies -/

theorem one_le_accessTokenTtlSeconds : (1 : ℚ) ≤ server.settings.accessTokenTtlSeconds :=
  Int.cast_one_le_of_pos server.settings.accessTokenTtlSeconds_mem.1

/-- The token is verified in the second it is from, and has its whole life left. -/
structure Fresh (server : Server) (a : Signed) : Prop where
  named : a.token ≠ ""
  verifies : server.exchange.verify 0 a.token = .ok a.claims
  exp : Dict.get a.claims "exp" = .int server.settings.accessTokenTtlSeconds
  act : (Dict.get a.claims ACT_CLAIM).isJson = true

/-- The pipeline finds nothing that keeps it from signing. -/
theorem exists_encoded (hsigns : server.jwt.Signs) (moment : Moment) {result : GrantResult}
    (hextra : result.extraClaims = []) (scope : String)
    (hact : ∀ act, result.act = some act → Value.entriesJson act = true) :
    ∃ token, server.minter.encode (server.minter.fullClaims moment.minted moment.jti
      (server.pipeline.claims result result.subject scope) none result.maxExpiresAt) = .ok token ∧
        token ≠ "" := by
  refine hsigns _ _ server.signingKey.kid server.settings.issuer ?_
    (server.minter.entriesJson_fullClaims _ _ _
      (server.pipeline.entriesJson_claims hextra result.subject scope hact))
  rw [TokenMinter.fullClaims, get_update_of_notMem]
  · rfl
  · exact IssuancePipeline.owned_notMem_claims hextra _ _ "iss" (by decide)

/-- A token that is issued in the first second is verified in it. -/
theorem Succeeds.fresh (hjwt : server.jwt.RoundTrips) (hsigns : server.jwt.Signs)
    (h : server.Succeeds moment request s x) (hmoment : moment.minted = 0)
    (hexp : Dict.get x.payload "exp" = .int server.settings.accessTokenTtlSeconds)
    (hact : ∀ act, x.result.act = some act → Value.entriesJson act = true) :
    server.Fresh x.token := by
  have hsigned := h.signedFrom
  refine ⟨?_, ?_, hexp, ?_⟩
  · obtain ⟨token, htoken, hne⟩ :=
      exists_encoded hsigns moment h.extraClaims_eq x.issuance.scope hact
    -- `encode` is a function: the token is the one that `Signs` promises
    obtain ⟨_, _, token', htoken', hminted⟩ := TokenMinter.mint_eq_ok.mp h.prepared.minted
    have hsame : token' = token := Except.ok.inj (htoken'.symm.trans htoken)
    change x.issuance.minted.token ≠ ""
    rw [hminted, hsame]
    exact hne
  · have hbegun : (x.token.iat : ℚ) ≤ 0 := by
      rw [Signed.iat_eq hsigned.iat, hmoment, Int.floor_zero, Int.cast_zero]
    have halive : (0 : ℚ) < x.token.exp := by
      rw [Signed.exp_eq hexp]
      exact zero_lt_one.trans_le one_le_accessTokenTtlSeconds
    rw [TokenExchangeGrant.verify_eq_ok]
    refine (h.verifyToken_iff hjwt).mpr ⟨h.inOrder_iff.mpr ⟨hbegun, halive, ?_⟩, rfl⟩
    intro audience hexpected
    cases hexpected
  · rw [Success.claims_token, hsigned.act]
    cases hresult : x.result.act with
    | none => rfl
    | some act => exact hact act hresult

/-! ## What is granted -/

/-- A grant that resolves is answered when what it resolves to can be issued. -/
theorem Authenticated.exists_succeeds {login : Login} {result : GrantResult}
    {y : IssuancePipeline.Issuance} (h : server.Authenticated moment request s login)
    (hresolve : login.grant.resolve login.state.clients moment login.form (some login.caller) =
      .ok result)
    (hprepared : server.pipeline.Prepared moment result y) (hextra : result.extraClaims = [])
    (hinserts : moment.insertFails = false) (hfresh : s.issuedCredentials.find moment.jti = none) :
    ∃ x, server.Succeeds moment request s x ∧ x.login = login ∧ x.result = result := by
  have hfree : login.state.issuedCredentials.find y.row.jti = none := by
    rw [hprepared.row_eq hextra, h.keeps.2.2.1]
    exact hfresh
  cases hinsert : login.state.issuedCredentials.insert y.row with
  | none => exact absurd hfree (Table.insert_eq_none.mp hinsert)
  | some written =>
      exact ⟨⟨login, result, y, written⟩,
        ⟨h, hresolve, hprepared, IssuedCredentialTable.record_eq_ok.mpr ⟨hinserts, hinsert⟩⟩, rfl, rfl⟩

/-- Asking for a set of scopes, all of which every ceiling has. -/
theorem allowedBy_toList {ceilings : List (Finset String)}
    (h : ∀ ceiling ∈ ceilings, scopes ⊆ ceiling) :
    allowedBy ceilings scopes.toList = scopes.toList := by
  rw [allowedBy, List.filter_eq_self]
  intro scope hscope
  rw [List.all_eq_true]
  exact fun ceiling hceiling => decide_eq_true (h ceiling hceiling (Finset.mem_toList.mp hscope))

theorem parseScope_toList (hwords : ∀ scope ∈ scopes, IsWord scope) :
    parseScope (some (joinSpaces scopes.toList)) = scopes.toList :=
  parseScope_joinSpaces (fun scope hscope => hwords scope (Finset.mem_toList.mp hscope))
    scopes.nodup_toList

/-! ## Logging in -/

/-- In the first second a login leaves a token its whole life. -/
theorem expiresAt_login : server.minter.expiresAt (0 : ℕ) none none =
    server.settings.accessTokenTtlSeconds := by
  rw [TokenMinter.expiresAt, Option.getD_none, Nat.cast_zero, zero_add]
  rfl

/-- So does a hop whose subject token has its whole life left. -/
theorem expiresAt_hop :
    server.minter.expiresAt (0 : ℕ) none (some (server.settings.accessTokenTtlSeconds : ℚ)) =
      server.settings.accessTokenTtlSeconds := by
  rw [TokenMinter.expiresAt, Option.getD_none, Nat.cast_zero, zero_add]
  exact min_self _

/-- In a run under this registry, `d` was issued for `scopes` and names the clients. -/
structure Obtained (server : Server) (clients : ClientTable) (agents : List RegisteredClient)
    (scopes : Finset String) (w : World) (d : Derivation Signed) : Prop where
  reachable : (server.system.restrict (server.Settled clients)).Reachable w
  clients_eq : w.state.clients = clients
  issued : d ∈ w.issued
  names : d.vias.map Signed.subject ++ [d.source.subject] = agents.map RegisteredClient.subject
  fresh : server.Fresh d.value
  scopes_eq : d.value.scopes = scopes
  tenant : ∀ client ∈ agents, Dict.get d.value.claims TENANT_CLAIM = .str client.tenant

theorem reachable_request {w' : World}
    (hw : (server.system.restrict (server.Settled w.state.clients)).Reachable w)
    (hshows : server.ShowsSecret request)
    (hstep : server.step w (.request moment request) = some w') :
    (server.system.restrict (server.Settled w.state.clients)).Reachable w' :=
  hw.step (.request moment request) (System.restrict_step_eq_some.mpr ⟨⟨rfl, hshows⟩, hstep⟩)

theorem reachable_exchange {w' : World} {subject : Derivation Signed}
    (hw : (server.system.restrict (server.Settled w.state.clients)).Reachable w)
    (hshows : server.ShowsSecret request)
    (hstep : server.step w (.exchange moment request subject (.root actor)) = some w') :
    (server.system.restrict (server.Settled w.state.clients)).Reachable w' :=
  hw.step (.exchange moment request subject (.root actor))
    (System.restrict_step_eq_some.mpr ⟨⟨rfl, hshows, actor, rfl⟩, hstep⟩)

/-- A grant that resolves in the first second, and is asked for scopes that every
ceiling has, is answered with a fresh token for just these. -/
theorem Authenticated.exists_granted (hjwt : server.jwt.RoundTrips) (hsigns : server.jwt.Signs)
    {login : Login} {result : GrantResult} {jti : String}
    (h : server.Authenticated (Example.momentAt 0 jti) request s login)
    (hresolve : login.grant.resolve login.state.clients (Example.momentAt 0 jti) login.form
      (some login.caller) = .ok result)
    (hextra : result.extraClaims = []) (hactive : result.principalStatus = .active)
    (hasked : result.requestedScopes = scopes.toList)
    (hceilings : ∀ ceiling ∈ result.ceilings, scopes ⊆ ceiling)
    (hexpires : server.minter.expiresAt (0 : ℕ) none result.maxExpiresAt =
      server.settings.accessTokenTtlSeconds)
    (hact : ∀ act, result.act = some act → Value.entriesJson act = true)
    (hjti : s.issuedCredentials.find jti = none) :
    ∃ x, server.Succeeds (Example.momentAt 0 jti) request s x ∧ x.login = login ∧
      x.result = result ∧ server.Fresh x.token ∧ x.token.scopes = scopes := by
  have hleft : allowedBy result.ceilings result.requestedScopes = scopes.toList := by
    rw [hasked]
    exact allowedBy_toList hceilings
  -- asking for no scope is not refused
  have hnonempty : result.requestedScopes = [] ∨
      allowedBy result.ceilings result.requestedScopes ≠ [] := by
    rw [hleft, hasked]
    exact em _
  have halive : (1 : ℚ) ≤ server.minter.expiresAt (0 : ℕ) none result.maxExpiresAt - (0 : ℕ) := by
    rw [hexpires, Nat.cast_zero, sub_zero]
    exact one_le_accessTokenTtlSeconds
  obtain ⟨token, htoken, _⟩ := exists_encoded hsigns (Example.momentAt 0 jti) hextra
    (joinSpaces (allowedBy result.ceilings result.requestedScopes)) hact
  obtain ⟨y, hprepared⟩ : ∃ y, server.pipeline.Prepared (Example.momentAt 0 jti) result y :=
    (IssuancePipeline.exists_prepared_iff hextra).mpr ⟨hactive, hnonempty, halive, token, htoken⟩
  obtain ⟨x, hx, hlogin, rfl⟩ := h.exists_succeeds hresolve hprepared hextra rfl hjti
  refine ⟨x, hx, hlogin, rfl, hx.fresh hjwt hsigns Nat.cast_zero ?_ hact, ?_⟩
  · have hexp : Dict.get x.payload "exp" =
        .int ⌊server.minter.expiresAt (0 : ℕ) none x.result.maxExpiresAt⌋ := hx.signedFrom.exp
    rw [hexp, hexpires, Int.floor_intCast]
  · have hgranted := (attenuate_eq_ok.mp hx.prepared.granted).1
    rw [hleft] at hgranted
    rw [Signed.scopes_eq hx.parse_scope, hgranted, Finset.toList_toFinset]

/-- A client logs in, for any of its scopes. -/
theorem exists_login (hjwt : server.jwt.RoundTrips) (hsigns : server.jwt.Signs)
    (hw : (server.system.restrict (server.Settled clients)).Reachable w)
    (hclients : w.state.clients = clients)
    (hcall : server.CanCall clients client) (hactive : client.status = .active)
    (hallowed : scopes ⊆ client.allowedScopes) (hwords : ∀ scope ∈ scopes, IsWord scope) :
    ∃ w' moment request x a, server.Obtained clients [client] scopes w' (.root a) ∧
      w.issued ⊆ w'.issued ∧ server.RootIssue w.state moment request x a ∧
        x.login.caller = client := by
  subst hclients
  obtain ⟨secret, hsecret⟩ := hcall.secret
  obtain ⟨jti, hjti⟩ := exists_fresh_jti w.state.issuedCredentials
  have hshow : server.PostsSecret client clientCredentialsGrant
      (secretFields client.clientId secret ++ [("scope", joinSpaces scopes.toList)]) :=
    ⟨by simp [secretFields], mem_grants.mpr (.inl rfl), rfl, rfl, ⟨secret, rfl, hsecret⟩, rfl, rfl⟩
  obtain ⟨login, hlogin, rfl, hgrant, hget, hshows⟩ :=
    hshow.authenticated hcall.registered (Example.momentAt 0 jti)
  have hasked : parseScope (login.form.get "scope") = scopes.toList := by
    rw [hget]
    exact parseScope_toList hwords
  have hresolve : login.grant.resolve login.state.clients (Example.momentAt 0 jti) login.form
      (some login.caller) =
        .ok (ClientCredentialsGrant.result (Example.momentAt 0 jti) login.form login.caller) := by
    rw [hgrant]
    exact ClientCredentialsGrant.resolve_eq_ok.mpr rfl
  obtain ⟨x, hx, rfl, hresult, hfresh, hscopes⟩ := hlogin.exists_granted hjwt hsigns hresolve rfl
    hactive hasked (List.forall_mem_singleton.mpr hallowed) expiresAt_login
      (fun _ hact => by cases hact) hjti
  have hnot : server.isExchange (requestOf (secretFields x.login.caller.clientId secret ++
      [("scope", joinSpaces scopes.toList)])) = false := by
    have hne : ClientCredentialsGrant.grantType ≠ GRANT_TYPE := by decide
    rw [Bool.eq_false_iff, ne_eq, isExchange_iff hx, hgrant]
    exact fun h => hne (congrArg Grant.grantType h)
  have hstep := hx.step_root hnot
  have hissue := hx.rootIssue hnot
  have hreachable := reachable_request hw hshows hstep
  refine ⟨_, _, _, x, x.token, ⟨hreachable, step_clients hstep (by simp), List.mem_cons_self, ?_,
    hfresh, hscopes, ?_⟩, List.subset_cons_self _ _, hissue, rfl⟩
  · simp [Derivation.vias, Derivation.source, Signed.subject_eq hissue.sub]
  · exact List.forall_mem_singleton.mpr hissue.tenant

/-! ## Handing on -/

/-- What an exchange asks for. -/
def exchangeFields (clientId secret audience subjectToken actorToken scope : String) :
    List (String × String) :=
  [("grant_type", GRANT_TYPE), ("client_id", clientId), ("client_secret", secret),
    ("audience", audience), ("subject_token", subjectToken),
    ("subject_token_type", ACCESS_TOKEN_TYPE), ("actor_token", actorToken),
    ("actor_token_type", ACCESS_TOKEN_TYPE), ("scope", scope)]

theorem fromTimestamp_accessTokenTtl :
    fromTimestamp (.int server.settings.accessTokenTtlSeconds) =
      .ok server.settings.accessTokenTtlSeconds := by
  obtain ⟨hlow, hhigh⟩ := server.settings.accessTokenTtlSeconds_mem
  have hlow' : (1 : ℚ) ≤ server.settings.accessTokenTtlSeconds := one_le_accessTokenTtlSeconds
  have hhigh' : (server.settings.accessTokenTtlSeconds : ℚ) ≤ 3600 := by exact_mod_cast hhigh
  rw [fromTimestamp_eq_ok]
  refine ⟨_, rfl, by linarith, by linarith, (roundMicroseconds_intCast _).symm, ?_, ?_⟩
  · unfold minimumInstant
    linarith
  · unfold endOfInstants
    linarith

/-- Asking for all the scopes of the subject token, which may be none. -/
theorem requestedScopes_toList {form : TokenForm} {subjectScopes : List String}
    (hasked : parseScope (form.get "scope") = scopes.toList)
    (hsubject : subjectScopes.toFinset = scopes) :
    TokenExchangeGrant.requestedScopes form subjectScopes = scopes.toList := by
  unfold TokenExchangeGrant.requestedScopes
  simp only [hasked]
  split
  · next hempty =>
      rw [Finset.toList_eq_nil] at hempty
      subst hempty
      rw [(List.toFinset_eq_empty_iff _).mp hsubject, Finset.toList_empty]
      rfl
  · rfl

/-- The token is readable by whoever exchanges it. -/
theorem Obtained.succeeds {p : Derivation Signed} (h : server.Obtained clients agents scopes w p) :
    ∃ s moment request x, server.Succeeds moment request s x ∧ p.value.claims = x.payload := by
  obtain ⟨w', _, moment, request, x, _, _, hx, hvalue⟩ :=
    issuedFor_of_holds (issued_holds h.reachable p h.issued)
  exact ⟨w'.state, moment, request, x, hx, by rw [hvalue, Success.claims_token]⟩

theorem Obtained.history {p : Derivation Signed} (h : server.Obtained clients agents scopes w p) :
    History server.settings.maxDelegationDepth p :=
  history_of_holds (issued_holds h.reachable p h.issued)

theorem Obtained.length_eq {p : Derivation Signed} (h : server.Obtained clients agents scopes w p) :
    agents.length = p.hops + 1 := by
  have hlength := congrArg List.length h.names
  simp only [List.length_append, List.length_map, List.length_singleton,
    Derivation.vias_length] at hlength
  exact hlength.symm

/-- What the exchange reads in the subject token. -/
theorem Obtained.exists_read {p : Derivation Signed} (h : server.Obtained clients agents scopes w p) :
    ∃ act taskId subjectScopes, nest p.value.claims = .ok act ∧ Value.entriesJson act = true ∧
      taskOf p.value.claims = .ok taskId ∧
        parseScopeClaim (Dict.get p.value.claims "scope") = .ok subjectScopes ∧
          subjectScopes.toFinset = scopes ∧ Dict.get p.value.claims MAY_ACT_CLAIM = .null := by
  obtain ⟨_, _, _, x, hx, hclaims⟩ := h.succeeds
  have hsigned := hx.signedFrom
  obtain ⟨act, hact⟩ := nest_of_chain h.history.chain
  have hscopes : parseScopeClaim (Dict.get p.value.claims "scope") =
      .ok x.issuance.grantedScopes := by
    rw [hclaims]
    exact hx.parse_scope
  refine ⟨act, x.result.taskId, _, hact, entriesJson_nest hact h.fresh.act, ?_, hscopes, ?_, ?_⟩
  · rw [hclaims]
    exact (optionalText_of_written hsigned.task).mpr hx.taskId_ne
  · rw [← h.scopes_eq, Signed.scopes_eq hscopes]
  · -- no grant writes `may_act`, so nobody is kept from acting
    rw [hclaims]
    exact hsigned.mayAct

section

variable {form : TokenForm} {fields : List (String × String)}
  (hget : ∀ name, form.get name = fields.lookup name)
include hget

theorem require_of_lookup {name value : String} (hlookup : fields.lookup name = some value)
    (hne : value ≠ "") : form.require name = .ok value :=
  TokenForm.require_eq_ok.mpr ⟨(hget name).trans hlookup, hne⟩

theorem checkTokenTypes_of_lookup
    (hsubject : fields.lookup "subject_token_type" = some ACCESS_TOKEN_TYPE)
    (hactor : fields.lookup "actor_token_type" = some ACCESS_TOKEN_TYPE)
    (hrequested : fields.lookup "requested_token_type" = none) :
    TokenExchangeGrant.checkTokenTypes form = .ok () := by
  have htype : ∀ name, fields.lookup name = some ACCESS_TOKEN_TYPE →
      TokenExchangeGrant.checkTokenType form name = .ok () := by
    intro name hlookup
    simp only [TokenExchangeGrant.checkTokenType, bind_eq_ok, raiseIf_eq_ok, not_not]
    exact ⟨_, require_of_lookup hget hlookup (by decide), List.mem_singleton_self _⟩
  have hnone : form.get "requested_token_type" = none := (hget _).trans hrequested
  simp only [TokenExchangeGrant.checkTokenTypes, bind_eq_ok, hnone]
  exact ⟨(), htype _ hsubject, (), htype _ hactor, rfl⟩

theorem requiredAudience_of_lookup {broker : RegisteredClient} {audience : String}
    (hlookup : fields.lookup "audience" = some audience) (hne : audience ≠ "")
    (hallowed : audience ∈ broker.allowedAudiences) :
    TokenExchangeGrant.requiredAudience form broker = .ok audience := by
  simp only [TokenExchangeGrant.requiredAudience, bind_eq_ok, raiseIf_eq_ok, not_not, pure_eq_ok]
  exact ⟨audience, require_of_lookup hget hlookup hne, (), hallowed, rfl⟩

end

/-- A client that has logged in is found under the `client_id` of its token. -/
theorem RootIssue.actorClient_eq {s' : ServerState} {moment' : Moment} {request' : Request}
    (h : server.RootIssue s' moment' request' x actor)
    (hclient : clients.get x.login.caller.clientId = .ok (some x.login.caller)) :
    TokenExchangeGrant.actorClient clients actor.claims = .ok x.login.caller := by
  have hid : Dict.get actor.claims "client_id" = .str x.login.caller.clientId :=
    h.signedFrom.clientId
  simp only [TokenExchangeGrant.actorClient, hid, hclient]
  rfl

/-- The exchange of a token for a client that may hold its scopes and is of its
tenant passes every check. -/
theorem Obtained.exists_admitted {p : Derivation Signed} {s' : ServerState} {moment' : Moment}
    {request' : Request} {form : TokenForm} {broker : RegisteredClient}
    {secret audience scope : String} (hp : server.Obtained clients agents scopes w p)
    (hactor : server.RootIssue s' moment' request' x actor) (hfresh : server.Fresh actor)
    (hclient : clients.get x.login.caller.clientId = .ok (some x.login.caller)) (jti : String)
    (hdepth : (agents.length : ℤ) ≤ server.settings.maxDelegationDepth)
    {tenant : String} (htenant : tenant ≠ "")
    (hclaim : Dict.get p.value.claims TENANT_CLAIM = .str tenant)
    (hsame : x.login.caller.tenant = tenant)
    (hget : ∀ name, form.get name = (exchangeFields broker.clientId secret audience p.value.token
      actor.token scope).lookup name)
    (haudience : audience ∈ broker.allowedAudiences) (hne : audience ≠ "") :
    ∃ y, server.exchange.Admitted clients (Example.momentAt 0 jti) form broker y ∧
      y.actorClient = x.login.caller ∧ y.actorSubject = x.login.caller.subject ∧
        y.tenant = tenant ∧ y.subjectScopes.toFinset = scopes ∧
          y.maxExpiresAt = server.settings.accessTokenTtlSeconds ∧
            Value.entriesJson y.act = true := by
  obtain ⟨act, taskId, subjectScopes, hact, hjson, htask, hscopes, hsubjectScopes, hmayAct⟩ :=
    hp.exists_read
  have hhistory := hp.history
  have hlength := hp.length_eq
  -- the moment of an exchange at 0 is written as a natural number
  have hverifies : ∀ a, server.Fresh a →
      server.exchange.verify ((0 : ℕ) : ℚ) a.token = .ok a.claims := by
    intro a ha
    rw [Nat.cast_zero]
    exact ha.verifies
  refine ⟨{
    audience
    subjectToken := p.value.token
    actorToken := actor.token
    subjectClaims := p.value.claims
    actorClaims := actor.claims
    actorClient := x.login.caller
    actorSubject := x.login.caller.subject
    tenant
    declared := p.hops
    subjectScopes
    act
    actRoot := p.source.subject
    taskId
    maxExpiresAt := server.settings.accessTokenTtlSeconds }, ?_, rfl, rfl, rfl, hsubjectScopes, rfl,
    hjson⟩
  exact {
    audience := requiredAudience_of_lookup hget rfl hne haudience
    subjectToken := require_of_lookup hget rfl hp.fresh.named
    actorToken := require_of_lookup hget rfl hfresh.named
    tokenTypes := checkTokenTypes_of_lookup hget rfl rfl rfl
    subjectClaims := hverifies _ hp.fresh
    actorClaims := hverifies _ hfresh
    actorClient := hactor.actorClient_eq hclient
    actorSubject := hactor.sub
    mayAct := by simp only [mayActPermits, hmayAct]
    tenant := TokenExchangeGrant.agreedTenant_eq_ok.mpr
      ⟨hsame.symm, .inr (optionalText_eq_some.mpr ⟨hclaim, htenant⟩)⟩
    declared := hhistory.declaredDepth
    depth_le := by
      change (p.hops : ℤ) + 1 ≤ server.settings.maxDelegationDepth
      omega
    subjectScopes := hscopes
    act := hact
    actRoot := root_eq_ok.mpr ⟨_, hhistory.chain⟩
    taskId := htask
    maxExpiresAt := by
      rw [hp.fresh.exp]
      exact fromTimestamp_accessTokenTtl }

/-- A token is handed on, with all its scopes, to a client that has just logged
in. -/
theorem exists_hop (hjwt : server.jwt.RoundTrips) (hsigns : server.jwt.Signs)
    {p : Derivation Signed} {s' : ServerState} {moment' : Moment} {request' : Request}
    (hp : server.Obtained clients agents scopes w p)
    (hv : server.Obtained clients [x.login.caller] scopes w (.root actor))
    (hactor : server.RootIssue s' moment' request' x actor)
    (hcall : server.CanCall clients x.login.caller)
    (hallowed : scopes ⊆ x.login.caller.allowedScopes) (hwords : ∀ scope ∈ scopes, IsWord scope)
    (hhandOn : server.CanHandOn clients (x.login.caller :: agents)) (hne : agents ≠ []) :
    ∃ w' d, server.Obtained clients (x.login.caller :: agents) scopes w' d := by
  obtain rfl := hp.clients_eq
  obtain ⟨broker, ⟨hregistered, secret, hsecret⟩, audience, haudience, hnamed⟩ := hhandOn.broker
  obtain ⟨tenant, htenant, hall⟩ := hhandOn.tenant
  obtain ⟨jti, hjti⟩ := exists_fresh_jti w.state.issuedCredentials
  obtain ⟨first, hfirst⟩ := List.exists_mem_of_ne_nil agents hne
  have hclaim : Dict.get p.value.claims TENANT_CLAIM = .str tenant := by
    rw [hp.tenant first hfirst, hall first (List.mem_cons_of_mem _ hfirst)]
  have hshow : server.PostsSecret broker (tokenExchangeGrant server.exchange)
      (exchangeFields broker.clientId secret audience p.value.token actor.token
        (joinSpaces scopes.toList)) :=
    ⟨by simp [exchangeFields], mem_grants.mpr (.inr rfl), rfl, rfl, ⟨secret, rfl, hsecret⟩, rfl, rfl⟩
  obtain ⟨login, hlogin, rfl, hgrant, hget, hshows⟩ :=
    hshow.authenticated hregistered (Example.momentAt 0 jti)
  have hdepth : (agents.length : ℤ) ≤ server.settings.maxDelegationDepth := by
    have hdepth := hhandOn.depth
    rw [List.length_cons] at hdepth
    push_cast at hdepth
    linarith
  -- the broker asks; the actor token names the client that takes over
  obtain ⟨y, hadmitted, hclient, hsub, htenant', hsubject, hexp, hact⟩ :=
    hp.exists_admitted hactor hv.fresh hcall.registered jti hdepth htenant hclaim
      (hall _ List.mem_cons_self) hget haudience hnamed
  have hasked : parseScope (login.form.get "scope") = scopes.toList := by
    rw [hget]
    exact parseScope_toList hwords
  have hresolve : login.grant.resolve login.state.clients (Example.momentAt 0 jti) login.form
      (some login.caller) = .ok (y.result login.form login.caller) := by
    rw [hgrant, hlogin.keeps.1]
    exact TokenExchangeGrant.resolve_eq_ok.mpr ⟨_, y, rfl, hadmitted, rfl⟩
  have hceilings : ∀ ceiling ∈ (y.result login.form login.caller).ceilings, scopes ⊆ ceiling := by
    refine List.forall_mem_cons.mpr ⟨hsubject.ge, List.forall_mem_singleton.mpr ?_⟩
    rwa [hclient]
  have hexpires : server.minter.expiresAt (0 : ℕ) none (some y.maxExpiresAt) =
      server.settings.accessTokenTtlSeconds := by
    rw [hexp, expiresAt_hop]
  obtain ⟨z, hz, rfl, hresult, hfresh, hscopes⟩ := hlogin.exists_granted hjwt hsigns hresolve rfl
    rfl (requestedScopes_toList hasked hsubject) hceilings hexpires
      (fun _ h => by rwa [← Option.some.inj h]) hjti
  have hexchange := (isExchange_iff hz).mpr hgrant
  have hpresents : server.presents (requestOf (exchangeFields z.login.caller.clientId secret audience
      p.value.token actor.token (joinSpaces scopes.toList))) p.value actor = true := by
    have hsubjectToken : z.login.form.get "subject_token" = some p.value.token := hget _
    have hactorToken : z.login.form.get "actor_token" = some actor.token := hget _
    simp [presents, hlogin.form, hsubjectToken, hactorToken]
  have hstep := hz.step_derived hexchange hp.issued hv.issued hpresents
  refine ⟨_, _, ⟨reachable_exchange hp.reachable hshows hstep, step_clients hstep (by simp),
    List.mem_cons_self, ?_, hfresh, hscopes, fun c hc => ?_⟩⟩
  · simp [Derivation.vias, Derivation.source, hp.names, Signed.subject_eq hactor.sub]
  · have hwritten : Dict.get z.payload TENANT_CLAIM = .str y.tenant := by
      rw [hz.signedFrom.tenant, hresult]
      rfl
    rw [Derivation.value_derived, Success.claims_token, hwritten, htenant', hall c hc]

/-! ## From the last client to the first -/

/-- What was obtained stays obtained while the registry stays. -/
theorem Obtained.later {p : Derivation Signed} {w' : World}
    (h : server.Obtained clients agents scopes w p)
    (hw : (server.system.restrict (server.Settled clients)).Reachable w')
    (hclients : w'.state.clients = clients) (hissued : w.issued ⊆ w'.issued) :
    server.Obtained clients agents scopes w' p :=
  ⟨hw, hclients, hissued h.issued, h.names, h.fresh, h.scopes_eq, h.tenant⟩

/-- Whoever can hand on among some clients can among the last of them. -/
theorem CanHandOn.tail (h : server.CanHandOn clients (client :: agents)) :
    server.CanHandOn clients agents := by
  obtain ⟨tenant, hne, hall⟩ := h.tenant
  refine ⟨?_, ⟨tenant, hne, fun c hc => hall c (List.mem_cons_of_mem _ hc)⟩, h.broker⟩
  have hdepth := h.depth
  rw [List.length_cons] at hdepth
  push_cast at hdepth
  linarith

theorem Entitled.tail (h : server.Entitled clients (client :: agents) scopes) (hne : agents ≠ []) :
    server.Entitled clients agents scopes where
  nonempty := hne
  canCall c hc := h.canCall c (List.mem_cons_of_mem _ hc)
  active c hc := h.active c (List.mem_cons_of_mem _ hc)
  allowed c hc := h.allowed c (List.mem_cons_of_mem _ hc)
  words := h.words
  handsOn hlength := (h.handsOn (by simp only [List.length_cons]; omega)).tail

/-- **Clients that are entitled to scopes can obtain a token for them**: the last
one logs in, and each one before it logs in and is handed the token on. -/
theorem exists_obtained (hjwt : server.jwt.RoundTrips) (hsigns : server.jwt.Signs)
    (h : server.Entitled clients agents scopes) :
    ∃ w d, server.Obtained clients agents scopes w d := by
  induction agents with
  | nil => exact absurd rfl h.nonempty
  | cons client rest ih =>
      have hcall := h.canCall client List.mem_cons_self
      have hactive := h.active client List.mem_cons_self
      have hallowed := h.allowed client List.mem_cons_self
      by_cases hrest : rest = []
      · subst hrest
        -- the last client has nobody behind it
        let start : World := { state := { clients }, issued := [] }
        have hstart : (server.system.restrict (server.Settled clients)).Reachable start :=
          .init ⟨rfl, rfl, rfl⟩
        obtain ⟨w, _, _, _, a, hobtained, _⟩ :=
          exists_login hjwt hsigns hstart rfl hcall hactive hallowed h.words
        exact ⟨w, _, hobtained⟩
      · obtain ⟨w, p, hp⟩ := ih (h.tail hrest)
        obtain ⟨w', _, _, x, a, hv, hissued, hactor, rfl⟩ :=
          exists_login hjwt hsigns hp.reachable hp.clients_eq hcall hactive hallowed h.words
        have hlength : 1 < (x.login.caller :: rest).length := by
          have hpos := List.length_pos_of_ne_nil hrest
          rw [List.length_cons]
          omega
        exact exists_hop hjwt hsigns (hp.later hv.reachable hv.clients_eq hissued) hv hactor hcall
          hallowed h.words (h.handsOn hlength) hrest

end Server

/-- The example server with tokens that write out what they say. -/
noncomputable def Example.ideal : Server :=
  { Example.Deep.server with jwt := IdealTokens.pyJwt [] }

namespace Server

variable {server : Server} {clients : ClientTable} {scopes : Finset String}

/-- **What can be obtained can be read off the registry.**  In the runs in which
the registry stays as it is, clients show secrets and actors tokens of logins, a
token that names these identities can be issued for these scopes exactly when
there are clients of these names that are entitled to the scopes. -/
theorem obtainable_iff (hjwt : server.jwt.RoundTrips) (hsigns : server.jwt.Signs)
    {names : List String} :
    (∃ w, (server.system.restrict (server.Settled clients)).Reachable w ∧
      ∃ d ∈ w.issued, chain d.value.claims = .ok names ∧ d.value.scopes = scopes) ↔
        ∃ agents, agents.map RegisteredClient.subject = names ∧
          server.Entitled clients agents scopes := by
  constructor
  · rintro ⟨w, hw, d, hd, hchain, rfl⟩
    have hholds := issued_holds hw d hd
    obtain ⟨agents, _, hentitled, hnames, _⟩ := entitled_of_holds hholds
    rw [(history_of_holds hholds).chain, Except.ok.injEq] at hchain
    exact ⟨agents, hnames.symm.trans hchain, hentitled⟩
  · rintro ⟨agents, rfl, hentitled⟩
    obtain ⟨w, d, h⟩ := exists_obtained hjwt hsigns hentitled
    refine ⟨w, h.reachable, d, h.issued, ?_, h.scopes_eq⟩
    rw [h.history.chain, h.names]

/-- B can obtain `x` on behalf of R. -/
theorem obtainable_iff_helper :
    ∃ w, (Example.ideal.system.restrict (Example.ideal.Settled Example.Deep.registry)).Reachable w ∧
      ∃ d ∈ w.issued, chain d.value.claims = .ok ["helper", "root"] ∧ d.value.scopes = {"x"} := by
  have hcall : ∀ client ∈ Example.Deep.registry.rows,
      Example.ideal.CanCall Example.Deep.registry client := by
    intro client hclient
    have hsecret : ∀ client ∈ Example.Deep.registry.rows,
        client.secretHash = some "argon2:secret" := by
      decide
    have hfound : ∀ client ∈ Example.Deep.registry.rows,
        Example.Deep.registry.get client.clientId = .ok (some client) := by
      decide
    exact ⟨hfound client hclient, "secret", by decide, _, hsecret client hclient, rfl⟩
  refine (obtainable_iff (IdealTokens.roundTrips []) (IdealTokens.signs [])).mpr
    ⟨[Example.Deep.clientB, Example.clientR], rfl, ?_⟩
  constructor
  case nonempty => simp
  case canCall =>
    exact fun client hclient => hcall client (by revert client; decide)
  case active => decide
  case allowed => decide
  case words => simp [IsWord, isSpace]
  case handsOn =>
    refine fun _ => ⟨by decide, ⟨"blue", by decide, by decide⟩, ?_⟩
    exact ⟨Example.clientC, hcall _ (by decide), "svc", by decide, by decide⟩

end Server

end AgentOAuth
