import AgentOAuth.Proofs.Issue

/-!
# The registrations behind a request

Up to three clients take part in a request: the authenticated caller, the
client whose registration an exchange looks up for its actor token, and the
holder of the subject token.  The status of a client is read on the way of
`client_credentials` only, and the tenant of the caller plays no part in an
exchange.

* `suspended_refused_iff`: with a suspended client among the first two, the
  endpoint refuses exactly the requests that are no exchange passing every
  other check (`GoesThrough`).
* `tenant_of_caller_iff`: a token is of the caller's tenant exactly when the
  caller acts within it (`ActsWithinTenant`).
-/

namespace AgentOAuth

open Provenance Transition

namespace Server

variable {server : Server} {s t : ServerState} {moment : Moment} {request : Request}
  {login : Login} {response : TokenResponse}

/-- `client` is the registration that an exchange finds for its actor token. -/
def ActorRegistration (server : Server) (moment : Moment) (clients : ClientTable)
    (form : TokenForm) (client : RegisteredClient) : Prop :=
  form.get "grant_type" = some GRANT_TYPE ∧ ∃ token claims,
    form.require "actor_token" = .ok token ∧
      server.exchange.verify moment.actorVerified token = .ok claims ∧
        TokenExchangeGrant.actorClient clients claims = .ok client

/-- The registration of the actor is found in one way only. -/
theorem ActorRegistration.eq_of_admitted {clients : ClientTable} {form : TokenForm}
    {client caller : RegisteredClient} {y : TokenExchangeGrant.Exchange}
    (h : server.ActorRegistration moment clients form client)
    (hy : server.exchange.Admitted clients moment form caller y) : client = y.actorClient := by
  obtain ⟨_, token, claims, htoken, hclaims, hclient⟩ := h
  rw [hy.actorToken, Except.ok.injEq] at htoken
  subst htoken
  rw [hy.actorClaims, Except.ok.injEq] at hclaims
  subst hclaims
  simpa [hy.actorClient] using hclient.symm

/-! ## Suspended clients -/

/-- The caller's exchange passes its checks, some scope and a second of life
are left, the payload can be signed and the row can be written. -/
structure GoesThrough (server : Server) (moment : Moment) (s : ServerState) (form : TokenForm)
    (caller : RegisteredClient) (y : TokenExchangeGrant.Exchange) : Prop where
  grantType : form.get "grant_type" = some GRANT_TYPE
  admitted : server.exchange.Admitted s.clients moment form caller y
  scopeLeft : TokenExchangeGrant.requestedScopes form y.subjectScopes = [] ∨
    ∃ scope ∈ TokenExchangeGrant.requestedScopes form y.subjectScopes,
      scope ∈ y.subjectScopes ∧ scope ∈ y.actorClient.allowedScopes
  lifeLeft : moment.minted + 1 ≤ y.maxExpiresAt
  signs : ∃ token, server.minter.encode (server.minter.fullClaims moment.minted moment.jti
    (server.pipeline.claims (y.result form caller) y.actorSubject
      (joinSpaces (allowedBy [y.subjectScopes.toFinset, y.actorClient.allowedScopes]
        (TokenExchangeGrant.requestedScopes form y.subjectScopes))))
    none (some y.maxExpiresAt)) = .ok token
  records : moment.insertFails = false ∧ s.issuedCredentials.find moment.jti = none

/-- The configured lifetime is a second at least, so only the subject token can
leave a derived token less. -/
theorem one_le_expiresAt_iff {ceiling : ℚ} :
    1 ≤ server.minter.expiresAt moment.minted none (some ceiling) - moment.minted ↔
      moment.minted + 1 ≤ ceiling := by
  have httl : (1 : ℚ) ≤ (server.minter.defaultTtlSeconds : ℤ) :=
    Int.cast_one_le_of_pos (show 0 < server.settings.accessTokenTtlSeconds from
      server.settings.accessTokenTtlSeconds_mem.1)
  rw [le_sub_iff_add_le', TokenMinter.expiresAt, le_min_iff, Option.getD_none]
  exact and_iff_right (by linarith)

theorem allowedBy_ne_nil_iff {y : TokenExchangeGrant.Exchange} {requested : List String} :
    allowedBy [y.subjectScopes.toFinset, y.actorClient.allowedScopes] requested ≠ [] ↔
      ∃ scope ∈ requested, scope ∈ y.subjectScopes ∧ scope ∈ y.actorClient.allowedScopes := by
  rw [ne_eq, List.eq_nil_iff_forall_not_mem]
  simp [mem_allowedBy]

/-- **An exchange is answered with a token exactly when it goes through**,
whatever the status of the clients it involves. -/
theorem exchange_answered_iff (hlogin : server.Authenticated moment request s login)
    (htype : login.form.get "grant_type" = some GRANT_TYPE) :
    (∃ response t, (server.getOauthToken moment request).run s = .ok response t) ↔
      ∃ y, server.GoesThrough moment s login.form login.caller y := by
  have hgrant := hlogin.grant_eq_exchange_iff.mpr htype
  obtain ⟨hclients, _, hledger, _⟩ := hlogin.keeps
  constructor
  · intro ⟨response, t, hrun⟩
    obtain ⟨x, rfl, hx, _, _⟩ := hlogin.run_eq_ok.mp hrun
    obtain ⟨y, hy, hresult⟩ := hx.admitted hgrant
    obtain ⟨_, hleft, halive, hsigns⟩ :=
      (IssuancePipeline.exists_prepared_iff hx.extraClaims_eq).mp ⟨_, hx.prepared⟩
    obtain ⟨hfails, hinsert⟩ := IssuedCredentialTable.record_eq_ok.mp hx.recorded
    have hfree := (Table.insert_eq_some.mp hinsert).1
    rw [hx.prepared.row_eq hx.extraClaims_eq, hledger] at hfree
    rw [hresult] at hleft halive hsigns
    exact ⟨y, htype, hy, hleft.imp_right allowedBy_ne_nil_iff.mp, one_le_expiresAt_iff.mp halive,
      hsigns, hfails, hfree⟩
  · rintro ⟨y, hy⟩
    -- an exchange never sets `principal_status`, so the status check passes
    obtain ⟨z, hz⟩ : ∃ z, server.pipeline.Prepared moment (y.result login.form login.caller) z :=
      (IssuancePipeline.exists_prepared_iff rfl).mpr ⟨rfl,
        hy.scopeLeft.imp_right allowedBy_ne_nil_iff.mpr, one_le_expiresAt_iff.mpr hy.lifeLeft,
        hy.signs⟩
    have hfree : login.state.issuedCredentials.find z.row.jti = none := by
      rw [hz.row_eq rfl, hledger]
      exact hy.records.2
    cases hinsert : login.state.issuedCredentials.insert z.row with
    | none => exact absurd hfree (Table.insert_eq_none.mp hinsert)
    | some written =>
        refine ⟨_, _, hlogin.run_eq_ok.mpr ⟨⟨login, _, z, written⟩, rfl, ⟨hlogin, ?_, hz,
          IssuedCredentialTable.record_eq_ok.mpr ⟨hy.records.1, hinsert⟩⟩, rfl, rfl⟩⟩
        rw [hgrant, hclients]
        exact TokenExchangeGrant.resolve_eq_ok.mpr ⟨_, y, rfl, hy.admitted, rfl⟩

/-- The caller, or the registration found for the actor token, is suspended. -/
def Suspended (server : Server) (moment : Moment) (s : ServerState) (login : Login) : Prop :=
  login.caller.status = .suspended ∨
    ∃ client, server.ActorRegistration moment s.clients login.form client ∧
      client.status = .suspended

/-- The endpoint answers with an error and writes no row. -/
def Refuses (server : Server) (moment : Moment) (s : ServerState) (request : Request) : Prop :=
  ∃ e t, (server.getOauthToken moment request).run s = .error e t ∧
    t.issuedCredentials = s.issuedCredentials

theorem refuses_iff : server.Refuses moment s request ↔
    ¬ ∃ response t, (server.getOauthToken moment request).run s = .ok response t := by
  unfold Refuses
  cases hrun : (server.getOauthToken moment request).run s with
  | ok response t => simp
  | error e t => simpa using getOauthToken_error hrun

/-- A suspended caller gets no root token. -/
theorem refuses_of_not_exchange (hlogin : server.Authenticated moment request s login)
    (htype : login.form.get "grant_type" ≠ some GRANT_TYPE)
    (hstatus : login.caller.status = .suspended) : server.Refuses moment s request := by
  rw [refuses_iff]
  rintro ⟨response, t, hrun⟩
  obtain ⟨x, rfl, hx, _, _⟩ := hlogin.run_eq_ok.mp hrun
  rcases hx.result_cases with ⟨_, hresult⟩ | ⟨y, hgrant, _⟩
  · have husable := hx.prepared.usable
    rw [hresult] at husable
    exact absurd (hstatus.symm.trans husable) (by decide)
  · exact htype (hlogin.grant_eq_exchange_iff.mp hgrant)

/-- **Suspension.**  When the caller or the registration of the actor is
suspended, the endpoint refuses, and leaves the ledger alone, exactly when the
request is no exchange that passes every check there is. -/
theorem suspended_refused_iff (hlogin : server.Authenticated moment request s login)
    (hsuspended : server.Suspended moment s login) :
    server.Refuses moment s request ↔
      ¬ ∃ y, server.GoesThrough moment s login.form login.caller y := by
  by_cases htype : login.form.get "grant_type" = some GRANT_TYPE
  · rw [refuses_iff, exchange_answered_iff hlogin htype]
  · have hstatus : login.caller.status = .suspended := by
      rcases hsuspended with hstatus | ⟨_, hactor, _⟩
      · exact hstatus
      · exact absurd hactor.1 htype
    simp only [refuses_of_not_exchange hlogin htype hstatus, true_iff, not_exists]
    exact fun y hy => htype hy.grantType

theorem suspended_refused_iff_suspension :
    ∃ login, Example.server.Authenticated Example.momentAA Example.requestAA
        Example.suspension.state login ∧
      (Example.server.Refuses Example.momentAA Example.suspension.state Example.requestAA ↔
        ¬ ∃ y, Example.server.GoesThrough Example.momentAA Example.suspension.state login.form
          login.caller y) := by
  obtain ⟨login, _, _, hlogin, hcaller, _⟩ := Example.answered_suspension
  exact ⟨login, hlogin, suspended_refused_iff hlogin (.inl (by rw [hcaller]; rfl))⟩

/-- Suspension does not stop an exchange: C is suspended and gets a token. -/
theorem not_suspended_refused :
    ¬ ∀ (server : Server) (w : World), server.system.Reachable w → ∀ moment request login,
      server.Authenticated moment request w.state login → server.Suspended moment w.state login →
        server.Refuses moment w.state request := by
  intro hclaim
  obtain ⟨login, response, t, hlogin, hcaller, hrun, _⟩ := Example.answered_suspension
  have hrefuses := hclaim Example.server Example.suspension (Example.after_reachable _) _ _ login
    hlogin (.inl (by rw [hcaller]; rfl))
  exact refuses_iff.mp hrefuses ⟨response, t, hrun⟩

/-! ## The tenant of the caller -/

/-- The caller asks for itself, or the registration found for its actor token
is of its own tenant. -/
def ActsWithinTenant (server : Server) (moment : Moment) (s : ServerState) (login : Login) : Prop :=
  login.form.get "grant_type" = some ClientCredentialsGrant.grantType ∨
    ∃ client, server.ActorRegistration moment s.clients login.form client ∧
      client.tenant = login.caller.tenant

/-- **The tenant of the caller.**  A token is of the tenant of the client it is
handed to exactly when that client acts within its tenant. -/
theorem tenant_of_caller_iff (hlogin : server.Authenticated moment request s login)
    (hrun : (server.getOauthToken moment request).run s = .ok response t) {claims : Dict}
    (hclaims : server.jwt.decodeUnverified response.accessToken = .ok claims) :
    Dict.get claims TENANT_CLAIM = .str login.caller.tenant ↔
      server.ActsWithinTenant moment s login := by
  obtain ⟨x, rfl, hx, rfl, rfl⟩ := hlogin.run_eq_ok.mp hrun
  have hpayload : x.payload = claims := by
    simpa [Genuine, Success.token, hclaims] using hx.genuine.symm
  have htenant := hx.signedFrom.tenant
  rw [hpayload] at htenant
  rw [htenant]
  rcases hx.result_cases with ⟨hgrant, hresult⟩ | ⟨y, hgrant, hy, hresult⟩ <;> rw [hresult]
  · have htype := hx.login.grantType
    rw [hgrant] at htype
    simp only [ClientCredentialsGrant.result, Option.map_some, Option.getD_some, true_iff]
    exact .inl htype
  · have htype := hlogin.grant_eq_exchange_iff.mp hgrant
    have hne : GRANT_TYPE ≠ ClientCredentialsGrant.grantType := by decide
    have hagreed := (TokenExchangeGrant.agreedTenant_eq_ok.mp hy.tenant).1
    have hregistration : server.ActorRegistration moment s.clients x.login.form y.actorClient :=
      ⟨htype, _, _, hy.actorToken, hy.actorClaims, hy.actorClient⟩
    simp only [TokenExchangeGrant.Exchange.result, Option.map_some, Option.getD_some,
      Value.str.injEq, hagreed, ActsWithinTenant, htype, Option.some.injEq, hne, false_or]
    constructor
    · exact fun hsame => ⟨_, hregistration, hsame⟩
    · rintro ⟨client, hclient, hsame⟩
      rw [← hclient.eq_of_admitted hy, hsame]

theorem tenant_of_caller_iff_requestAA :
    ∃ login claims, Example.server.Authenticated Example.momentAA Example.requestAA
        (Example.after (Example.events.take 2)).state login ∧
      (Dict.get claims TENANT_CLAIM = .str login.caller.tenant ↔
        Example.server.ActsWithinTenant Example.momentAA
          (Example.after (Example.events.take 2)).state login) := by
  obtain ⟨login, response, t, hlogin, _, hrun, htoken⟩ := Example.answered_two
  have hclaims : Example.server.jwt.decodeUnverified response.accessToken =
      .ok Example.hopA.payload := by
    rw [htoken]
    rfl
  exact ⟨login, _, hlogin, tenant_of_caller_iff hlogin hrun hclaims⟩

/-- The tenant of the caller may be another one: C, of the tenant `blue`, gets a
token of the tenant `red`. -/
theorem not_tenant_of_caller :
    ¬ ∀ (server : Server) (w : World), server.system.Reachable w →
      ∀ moment request login response t claims,
        server.Authenticated moment request w.state login →
          (server.getOauthToken moment request).run w.state = .ok response t →
            server.jwt.decodeUnverified response.accessToken = .ok claims →
              Dict.get claims TENANT_CLAIM = .str login.caller.tenant := by
  intro hclaim
  obtain ⟨login, response, t, hlogin, hcaller, hrun, htoken⟩ := Example.answered_two
  have hclaims : Example.server.jwt.decodeUnverified response.accessToken =
      .ok Example.hopA.payload := by
    rw [htoken]
    rfl
  have htenant := hclaim Example.server _ (Example.after_reachable _) _ _ login response t _ hlogin
    hrun hclaims
  rw [hcaller] at htenant
  exact absurd htenant (by decide +kernel)

end Server

end AgentOAuth
