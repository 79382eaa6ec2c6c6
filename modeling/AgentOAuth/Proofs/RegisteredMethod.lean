import AgentOAuth.Proofs.Authentication
import AgentOAuth.Proofs.RequestData

/-!
# The registered authentication method

A registration names one authentication method.  `authenticate` loads the name
with the client and compares it with nothing: the method is the one that the
form presents a credential for, and a client is authenticated by any credential
that is stored for it.  So no request is authenticated by another method than
the registered one in exactly the registries where no client has a credential of
another kind that still opens it (`no_downgrade_iff`); a secret that was left
behind when a client went over to `private_key_jwt`, or a key left behind on the
way back, is one.
-/

namespace AgentOAuth

open Effect

variable {form : TokenForm} {hasher : PasswordHasher} {config : PrivateKeyJwt}
  {presented : PresentedCredential} {method : ClientAuthMethod} {client : RegisteredClient}

/-! ## Credentials that open a client -/

/-- The stored hash of the client verifies the secret. -/
def SecretOpens (hasher : PasswordHasher) (client : RegisteredClient) (secret : String) : Prop :=
  secret ≠ "" ∧ ∃ hash, client.secretHash = some hash ∧ hasher.verify hash secret = .ok ()

/-- What `extract` makes of an assertion. -/
def presentedAssertion (clientId assertion : String) : PresentedCredential where
  clientId := clientId
  assertion := some assertion
  method := PrivateKeyJwt.name

/-- The assertion passes every check under a stored key of the client, at some
time, and its `jti` can be claimed. -/
def AssertionOpens (config : PrivateKeyJwt) (keys : ClientKeyTable) (client : RegisteredClient)
    (assertion : String) : Prop :=
  assertion ≠ "" ∧ ∃ (moment : Moment) (row : ReplayRow),
    config.check keys moment.assertionDecoded moment.assertionChecked
      (presentedAssertion client.clientId assertion) (some client) = .ok (some row) ∧
        Storable row.jti

namespace Server

/-- Whatever opens a client that can be looked up is of the kind its
registration names. -/
structure CredentialsMatch (server : Server) (clients : ClientTable) (keys : ClientKeyTable) :
    Prop where
  secret : ∀ clientId client, clients.get clientId = .ok (some client) →
    ∀ secret, SecretOpens server.hasher client secret → client.authMethod = ClientSecretPost.name
  assertion : ∀ clientId client, clients.get clientId = .ok (some client) →
    ∀ assertion, AssertionOpens server.assertions keys client assertion →
      client.authMethod = PrivateKeyJwt.name

/-- Whoever the token endpoint authenticates, the method that accepted the
request is the one of the client's registration. -/
def NoDowngrade (server : Server) (clients : ClientTable) (keys : ClientKeyTable) : Prop :=
  ∀ moment request s x, s.clients = clients → s.clientKeys = keys →
    server.Authenticated moment request s x → x.method.name = x.caller.authMethod

/-- Clients that registered another method have no credential of this kind. -/
structure HoldsOwnKind (clients : ClientTable) (keys : ClientKeyTable) : Prop where
  secret : ∀ client ∈ clients, client.secretHash ≠ none → client.authMethod = ClientSecretPost.name
  key : ∀ client ∈ clients, ∀ key ∈ keys, key.clientId = client.clientId →
    client.authMethod = PrivateKeyJwt.name

end Server

/-! ## What is presented -/

theorem PrivateKeyJwt.assertion_of_extract (h : config.extract form = .ok (some presented)) :
    ∃ assertion, assertion ≠ "" ∧ presented = presentedAssertion presented.clientId assertion := by
  obtain ⟨assertion, _, _, _, hassertion, hsecret, hmethod, hne⟩ := extract_eq_ok_some h
  refine ⟨assertion, hne, ?_⟩
  cases presented
  simp_all [presentedAssertion]

/-- The registry returns what one method finds and the other does not. -/
theorem extract_of_first (hfirst : ClientSecretPost.extract form = .ok (some presented))
    (hsecond : config.extract form = .ok none) :
    (defaultClientAuthRegistry hasher config).extract form =
      .ok (presented, clientSecretPost hasher) := by
  simp [ClientAuthRegistry.extract, ClientAuthRegistry.found, defaultClientAuthRegistry,
    clientSecretPost, privateKeyJwt, hfirst, hsecond, bind, Except.bind, pure, Except.pure]

theorem extract_of_second (hfirst : ClientSecretPost.extract form = .ok none)
    (hsecond : config.extract form = .ok (some presented)) :
    (defaultClientAuthRegistry hasher config).extract form =
      .ok (presented, privateKeyJwt config) := by
  simp [ClientAuthRegistry.extract, ClientAuthRegistry.found, defaultClientAuthRegistry,
    clientSecretPost, privateKeyJwt, hfirst, hsecond, bind, Except.bind, pure, Except.pure]

/-- A form with a `client_id` and a secret, and no assertion. -/
theorem extract_of_secret {clientId secret : String} (hid : form.get "client_id" = some clientId)
    (hsecret : form.get "client_secret" = some secret) (hidne : clientId ≠ "")
    (hsecretne : secret ≠ "") (hassertion : form.get "client_assertion" = none)
    (htype : form.get "client_assertion_type" = none) :
    (defaultClientAuthRegistry hasher config).extract form =
      .ok ({ clientId, secret := some secret, method := ClientSecretPost.name },
        clientSecretPost hasher) := by
  apply extract_of_first
  · simp [ClientSecretPost.extract, TokenForm.present, TokenForm.require, hid, hsecret, hidne,
      hsecretne, bind, Except.bind, pure, Except.pure]
  · simp [PrivateKeyJwt.extract, TokenForm.present, hassertion, htype]

/-- A form with an assertion and nothing else about the client. -/
theorem extract_of_assertion {clientId assertion : String}
    (hassertion : form.get "client_assertion" = some assertion)
    (htype : form.get "client_assertion_type" = some ASSERTION_TYPE) (hne : assertion ≠ "")
    (hsubject : config.unverifiedSubject assertion = .ok clientId)
    (hid : form.get "client_id" = none) (hsecret : form.get "client_secret" = none) :
    (defaultClientAuthRegistry hasher config).extract form =
      .ok (presentedAssertion clientId assertion, privateKeyJwt config) := by
  have htypene : ASSERTION_TYPE ≠ "" := by decide
  apply extract_of_second
  · simp [ClientSecretPost.extract, TokenForm.present, hid, hsecret]
  · simp [PrivateKeyJwt.extract, TokenForm.present, TokenForm.require, hid, hassertion, htype, hne,
      htypene, hsubject, presentedAssertion, raiseIf, bind, Except.bind, pure, Except.pure]

/-- An assertion that passes the checks names the client. -/
theorem PrivateKeyJwt.unverifiedSubject_of_accepted {keys : ClientKeyTable} {decoded checked : ℚ}
    {assertion : String} {row : ReplayRow} {evidence : PrivateKeyJwt.Evidence}
    (h : PrivateKeyJwt.Accepted config keys decoded checked assertion client row evidence) :
    config.unverifiedSubject assertion = .ok client.clientId := by
  have hclaims := config.jwt.decode_claims h.decode
  rw [unverifiedSubject, bind_eq_ok]
  refine ⟨evidence.claims, ?_, ?_⟩
  · rw [hclaims]
    rfl
  · rw [h.sub]
    exact if_neg client.clientId_ne

/-! ## The two ways in -/

namespace Server

variable {server : Server} {clients : ClientTable} {keys : ClientKeyTable} {moment : Moment}
  {request : Request} {s : ServerState} {x : Login}

/-- The body that presents a secret. -/
def secretFields (clientId secret : String) : List (String × String) :=
  [("grant_type", "client_credentials"), ("client_id", clientId), ("client_secret", secret)]

/-- The body that presents an assertion. -/
def assertionFields (assertion : String) : List (String × String) :=
  [("grant_type", "client_credentials"), ("client_assertion_type", ASSERTION_TYPE),
    ("client_assertion", assertion)]

/-- The request that posts these fields. -/
def requestOf (fields : List (String × String)) : Request where
  contentType := some FORM_CONTENT_TYPE
  form := urlEncoded fields

theorem formPost_requestOf (fields : List (String × String)) :
    FormPost (requestOf fields) fields :=
  ⟨show FORM_CONTENT_TYPE.toList <+: FORM_CONTENT_TYPE.toLower.toList by decide +kernel, rfl⟩

/-- The stored credentials, and nothing that was used up. -/
def stateOf (clients : ClientTable) (keys : ClientKeyTable) : ServerState :=
  { clients := clients, clientKeys := keys }

/-- Fields from which a credential is extracted, and a method that accepts it. -/
theorem exists_authenticated (fields : List (String × String)) {t : ServerState}
    (hnodup : (fields.map Prod.fst).Nodup)
    (hgrant : fields.lookup "grant_type" = some "client_credentials")
    (hextract : ∀ form : TokenForm, (∀ name, form.get name = fields.lookup name) →
      server.authMethods.extract form = .ok (presented, method))
    (hauth : (authenticate moment presented method).run s = .ok client t) :
    ∃ x, server.Authenticated moment (requestOf fields) s x ∧ x.caller = client ∧
      x.method = method := by
  obtain ⟨form, hget, hform⟩ :=
    readTokenForm_get server.interpreter (formPost_requestOf fields) hnodup
  rw [hgrant] at hform
  refine ⟨⟨form, clientCredentialsGrant, presented, method, client, t⟩, ?_, rfl, rfl⟩
  constructor
  · rw [hform]
    exact if_neg (show "client_credentials" ≠ "" by decide)
  · rw [hget, hgrant]
    rfl
  · exact mem_grants.mpr (.inl rfl)
  · exact hextract form hget
  · exact hauth

/-- A secret that opens a client authenticates it. -/
theorem authenticated_by_secret {clientId secret : String}
    (hclient : clients.get clientId = .ok (some client))
    (hopens : SecretOpens server.hasher client secret) (keys : ClientKeyTable) (moment : Moment) :
    ∃ x, server.Authenticated moment (requestOf (secretFields clientId secret))
        (stateOf clients keys) x ∧ x.caller = client ∧ x.method.name = ClientSecretPost.name := by
  obtain ⟨hne, hash, hhash, hverify⟩ := hopens
  have hidne : clientId ≠ "" := by
    obtain ⟨_, hid⟩ := ClientTable.get_eq_ok_some hclient
    rw [← hid]
    exact client.clientId_ne
  have hauth : (authenticate moment
      { clientId, secret := some secret, method := ClientSecretPost.name }
      (clientSecretPost server.hasher)).run (stateOf clients keys) =
        .ok client (stateOf clients keys) := by
    apply authenticate_eq_ok.mpr
    refine ⟨hclient, ClientSecretPost.verify_eq_ok_true.mpr ⟨rfl, ?_⟩⟩
    exact ⟨client, hash, rfl, hhash, hverify⟩
  obtain ⟨x, hx, hcaller, hmethod⟩ :=
    exists_authenticated (secretFields clientId secret) (by simp [secretFields]) rfl
      (fun form hget => extract_of_secret (hget _) (hget _) hidne hne (hget _) (hget _)) hauth
  refine ⟨x, hx, hcaller, ?_⟩
  rw [hmethod]
  rfl

/-- An assertion that opens a client authenticates it. -/
theorem authenticated_by_assertion {clientId assertion : String}
    (hclient : clients.get clientId = .ok (some client))
    (hopens : AssertionOpens server.assertions keys client assertion) :
    ∃ moment x, server.Authenticated moment (requestOf (assertionFields assertion))
        (stateOf clients keys) x ∧ x.caller = client ∧ x.method.name = PrivateKeyJwt.name := by
  obtain ⟨hne, moment, row, hcheck, hjti⟩ := hopens
  obtain ⟨_, rfl⟩ := ClientTable.get_eq_ok_some hclient
  obtain ⟨stored, evidence, hstored, haccepted⟩ := PrivateKeyJwt.check_eq_ok_some hcheck
  obtain rfl := Option.some.inj hstored
  have hsubject := PrivateKeyJwt.unverifiedSubject_of_accepted haccepted
  -- the table of used assertions is empty, so the row can be claimed
  obtain ⟨t, hclaimed⟩ : ∃ t, (claimAssertion row).run (stateOf clients keys) = .ok true t := by
    obtain ⟨_, hid, _⟩ := bind_eq_ok.mp hclient
    cases hinsert : (stateOf clients keys).assertionJtis.insert row with
    | none => exact absurd rfl (Table.insert_eq_none.mp hinsert)
    | some written =>
        have hrow : textParameter row.clientId = .ok () := by
          rw [haccepted.rowClientId]
          exact hid
        exact ⟨_, claimAssertion_eq_ok_true.mpr
          ⟨hrow, textParameter_eq_ok.mpr hjti, written, hinsert, rfl⟩⟩
  -- the checks read no more of the moment than its clock, and the insert can succeed
  have hauth : (authenticate { moment with claimFails := false }
      (presentedAssertion client.clientId assertion)
        (privateKeyJwt server.assertions)).run (stateOf clients keys) = .ok client t := by
    apply authenticate_eq_ok.mpr
    exact ⟨hclient, PrivateKeyJwt.verify_eq_ok_true.mpr ⟨row, hcheck, rfl, hclaimed⟩⟩
  obtain ⟨x, hx, hcaller, hmethod⟩ :=
    exists_authenticated (assertionFields assertion) (by simp [assertionFields]) rfl
      (fun form hget => extract_of_assertion (hget _) (hget _) hne hsubject (hget _) (hget _)) hauth
  refine ⟨_, x, hx, hcaller, ?_⟩
  rw [hmethod]
  rfl

/-! ## When the registered method is the one in use -/

/-- An authenticated caller was opened by a credential of the kind of the method
in use. -/
theorem Authenticated.opens (h : server.Authenticated moment request s x) :
    s.clients.get x.presented.clientId = .ok (some x.caller) ∧
      ((x.method.name = ClientSecretPost.name ∧
          ∃ secret, SecretOpens server.hasher x.caller secret) ∨
        (x.method.name = PrivateKeyJwt.name ∧
          ∃ assertion, AssertionOpens server.assertions s.clientKeys x.caller assertion)) := by
  obtain ⟨hclient, hverify⟩ := authenticate_eq_ok.mp h.caller
  refine ⟨hclient, ?_⟩
  rcases extract_cases h.presented with ⟨hmethod, hsecret, _⟩ | ⟨hmethod, hassertion, _⟩
  · rw [hmethod] at hverify ⊢
    obtain ⟨_, _, hash, hsome, hhash, hverified⟩ := ClientSecretPost.verify_eq_ok_true.mp hverify
    obtain rfl := Option.some.inj hsome
    obtain ⟨secret, _, _, hpresented, _, hne⟩ := ClientSecretPost.extract_eq_ok_some hsecret
    rw [hpresented] at hverified
    exact .inl ⟨rfl, secret, hne, hash, hhash, hverified⟩
  · rw [hmethod] at hverify ⊢
    obtain ⟨row, hcheck, _, hclaimed⟩ := PrivateKeyJwt.verify_eq_ok_true.mp hverify
    obtain ⟨_, hjti, _⟩ := claimAssertion_eq_ok_true.mp hclaimed
    obtain ⟨assertion, hne, hpresented⟩ := PrivateKeyJwt.assertion_of_extract hassertion
    obtain ⟨_, hid⟩ := ClientTable.get_eq_ok_some hclient
    refine .inr ⟨rfl, assertion, hne, moment, row, ?_, textParameter_eq_ok.mp hjti⟩
    rw [hid, ← hpresented]
    exact hcheck

theorem credentialsMatch_of_noDowngrade (h : server.NoDowngrade clients keys) :
    server.CredentialsMatch clients keys := by
  constructor
  · intro clientId client hclient secret hopens
    obtain ⟨x, hx, rfl, hname⟩ :=
      authenticated_by_secret hclient hopens keys (Example.momentAt 0 "jti")
    rw [← hname]
    exact (h _ _ _ x rfl rfl hx).symm
  · intro clientId client hclient assertion hopens
    obtain ⟨moment, x, hx, rfl, hname⟩ := authenticated_by_assertion hclient hopens
    rw [← hname]
    exact (h _ _ _ x rfl rfl hx).symm

theorem noDowngrade_of_credentialsMatch (h : server.CredentialsMatch clients keys) :
    server.NoDowngrade clients keys := by
  rintro moment request s x rfl rfl hx
  obtain ⟨hclient, hsecret | hassertion⟩ := hx.opens
  · obtain ⟨hname, secret, hopens⟩ := hsecret
    rw [hname, h.secret _ _ hclient secret hopens]
  · obtain ⟨hname, assertion, hopens⟩ := hassertion
    rw [hname, h.assertion _ _ hclient assertion hopens]

/-- Credentials of the own kind only are a sure condition, whatever argon2 and
PyJWT accept. -/
theorem HoldsOwnKind.credentialsMatch (h : HoldsOwnKind clients keys) :
    server.CredentialsMatch clients keys := by
  constructor
  · intro clientId client hclient secret hopens
    obtain ⟨_, hash, hhash, _⟩ := hopens
    apply h.secret client (ClientTable.get_eq_ok_some hclient).1
    rw [hhash]
    exact Option.some_ne_none hash
  · intro clientId client hclient assertion hopens
    obtain ⟨_, _, _, hcheck, _⟩ := hopens
    obtain ⟨stored, evidence, hstored, haccepted⟩ := PrivateKeyJwt.check_eq_ok_some hcheck
    obtain rfl := Option.some.inj hstored
    exact h.key client (ClientTable.get_eq_ok_some hclient).1 evidence.key haccepted.mem_keys
      haccepted.keyClientId

end Server

/-! ## Downgrades -/

namespace Example.RegisteredMethod

/-- The client `k` after it went over to its key: the hash of the secret it had
before is still stored. -/
def clientK : RegisteredClient := { Example.clientK with secretHash := some "argon2:secret" }

def registry : ClientTable := ⟨[clientK], by decide⟩

end Example.RegisteredMethod

/-- **When there is no downgrade.**  No request is authenticated by another
method than the registered one exactly if no client has a credential of another
kind that opens it; so it is in every registry where a secret hash and keys are
stored with the method that they belong to only. -/
theorem no_downgrade_iff (server : Server) (clients : ClientTable) (keys : ClientKeyTable) :
    (server.NoDowngrade clients keys ↔ server.CredentialsMatch clients keys) ∧
      (Server.HoldsOwnKind clients keys → server.NoDowngrade clients keys) := by
  refine ⟨⟨?_, ?_⟩, ?_⟩
  · exact Server.credentialsMatch_of_noDowngrade
  · exact Server.noDowngrade_of_credentialsMatch
  · intro h
    exact Server.noDowngrade_of_credentialsMatch h.credentialsMatch

/-- A client that registered `private_key_jwt`, and its key, is authenticated by
the secret it had before. -/
theorem left_over_secret_accepted :
    ∃ x, Example.server.Authenticated (Example.momentAt 1000 "jti")
        (Server.requestOf (Server.secretFields "k" "secret"))
        (Server.stateOf Example.RegisteredMethod.registry Example.keyring) x ∧
      x.caller = Example.RegisteredMethod.clientK ∧
      x.caller.authMethod = "private_key_jwt" ∧ x.method.name = "client_secret_post" ∧
      ¬ Example.server.NoDowngrade Example.RegisteredMethod.registry Example.keyring := by
  have hopens : SecretOpens Example.server.hasher Example.RegisteredMethod.clientK "secret" :=
    ⟨by decide, "argon2:secret", rfl, rfl⟩
  obtain ⟨x, hx, hcaller, hname⟩ := Server.authenticated_by_secret
    (show Example.RegisteredMethod.registry.get "k" =
      .ok (some Example.RegisteredMethod.clientK) from rfl)
    hopens Example.keyring (Example.momentAt 1000 "jti")
  have hregistered : x.caller.authMethod = "private_key_jwt" := by
    rw [hcaller]
    rfl
  refine ⟨x, hx, hcaller, hregistered, hname, ?_⟩
  intro h
  have hsame : x.method.name = x.caller.authMethod := h _ _ _ x rfl rfl hx
  rw [hname, hregistered] at hsame
  exact absurd hsame (by decide)

end AgentOAuth
