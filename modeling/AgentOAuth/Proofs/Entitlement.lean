import AgentOAuth.Proofs.Authority
import AgentOAuth.Proofs.Parties
import AgentOAuth.Proofs.RegisteredMethod

/-!
# What a registry entitles to

The shrink rules take authority away at every hop.  What is left can be read off
the registry (`Entitled`): some clients, all active and of one tenant, each of
which may hold the scopes, can hand a token on from one to the next until the
configured depth, if somebody is registered who may ask for an exchange at all.

This is about runs in which the registry stays as it is, clients show secrets,
and whoever acts shows a token of a login (`Settled`).  Nothing else can be
obtained in them (`entitled_of_holds`), by induction on how a token came to be.
-/

namespace AgentOAuth

open Effect Provenance Transition

namespace Server

variable {server : Server} {clients : ClientTable} {agents : List RegisteredClient}
  {client : RegisteredClient} {scopes : Finset String} {w : World} {s : ServerState}
  {moment : Moment} {request : Request} {x : Success} {y : TokenExchangeGrant.Exchange}
  {a subject actor : Signed} {d : Derivation Signed}

/-! ## Reading it off the registry -/

/-- The client can be looked up, and has a secret to show. -/
structure CanCall (server : Server) (clients : ClientTable) (client : RegisteredClient) : Prop where
  registered : clients.get client.clientId = .ok (some client)
  secret : ∃ secret, SecretOpens server.hasher client secret

/-- Tokens can be handed on between these clients. -/
structure CanHandOn (server : Server) (clients : ClientTable) (agents : List RegisteredClient) :
    Prop where
  depth : (agents.length : ℤ) ≤ server.settings.maxDelegationDepth + 1
  tenant : ∃ tenant ≠ "", ∀ client ∈ agents, client.tenant = tenant
  broker : ∃ broker, server.CanCall clients broker ∧ ∃ audience ∈ broker.allowedAudiences,
    audience ≠ ""

/-- The clients are entitled to the scopes, the last one by its login and each of
the others on behalf of those after it. -/
structure Entitled (server : Server) (clients : ClientTable) (agents : List RegisteredClient)
    (scopes : Finset String) : Prop where
  nonempty : agents ≠ []
  canCall : ∀ client ∈ agents, server.CanCall clients client
  active : ∀ client ∈ agents, client.status = .active
  allowed : ∀ client ∈ agents, scopes ⊆ client.allowedScopes
  words : ∀ scope ∈ scopes, IsWord scope
  handsOn : 1 < agents.length → server.CanHandOn clients agents

/-- The credential that the request presents is a secret. -/
def ShowsSecret (server : Server) (request : Request) : Prop :=
  ∀ form found, readTokenForm server.interpreter request = .ok form →
    server.authMethods.extract form = .ok found → found.2.name = ClientSecretPost.name

/-- Requests meet this registry and show secrets, and actors show tokens of
logins. -/
def Settled (server : Server) (clients : ClientTable) (w : World) : Event → Prop
  | .request _ request => w.state.clients = clients ∧ server.ShowsSecret request
  | .exchange _ request _ actor =>
      w.state.clients = clients ∧ server.ShowsSecret request ∧ ∃ a, actor = .root a
  | _ => True

/-! ## Nothing else can be obtained -/

theorem Authenticated.canCall {login : Login} (h : server.Authenticated moment request s login)
    (hshows : server.ShowsSecret request) : server.CanCall s.clients login.caller := by
  obtain ⟨hclient, hopened⟩ := h.opens
  have hname := hshows _ _ h.form h.presented
  rcases hopened with ⟨_, hsecret⟩ | ⟨hmethod, _⟩
  · rw [(ClientTable.get_eq_ok_some hclient).2.symm] at hclient
    exact ⟨hclient, hsecret⟩
  · -- an assertion was accepted, but a secret was shown
    rw [hmethod] at hname
    exact absurd hname (by decide)

/-- The scopes of a token are words. -/
theorem isWord_of_mem_scopes {scope : String} (h : scope ∈ a.scopes) : IsWord scope := by
  unfold Signed.scopes at h
  split at h
  · next scopes hscopes =>
      exact (parseScopeClaim_words hscopes).1 scope (List.mem_toFinset.mp h)
  · simp at h

theorem RootIssue.scopes_subset (h : server.RootIssue s moment request x a) :
    a.scopes ⊆ x.login.caller.allowedScopes := by
  rw [Signed.scopes_eq h.parse_scope]
  exact fun scope hscope => h.scope_allowed (List.mem_toFinset.mp hscope)

theorem HopIssue.scopes_subset (h : server.HopIssue s moment request subject actor x y a) :
    a.scopes ⊆ y.actorClient.allowedScopes := by
  rw [Signed.scopes_eq h.parse_scope]
  exact fun scope hscope => (h.mem_scopes.mp (List.mem_toFinset.mp hscope)).2.2

/-- The registration that an exchange finds for the token of a login is that of
whoever logged in. -/
theorem HopIssue.actorClient_eq {s' : ServerState} {moment' : Moment} {request' : Request}
    {x' : Success} (h : server.HopIssue s moment request subject actor x y a)
    (hactor : server.RootIssue s' moment' request' x' actor)
    (hcaller : s.clients.get x'.login.caller.clientId = .ok (some x'.login.caller)) :
    y.actorClient = x'.login.caller := by
  have hclient := h.admitted.actorClient
  have hid : Dict.get actor.claims "client_id" = .str x'.login.caller.clientId :=
    hactor.signedFrom.clientId
  rw [h.actorClaims, TokenExchangeGrant.actorClient, hid] at hclient
  simp only [hcaller] at hclient
  exact (Except.ok.inj hclient).symm

/-- The subject token of an exchange names a tenant. -/
theorem HopIssue.tenant_ne (h : server.HopIssue s moment request subject actor x y a)
    {tenant : String} (htenant : Dict.get subject.claims TENANT_CLAIM = .str tenant) :
    tenant ≠ "" := by
  obtain ⟨_, hread⟩ := TokenExchangeGrant.agreedTenant_eq_ok.mp h.admitted.tenant
  rw [h.subjectClaims] at hread
  rcases hread with hnone | hsome
  · simp [optionalText_eq_none.mp hnone] at htenant
  · obtain ⟨hclaim, hne⟩ := optionalText_eq_some.mp hsome
    rwa [Value.str.inj (htenant.symm.trans hclaim)]

theorem HopIssue.audience_allowed (h : server.HopIssue s moment request subject actor x y a) :
    ∃ audience ∈ x.login.caller.allowedAudiences, audience ≠ "" := by
  have haudience := h.admitted.audience
  simp only [TokenExchangeGrant.requiredAudience, bind_eq_ok, raiseIf_eq_ok, not_not,
    pure_eq_ok] at haudience
  obtain ⟨audience, hrequire, _, hallowed, _⟩ := haudience
  exact ⟨audience, hallowed, (TokenForm.require_eq_ok.mp hrequire).2⟩

/-- **Behind every token there are clients entitled to it.** -/
theorem entitled_of_holds
    (h : d.Holds (server.RootIssued (server.Settled clients))
      (server.HopIssued (server.Settled clients))) :
    ∃ agents tenant, server.Entitled clients agents d.value.scopes ∧
      d.vias.map Signed.subject ++ [d.source.subject] = agents.map RegisteredClient.subject ∧
      Dict.get d.value.claims TENANT_CLAIM = .str tenant ∧
      ∀ client ∈ agents, client.tenant = tenant := by
  induction h with
  | @root a ha =>
      obtain ⟨w, moment, request, x, _, ⟨rfl, hshows⟩, hissue⟩ := ha
      have hcall := hissue.succeeds.login.canCall hshows
      refine ⟨[x.login.caller], x.login.caller.tenant, ?_, ?_, hissue.tenant, by simp⟩
      · refine ⟨by simp, by simpa using hcall, by simpa using hissue.active,
          by simpa using hissue.scopes_subset, fun scope => isWord_of_mem_scopes, by simp⟩
      · simp [Derivation.vias, Derivation.source, Signed.subject_eq hissue.sub]
  | @derived a p v hp hv ha ihp _ =>
      have hhistory := history_of_holds (.derived hp hv ha)
      obtain ⟨agents, tenant, hentitled, hnames, htenant, hall⟩ := ihp
      have hsubset := scopes_subset_of_hop ha
      obtain ⟨w, moment, request, x, y, _, _, _, ⟨rfl, hshows, b, rfl⟩, hissue⟩ := ha
      -- the actor has logged in under the same registry
      obtain ⟨ha'⟩ | _ := hv
      obtain ⟨w', moment', request', x', _, ⟨hclients, hshows'⟩, hactor⟩ := ha'
      have hcall := hactor.succeeds.login.canCall hshows'
      rw [hclients] at hcall
      have hclient := hissue.actorClient_eq hactor hcall.registered
      obtain ⟨hissued, hsame⟩ := hissue.tenant_eq htenant
      rw [hclient] at hsame
      have htenants : ∀ client ∈ x'.login.caller :: agents, client.tenant = tenant :=
        List.forall_mem_cons.mpr ⟨hsame, hall⟩
      refine ⟨x'.login.caller :: agents, tenant, ⟨by simp, ?_, ?_, ?_, ?_, fun _ => ?_⟩, ?_, ?_,
        htenants⟩
      · exact List.forall_mem_cons.mpr ⟨hcall, hentitled.canCall⟩
      · exact List.forall_mem_cons.mpr ⟨hactor.active, hentitled.active⟩
      · refine List.forall_mem_cons.mpr ⟨hclient ▸ hissue.scopes_subset, fun client hmem => ?_⟩
        exact hsubset.trans (hentitled.allowed client hmem)
      · exact fun scope => isWord_of_mem_scopes
      · refine ⟨?_, ⟨tenant, hissue.tenant_ne htenant, htenants⟩, ?_⟩
        · have hhops : (p.hops : ℤ) + 1 ≤ server.settings.maxDelegationDepth := by
            simpa [Derivation.hops] using hhistory.hops_le
          have hlength := congrArg List.length hnames
          simp only [List.length_append, List.length_map, List.length_singleton,
            Derivation.vias_length] at hlength
          rw [List.length_cons, ← hlength]
          push_cast
          linarith
        · exact ⟨_, hissue.succeeds.login.canCall hshows, hissue.audience_allowed⟩
      · simp [Derivation.vias, Derivation.source, hnames, Signed.subject_eq hactor.sub]
      · rw [Derivation.value_derived, hissue.tenant, hissued]

end Server

end AgentOAuth
