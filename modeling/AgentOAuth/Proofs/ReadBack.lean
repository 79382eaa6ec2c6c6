import AgentOAuth.Proofs.ActorRegistration

/-!
# Reading back what was issued

The pipeline leaves a claim out when it is `None`; the readers of an exchange
refuse the empty string as well.  The two agree on every claim of an issued
token but the tenant, which `RegisteredClient` and the table accept empty: a
token reads back exactly when the tenant that was written is not
(`reads_back_iff`), which is so in every run whose registries name one for
every client (`tokens_read_back`).
-/

namespace AgentOAuth

open Effect Provenance Transition

/-- An optional text that was written reads back unless it is empty. -/
theorem optionalText_of_written {claims : Dict} {name : String} {written : Option String}
    (h : Dict.get claims name = (written.map Value.str).getD .null) :
    optionalText claims name = .ok written ↔ written ≠ some "" := by
  cases written with
  | none => simpa using optionalText_eq_none.mpr h
  | some value =>
      rw [optionalText_eq_some, h]
      simp

/-- A reader of optional texts never returns the empty one. -/
theorem ne_of_optionalText {claims : Dict} {name : String} {text : Option String}
    (h : optionalText claims name = .ok text) : text ≠ some "" := by
  rintro rfl
  exact (optionalText_eq_some.mp h).2 rfl

theorem TokenExchangeGrant.mem_of_actorClient {clients : ClientTable} {claims : Dict}
    {client : RegisteredClient} (h : actorClient clients claims = .ok client) :
    client ∈ clients := by
  obtain ⟨stored, hstored, hclient⟩ := bind_eq_ok.mp h
  cases stored with
  | none => cases hclient
  | some stored =>
      obtain rfl := pure_eq_ok.mp hclient
      split at hstored
      · exact (ClientTable.get_eq_ok_some hstored).1
      · cases hstored

namespace Example.ReadBack

/-- R, registered without a tenant. -/
def clientU : RegisteredClient := { clientR with tenant := "" }

def rootU : BookEntry := entry "U" 1000 1600
  [("sub", .str "root"), ("aud", .str "agent-resource"), ("client_id", .str "r"),
    ("delegation_depth", .int 0), ("scope", .str "x"), ("task_id", .str "task"),
    ("tenant", .str "")]

def serverU : Server := { server with jwt := TokenBook.pyJwt ⟨[rootU], by decide⟩ [] }

def startU : World := { state := { clients := ⟨[clientU], by decide⟩ } }

def eventU : Event := .request (momentAt 1000 "U") (ask "r" "x")

end Example.ReadBack

namespace Server

variable {server : Server} {w : World} {s : ServerState} {moment : Moment} {request : Request}
  {d : Derivation Signed} {result : GrantResult} {a : Signed}

/-- The token was issued, somewhere in a run, for what a grant resolved to. -/
def IssuedFor (server : Server) (a : Signed) (result : GrantResult) : Prop :=
  ∃ w moment request x, server.system.Reachable w ∧ server.Succeeds moment request w.state x ∧
    x.result = result ∧ a = x.token

/-- Every reader of an exchange returns, and returns what the grant wrote. -/
structure ReadsBack (a : Signed) (result : GrantResult) : Prop where
  chain : Returns (chain a.claims)
  depth : declaredDepth a.claims = .ok result.delegationDepth
  task : taskOf a.claims = .ok result.taskId
  tenant : tenantOf a.claims = .ok result.tenant
  mayAct : ∀ actor, Returns (mayActPermits a.claims actor)

/-- Every client of the registry has a tenant. -/
def TenantsNamed (w : World) (_ : Event) : Prop :=
  ∀ client ∈ w.state.clients, client.tenant ≠ ""

/-- No grant writes an empty task. -/
theorem Succeeds.taskId_ne {x : Success} (h : server.Succeeds moment request s x) :
    x.result.taskId ≠ some "" := by
  rcases h.result_cases with ⟨_, hresult⟩ | ⟨y, _, hy, hresult⟩ <;> rw [hresult]
  · exact fun hempty => moment.taskId_ne (Option.some.inj hempty)
  · exact ne_of_optionalText hy.taskId

/-- The tenant that is written is that of a registered client. -/
theorem Succeeds.tenant_registered {x : Success} (h : server.Succeeds moment request s x) :
    ∃ client ∈ s.clients, x.result.tenant = some client.tenant := by
  rcases h.result_cases with ⟨_, hresult⟩ | ⟨y, _, hy, hresult⟩ <;> rw [hresult]
  · exact ⟨_, h.login.caller_mem, rfl⟩
  · refine ⟨_, TokenExchangeGrant.mem_of_actorClient hy.actorClient, ?_⟩
    exact congrArg some (TokenExchangeGrant.agreedTenant_eq_ok.mp hy.tenant).1

/-- Every token of a run was issued for something, in a step the run allows. -/
theorem issuedFor_of_holds {allowed : World → Event → Prop}
    (h : d.Holds (server.RootIssued allowed) (server.HopIssued allowed)) :
    ∃ w e moment request x, server.system.Reachable w ∧ allowed w e ∧
      server.Succeeds moment request w.state x ∧ d.value = x.token := by
  cases h with
  | root ha =>
      obtain ⟨w, moment, request, x, hw, hallowed, hissue⟩ := ha
      exact ⟨w, _, moment, request, x, hw, hallowed, hissue.succeeds, hissue.value⟩
  | derived _ _ ha =>
      obtain ⟨w, moment, request, x, y, hw, _, _, hallowed, hissue⟩ := ha
      exact ⟨w, _, moment, request, x, hw, hallowed, hissue.succeeds, hissue.value⟩

/-- **A token reads back exactly when its tenant is not empty**, whatever it was
issued for. -/
theorem reads_back_iff (hw : server.system.Reachable w) (hd : d ∈ w.issued)
    (hissued : server.IssuedFor d.value result) :
    ReadsBack d.value result ↔ result.tenant ≠ some "" := by
  have hhistory := history_of_holds (issued_holds_of_reachable hw d hd)
  obtain ⟨_, moment, request, x, _, hx, rfl, hvalue⟩ := hissued
  have hsigned := hx.signedFrom
  have hclaims : d.value.claims = x.payload := by rw [hvalue, Success.claims_token]
  have htenant : tenantOf d.value.claims = .ok x.result.tenant ↔ x.result.tenant ≠ some "" := by
    rw [hclaims]
    exact optionalText_of_written hsigned.tenant
  constructor
  · intro h
    exact htenant.mp h.tenant
  · intro hne
    refine ⟨⟨_, hhistory.chain⟩, ?_, ?_, htenant.mpr hne, fun actor => ?_⟩
    · have hdepth := hhistory.depth
      rw [hclaims, hsigned.depth, Value.int.injEq] at hdepth
      rw [hhistory.declaredDepth, hdepth]
    · rw [hclaims]
      exact (optionalText_of_written hsigned.task).mpr hx.taskId_ne
    · rw [hclaims, mayActPermits, hsigned.mayAct]
      exact returns_ok true

/-- The tenant that was written can be told from the token. -/
theorem Succeeds.tenant_eq {x x' : Success} {s' : ServerState} {moment' : Moment}
    {request' : Request} (h : server.Succeeds moment request s x)
    (h' : server.Succeeds moment' request' s' x') (htoken : x.token = x'.token) :
    x.result.tenant = x'.result.tenant := by
  obtain ⟨client, _, hclient⟩ := h.tenant_registered
  obtain ⟨client', _, hclient'⟩ := h'.tenant_registered
  have hpayload : x.payload = x'.payload := congrArg Signed.claims htoken
  have hclaim := h.signedFrom.tenant
  rw [hpayload, h'.signedFrom.tenant, hclient, hclient'] at hclaim
  rw [hclient, hclient', Value.str.inj hclaim]

/-- **Every issued token can be read back for exchange** in every run whose
registries have a tenant for every client; in any run a token can exactly when
the tenant that was written is not empty. -/
theorem tokens_read_back (server : Server) :
    (∀ w, (server.system.restrict TenantsNamed).Reachable w → ∀ d ∈ w.issued,
      (∃ result, server.IssuedFor d.value result) ∧
        ∀ result, server.IssuedFor d.value result → ReadsBack d.value result) ∧
    ∀ w, server.system.Reachable w → ∀ d ∈ w.issued, ∀ result, server.IssuedFor d.value result →
      (ReadsBack d.value result ↔ result.tenant ≠ some "") := by
  constructor
  · intro w hw d hd
    obtain ⟨w', _, moment, request, x, hw', hnamed, hx, hvalue⟩ :=
      issuedFor_of_holds (issued_holds hw d hd)
    refine ⟨⟨x.result, w', moment, request, x, hw', hx, rfl, hvalue⟩, fun result hissued => ?_⟩
    apply (reads_back_iff hw.of_restrict hd hissued).mpr
    obtain ⟨_, _, _, x', _, hx', rfl, hvalue'⟩ := hissued
    obtain ⟨client, hclient, htenant⟩ := hx.tenant_registered
    rw [hx'.tenant_eq hx (hvalue'.symm.trans hvalue), htenant]
    exact fun hempty => hnamed client hclient (Option.some.inj hempty)
  · intro w hw d hd result hissued
    exact reads_back_iff hw hd hissued

theorem tokens_read_back_treeR :
    ∃ result, Example.server.IssuedFor Example.treeR.value result ∧
      ReadsBack Example.treeR.value result := by
  have hreachable : (Example.server.system.restrict TenantsNamed).Reachable
      (Example.after Example.events) := by
    refine Example.events_reachable_under.restrict_mono fun w _ hregistry => ?_
    have hnamed : ∀ client ∈ Example.registry.rows, client.tenant ≠ "" := by decide
    intro client hclient
    rw [hregistry] at hclient
    exact hnamed client hclient
  have hmem : Example.treeR ∈ (Example.after Example.events).issued := by
    simp [Example.issued_after]
  obtain ⟨⟨result, hissued⟩, hread⟩ := (tokens_read_back Example.server).1 _ hreachable _ hmem
  exact ⟨result, hissued, hread result hissued⟩

/-- A client without a tenant gets a token that cannot be exchanged. -/
theorem empty_tenant_not_read_back :
    ∃ w, Example.ReadBack.serverU.system.Reachable w ∧
      ∃ d ∈ w.issued, d = .root (Example.signed Example.ReadBack.rootU) ∧
        tenantOf d.value.claims = .error (.malformedChain "tenant must be a non-empty string") ∧
        (∃ result, Example.ReadBack.serverU.IssuedFor d.value result ∧ result.tenant = some "") ∧
        ∀ result, ¬ ReadsBack d.value result := by
  have hreplay : (Example.ReadBack.serverU.system.replay Example.ReadBack.startU
      [Example.ReadBack.eventU]).map World.issued =
        some [.root (Example.signed Example.ReadBack.rootU)] := by
    decide +kernel
  obtain ⟨w, hw, hissued⟩ := Option.map_eq_some_iff.mp hreplay
  have hreachable : Example.ReadBack.serverU.system.Reachable w :=
    System.Reachable.replay (.init ⟨rfl, rfl, rfl⟩) hw
  have hmem : .root (Example.signed Example.ReadBack.rootU) ∈ w.issued := by simp [hissued]
  have hrefused : tenantOf (Example.signed Example.ReadBack.rootU).claims =
      .error (.malformedChain "tenant must be a non-empty string") := by
    decide +kernel
  refine ⟨w, hreachable, _, hmem, rfl, hrefused, ?_, fun result hread => ?_⟩
  · obtain ⟨w', _, moment, request, x, hw', _, hx, hvalue⟩ :=
      issuedFor_of_holds (issued_holds_of_reachable hreachable _ hmem)
    refine ⟨x.result, ⟨w', moment, request, x, hw', hx, rfl, hvalue⟩, ?_⟩
    have hclaim : Dict.get x.payload TENANT_CLAIM = .str "" := by
      rw [← Success.claims_token, ← hvalue]
      decide +kernel
    obtain ⟨client, _, htenant⟩ := hx.tenant_registered
    rw [hx.signedFrom.tenant, htenant] at hclaim
    rw [htenant, Value.str.inj hclaim]
  · have hread := hread.tenant
    rw [Derivation.value_root, hrefused] at hread
    cases hread

end Server

end AgentOAuth
