import AgentOAuth.Model.TokenBook

/-!
# What the issue of one token says

The signed claims of a root (`RootIssue`) and of a derived token (`HopIssue`)
in terms of the caller, the two presented tokens and the registry.  The run
results need nothing else about the code.
-/

namespace AgentOAuth

open Provenance

/-- The subject a token names. -/
def Signed.subject (a : Signed) : String :=
  match Dict.get a.claims "sub" with
  | .str subject => subject
  | _ => ""

/-- The second a token expires. -/
def Signed.exp (a : Signed) : ℤ :=
  match Dict.get a.claims "exp" with
  | .int exp => exp
  | _ => 0

theorem Signed.exp_eq {a : Signed} {exp : ℤ} (h : Dict.get a.claims "exp" = .int exp) :
    a.exp = exp := by
  rw [Signed.exp, h]

/-- The scopes a token holds. -/
def Signed.scopes (a : Signed) : Finset String :=
  match parseScopeClaim (Dict.get a.claims "scope") with
  | .ok scopes => scopes.toFinset
  | .error _ => ∅

theorem Signed.scopes_eq {a : Signed} {scopes : List String}
    (h : parseScopeClaim (Dict.get a.claims "scope") = .ok scopes) :
    a.scopes = scopes.toFinset := by
  rw [Signed.scopes, h]

theorem Signed.subject_eq {a : Signed} {subject : String}
    (h : Dict.get a.claims "sub" = .str subject) : a.subject = subject := by
  rw [Signed.subject, h]

namespace Server

variable {server : Server} {s : ServerState} {moment : Moment} {request : Request}
  {x : Success} {y : TokenExchangeGrant.Exchange} {a subject actor : Signed}

/-! ## Scopes -/

/-- Every scope a grant asks for is a word, and none is asked for twice. -/
theorem Succeeds.requestedScopes_words (h : server.Succeeds moment request s x) :
    (∀ scope ∈ x.result.requestedScopes, IsWord scope) ∧ x.result.requestedScopes.Nodup := by
  rcases h.result_cases with ⟨_, hresult⟩ | ⟨y, _, hy, hresult⟩ <;> rw [hresult]
  · exact ⟨fun _ => isWord_of_mem_parseScope, parseScope_nodup _⟩
  · obtain ⟨hwords, hnodup⟩ := parseScopeClaim_words hy.subjectScopes
    simp only [TokenExchangeGrant.Exchange.result, TokenExchangeGrant.requestedScopes]
    split
    · exact ⟨fun scope hscope => hwords scope (mem_sorted.mp hscope), sorted_nodup hnodup⟩
    · exact ⟨fun _ => isWord_of_mem_parseScope, parseScope_nodup _⟩

/-- **The scope claim reads back as what was granted.** -/
theorem Succeeds.parse_scope (h : server.Succeeds moment request s x) :
    parseScopeClaim (Dict.get x.payload "scope") = .ok x.issuance.grantedScopes := by
  obtain ⟨hwords, hnodup⟩ := h.requestedScopes_words
  obtain ⟨hgranted, _⟩ := attenuate_eq_ok.mp h.prepared.granted
  have hwords' : ∀ scope ∈ x.issuance.grantedScopes, IsWord scope := by
    intro scope hscope
    rw [hgranted] at hscope
    exact hwords scope (mem_allowedBy.mp hscope).1
  have hnodup' : x.issuance.grantedScopes.Nodup := by
    rw [hgranted]
    exact hnodup.filter _
  rw [h.signedFrom.scope, IssuancePipeline.Issuance.scope]
  split
  · next hempty =>
      rw [(joinSpaces_eq_empty_iff hwords').mp hempty]
      rfl
  · exact congrArg Except.ok (parseScope_joinSpaces hwords' hnodup')

theorem Succeeds.mem_grantedScopes (h : server.Succeeds moment request s x) {scope : String} :
    scope ∈ x.issuance.grantedScopes ↔
      scope ∈ x.result.requestedScopes ∧ ∀ ceiling ∈ x.result.ceilings, scope ∈ ceiling := by
  rw [(attenuate_eq_ok.mp h.prepared.granted).1, mem_allowedBy]

/-! ## Lifetimes -/

/-- The signed lifetime of a token is at most the configured one. -/
theorem Succeeds.lifetime (h : server.Succeeds moment request s x) :
    ∃ exp iat : ℤ, Dict.get x.payload "exp" = .int exp ∧ Dict.get x.payload "iat" = .int iat ∧
      exp - iat ≤ server.settings.accessTokenTtlSeconds := by
  refine ⟨_, _, h.signedFrom.exp, h.signedFrom.iat, ?_⟩
  have hle : server.pipeline.minter.expiresAt moment.minted none x.result.maxExpiresAt ≤
      moment.minted + server.settings.accessTokenTtlSeconds :=
    TokenMinter.expiresAt_le_ttl _ _ _ _
  have hfloor := Int.floor_le_floor hle
  rw [Int.floor_add_intCast] at hfloor
  omega

/-! ## The caller -/

/-- The caller is a stored client. -/
theorem Authenticated.caller_mem {login : Login}
    (h : server.Authenticated moment request s login) : login.caller ∈ s.clients :=
  (ClientTable.get_eq_ok_some (authenticate_eq_ok.mp h.caller).1).1

/-! ## Roots -/

namespace RootIssue

theorem signedFrom (h : server.RootIssue s moment request x a) :
    server.pipeline.SignedFrom moment
      (ClientCredentialsGrant.result moment x.login.form x.login.caller) x.issuance.scope a.claims := by
  rw [h.value, ← h.result]
  exact h.succeeds.signedFrom

theorem sub (h : server.RootIssue s moment request x a) :
    Dict.get a.claims "sub" = .str x.login.caller.subject := h.signedFrom.sub

theorem act (h : server.RootIssue s moment request x a) : Dict.get a.claims ACT_CLAIM = .null :=
  h.signedFrom.act

theorem depth (h : server.RootIssue s moment request x a) :
    Dict.get a.claims DEPTH_CLAIM = .int 0 := h.signedFrom.depth

theorem tenant (h : server.RootIssue s moment request x a) :
    Dict.get a.claims TENANT_CLAIM = .str x.login.caller.tenant := h.signedFrom.tenant

theorem parse_scope (h : server.RootIssue s moment request x a) :
    parseScopeClaim (Dict.get a.claims "scope") = .ok x.issuance.grantedScopes := by
  rw [h.value]
  exact h.succeeds.parse_scope

/-- A root holds no scope its client may not hold. -/
theorem scope_allowed (h : server.RootIssue s moment request x a) {scope : String}
    (hscope : scope ∈ x.issuance.grantedScopes) : scope ∈ x.login.caller.allowedScopes := by
  have hceilings := (h.succeeds.mem_grantedScopes.mp hscope).2
  rw [h.result] at hceilings
  exact hceilings _ List.mem_cons_self

theorem chain_eq (h : server.RootIssue s moment request x a) :
    chain a.claims = .ok [x.login.caller.subject] :=
  chain_eq_ok.mpr ⟨_, [], h.sub, x.login.caller.subject_ne, h.act ▸ .nil,
    by decide, rfl⟩

end RootIssue

/-! ## Derived tokens -/

namespace HopIssue

theorem signedFrom (h : server.HopIssue s moment request subject actor x y a) :
    server.pipeline.SignedFrom moment (y.result x.login.form x.login.caller) x.issuance.scope
      a.claims := by
  rw [h.value, ← h.result]
  exact h.succeeds.signedFrom

/-- The new token names the actor. -/
theorem sub (h : server.HopIssue s moment request subject actor x y a) :
    Dict.get a.claims "sub" = .str y.actorSubject := h.signedFrom.sub

theorem actor_sub (h : server.HopIssue s moment request subject actor x y a) :
    Dict.get actor.claims "sub" = .str y.actorSubject := by
  rw [← h.actorClaims]
  exact h.admitted.actorSubject

theorem act (h : server.HopIssue s moment request subject actor x y a) :
    Dict.get a.claims ACT_CLAIM = .dict y.act := h.signedFrom.act

theorem depth (h : server.HopIssue s moment request subject actor x y a) :
    Dict.get a.claims DEPTH_CLAIM = .int (y.declared + 1) := h.signedFrom.depth

theorem tenant (h : server.HopIssue s moment request subject actor x y a) :
    Dict.get a.claims TENANT_CLAIM = .str y.tenant := h.signedFrom.tenant

theorem parse_scope (h : server.HopIssue s moment request subject actor x y a) :
    parseScopeClaim (Dict.get a.claims "scope") = .ok x.issuance.grantedScopes := by
  rw [h.value]
  exact h.succeeds.parse_scope

theorem subject_scopes (h : server.HopIssue s moment request subject actor x y a) :
    parseScopeClaim (Dict.get subject.claims "scope") = .ok y.subjectScopes := by
  rw [← h.subjectClaims]
  exact h.admitted.subjectScopes

/-- **The scopes of a hop**: what was asked for, the subject token holds, and
the registration of the actor's token may hold. -/
theorem mem_scopes (h : server.HopIssue s moment request subject actor x y a) {scope : String} :
    scope ∈ x.issuance.grantedScopes ↔
      scope ∈ TokenExchangeGrant.requestedScopes x.login.form y.subjectScopes ∧
        scope ∈ y.subjectScopes ∧ scope ∈ y.actorClient.allowedScopes := by
  rw [h.succeeds.mem_grantedScopes, h.result]
  simp [TokenExchangeGrant.Exchange.result]

/-- **One hop extends the chain by the actor.** -/
theorem chain_eq (h : server.HopIssue s moment request subject actor x y a)
    {identities : List String} (hchain : chain subject.claims = .ok identities)
    (hne : y.actorSubject ≠ "") : chain a.claims = .ok (y.actorSubject :: identities) := by
  rw [← h.subjectClaims] at hchain
  obtain ⟨_, _, identities', hchain', hdeclared⟩ := declaredDepth_eq_ok.mp h.admitted.declared
  obtain rfl : identities = identities' := by simpa [hchain] using hchain'
  refine chain_of_nest hchain h.admitted.act h.sub hne h.act ?_
  have hle := h.admitted.depth_le
  have hmax := server.settings.maxDelegationDepth_mem.2
  change y.declared + 1 ≤ server.settings.maxDelegationDepth at hle
  unfold MAXIMUM_CHAIN_DEPTH
  omega

/-- A derived token does not outlive the token it was derived from. -/
theorem exp_le (h : server.HopIssue s moment request subject actor x y a) {exp : ℤ}
    (hexp : Dict.get subject.claims "exp" = .int exp) :
    ∃ exp', Dict.get a.claims "exp" = .int exp' ∧ exp' ≤ exp := by
  refine ⟨_, h.signedFrom.exp, ?_⟩
  have hmax := h.admitted.maxExpiresAt
  rw [h.subjectClaims, hexp] at hmax
  -- whole seconds survive the rounding of `fromtimestamp`
  obtain ⟨t, ht, _, _, hround, _⟩ := fromTimestamp_eq_ok.mp hmax
  obtain rfl : (exp : ℚ) = t := by simpa [Value.number?] using ht
  rw [roundMicroseconds_intCast] at hround
  have hle : server.pipeline.minter.expiresAt moment.minted none (some y.maxExpiresAt) ≤
      y.maxExpiresAt := TokenMinter.expiresAt_le_ceiling _ _ _ _
  calc ⌊server.pipeline.minter.expiresAt moment.minted none (some y.maxExpiresAt)⌋
      ≤ ⌊y.maxExpiresAt⌋ := Int.floor_le_floor hle
    _ = exp := by rw [hround, Int.floor_intCast]

end HopIssue

end Server

end AgentOAuth
