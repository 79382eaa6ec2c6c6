import AgentOAuth.Proofs.Issue

/-!
# What holds along a lineage

The delegation chain of a token is its derivation history (`chain_is_history`),
its scopes and its lifetime only shrink (`scope_ratchet`, `lifetime_ratchet`).
Each result is a fact about one hop, carried along the parent line by
`Derivation.Holds`.
-/

namespace AgentOAuth

open Provenance

namespace Server

variable {server : Server} {w : World}

/-! ## Chain and depth -/

/-- The claims of a token tell how it came to be. -/
structure History (maximumDepth : ℤ) (d : Derivation Signed) : Prop where
  sub : Dict.get d.value.claims "sub" = .str d.value.subject
  chain : chain d.value.claims = .ok (d.vias.map Signed.subject ++ [d.source.subject])
  depth : Dict.get d.value.claims DEPTH_CLAIM = .int d.hops
  hops_le : d.hops ≤ maximumDepth

theorem History.declaredDepth {maximumDepth : ℤ} {d : Derivation Signed}
    (h : History maximumDepth d) : declaredDepth d.value.claims = .ok d.hops :=
  declaredDepth_eq_ok.mpr ⟨h.depth, by positivity, _, h.chain, by simp⟩

/-- A token whose chain can be read names a subject. -/
theorem History.subject_ne {maximumDepth : ℤ} {d : Derivation Signed} (h : History maximumDepth d) :
    d.value.subject ≠ "" := by
  obtain ⟨subject, _, hsub, hne, _⟩ := chain_eq_ok.mp h.chain
  obtain rfl : subject = d.value.subject := by simpa [h.sub] using hsub.symm
  exact hne

theorem history_of_holds {allowed : World → Event → Prop} {d : Derivation Signed}
    (h : d.Holds (server.RootIssued allowed) (server.HopIssued allowed)) :
    History server.settings.maxDelegationDepth d := by
  induction h with
  | @root a ha =>
      obtain ⟨_, _, _, x, _, _, hissue⟩ := ha
      have hsubject : a.subject = x.login.caller.subject := Signed.subject_eq hissue.sub
      refine ⟨hsubject ▸ hissue.sub, ?_, hissue.depth, ?_⟩
      · simpa [Derivation.vias, Derivation.source, hsubject] using hissue.chain_eq
      · have := server.settings.maxDelegationDepth_mem.1
        simp only [Derivation.hops]
        omega
  | @derived a p v _ _ ha ihp ihv =>
      obtain ⟨_, _, _, x, y, _, _, _, _, hissue⟩ := ha
      -- `ihp` gives the chain and the depth of the subject, `ihv` the name of the actor
      have hactor : v.value.subject = y.actorSubject := Signed.subject_eq hissue.actor_sub
      have hsubject : a.subject = y.actorSubject := Signed.subject_eq hissue.sub
      have hdeclared : y.declared = p.hops := by
        have h := hissue.admitted.declared
        rw [hissue.subjectClaims, ihp.declaredDepth] at h
        exact (Except.ok.inj h).symm
      refine ⟨?_, ?_, ?_, ?_⟩
      · rw [Derivation.value_derived, hsubject, hissue.sub]
      · have hchain := hissue.chain_eq ihp.chain (hactor ▸ ihv.subject_ne)
        simpa [Derivation.vias, Derivation.source, hactor] using hchain
      · rw [Derivation.value_derived, hissue.depth, hdeclared]
        simp [Derivation.hops]
      · have hle : y.declared + 1 ≤ server.settings.maxDelegationDepth := hissue.admitted.depth_le
        rw [hdeclared] at hle
        simpa [Derivation.hops] using hle

/-- Everyone in a lineage is named by a string. -/
theorem sub_of_holds {allowed : World → Event → Prop} {d : Derivation Signed}
    (h : d.Holds (server.RootIssued allowed) (server.HopIssued allowed)) :
    ∀ a ∈ d.source :: d.vias, Dict.get a.claims "sub" = .str a.subject := by
  induction h with
  | root ha =>
      simpa [Derivation.source, Derivation.vias] using (history_of_holds (.root ha)).sub
  | derived _ hv _ ihp _ =>
      intro a ha
      rcases List.mem_cons.mp ha with rfl | ha
      · exact ihp _ List.mem_cons_self
      · rcases List.mem_cons.mp ha with rfl | ha
        · exact (history_of_holds hv).sub
        · exact ihp _ (List.mem_cons_of_mem _ ha)

/-- An exchange of a token at the maximum depth does not resolve. -/
theorem not_admitted_of_hops {d : Derivation Signed}
    (hhistory : History server.settings.maxDelegationDepth d)
    (hgenuine : server.Genuine d.value) (hhops : d.hops = server.settings.maxDelegationDepth)
    {clients : ClientTable} {moment : Moment} {form : TokenForm} {caller : RegisteredClient}
    {y : TokenExchangeGrant.Exchange} (hform : form.get "subject_token" = some d.value.token) :
    ¬ server.exchange.Admitted clients moment form caller y := by
  intro hadmitted
  have htoken : y.subjectToken = d.value.token := by
    simpa [hform] using (TokenForm.require_eq_ok.mp hadmitted.subjectToken).1.symm
  have hclaims := verify_claims hadmitted.subjectClaims
  rw [htoken, hgenuine, Except.ok.injEq] at hclaims
  have hdeclared := hadmitted.declared
  rw [← hclaims, hhistory.declaredDepth, Except.ok.injEq] at hdeclared
  have hle : y.declared + 1 ≤ server.settings.maxDelegationDepth := hadmitted.depth_le
  omega

/-- **The delegation chain is the derivation history.**  The chain of every
issued token lists the actors of its lineage, newest first, and then the
subject of the root; both depth counters count its hops, and stay under the
configured maximum.  A token at the maximum cannot be exchanged, and the
attempt signs and records nothing. -/
theorem chain_is_history (hw : server.system.Reachable w) {d : Derivation Signed}
    (hd : d ∈ w.issued) :
    (∀ a ∈ d.source :: d.vias, Dict.get a.claims "sub" = .str a.subject) ∧
      chain d.value.claims = .ok (d.vias.map Signed.subject ++ [d.source.subject]) ∧
      root d.value.claims = .ok d.source.subject ∧
      declaredDepth d.value.claims = .ok d.hops ∧
      depth d.value.claims = .ok d.hops ∧
      d.hops ≤ server.settings.maxDelegationDepth ∧
      (∃ act, nest d.value.claims = .ok act) ∧
      (d.hops = server.settings.maxDelegationDepth → ∀ moment request form,
        readTokenForm server.interpreter request = .ok form →
          form.get "grant_type" = some GRANT_TYPE →
            form.get "subject_token" = some d.value.token →
              ∃ e t, (server.getOauthToken moment request).run w.state = .error e t ∧
                t.signed = w.state.signed ∧ t.issuedCredentials = w.state.issuedCredentials) := by
  have hholds := issued_holds_of_reachable hw d hd
  have hhistory := history_of_holds hholds
  refine ⟨sub_of_holds hholds, hhistory.chain, root_eq_ok.mpr ⟨_, hhistory.chain⟩, hhistory.declaredDepth,
    ?_, hhistory.hops_le, nest_of_chain hhistory.chain, ?_⟩
  · simpa using depth_eq_ok hhistory.chain
  · intro hhops moment request form hform htype hsubject
    refine refused_of_resolve fun x hx result hresolve => ?_
    obtain rfl : x.form = form := by simpa [hform] using hx.form.symm
    rcases mem_grants.mp hx.grant with hgrant | hgrant
    · have := hx.grantType
      simp [hgrant, htype, clientCredentialsGrant, ClientCredentialsGrant.grantType,
        GRANT_TYPE] at this
    · rw [hgrant] at hresolve
      obtain ⟨_, y, _, hadmitted, _⟩ := TokenExchangeGrant.resolve_eq_ok.mp hresolve
      exact not_admitted_of_hops hhistory (issued_genuine hw d hd) hhops hsubject hadmitted

theorem chain_is_history_treeRA :
    chain Example.treeRA.value.claims = .ok ["agent", "root"] ∧
      declaredDepth Example.treeRA.value.claims = .ok 1 ∧
      ∃ e t, (Example.server.getOauthToken (Example.momentAt 1040 "RAA")
          (Example.exchange "c" "RA" "A")).run (Example.after Example.events).state = .error e t ∧
        t.signed = (Example.after Example.events).state.signed ∧
          t.issuedCredentials = (Example.after Example.events).state.issuedCredentials := by
  have h := chain_is_history (Example.after_reachable Example.events) (d := Example.treeRA)
    (by simp [Example.issued_after])
  refine ⟨h.2.1, h.2.2.2.1, h.2.2.2.2.2.2.2 rfl _ _ (Example.exchangeForm "c" "RA" "A") ?_ ?_ ?_⟩ <;>
    decide +kernel

/-! ## Scopes -/

/-- The scopes an exchange is about: those asked for, or all that the subject
token holds when none are. -/
def askedScopes (form : TokenForm) (held : List String) : List String :=
  if parseScope (form.get "scope") = [] then held else parseScope (form.get "scope")

theorem mem_requestedScopes {form : TokenForm} {held : List String} {scope : String} :
    scope ∈ TokenExchangeGrant.requestedScopes form held ↔ scope ∈ askedScopes form held := by
  simp only [TokenExchangeGrant.requestedScopes, askedScopes]
  split <;> simp

/-- **An exchange is refused for the scope** exactly when every other check
passes, something is asked for, and nothing of it is left. -/
theorem exchange_invalid_scope {moment : Moment} {request : Request} {s : ServerState} {x : Login}
    (hx : server.Authenticated moment request s x)
    (hgrant : x.grant = tokenExchangeGrant server.exchange) :
    (∃ e t, (server.getOauthToken moment request).run s = .error e t ∧
        e.error? = some "invalid_scope") ↔
      ∃ y, server.exchange.Admitted s.clients moment x.form x.caller y ∧
        askedScopes x.form y.subjectScopes ≠ [] ∧
          ∀ scope ∈ askedScopes x.form y.subjectScopes, scope ∈ y.subjectScopes →
            scope ∉ y.actorClient.allowedScopes := by
  have hclients : x.state.clients = s.clients := hx.keeps.1
  have hissue : ∀ y : TokenExchangeGrant.Exchange,
      (∃ e t, (server.pipeline.issue moment (y.result x.form x.caller)).run x.state = .error e t ∧
          e.error? = some "invalid_scope") ↔
        askedScopes x.form y.subjectScopes ≠ [] ∧
          ∀ scope ∈ askedScopes x.form y.subjectScopes, scope ∈ y.subjectScopes →
            scope ∉ y.actorClient.allowedScopes := by
    intro y
    rw [IssuancePipeline.issue_invalid_scope]
    simp only [TokenExchangeGrant.Exchange.result, true_and, ne_eq,
      List.eq_nil_iff_forall_not_mem, mem_allowedBy, mem_requestedScopes]
    simp
  rw [hx.run_eq, hgrant]
  constructor
  · rintro ⟨e, t, hrun, hscope⟩
    -- the grant raises no `invalid_scope`, so it is the pipeline that refused
    rcases answer_eq_error.mp hrun with ⟨hresolve, _⟩ | ⟨result, hresolve, hrefused⟩
    · have := TokenExchangeGrant.raises_resolve e hresolve
      simp [TokenExchangeGrant.Refusal, hscope] at this
    · obtain ⟨caller, y, hcaller, hadmitted, rfl⟩ := TokenExchangeGrant.resolve_eq_ok.mp hresolve
      obtain rfl := Option.some.inj hcaller
      exact ⟨y, hclients ▸ hadmitted, (hissue y).mp ⟨e, t, hrefused, hscope⟩⟩
  · rintro ⟨y, hadmitted, hasked⟩
    obtain ⟨e, t, hrefused, hscope⟩ := (hissue y).mpr hasked
    refine ⟨e, t, answer_eq_error.mpr (.inr ⟨_, ?_, hrefused⟩), hscope⟩
    exact TokenExchangeGrant.resolve_eq_ok.mpr ⟨_, y, rfl, hclients ▸ hadmitted, rfl⟩

/-- The scope claim of every issued token can be read. -/
theorem parse_scope_of_holds {allowed : World → Event → Prop} {d : Derivation Signed}
    (h : d.Holds (server.RootIssued allowed) (server.HopIssued allowed)) :
    ∃ scopes, parseScopeClaim (Dict.get d.value.claims "scope") = .ok scopes := by
  cases h with
  | root ha =>
      obtain ⟨_, _, _, x, _, _, hissue⟩ := ha
      exact ⟨_, hissue.parse_scope⟩
  | derived _ _ ha =>
      obtain ⟨_, _, _, x, y, _, _, _, _, hissue⟩ := ha
      exact ⟨_, hissue.parse_scope⟩

/-- A hop loses scopes or keeps them. -/
theorem scopes_subset_of_hop {allowed : World → Event → Prop} {p v : Derivation Signed}
    {a : Signed} (h : server.HopIssued allowed p v a) : a.scopes ⊆ p.value.scopes := by
  obtain ⟨_, _, _, x, y, _, _, _, _, hissue⟩ := h
  rw [Signed.scopes_eq hissue.parse_scope, Signed.scopes_eq hissue.subject_scopes]
  intro scope hscope
  rw [List.mem_toFinset] at hscope ⊢
  exact (hissue.mem_scopes.mp hscope).2.1

/-- **The scope ratchet.**  A successful exchange grants exactly what is asked
for, held by the subject token and allowed by the actor's registration; it is
refused with `invalid_scope` exactly when something is asked for and nothing of
it is left; and no token of a run holds a scope that one of its ancestors does
not hold. -/
theorem scope_ratchet (hw : server.system.Reachable w) :
    (∀ moment request subject actor w',
      server.step w (.exchange moment request subject actor) = some w' →
        ∃ form held client d granted,
          readTokenForm server.interpreter request = .ok form ∧
          parseScopeClaim (Dict.get subject.value.claims "scope") = .ok held ∧
          TokenExchangeGrant.actorClient w.state.clients actor.value.claims = .ok client ∧
          w'.issued = d :: w.issued ∧
          parseScopeClaim (Dict.get d.value.claims "scope") = .ok granted ∧
          ∀ scope, scope ∈ granted ↔
            scope ∈ askedScopes form held ∧ scope ∈ held ∧ scope ∈ client.allowedScopes) ∧
    (∀ moment request x, server.Authenticated moment request w.state x →
      x.grant = tokenExchangeGrant server.exchange →
        ((∃ e t, (server.getOauthToken moment request).run w.state = .error e t ∧
            e.error? = some "invalid_scope") ↔
          ∃ y, server.exchange.Admitted w.state.clients moment x.form x.caller y ∧
            askedScopes x.form y.subjectScopes ≠ [] ∧
              ∀ scope ∈ askedScopes x.form y.subjectScopes, scope ∈ y.subjectScopes →
                scope ∉ y.actorClient.allowedScopes)) ∧
    ∀ d ∈ w.issued, ∀ a, Derivation.Ancestor a d →
      ∃ scopes held, parseScopeClaim (Dict.get d.value.claims "scope") = .ok scopes ∧
        parseScopeClaim (Dict.get a.value.claims "scope") = .ok held ∧ scopes ⊆ held := by
  refine ⟨?_, fun _ _ _ hx hgrant => exchange_invalid_scope hx hgrant, ?_⟩
  · intro moment request subject actor w' hstep
    obtain ⟨_, _, x, y, a, hissue, rfl⟩ := step_exchange (issued_genuine hw) hstep
    refine ⟨x.login.form, y.subjectScopes, y.actorClient, .derived a subject actor,
      x.issuance.grantedScopes, hissue.succeeds.login.form, hissue.subject_scopes, ?_, rfl,
      hissue.parse_scope, fun scope => ?_⟩
    · rw [← hissue.actorClaims]
      exact hissue.admitted.actorClient
    · rw [hissue.mem_scopes, mem_requestedScopes]
  · intro d hd a hanc
    have hholds := issued_holds_of_reachable hw d hd
    obtain ⟨scopes, hscopes⟩ := parse_scope_of_holds hholds
    obtain ⟨held, hheld⟩ := parse_scope_of_holds (hanc.holds hholds)
    have hsubset := hholds.ancestor_le Signed.scopes (fun _ _ _ => scopes_subset_of_hop) hanc
    rw [Signed.scopes_eq hscopes, Signed.scopes_eq hheld] at hsubset
    exact ⟨scopes, held, hscopes, hheld, fun scope hscope =>
      List.mem_toFinset.mp (hsubset (List.mem_toFinset.mpr hscope))⟩

theorem scope_ratchet_treeRA :
    ∃ scopes held, parseScopeClaim (Dict.get Example.treeRA.value.claims "scope") = .ok scopes ∧
      parseScopeClaim (Dict.get Example.treeR.value.claims "scope") = .ok held ∧ scopes ⊆ held :=
  (scope_ratchet (Example.after_reachable Example.events)).2.2 Example.treeRA
    (by simp [Example.issued_after]) Example.treeR (.parent _ _ (.refl _))

/-! ## Lifetimes -/

/-- The claims `exp` and `iat` are whole seconds, at most the configured
lifetime apart. -/
theorem lifetime_of_holds {allowed : World → Event → Prop} {d : Derivation Signed}
    (h : d.Holds (server.RootIssued allowed) (server.HopIssued allowed)) :
    ∃ exp iat : ℤ, Dict.get d.value.claims "exp" = .int exp ∧
      Dict.get d.value.claims "iat" = .int iat ∧
        exp - iat ≤ server.settings.accessTokenTtlSeconds := by
  cases h with
  | root ha =>
      obtain ⟨_, _, _, x, _, _, hissue⟩ := ha
      rw [Derivation.value_root, hissue.value]
      exact hissue.succeeds.lifetime
  | derived _ _ ha =>
      obtain ⟨_, _, _, x, y, _, _, _, _, hissue⟩ := ha
      rw [Derivation.value_derived, hissue.value]
      exact hissue.succeeds.lifetime

/-- A hop does not prolong a lifetime. -/
theorem exp_le_of_hop {allowed : World → Event → Prop} {p v : Derivation Signed} {a : Signed}
    (h : server.HopIssued allowed p v a) : a.exp ≤ p.value.exp := by
  obtain ⟨w, _, _, x, y, hw, hp, _, _, hissue⟩ := h
  obtain ⟨exp, _, hexp, _⟩ := lifetime_of_holds (issued_holds_of_reachable hw p hp)
  obtain ⟨exp', hexp', hle⟩ := hissue.exp_le hexp
  rwa [Signed.exp_eq hexp', Signed.exp_eq hexp]

/-- **The lifetime ratchet.**  A token expires no later than any of its
ancestors, so no later than the root of its lineage, and lives at most the
configured time. -/
theorem lifetime_ratchet (hw : server.system.Reachable w) {d a : Derivation Signed}
    (hd : d ∈ w.issued) (hanc : a.Ancestor d) :
    ∃ exp iat bound rootExp : ℤ, Dict.get d.value.claims "exp" = .int exp ∧
      Dict.get d.value.claims "iat" = .int iat ∧
      exp - iat ≤ server.settings.accessTokenTtlSeconds ∧
      Dict.get a.value.claims "exp" = .int bound ∧ exp ≤ bound ∧
      Dict.get d.source.claims "exp" = .int rootExp ∧ exp ≤ rootExp := by
  have hholds := issued_holds_of_reachable hw d hd
  obtain ⟨exp, iat, hexp, hiat, hlife⟩ := lifetime_of_holds hholds
  have hle : ∀ a, Derivation.Ancestor a d → ∃ bound : ℤ,
      Dict.get a.value.claims "exp" = .int bound ∧ exp ≤ bound := by
    intro a hanc
    obtain ⟨bound, _, hbound, _⟩ := lifetime_of_holds (hanc.holds hholds)
    have hle := hholds.ancestor_le Signed.exp (fun _ _ _ => exp_le_of_hop) hanc
    rw [Signed.exp_eq hexp, Signed.exp_eq hbound] at hle
    exact ⟨bound, hbound, hle⟩
  obtain ⟨bound, hbound, hbound_le⟩ := hle a hanc
  obtain ⟨rootExp, hroot, hroot_le⟩ := hle _ (Derivation.ancestor_source d)
  exact ⟨exp, iat, bound, rootExp, hexp, hiat, hlife, hbound, hbound_le, hroot, hroot_le⟩

theorem lifetime_ratchet_treeRA :
    ∃ exp iat bound rootExp : ℤ, Dict.get Example.treeRA.value.claims "exp" = .int exp ∧
      Dict.get Example.treeRA.value.claims "iat" = .int iat ∧
      exp - iat ≤ Example.server.settings.accessTokenTtlSeconds ∧
      Dict.get Example.treeR.value.claims "exp" = .int bound ∧ exp ≤ bound ∧
      Dict.get Example.treeRA.source.claims "exp" = .int rootExp ∧ exp ≤ rootExp :=
  lifetime_ratchet (Example.after_reachable Example.events) (by simp [Example.issued_after])
    (.parent _ _ (.refl _))

end Server

end AgentOAuth
