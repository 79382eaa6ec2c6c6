import AgentOAuth.Proofs.Lineage

/-!
# The registration of an actor

An exchange looks up the actor's registration under the `client_id` of the
actor token.  That names whoever obtained the actor token; the new token names
the `sub` of the actor token.  For a root these are one client, for a token
that was itself derived they need not be.

Under a fixed registry, what holds in every run is therefore conditional: the
registration that is looked up has to agree with the registration of the
actor's subject, on the scopes (`actor_ceiling`) or on the tenant
(`tenant_homogeneous`).  One run breaks both without the condition.
-/

namespace AgentOAuth

open Provenance Transition

/-- Every identity of the token's chain is registered, as `Q` wants it. -/
def ChainHolds (registry : ClientTable) (Q : RegisteredClient → Prop) (a : Signed) : Prop :=
  ∃ identities, chain a.claims = .ok identities ∧
    ∀ identity ∈ identities, ∃ client, registry.ofSubject identity = some client ∧ Q client

section

variable {registry : ClientTable}

theorem ChainHolds.mono {Q Q' : RegisteredClient → Prop} {a : Signed}
    (h : ChainHolds registry Q a) (hQ : ∀ client, Q client → Q' client) :
    ChainHolds registry Q' a := by
  obtain ⟨identities, hchain, hall⟩ := h
  refine ⟨identities, hchain, fun identity hidentity => ?_⟩
  obtain ⟨client, hclient, hq⟩ := hall identity hidentity
  exact ⟨client, hclient, hQ client hq⟩

/-- The holder of a token is the first identity of its chain. -/
theorem ChainHolds.holder {Q : RegisteredClient → Prop} {a : Signed}
    (h : ChainHolds registry Q a) :
    a.subject ≠ "" ∧ ∃ client, registry.ofSubject a.subject = some client ∧ Q client := by
  obtain ⟨identities, hchain, hall⟩ := h
  obtain ⟨subject, tail, hsub, hne, _, _, rfl⟩ := chain_eq_ok.mp hchain
  rw [Signed.subject_eq hsub]
  exact ⟨hne, hall subject List.mem_cons_self⟩

/-- No identity in the chain holds a scope that its registration does not allow. -/
def WithinCeilings (registry : ClientTable) (a : Signed) : Prop :=
  ∃ scopes, parseScopeClaim (Dict.get a.claims "scope") = .ok scopes ∧
    ChainHolds registry (fun client => ∀ scope ∈ scopes, scope ∈ client.allowedScopes) a

/-- Every identity in the chain is registered in the token's tenant. -/
def OfOneTenant (registry : ClientTable) (a : Signed) : Prop :=
  ∃ tenant, Dict.get a.claims TENANT_CLAIM = .str tenant ∧
    ChainHolds registry (fun client => client.tenant = tenant) a

namespace Server

variable {server : Server} {w : World}

/-- The registry is the same at every step. -/
def under (registry : ClientTable) (w : World) (_ : Event) : Prop := w.state.clients = registry

/-- What an exchange would grant under the registration that the `client_id` of
the actor token names, the registration of the actor's subject allows. -/
def CeilingsAgree (server : Server) (registry : ClientTable) : Event → Prop
  | .exchange _ request subject actor =>
      ∀ form, readTokenForm server.interpreter request = .ok form →
        ∀ named holder, TokenExchangeGrant.actorClient registry actor.value.claims = .ok named →
          registry.ofSubject actor.value.subject = some holder →
            ∀ scope ∈ subject.value.scopes,
              (parseScope (form.get "scope") = [] ∨ scope ∈ parseScope (form.get "scope")) →
                scope ∈ named.allowedScopes → scope ∈ holder.allowedScopes
  | _ => True

/-- The registration that the `client_id` of the actor token names has the
tenant of the registration of the actor's subject. -/
def TenantsAgree (registry : ClientTable) : Event → Prop
  | .exchange _ _ _ actor =>
      ∀ named holder, TokenExchangeGrant.actorClient registry actor.value.claims = .ok named →
        registry.ofSubject actor.value.subject = some holder → named.tenant = holder.tenant
  | _ => True

/-! ## Chains of registered identities -/

theorem chainHolds_of_root (hunique : registry.SubjectsUnique) {s : ServerState}
    (hclients : s.clients = registry) {moment : Moment} {request : Request} {x : Success}
    {a : Signed} (h : server.RootIssue s moment request x a) {Q : RegisteredClient → Prop}
    (hQ : Q x.login.caller) : ChainHolds registry Q a := by
  refine ⟨_, h.chain_eq, fun identity hidentity => ?_⟩
  obtain rfl := List.mem_singleton.mp hidentity
  refine ⟨x.login.caller, (ClientTable.ofSubject_eq_some hunique).mpr ⟨?_, rfl⟩, hQ⟩
  rw [← hclients]
  exact h.succeeds.login.caller_mem

/-- One hop puts the actor's subject in front of the chain. -/
theorem chainHolds_of_hop {s : ServerState} {moment : Moment} {request : Request}
    {subject actor a : Signed} {x : Success} {y : TokenExchangeGrant.Exchange}
    (h : server.HopIssue s moment request subject actor x y a) {Q Q' : RegisteredClient → Prop}
    (hsubject : ChainHolds registry Q subject) (hactor : ChainHolds registry Q' actor)
    (hQ : ∀ holder, registry.ofSubject actor.subject = some holder → Q holder) :
    ChainHolds registry Q a := by
  obtain ⟨identities, hchain, hall⟩ := hsubject
  obtain ⟨hne, holder, hholder, _⟩ := hactor.holder
  have hname : actor.subject = y.actorSubject := Signed.subject_eq h.actor_sub
  refine ⟨_, h.chain_eq hchain (hname ▸ hne), fun identity hidentity => ?_⟩
  rcases List.mem_cons.mp hidentity with rfl | hidentity
  · exact ⟨holder, hname ▸ hholder, hQ holder hholder⟩
  · exact hall identity hidentity

end Server

end

/-! ## A run of the example server -/

namespace Example

/-- Requests and exchanges leave the registry as it is. -/
theorem after_reachable_under {P : Event → Prop} (events : List Event)
    (hevents : ∀ e ∈ events, P e ∧ ∀ clients clientKeys, e ≠ .administer clients clientKeys) :
    (server.system.restrict fun w e => Server.under registry w e ∧ P e).Reachable (after events) := by
  have hstart : (server.system.restrict fun w e => Server.under registry w e ∧ P e).Reachable start :=
    .init ⟨rfl, rfl, rfl⟩
  unfold after
  cases hreplay : server.system.replay start events with
  | none => exact hstart
  | some w =>
      refine hstart.replay_restrict hreplay (System.complies_of_invariant
        (P := fun w => w.state.clients = registry) ?_ ?_ rfl)
      · intro w e he w' hw hstep
        exact (Server.step_clients hstep (hevents e he).2).trans hw
      · exact fun w e he hw => ⟨hw, (hevents e he).1⟩

/-- The part of `Example.events` before the last exchange: A's token is
exchanged in the presence of itself, so both registrations are A's. -/
theorem actorClient_treeA {named holder : RegisteredClient}
    (hnamed : TokenExchangeGrant.actorClient registry treeA.value.claims = .ok named)
    (hholder : registry.ofSubject treeA.value.subject = some holder) : named = holder := by
  have hactor : TokenExchangeGrant.actorClient registry treeA.value.claims = .ok clientA := by
    decide +kernel
  have hsubject : registry.ofSubject treeA.value.subject = some clientA := by decide +kernel
  rw [hactor, Except.ok.injEq] at hnamed
  rw [hsubject, Option.some.injEq] at hholder
  exact hnamed.symm.trans hholder

theorem events_reachable_under :
    (server.system.restrict (Server.under registry)).Reachable (after events) :=
  (after_reachable_under (P := fun _ => True) events (by simp [events])).restrict_mono
    fun _ _ h => h.1

/-- The first three events: two roots, and an exchange that looks up A for A. -/
theorem issued_after_three : (after (events.take 3)).issued = [treeAA, treeA, treeR] := by
  decide +kernel

theorem chain_treeRA : chain treeRA.value.claims = .ok ["agent", "root"] := by decide +kernel

theorem ofSubject_agent : registry.ofSubject "agent" = some clientA := by decide +kernel

end Example

namespace Server

variable {server : Server} {registry : ClientTable} {w : World}

/-! ## The actor's ceiling -/

/-- **The actor's ceiling.**  Under one registry with unique subjects, in a run
whose exchanges all look up a registration that agrees with the actor's own on
what they grant, no token carries a scope past an identity of its chain that
may not hold it. -/
theorem actor_ceiling (hunique : registry.SubjectsUnique)
    (hw : (server.system.restrict fun w e =>
      under registry w e ∧ CeilingsAgree server registry e).Reachable w) :
    ∀ d ∈ w.issued, WithinCeilings registry d.value := by
  intro d hd
  have hholds := issued_holds hw d hd
  clear hd
  induction hholds with
  | root ha =>
      obtain ⟨_, _, _, x, _, ⟨hclients, _⟩, hissue⟩ := ha
      exact ⟨_, hissue.parse_scope, chainHolds_of_root hunique hclients hissue
        fun scope hscope => hissue.scope_allowed hscope⟩
  | @derived a p v _ _ ha ihp ihv =>
      obtain ⟨w', _, _, x, y, _, _, _, ⟨hclients, hagree⟩, hissue⟩ := ha
      obtain ⟨held, hheld, hsubject⟩ := ihp
      obtain ⟨_, _, hactor⟩ := ihv
      -- no scope is gained, so the subject's chain stays within its ceilings
      obtain rfl : held = y.subjectScopes := by
        simpa [hheld] using hissue.subject_scopes
      refine ⟨_, hissue.parse_scope, chainHolds_of_hop hissue (hsubject.mono fun client hclient
        scope hscope => hclient scope (hissue.mem_scopes.mp hscope).2.1) hactor ?_⟩
      -- the new identity: the ceiling that was applied is the one of `client_id`
      intro holder hholder scope hscope
      obtain ⟨hasked, hmem, hnamed⟩ := hissue.mem_scopes.mp hscope
      have hlookup : TokenExchangeGrant.actorClient registry v.value.claims = .ok y.actorClient := by
        rw [← hclients, ← hissue.actorClaims]
        exact hissue.admitted.actorClient
      refine hagree _ hissue.succeeds.login.form y.actorClient holder hlookup hholder scope ?_ ?_ hnamed
      · rw [Signed.scopes_eq hheld]
        exact List.mem_toFinset.mpr hmem
      · rw [mem_requestedScopes, askedScopes] at hasked
        split at hasked
        · next hblank => exact .inl hblank
        · exact .inr hasked

theorem actor_ceiling_treeAA : WithinCeilings Example.registry Example.treeAA.value := by
  refine actor_ceiling (by decide)
    (Example.after_reachable_under (Example.events.take 3) ?_) _
    (by simp [Example.issued_after_three])
  simp only [Example.events, List.take_succ_cons, List.take_zero, List.forall_mem_cons]
  refine ⟨⟨trivial, by simp⟩, ⟨trivial, by simp⟩, ⟨?_, by simp⟩, by simp⟩
  intro _ _ named holder hnamed hholder scope _ _ hscope
  exact Example.actorClient_treeA hnamed hholder ▸ hscope

/-- Without the condition the ceiling does not hold: `Example.treeRA` names A,
whose registration allows `y` only, and holds `x`. -/
theorem not_actor_ceiling :
    ¬ ∀ (server : Server) (registry : ClientTable), registry.SubjectsUnique →
      ∀ w, (server.system.restrict (under registry)).Reachable w →
        ∀ d ∈ w.issued, WithinCeilings registry d.value := by
  intro hclaim
  obtain ⟨scopes, hscopes, identities, hchain, hall⟩ := hclaim Example.server Example.registry
    (by decide) _ Example.events_reachable_under Example.treeRA (by simp [Example.issued_after])
  have hgranted : parseScopeClaim (Dict.get Example.treeRA.value.claims "scope") = .ok ["x", "y"] := by
    decide +kernel
  obtain rfl : ["x", "y"] = scopes := by simpa [hgranted] using hscopes
  obtain rfl : ["agent", "root"] = identities := by simpa [Example.chain_treeRA] using hchain
  obtain ⟨client, hclient, hwithin⟩ := hall "agent" (by simp)
  obtain rfl : Example.clientA = client := by simpa [Example.ofSubject_agent] using hclient
  exact absurd (hwithin "x" (by simp)) (by decide)

/-! ## One tenant for a chain -/

/-- The tenant of a derived token is that of the registration that was looked
up, and of the subject token. -/
theorem HopIssue.tenant_eq {s : ServerState} {moment : Moment} {request : Request}
    {subject actor a : Signed} {x : Success} {y : TokenExchangeGrant.Exchange}
    (h : server.HopIssue s moment request subject actor x y a) {tenant : String}
    (htenant : Dict.get subject.claims TENANT_CLAIM = .str tenant) :
    y.tenant = tenant ∧ y.actorClient.tenant = tenant := by
  obtain ⟨hactor, hclaimed⟩ := TokenExchangeGrant.agreedTenant_eq_ok.mp h.admitted.tenant
  rw [h.subjectClaims] at hclaimed
  rcases hclaimed with hnone | hsome
  · simp [optionalText_eq_none.mp hnone] at htenant
  · obtain ⟨hsame, _⟩ := optionalText_eq_some.mp hsome
    obtain rfl : y.tenant = tenant := by
      rw [show Dict.get subject.claims TENANT_CLAIM = .str y.tenant from hsame] at htenant
      exact Value.str.inj htenant
    exact ⟨rfl, hactor.symm⟩

/-- **One tenant for a chain.**  Under one registry with unique subjects, in a
run whose exchanges all look up a registration of the tenant of the actor's
own, every identity in the chain of a token is registered in the tenant the
token names. -/
theorem tenant_homogeneous (hunique : registry.SubjectsUnique)
    (hw : (server.system.restrict fun w e =>
      under registry w e ∧ TenantsAgree registry e).Reachable w) :
    ∀ d ∈ w.issued, OfOneTenant registry d.value := by
  intro d hd
  have hholds := issued_holds hw d hd
  clear hd
  induction hholds with
  | root ha =>
      obtain ⟨_, _, _, x, _, ⟨hclients, _⟩, hissue⟩ := ha
      exact ⟨_, hissue.tenant, chainHolds_of_root hunique hclients hissue rfl⟩
  | @derived a p v _ _ ha ihp ihv =>
      obtain ⟨w', _, _, x, y, _, _, _, ⟨hclients, hagree⟩, hissue⟩ := ha
      obtain ⟨tenant, htenant, hsubject⟩ := ihp
      obtain ⟨_, _, hactor⟩ := ihv
      obtain ⟨rfl, hnamed⟩ := hissue.tenant_eq htenant
      refine ⟨_, hissue.tenant, chainHolds_of_hop hissue hsubject hactor fun holder hholder => ?_⟩
      have hlookup : TokenExchangeGrant.actorClient registry v.value.claims = .ok y.actorClient := by
        rw [← hclients, ← hissue.actorClaims]
        exact hissue.admitted.actorClient
      rw [← hagree y.actorClient holder hlookup hholder, hnamed]

theorem tenant_homogeneous_treeAA : OfOneTenant Example.registry Example.treeAA.value := by
  refine tenant_homogeneous (by decide)
    (Example.after_reachable_under (Example.events.take 3) ?_) _
    (by simp [Example.issued_after_three])
  simp only [Example.events, List.take_succ_cons, List.take_zero, List.forall_mem_cons]
  refine ⟨⟨trivial, by simp⟩, ⟨trivial, by simp⟩, ⟨?_, by simp⟩, by simp⟩
  intro named holder hnamed hholder
  rw [Example.actorClient_treeA hnamed hholder]

/-- Without the condition the tenant does not hold: `Example.treeRA` is of the
tenant `blue` and names A, who is registered in `red`. -/
theorem not_tenant_homogeneous :
    ¬ ∀ (server : Server) (registry : ClientTable), registry.SubjectsUnique →
      (∀ client ∈ registry, client.tenant ≠ "") →
        ∀ w, (server.system.restrict (under registry)).Reachable w →
          ∀ d ∈ w.issued, OfOneTenant registry d.value := by
  intro hclaim
  obtain ⟨tenant, htenant, identities, hchain, hall⟩ := hclaim Example.server Example.registry
    (by decide) (by simp [Table.mem_iff, Example.registry, Example.clientR, Example.clientA,
      Example.clientC]) _ Example.events_reachable_under Example.treeRA
    (by simp [Example.issued_after])
  have hblue : Dict.get Example.treeRA.value.claims TENANT_CLAIM = .str "blue" := by decide +kernel
  obtain rfl : "blue" = tenant := by simpa [hblue] using htenant
  obtain rfl : ["agent", "root"] = identities := by simpa [Example.chain_treeRA] using hchain
  obtain ⟨client, hclient, hsame⟩ := hall "agent" (by simp)
  obtain rfl : Example.clientA = client := by simpa [Example.ofSubject_agent] using hclient
  exact absurd hsame (by decide)

end Server

end AgentOAuth
