import AgentOAuth.Proofs.Authentication
import AgentOAuth.Proofs.Authority
import AgentOAuth.Proofs.Serializable

/-!
# Behind every name a credential

However requests interleave, a token that is handed out names only clients that
have shown a credential: for each of them some request of the interleaving has
carried the secret that its stored hash verifies, or an assertion that one of
its registered keys has signed, and was answered while the client was active
(`handed_out_corresponds`).  Nothing that the other requests carry can put a
name into a token.

The tokens are those of one run of the world (`Simulated`), where they have been
traced to roots (`loggedIn_of_chain`); what is left is what a root shows.
-/

namespace AgentOAuth

open Effect Transition

namespace Server

variable {server : Server} {s t : ServerState} {form : TokenForm} {moment : Moment}
  {presented : PresentedCredential} {method : ClientAuthMethod} {client : RegisteredClient}

/-- The form carries a secret or an assertion of the client. -/
def Shows (server : Server) (s : ServerState) (form : TokenForm) (client : RegisteredClient) :
    Prop :=
  (∃ secret hash, form.get "client_secret" = some secret ∧ client.secretHash = some hash ∧
    server.hasher.verify hash secret = .ok ()) ∨
  ∃ assertion key publicKey, form.get "client_assertion" = some assertion ∧ key ∈ s.clientKeys ∧
    key.clientId = client.clientId ∧ server.jwt.keyOfJwk key.publicJwk = .ok publicKey ∧
      server.jwt.signedBy publicKey assertion

/-- Nobody is authenticated who shows nothing. -/
theorem shows_of_authenticate (hextract : server.authMethods.extract form = .ok (presented, method))
    (hauth : (authenticate moment presented method).run s = .ok client t) :
    server.Shows s form client := by
  obtain ⟨hstored, hverify⟩ := authenticate_eq_ok.mp hauth
  rcases extract_cases hextract with ⟨rfl, hsecret, _⟩ | ⟨rfl, hassertion, _⟩
  · obtain ⟨secret, _, hget, hpresented, _⟩ := ClientSecretPost.extract_eq_ok_some hsecret
    obtain ⟨_, _, hash, hsome, hhash, hverified⟩ := ClientSecretPost.verify_eq_ok_true.mp hverify
    obtain rfl := Option.some.inj hsome
    rw [hpresented, Option.getD_some] at hverified
    exact .inl ⟨secret, hash, hget, hhash, hverified⟩
  · obtain ⟨assertion, hget, _, _, hpresented, _⟩ := PrivateKeyJwt.extract_eq_ok_some hassertion
    obtain ⟨_, row, evidence, hsome, haccepted, _⟩ := PrivateKeyJwt.accepted_of_verify hverify
    obtain rfl := Option.some.inj hsome
    rw [hpresented, Option.getD_some] at haccepted
    exact .inr ⟨assertion, evidence.key, evidence.publicKey, hget, haccepted.mem_keys,
      haccepted.keyClientId, haccepted.publicKey, server.jwt.decode_signed haccepted.decode⟩

/-- A request of the interleaving, answered in the run that serializes it, has
shown a credential of an active client of that name. -/
def Shown (server : Server) (c : Requests) (past : List (World × Event)) (name : String) : Prop :=
  ∃ v moment request form client, (v, Event.request moment request) ∈ past ∧
    c.Submitted moment request ∧ readTokenForm server.interpreter request = .ok form ∧
      client ∈ v.state.clients ∧ client.status = .active ∧ client.subject = name ∧
        server.Shows v.state form client

variable {c : Requests} {past : List (World × Event)} {w : World}

/-- Whoever has logged in has shown a credential. -/
theorem Serialized.shown (h : server.Serialized c past w) {name : String}
    (hloggedIn : server.LoggedIn past w name) : server.Shown c past name := by
  obtain ⟨v, moment, request, x, a, hmem, hissue, _, hclient, hactive, hsubject⟩ := hloggedIn
  have hlogin := hissue.succeeds.login
  exact ⟨v, moment, request, x.login.form, x.login.caller, hmem,
    h.submitted v _ hmem moment request ⟨rfl, rfl⟩, hlogin.form, hclient, hactive, hsubject,
    shows_of_authenticate hlogin.presented hlogin.caller⟩

/-- **Behind every name a credential.**  A token handed out in an interleaving
has a chain, and everybody in it has shown a credential in a request of the
interleaving. -/
theorem handed_out_corresponds (hc : (server.interleaved.restrict server.Orderly).Reachable c)
    {token : String} (htoken : c.HandedOut token) :
    ∃ past w claims identities, server.Serialized c past w ∧
      server.jwt.decodeUnverified token = .ok claims ∧ chain claims = .ok identities ∧
        ∀ name ∈ identities, server.Shown c past name := by
  obtain ⟨past, w, order, promised, hsim⟩ := exists_simulated hc
  have hserialized := hsim.serialized
  obtain ⟨d, hd, rfl⟩ := hserialized.handedOut token htoken
  have hreachable := hserialized.run.reachable
  have hhistory := history_of_holds (issued_holds_of_reachable hreachable d hd)
  exact ⟨past, w, d.value.claims, _, hserialized, issued_genuine hreachable d hd, hhistory.chain,
    fun name hname =>
      hserialized.shown (loggedIn_of_chain hserialized.run hd hhistory.chain name hname)⟩

theorem handed_out_corresponds_both : ∃ past w claims identities,
    Example.server.Serialized Example.Serializable.both past w ∧
      Example.server.jwt.decodeUnverified "R" = .ok claims ∧ chain claims = .ok identities ∧
        ∀ name ∈ identities, Example.server.Shown Example.Serializable.both past name := by
  obtain ⟨job, response, hown, _, hresponse⟩ :=
    Example.Serializable.exists_of_reply Example.Serializable.reply_both.1
  exact handed_out_corresponds Example.Serializable.reachable_both ⟨0, job, response, hown, hresponse⟩

end Server

end AgentOAuth
