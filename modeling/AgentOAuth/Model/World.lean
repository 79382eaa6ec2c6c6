import AgentOAuth.Lib.Derivation
import AgentOAuth.Lib.Transition
import AgentOAuth.Model.Routes

/-!
# Runs of the server

A world is the server's state together with every token that has left it and
how it came to be.  One event is one request, or an administrator replacing
the registry; runs are `Transition.System.Reachable`.

Signatures are ideal: an exchange that succeeds was made with two tokens the
server has issued (`Event.exchange` names them).  Everything else about a
request is free: any caller, any fields, any clock readings, any tokens.
`exists_step` shows that nothing but forgery is left out.

`RootIssue` and `HopIssue` say what the issue of a single token has checked and
signed, `step_cases` what one event can do, and `issued_holds` that every tree
of a run is made of these issues.
-/

namespace AgentOAuth

open Provenance Transition

/-- A token that has left the server, with the claims under its signature. -/
structure Signed where
  token : String
  claims : Dict
  deriving DecidableEq

/-- The server's state, and the tokens it has handed out with how each came to be,
the last first. -/
structure World where
  state : ServerState
  issued : List (Derivation Signed) := []

/-- What happens to the server: a request, or an operator at work. -/
inductive Event
  /-- A request that is refused, or answered with a root token. -/
  | request (moment : Moment) (request : Request)
  /-- A request that exchanges `subject` in the presence of `actor`. -/
  | exchange (moment : Moment) (request : Request) (subject actor : Derivation Signed)
  /-- An administrator replaces the registry and the keys. -/
  | administer (clients : ClientTable) (clientKeys : ClientKeyTable)
  | purgeExpired (now : ℚ)

/-- The event is this request. -/
def Event.IsRequest (moment : Moment) (request : Request) : Event → Prop
  | .request m r => m = moment ∧ r = request
  | .exchange m r _ _ => m = moment ∧ r = request
  | _ => False

/-- An event is one request at most. -/
theorem Event.IsRequest.unique {event : Event} {moment moment' : Moment} {request request' : Request}
    (h : event.IsRequest moment request) (h' : event.IsRequest moment' request') :
    moment = moment' ∧ request = request' := by
  cases event with
  | request m r => exact ⟨h.1.symm.trans h'.1, h.2.symm.trans h'.2⟩
  | exchange m r subject actor => exact ⟨h.1.symm.trans h'.1, h.2.symm.trans h'.2⟩
  | administer clients clientKeys => exact h.elim
  | purgeExpired now => exact h.elim

namespace Server

variable (server : Server)

/-- The form of the request asks for token exchange. -/
def isExchange (request : Request) : Bool :=
  match readTokenForm server.interpreter request with
  | .ok form => form.get "grant_type" = some GRANT_TYPE
  | .error _ => false

/-- The request presents the two tokens. -/
def presents (request : Request) (subject actor : Signed) : Bool :=
  match readTokenForm server.interpreter request with
  | .ok form =>
      form.get "subject_token" = some subject.token && form.get "actor_token" = some actor.token
  | .error _ => false

/-- The world after a request, when `tree` is how its token came to be. -/
def handOut (w : World) (tree : Signed → Derivation Signed) (reply : TokenResponse)
    (state : ServerState) : Option World :=
  match state.signed with
  | (_, claims) :: _ =>
      some { state, issued := tree ⟨reply.accessToken, claims⟩ :: w.issued }
  | [] => none

/-- One event.  A token goes into the world with the derivation its request tells. -/
def step (w : World) : Event → Option World
  | .request moment request =>
      match (server.getOauthToken moment request).run w.state with
      | .error _ state => some { w with state }
      | .ok reply state =>
          -- an exchange that succeeds has to name its two tokens, see `Event.exchange`
          if server.isExchange request then none else handOut w .root reply state
  | .exchange moment request subject actor =>
      match (server.getOauthToken moment request).run w.state with
      | .error _ _ => none
      | .ok reply state =>
          if server.isExchange request ∧ subject ∈ w.issued ∧ actor ∈ w.issued ∧
              server.presents request subject.value actor.value then
            handOut w (.derived · subject actor) reply state
          else none
  | .administer clients clientKeys =>
      some { w with state := { w.state with clients, clientKeys } }
  | .purgeExpired now =>
      some { w with state :=
        { w.state with assertionJtis := w.state.assertionJtis.purgeExpired now } }

/-- The server, started with an empty ledger and any registry. -/
def system : System World Event where
  init w := w.issued = [] ∧ w.state.signed = [] ∧ w.state.issuedCredentials.rows = []
  step := server.step

end Server

/-! ## The issue of one token -/

namespace Server

/-- The token of a successful request. -/
def Success.token (x : Success) : Signed := ⟨x.reply.accessToken, x.payload⟩

@[simp] theorem Success.claims_token (x : Success) : x.token.claims = x.payload := rfl

/-- The request was answered with the root token `a`. -/
structure RootIssue (server : Server) (s : ServerState) (moment : Moment) (request : Request)
    (x : Success) (a : Signed) : Prop where
  succeeds : server.Succeeds moment request s x
  grant : x.login.grant = clientCredentialsGrant
  result : x.result = ClientCredentialsGrant.result moment x.login.form x.login.caller
  value : a = x.token

/-- The request exchanged `subject`, in the presence of `actor`, for `a`. -/
structure HopIssue (server : Server) (s : ServerState) (moment : Moment) (request : Request)
    (subject actor : Signed) (x : Success) (y : TokenExchangeGrant.Exchange) (a : Signed) :
    Prop where
  succeeds : server.Succeeds moment request s x
  grant : x.login.grant = tokenExchangeGrant server.exchange
  admitted : server.exchange.Admitted s.clients moment x.login.form x.login.caller y
  result : x.result = y.result x.login.form x.login.caller
  subjectClaims : y.subjectClaims = subject.claims
  actorClaims : y.actorClaims = actor.claims
  value : a = x.token

/-- The claims of the token are those it carries. -/
def Genuine (server : Server) (a : Signed) : Prop :=
  server.jwt.decodeUnverified a.token = .ok a.claims

variable {server : Server} {w w' : World} {moment : Moment} {request : Request}
  {x : Success} {s : ServerState}

theorem Succeeds.genuine (h : server.Succeeds moment request s x) : server.Genuine x.token :=
  TokenMinter.decodeUnverified_of_mint h.prepared.minted

theorem Succeeds.handOut (h : server.Succeeds moment request w.state x)
    (tree : Signed → Derivation Signed) :
    handOut w tree x.reply x.state =
      some { state := x.state, issued := tree x.token :: w.issued } := by
  rw [Server.handOut, h.signed_eq]
  rfl

/-- The claims that verification returns are those the token carries. -/
theorem verify_claims {now : ℚ} {token : String} {claims : Dict}
    (h : server.exchange.verify now token = .ok claims) :
    server.jwt.decodeUnverified token = .ok claims :=
  TokenVerifier.decodeUnverified_of_verifyToken (TokenExchangeGrant.verify_eq_ok.mp h)

theorem isExchange_iff (h : server.Succeeds moment request s x) :
    server.isExchange request = true ↔ x.login.grant = tokenExchangeGrant server.exchange := by
  simp [h.login.grant_eq_exchange_iff, isExchange, h.login.form]

/-- A successful request that is no exchange issues a root. -/
theorem Succeeds.rootIssue (h : server.Succeeds moment request s x)
    (hnot : server.isExchange request = false) : server.RootIssue s moment request x x.token := by
  rcases h.result_cases with ⟨hgrant, hresult⟩ | ⟨y, hgrant, _⟩
  · exact ⟨h, hgrant, hresult, rfl⟩
  · simp [(isExchange_iff h).mpr hgrant] at hnot

/-- A successful exchange of two genuine tokens issues a hop. -/
theorem Succeeds.hopIssue (h : server.Succeeds moment request s x)
    (hexchange : server.isExchange request = true) {subject actor : Signed}
    (hpresents : server.presents request subject actor = true) (hsubject : server.Genuine subject)
    (hactor : server.Genuine actor) :
    ∃ y, server.HopIssue s moment request subject actor x y x.token := by
  have hgrant := (isExchange_iff h).mp hexchange
  obtain ⟨y, hadmitted, hresult⟩ := h.admitted hgrant
  simp only [presents, h.login.form, Bool.and_eq_true, decide_eq_true_eq] at hpresents
  have hsubjectToken : y.subjectToken = subject.token := by
    simpa [hpresents.1] using (TokenForm.require_eq_ok.mp hadmitted.subjectToken).1.symm
  have hactorToken : y.actorToken = actor.token := by
    simpa [hpresents.2] using (TokenForm.require_eq_ok.mp hadmitted.actorToken).1.symm
  have hsubjectClaims := verify_claims hadmitted.subjectClaims
  have hactorClaims := verify_claims hadmitted.actorClaims
  rw [hsubjectToken, hsubject, Except.ok.injEq] at hsubjectClaims
  rw [hactorToken, hactor, Except.ok.injEq] at hactorClaims
  exact ⟨y, h, hgrant, hadmitted, hresult, hsubjectClaims.symm, hactorClaims.symm, rfl⟩

/-- A request that is not named as an exchange is refused, or issues a root. -/
theorem step_request (h : server.step w (.request moment request) = some w') :
    (∃ e t, (server.getOauthToken moment request).run w.state = .error e t ∧
      w' = { w with state := t }) ∨
    ∃ x a, server.RootIssue w.state moment request x a ∧
      w' = { state := x.state, issued := .root a :: w.issued } := by
  simp only [step] at h
  split at h
  · next e t hrun => exact .inl ⟨e, t, hrun, (Option.some.inj h).symm⟩
  · next reply t hrun =>
      obtain ⟨x, hx, rfl, rfl⟩ := getOauthToken_eq_ok_iff_succeeds.mp hrun
      split at h
      · simp at h
      · next hnot =>
          rw [hx.handOut] at h
          exact .inr ⟨x, x.token, hx.rootIssue (by simpa using hnot), (Option.some.inj h).symm⟩

/-- An exchange is admitted with the claims of the two tokens it names. -/
theorem step_exchange {subject actor : Derivation Signed}
    (hgenuine : ∀ d ∈ w.issued, server.Genuine d.value)
    (h : server.step w (.exchange moment request subject actor) = some w') :
    subject ∈ w.issued ∧ actor ∈ w.issued ∧
      ∃ x y a, server.HopIssue w.state moment request subject.value actor.value x y a ∧
        w' = { state := x.state, issued := .derived a subject actor :: w.issued } := by
  simp only [step] at h
  split at h
  · simp at h
  · next reply t hrun =>
      obtain ⟨x, hx, rfl, rfl⟩ := getOauthToken_eq_ok_iff_succeeds.mp hrun
      split at h
      · next hguard =>
          obtain ⟨hexchange, hsubject, hactor, hpresents⟩ := hguard
          rw [hx.handOut] at h
          obtain ⟨y, hissue⟩ := hx.hopIssue hexchange hpresents (hgenuine _ hsubject)
            (hgenuine _ hactor)
          exact ⟨hsubject, hactor, x, y, x.token, hissue, (Option.some.inj h).symm⟩
      · simp at h

/-- **What one event can do**: issue nothing and leave the ledger alone, or
issue one root, or issue one token derived from two issued ones. -/
theorem step_cases {e : Event} (hgenuine : ∀ d ∈ w.issued, server.Genuine d.value)
    (h : server.step w e = some w') :
    (w'.issued = w.issued ∧ w'.state.issuedCredentials = w.state.issuedCredentials) ∨
    (∃ moment request x a, e = .request moment request ∧
      server.RootIssue w.state moment request x a ∧
        w' = { state := x.state, issued := .root a :: w.issued }) ∨
    ∃ moment request subject actor x y a, e = .exchange moment request subject actor ∧
      subject ∈ w.issued ∧ actor ∈ w.issued ∧
        server.HopIssue w.state moment request subject.value actor.value x y a ∧
          w' = { state := x.state, issued := .derived a subject actor :: w.issued } := by
  cases e with
  | request moment request =>
      rcases step_request h with ⟨e, t, hrun, rfl⟩ | ⟨x, a, hissue, rfl⟩
      · exact .inl ⟨rfl, getOauthToken_error hrun⟩
      · exact .inr (.inl ⟨moment, request, x, a, rfl, hissue, rfl⟩)
  | exchange moment request subject actor =>
      obtain ⟨hsubject, hactor, x, y, a, hissue, rfl⟩ := step_exchange hgenuine h
      exact .inr (.inr ⟨moment, request, subject, actor, x, y, a, rfl, hsubject, hactor, hissue, rfl⟩)
  | administer clients clientKeys =>
      obtain rfl := Option.some.inj h
      exact .inl ⟨rfl, rfl⟩
  | purgeExpired now =>
      obtain rfl := Option.some.inj h
      exact .inl ⟨rfl, rfl⟩

/-- What has been issued stays issued. -/
theorem issued_subset {e : Event} (hgenuine : ∀ d ∈ w.issued, server.Genuine d.value)
    (h : server.step w e = some w') : w.issued ⊆ w'.issued := by
  rcases step_cases hgenuine h with ⟨hissued, _⟩ | ⟨_, _, x, a, _, _, rfl⟩ |
    ⟨_, _, subject, actor, x, y, a, _, _, _, _, rfl⟩
  · rw [hissued]
    exact List.Subset.refl _
  · exact List.subset_cons_self _ _
  · exact List.subset_cons_self _ _

theorem handOut_state {tree : Signed → Derivation Signed} {reply : TokenResponse}
    {state : ServerState} (h : Server.handOut w tree reply state = some w') : w'.state = state := by
  unfold Server.handOut at h
  split at h
  · obtain rfl := Option.some.inj h
    rfl
  · simp at h

/-- A request leaves the state its run ends in, whatever came of it. -/
theorem step_state {e : Event} (h : server.step w e = some w')
    (he : e = .request moment request ∨
      ∃ subject actor, e = .exchange moment request subject actor) :
    w'.state = Effect.finalState ((server.getOauthToken moment request).run w.state) := by
  rcases he with rfl | ⟨subject, actor, rfl⟩ <;> simp only [step] at h <;> split at h
  · next hrun =>
      obtain rfl := Option.some.inj h
      rw [hrun, Effect.finalState_error]
  · next hrun =>
      split at h
      · simp at h
      · rw [handOut_state h, hrun, Effect.finalState_ok]
  · simp at h
  · next hrun =>
      split at h
      · rw [handOut_state h, hrun, Effect.finalState_ok]
      · simp at h

/-- Only an administrator changes the registry. -/
theorem step_clients {e : Event} (h : server.step w e = some w')
    (hrequest : ∀ clients clientKeys, e ≠ .administer clients clientKeys) :
    w'.state.clients = w.state.clients := by
  have hkeeps : ∀ moment request,
      (Effect.finalState ((server.getOauthToken moment request).run w.state)).clients =
        w.state.clients := fun moment request =>
    congrArg Prod.fst (keeps_getOauthToken server moment request w.state)
  cases e with
  | request moment request => rw [step_state h (.inl rfl), hkeeps]
  | exchange moment request subject actor => rw [step_state h (.inr ⟨subject, actor, rfl⟩), hkeeps]
  | administer clients clientKeys => exact absurd rfl (hrequest clients clientKeys)
  | purgeExpired now =>
      obtain rfl := Option.some.inj h
      rfl

/-! ## What the events leave out -/

/-- The tokens that a request presents, as far as they verify, were issued. -/
def Unforged (server : Server) (w : World) (request : Request) : Prop :=
  ∀ form, readTokenForm server.interpreter request = .ok form →
    ∀ name ∈ ["subject_token", "actor_token"], ∀ token, form.get name = some token →
      ∀ now claims, server.exchange.verify now token = .ok claims →
        ∃ d ∈ w.issued, d.value.token = token

/-- A successful exchange without forgery presents two issued tokens. -/
theorem Unforged.presents (hunforged : server.Unforged w request)
    (h : server.Succeeds moment request s x) (hexchange : server.isExchange request = true) :
    ∃ subject ∈ w.issued, ∃ actor ∈ w.issued,
      server.presents request subject.value actor.value = true := by
  obtain ⟨y, hadmitted, _⟩ := h.admitted ((isExchange_iff h).mp hexchange)
  have hsubjectToken := (TokenForm.require_eq_ok.mp hadmitted.subjectToken).1
  have hactorToken := (TokenForm.require_eq_ok.mp hadmitted.actorToken).1
  obtain ⟨subject, hsubject, hsubjectValue⟩ := hunforged _ h.login.form _ (by simp) _
    hsubjectToken _ _ hadmitted.subjectClaims
  obtain ⟨actor, hactor, hactorValue⟩ := hunforged _ h.login.form _ (by simp) _
    hactorToken _ _ hadmitted.actorClaims
  refine ⟨subject, hsubject, actor, hactor, ?_⟩
  simp [Server.presents, h.login.form, hsubjectToken, hactorToken, hsubjectValue, hactorValue]

/-- A request that succeeds and is no exchange is a step that issues a root. -/
theorem Succeeds.step_root (h : server.Succeeds moment request w.state x)
    (hnot : server.isExchange request = false) :
    server.step w (.request moment request) =
      some { state := x.state, issued := .root x.token :: w.issued } := by
  have hrun := getOauthToken_eq_ok_iff_succeeds.mpr ⟨x, h, rfl, rfl⟩
  simpa [step, hrun, hnot] using h.handOut .root

/-- An exchange that succeeds is a step that issues a derived token. -/
theorem Succeeds.step_derived {subject actor : Derivation Signed}
    (h : server.Succeeds moment request w.state x) (hexchange : server.isExchange request = true)
    (hsubject : subject ∈ w.issued) (hactor : actor ∈ w.issued)
    (hpresents : server.presents request subject.value actor.value = true) :
    server.step w (.exchange moment request subject actor) =
      some { state := x.state, issued := .derived x.token subject actor :: w.issued } := by
  have hrun := getOauthToken_eq_ok_iff_succeeds.mpr ⟨x, h, rfl, rfl⟩
  simpa [step, hrun, hexchange, hsubject, hactor, hpresents] using
    h.handOut (.derived · subject actor)

/-- **Every request without forgery is an event**, and a token it is answered
with is among the issued ones. -/
theorem exists_step (hunforged : server.Unforged w request) :
    ∃ e w', e.IsRequest moment request ∧ server.step w e = some w' ∧
      w'.state = Effect.finalState ((server.getOauthToken moment request).run w.state) ∧
      ∀ response t, (server.getOauthToken moment request).run w.state = .ok response t →
        ∃ d, w'.issued = d :: w.issued ∧ d.value.token = response.accessToken := by
  cases hrun : (server.getOauthToken moment request).run w.state with
  | error e t =>
      refine ⟨.request moment request, { w with state := t }, ⟨rfl, rfl⟩, ?_, rfl, by simp⟩
      simp [step, hrun]
  | ok response t =>
      obtain ⟨x, hx, rfl, rfl⟩ := getOauthToken_eq_ok_iff_succeeds.mp hrun
      cases hexchange : server.isExchange request with
      | false =>
          refine ⟨.request moment request,
            { state := x.state, issued := .root x.token :: w.issued }, ⟨rfl, rfl⟩,
            hx.step_root hexchange, rfl, ?_⟩
          rintro _ _ ⟨⟩
          exact ⟨_, rfl, rfl⟩
      | true =>
          obtain ⟨subject, hsubject, actor, hactor, hpresents⟩ := hunforged.presents hx hexchange
          refine ⟨.exchange moment request subject actor,
            { state := x.state, issued := .derived x.token subject actor :: w.issued }, ⟨rfl, rfl⟩,
            hx.step_derived hexchange hsubject hactor hpresents, rfl, ?_⟩
          rintro _ _ ⟨⟩
          exact ⟨_, rfl, rfl⟩

/-! ## Every token of a run -/

/-- A step among genuine tokens adds only genuine ones. -/
theorem genuine_step {e : Event} (hgenuine : ∀ d ∈ w.issued, server.Genuine d.value)
    (hstep : server.step w e = some w') : ∀ d ∈ w'.issued, server.Genuine d.value := by
  intro d hd
  rcases step_cases hgenuine hstep with ⟨hissued, _⟩ | ⟨_, _, x, a, _, hissue, rfl⟩ |
    ⟨_, _, subject, actor, x, y, a, _, _, _, hissue, rfl⟩
  · exact hgenuine d (hissued ▸ hd)
  · rcases List.mem_cons.mp hd with rfl | hd
    · rw [Derivation.value_root, hissue.value]
      exact hissue.succeeds.genuine
    · exact hgenuine d hd
  · rcases List.mem_cons.mp hd with rfl | hd
    · rw [Derivation.value_derived, hissue.value]
      exact hissue.succeeds.genuine
    · exact hgenuine d hd

/-- Every issued token carries the claims that were signed. -/
theorem issued_genuine (hw : server.system.Reachable w) : ∀ d ∈ w.issued, server.Genuine d.value := by
  refine hw.invariant (P := fun w => ∀ d ∈ w.issued, server.Genuine d.value) ?_ ?_
  · rintro w ⟨hissued, _⟩ d hd
    simp [hissued] at hd
  · exact fun w e w' _ ih hstep => genuine_step ih hstep

/-- A root issued somewhere in a run, by an allowed request. -/
def RootIssued (server : Server) (allowed : World → Event → Prop) (a : Signed) : Prop :=
  ∃ w moment request x, server.system.Reachable w ∧ allowed w (.request moment request) ∧
    server.RootIssue w.state moment request x a

/-- A token derived somewhere in a run, by an allowed exchange. -/
def HopIssued (server : Server) (allowed : World → Event → Prop)
    (subject actor : Derivation Signed) (a : Signed) : Prop :=
  ∃ w moment request x y, server.system.Reachable w ∧ subject ∈ w.issued ∧ actor ∈ w.issued ∧
    allowed w (.exchange moment request subject actor) ∧
      server.HopIssue w.state moment request subject.value actor.value x y a

variable {allowed : World → Event → Prop}

/-- **Every tree of a run is made of issues the run allows.** -/
theorem issued_holds (hw : (server.system.restrict allowed).Reachable w) :
    ∀ d ∈ w.issued, d.Holds (server.RootIssued allowed) (server.HopIssued allowed) := by
  refine hw.invariant_of_restrict
    (P := fun w => ∀ d ∈ w.issued, d.Holds (server.RootIssued allowed) (server.HopIssued allowed))
    ?_ ?_
  · rintro w ⟨hissued, _⟩ d hd
    simp [hissued] at hd
  · intro w e w' hw ih hallowed hstep d hd
    rcases step_cases (issued_genuine hw) hstep with ⟨hissued, _⟩ |
      ⟨moment, request, x, a, rfl, hissue, rfl⟩ |
      ⟨moment, request, subject, actor, x, y, a, rfl, hsubject, hactor, hissue, rfl⟩
    · exact ih d (hissued ▸ hd)
    · rcases List.mem_cons.mp hd with rfl | hd
      · exact .root ⟨w, moment, request, x, hw, hallowed, hissue⟩
      · exact ih d hd
    · rcases List.mem_cons.mp hd with rfl | hd
      · exact .derived (ih subject hsubject) (ih actor hactor)
          ⟨w, moment, request, x, y, hw, hsubject, hactor, hallowed, hissue⟩
      · exact ih d hd

/-- `issued_holds` for a run without a condition. -/
theorem issued_holds_of_reachable (hw : server.system.Reachable w) :
    ∀ d ∈ w.issued,
      d.Holds (server.RootIssued fun _ _ => True) (server.HopIssued fun _ _ => True) :=
  issued_holds (hw.restrict_of_forall fun _ _ => trivial)

end Server

end AgentOAuth
