import AgentOAuth.Proofs.ActorRegistration
import AgentOAuth.Proofs.Parties

/-!
# How an exchange of issued tokens ends

Nothing that `resolve` reads in a token the server has issued raises anything
but an `OAuthError`.  The minter can: verification lets a token through until
the second of its `exp`, and the minter refuses a lifetime of less than a
second with a `TokenError`, which nobody catches.  So an exchange ends in a
token or a protocol response exactly when it is refused earlier, or the subject
token has a second left when the new one is minted (`exchange_errors_iff`).
-/

namespace AgentOAuth

open Effect Provenance

namespace Server

variable {server : Server} {w : World} {s : ServerState} {moment : Moment} {form : TokenForm}
  {caller : RegisteredClient} {d v : Derivation Signed}

/-! ## What an issued token says -/

/-- What an exchange reads in a token, apart from the delegation chain. -/
structure Presentable (a : Signed) : Prop where
  sub : Dict.get a.claims "sub" = .str a.subject
  scope : Returns (parseScopeClaim (Dict.get a.claims "scope"))
  clientId : ∃ clientId, Dict.get a.claims "client_id" = .str clientId ∧ Storable clientId
  exp : Dict.get a.claims "exp" = .int a.exp

/-- The id of an authenticated caller has been a parameter of a lookup. -/
theorem Authenticated.storable {request : Request} {login : Login}
    (h : server.Authenticated moment request s login) : Storable login.caller.clientId := by
  have hget := (authenticate_eq_ok.mp h.caller).1
  rw [(ClientTable.get_eq_ok_some hget).2]
  exact (returns_textParameter_bind.mp ⟨_, hget⟩).1

theorem presentable_of_holds {allowed : World → Event → Prop}
    (h : d.Holds (server.RootIssued allowed) (server.HopIssued allowed)) :
    Presentable d.value := by
  obtain ⟨exp, _, hexp, _⟩ := lifetime_of_holds h
  have hclient : ∃ clientId, Dict.get d.value.claims "client_id" = .str clientId ∧
      Storable clientId := by
    cases h with
    | root ha =>
        obtain ⟨_, _, _, x, _, _, hissue⟩ := ha
        exact ⟨_, hissue.signedFrom.clientId, hissue.succeeds.login.storable⟩
    | derived _ _ ha =>
        obtain ⟨_, _, _, x, y, _, _, _, _, hissue⟩ := ha
        exact ⟨_, hissue.signedFrom.clientId, hissue.succeeds.login.storable⟩
  exact ⟨(history_of_holds h).sub, parse_scope_of_holds h, hclient,
    by rw [Signed.exp_eq hexp, hexp]⟩

/-! ## What the exchange raises -/

/-- A verified token is one the grant was given, or an `OAuthError` is raised. -/
theorem oauth_verify (hjwt : server.jwt.RaisesInvalidToken) (now : ℚ) (token : String) :
    Raises (fun e => e.error? ≠ none) (server.exchange.verify now token) := by
  have hcaught : ∀ {α : Type} {x : Except JwtExc α} (description : String),
      (∀ e, x = .error e → e = .invalidToken) →
        Raises (fun e => ∃ description, e = .token description)
          (exceptInvalidToken x (.error (.token description))) := by
    intro α x description hx
    cases x with
    | error e =>
        obtain rfl := hx e rfl
        exact raises_error ⟨_, rfl⟩
    | ok a => exact raises_ok a
  have hraised : ∀ (condition : Prop) [Decidable condition] (description : String),
      Raises (fun e => ∃ description, e = .token description)
        (raiseIf condition (Exc.token description)) :=
    fun _ _ _ => raises_raiseIf ⟨_, rfl⟩
  have htoken : Raises (fun e => ∃ description, e = .token description)
      (server.exchange.verifier.verifyAnyAudience now token) :=
    (hcaught _ (hjwt.header token)).bind fun _ => (hraised _ _).bind fun _ => (hraised _ _).bind
      fun _ => (hraised _ _).bind fun _ => hcaught _ (hjwt.decode _ _ _ _)
  intro e he
  unfold TokenExchangeGrant.verify at he
  split at he
  · obtain rfl := Except.error.inj he
    simp [exchangeRefused]
  · next hnot =>
      obtain ⟨description, rfl⟩ := htoken e he
      exact absurd he (hnot description)

theorem oauth_of_malformed {α : Type} {x : Except Exc α} (h : Raises Exc.IsMalformedChain x) :
    Raises (fun e => e.error? ≠ none) x :=
  h.mono fun e he => by simp [he.error?]

theorem oauth_of_invalidRequest {α : Type} {x : Except Exc α}
    (h : Raises (fun e => e.error? = some "invalid_request") x) :
    Raises (fun e => e.error? ≠ none) x :=
  h.mono fun e he => by simp [he]

theorem oauth_actorClient {clients : ClientTable} {a : Signed} (h : Presentable a) :
    Raises (fun e => e.error? ≠ none) (TokenExchangeGrant.actorClient clients a.claims) := by
  obtain ⟨clientId, hclientId, hnul⟩ := h.clientId
  unfold TokenExchangeGrant.actorClient
  simp only [hclientId]
  refine Raises.bind (raises_of_returns ?_) fun stored => ?_
  · exact returns_textParameter_bind.mpr ⟨hnul, returns_pure _⟩
  · cases stored with
    | none => exact raises_error (by simp [exchangeRefused])
    | some client => exact raises_pure _

/-- The token presented is the issued one, so verification returns its claims. -/
theorem claims_of_verify {a : Signed} (ha : server.Genuine a) {name token : String} {now : ℚ}
    {claims : Dict} (hform : form.get name = some a.token)
    (hrequire : form.require name = .ok token)
    (hverify : server.exchange.verify now token = .ok claims) : claims = a.claims := by
  have htoken : token = a.token := by
    simpa [hform] using (TokenForm.require_eq_ok.mp hrequire).1.symm
  have hclaims := verify_claims hverify
  rw [htoken, ha, Except.ok.injEq] at hclaims
  exact hclaims.symm

/-- The `exp` of a verified token is in the future, so it is a time. -/
theorem returns_exp {a : Signed} (ha : Presentable a) (hinstant : (a.exp : ℚ) < endOfInstants)
    {token : String}
    (hverify : server.exchange.verify moment.subjectVerified token = .ok a.claims) :
    fromTimestamp (Dict.get a.claims "exp") = .ok a.exp := by
  have hdecode := TokenVerifier.decode_of_verifyToken (TokenExchangeGrant.verify_eq_ok.mp hverify)
  have halive := server.jwt.decode_exp hdecode a.exp (by rw [ha.exp]; rfl)
  have hclock : 0 ≤ moment.subjectVerified := moment.assertionDecoded_nonneg.trans
    (moment.assertionDecoded_le.trans moment.assertionChecked_le)
  rw [truncate_intCast] at halive
  have hpos : (0 : ℚ) < a.exp := hclock.trans_lt halive
  rw [fromTimestamp_eq_ok]
  unfold endOfInstants at hinstant
  refine ⟨a.exp, by rw [ha.exp]; rfl, by linarith, by linarith,
    (roundMicroseconds_intCast _).symm, ?_, hinstant⟩
  unfold minimumInstant
  linarith

/-- **`resolve` raises `OAuthError` only**, whoever presents two issued tokens. -/
theorem oauth_resolve (hjwt : server.jwt.RaisesInvalidToken) {clients : ClientTable}
    {subject actor : Signed} (hsubject : server.Genuine subject) (hactor : server.Genuine actor)
    (hreadSubject : Presentable subject) (hreadActor : Presentable actor)
    (hinstant : (subject.exp : ℚ) < endOfInstants)
    (hformSubject : form.get "subject_token" = some subject.token)
    (hformActor : form.get "actor_token" = some actor.token) :
    Raises (fun e => e.error? ≠ none)
      (server.exchange.resolve clients moment form (some caller)) := by
  unfold TokenExchangeGrant.resolve
  refine (raises_ok _).bind fun caller => ?_
  have hrequire : ∀ name, Raises (fun e => e.error? ≠ none) (form.require name) := fun name =>
    oauth_of_invalidRequest (TokenExchangeGrant.invalidRequest_require name)
  refine ((hrequire _).bind fun _ => (raises_raiseIf (by simp)).bind
    fun _ => raises_pure _).bind fun audience => ?_
  refine (hrequire _).bind_of_ok fun subjectToken hsubjectToken => ?_
  refine (hrequire _).bind_of_ok fun actorToken hactorToken => ?_
  refine (oauth_of_invalidRequest (TokenExchangeGrant.invalidRequest_checkTokenTypes _)).bind
    fun _ => ?_
  refine (oauth_verify hjwt _ _).bind_of_ok fun subjectClaims hsubjectClaims => ?_
  refine (oauth_verify hjwt _ _).bind_of_ok fun actorClaims hactorClaims => ?_
  -- from here on the claims are those of the two issued tokens
  obtain rfl := claims_of_verify hsubject hformSubject hsubjectToken hsubjectClaims
  obtain rfl := claims_of_verify hactor hformActor hactorToken hactorClaims
  have hexp : fromTimestamp (Dict.get subject.claims "exp") = .ok subject.exp :=
    returns_exp hreadSubject hinstant hsubjectClaims
  refine (oauth_actorClient hreadActor).bind fun actorClient => ?_
  refine (raises_of_returns ⟨_, Value.text_eq_ok.mpr hreadActor.sub⟩).bind fun actorSubject => ?_
  refine ((oauth_of_malformed (malformed_mayActPermits _ _)).bind fun _ =>
    raises_raiseIf (by simp [exchangeRefused])).bind fun _ => ?_
  refine ((oauth_of_malformed (malformed_optionalText _ _)).bind fun _ =>
    (raises_raiseIf (by simp [exchangeRefused])).bind fun _ => raises_pure _).bind fun tenant => ?_
  refine (oauth_of_malformed (malformed_declaredDepth _)).bind fun declared =>
    (raises_raiseIf (by simp)).bind fun _ => ?_
  exact (raises_of_returns hreadSubject.scope).bind fun _ =>
    (oauth_of_malformed (malformed_nest _)).bind fun _ =>
      (oauth_of_malformed (malformed_root _)).bind fun _ =>
        (oauth_of_malformed (malformed_optionalText _ _)).bind fun _ =>
          (raises_of_returns ⟨_, hexp⟩).bind fun _ => raises_pure _

/-! ## What the pipeline raises -/

/-- The pipeline raises `OAuthError` only, exactly when nothing of the request
is left or a second of life is. -/
theorem oauth_issue_iff {result : GrantResult} (hactive : result.principalStatus = .active)
    (hextra : result.extraClaims = [])
    (hencode : ∃ token, server.pipeline.minter.encode (server.pipeline.minter.fullClaims
      moment.minted moment.jti (server.pipeline.claims result result.subject
        (joinSpaces (allowedBy result.ceilings result.requestedScopes)))
      none result.maxExpiresAt) = .ok token)
    (hinserts : moment.insertFails = false)
    (hfresh : s.issuedCredentials.find moment.jti = none) :
    (∀ e t, (server.pipeline.issue moment result).run s = .error e t → e.error? ≠ none) ↔
      ((result.requestedScopes = [] ∨ allowedBy result.ceilings result.requestedScopes ≠ []) →
        1 ≤ server.pipeline.minter.expiresAt moment.minted none result.maxExpiresAt -
          moment.minted) := by
  constructor
  · intro hoauth hleft
    cases hrun : (server.pipeline.issue moment result).run s with
    | ok token t =>
        obtain ⟨y, _, hy, _⟩ := IssuancePipeline.issue_eq_ok.mp hrun
        exact ((IssuancePipeline.exists_prepared_iff hextra).mp ⟨y, hy⟩).2.2.1
    | error e t =>
        rcases (IssuancePipeline.issue_error hrun).2 with hstatus | ⟨_, hattenuate⟩ | hnone
        · exact absurd hactive (raiseIf_eq_error.mp hstatus).1
        · obtain ⟨_, hne, hnil⟩ := attenuate_eq_error.mp hattenuate
          rcases hleft with hleft | hleft <;> contradiction
        · exact absurd hnone (hoauth e t hrun)
  · intro hlife e t hrun
    by_cases hleft : result.requestedScopes = [] ∨
        allowedBy result.ceilings result.requestedScopes ≠ []
    · -- a scope and a second are left, so a token is issued
      obtain ⟨y, hy⟩ := (IssuancePipeline.exists_prepared_iff hextra).mpr
        ⟨hactive, hleft, hlife hleft, hencode⟩
      have hfree : s.issuedCredentials.find y.row.jti = none := by
        rw [hy.row_eq hextra]
        exact hfresh
      cases hinsert : s.issuedCredentials.insert y.row with
      | none => exact absurd hfree (Table.insert_eq_none.mp hinsert)
      | some written =>
          have hok := IssuancePipeline.issue_eq_ok.mpr ⟨y, written, hy,
            IssuedCredentialTable.record_eq_ok.mpr ⟨hinserts, hinsert⟩, rfl, rfl⟩
          rw [hok] at hrun
          cases hrun
    · rw [not_or, not_not] at hleft
      have husable : IssuancePipeline.checkIdentityIsUsable result = .ok () :=
        raiseIf_eq_ok.mpr (not_not.mpr hactive)
      have hattenuate := attenuate_eq_error.mpr ⟨rfl, hleft⟩
      rw [IssuancePipeline.issue, run_lift_bind_of_ok husable] at hrun
      rcases run_bind_eq_error.mp hrun with hrefused | ⟨_, _, hpassed, _⟩
      · obtain ⟨hrefused, _⟩ := run_lift_eq_error.mp hrefused
        obtain rfl := Except.error.inj (hattenuate.symm.trans hrefused)
        simp [noScopeAllowed]
      · have hok := (run_lift_eq_ok.mp hpassed).1
        cases hattenuate.symm.trans hok

end Server

/-! ## The last second of the subject token -/

namespace Example.ExchangeErrors

/-- R and A got their tokens, and C exchanged A's. -/
def world : World := after (events.take 3)

def momentRA : Moment := momentAt 1030 "RA"

def formRA : TokenForm := exchangeForm "c" "R" "AA"

/-- R's token, which expires at 1600, is verified at 1599, and the new one is
minted half a second later. -/
def lastSecond : Moment :=
  { momentAt 1599 "late" with
    minted := 1599 + 1 / 2
    actorVerified_le := by norm_num [momentAt] }

theorem mem_world : treeR ∈ world.issued ∧ treeAA ∈ world.issued := by
  simp [world, issued_after_three]

end Example.ExchangeErrors

namespace Server

variable {server : Server} {w : World} {s : ServerState} {moment : Moment} {form : TokenForm}
  {caller : RegisteredClient} {d v : Derivation Signed}

/-- The exchange ends in a token, or in an error response that is not stored. -/
def EndsInOAuth (server : Server) (s : ServerState) (moment : Moment) (form : TokenForm)
    (caller : RegisteredClient) : Prop :=
  ∀ e t, (server.answer moment form (tokenExchangeGrant server.exchange) (some caller)).run s =
    .error e t → ∃ response, oauthErrorHandler e = some response ∧
      ("Cache-Control", "no-store") ∈ response.headers

/-- The form presents two issued tokens. -/
structure PresentsIssued (w : World) (form : TokenForm) (d v : Derivation Signed) : Prop where
  subject_mem : d ∈ w.issued
  actor_mem : v ∈ w.issued
  subject : form.get "subject_token" = some d.value.token
  actor : form.get "actor_token" = some v.value.token

/-- What the exchange relies on besides its own code: PyJWT raises the one
exception it documents, and encodes what the exchange resolves to; the row can
be inserted; the clock was that of a `datetime` when the subject token was
minted. -/
structure Dependable (server : Server) (s : ServerState) (moment : Moment) (form : TokenForm)
    (caller : RegisteredClient) (d : Derivation Signed) : Prop where
  jwt : server.jwt.RaisesInvalidToken
  encodes : ∀ result, server.exchange.resolve s.clients moment form (some caller) = .ok result →
    ∃ token, server.pipeline.minter.encode (server.pipeline.minter.fullClaims moment.minted
      moment.jti (server.pipeline.claims result result.subject
        (joinSpaces (allowedBy result.ceilings result.requestedScopes)))
      none result.maxExpiresAt) = .ok token
  inserts : moment.insertFails = false
  fresh : s.issuedCredentials.find moment.jti = none
  instant : (d.value.exp : ℚ) < endOfInstants

/-- What was asked for is nothing, or some of it is left. -/
def ScopeLeft (form : TokenForm) (x : TokenExchangeGrant.Exchange) : Prop :=
  TokenExchangeGrant.requestedScopes form x.subjectScopes = [] ∨
    ∃ scope ∈ TokenExchangeGrant.requestedScopes form x.subjectScopes,
      scope ∈ x.subjectScopes ∧ scope ∈ x.actorClient.allowedScopes

/-- The exchange passes every check, and what remains is to mint. -/
def ReachesMinting (server : Server) (s : ServerState) (moment : Moment) (form : TokenForm)
    (caller : RegisteredClient) : Prop :=
  ∃ x, server.exchange.Admitted s.clients moment form caller x ∧ ScopeLeft form x

/-- The ceiling of an exchange is the `exp` of the subject token. -/
theorem maxExpiresAt_of_admitted {x : TokenExchangeGrant.Exchange} {subject : Signed}
    (hx : server.exchange.Admitted s.clients moment form caller x)
    (hsubject : server.Genuine subject) (hread : Presentable subject)
    (hinstant : (subject.exp : ℚ) < endOfInstants)
    (hform : form.get "subject_token" = some subject.token) : x.maxExpiresAt = subject.exp := by
  have hclaims := claims_of_verify hsubject hform hx.subjectToken hx.subjectClaims
  have hexp := hx.maxExpiresAt
  have hverify := hx.subjectClaims
  rw [hclaims] at hexp hverify
  exact Except.ok.inj (hexp.symm.trans (returns_exp hread hinstant hverify))

/-- An admitted exchange ends as its minting does. -/
theorem oauth_issue_of_admitted {x : TokenExchangeGrant.Exchange}
    (hx : server.exchange.Admitted s.clients moment form caller x)
    (hdependable : server.Dependable s moment form caller d) :
    (∀ e t, (server.pipeline.issue moment (x.result form caller)).run s = .error e t →
        e.error? ≠ none) ↔
      (ScopeLeft form x → moment.minted + 1 ≤ x.maxExpiresAt) := by
  have hresult := TokenExchangeGrant.resolve_eq_ok.mpr ⟨caller, x, rfl, hx, rfl⟩
  have hlife :
      1 ≤ server.minter.expiresAt moment.minted none (some x.maxExpiresAt) - moment.minted ↔
        moment.minted + 1 ≤ x.maxExpiresAt := one_le_expiresAt_iff
  rw [ScopeLeft, ← allowedBy_ne_nil_iff, ← hlife]
  exact oauth_issue_iff rfl rfl (hdependable.encodes _ hresult) hdependable.inserts
    hdependable.fresh

/-- **Every refused exchange is an OAuth error**, exactly when it does not reach
the minting in the last second of its subject token. -/
theorem exchange_errors_iff (hw : server.system.Reachable w) (hpresents : PresentsIssued w form d v)
    (hdependable : server.Dependable s moment form caller d) :
    server.EndsInOAuth s moment form caller ↔
      (server.ReachesMinting s moment form caller → moment.minted + 1 ≤ d.value.exp) := by
  have hsubject := issued_genuine hw d hpresents.subject_mem
  have hactor := issued_genuine hw v hpresents.actor_mem
  have hread := presentable_of_holds (issued_holds_of_reachable hw d hpresents.subject_mem)
  have hreadActor := presentable_of_holds (issued_holds_of_reachable hw v hpresents.actor_mem)
  have hissue : ∀ x, server.exchange.Admitted s.clients moment form caller x →
      ((∀ e t, (server.pipeline.issue moment (x.result form caller)).run s = .error e t →
          e.error? ≠ none) ↔
        (ScopeLeft form x → moment.minted + 1 ≤ d.value.exp)) := by
    intro x hx
    rw [oauth_issue_of_admitted hx hdependable,
      maxExpiresAt_of_admitted hx hsubject hread hdependable.instant hpresents.subject]
  simp only [EndsInOAuth, oauthErrorHandler_isSome_iff]
  constructor
  · rintro hends ⟨x, hx, hleft⟩
    refine (hissue x hx).mp (fun e t herror => ?_) hleft
    exact hends e t (answer_eq_error.mpr
      (.inr ⟨_, TokenExchangeGrant.resolve_eq_ok.mpr ⟨caller, x, rfl, hx, rfl⟩, herror⟩))
  · intro hlife e t herror
    rcases answer_eq_error.mp herror with ⟨hrefused, _⟩ | ⟨result, hresult, hissued⟩
    · exact oauth_resolve hdependable.jwt hsubject hactor hread hreadActor hdependable.instant
        hpresents.subject hpresents.actor e hrefused
    · obtain ⟨caller', x, hcaller, hx, rfl⟩ := TokenExchangeGrant.resolve_eq_ok.mp hresult
      obtain rfl := Option.some.inj hcaller
      exact (hissue x hx).mpr (fun hleft => hlife ⟨x, hx, hleft⟩) e t hissued

theorem exchange_errors_iff_formRA :
    Example.server.EndsInOAuth Example.ExchangeErrors.world.state Example.ExchangeErrors.momentRA
        Example.ExchangeErrors.formRA Example.clientC ↔
      (Example.server.ReachesMinting Example.ExchangeErrors.world.state
          Example.ExchangeErrors.momentRA Example.ExchangeErrors.formRA Example.clientC →
        Example.ExchangeErrors.momentRA.minted + 1 ≤ Example.treeR.value.exp) := by
  have hanswered : (value? ((Example.server.answer Example.ExchangeErrors.momentRA
      Example.ExchangeErrors.formRA (tokenExchangeGrant Example.server.exchange)
      (some Example.clientC)).run Example.ExchangeErrors.world.state)).isSome := by
    decide +kernel
  obtain ⟨response, hvalue⟩ := Option.isSome_iff_exists.mp hanswered
  obtain ⟨t, hrun⟩ := value?_eq_some.mp hvalue
  obtain ⟨result, y, _, hresult, hy, _⟩ := answer_eq_ok.mp hrun
  obtain ⟨_, x, _, _, rfl⟩ := TokenExchangeGrant.resolve_eq_ok.mp hresult
  have hpresents : PresentsIssued Example.ExchangeErrors.world Example.ExchangeErrors.formRA
      Example.treeR Example.treeAA :=
    ⟨Example.ExchangeErrors.mem_world.1, Example.ExchangeErrors.mem_world.2, by decide, by decide⟩
  refine exchange_errors_iff (Example.after_reachable _) hpresents
    ⟨TokenBook.raisesInvalidToken _ _, fun result' hresult' => ?_, rfl, by decide +kernel,
      by decide +kernel⟩
  obtain rfl := Except.ok.inj (hresult.symm.trans hresult')
  exact ((IssuancePipeline.exists_prepared_iff rfl).mp ⟨y, hy⟩).2.2.2

/-- The exchange of a token in its last second raises a `TokenError`. -/
theorem last_second_escapes :
    let form : TokenForm := ⟨Example.ExchangeErrors.formRA.fields ++ [("scope", "y")]⟩
    Example.server.system.Reachable Example.ExchangeErrors.world ∧
      PresentsIssued Example.ExchangeErrors.world form Example.treeR Example.treeAA ∧
      outcome ((Example.server.answer Example.ExchangeErrors.lastSecond form
          (tokenExchangeGrant Example.server.exchange) (some Example.clientC)).run
            Example.ExchangeErrors.world.state) =
        .error (.token "the requested lifetime has already elapsed") ∧
      ¬ Example.server.EndsInOAuth Example.ExchangeErrors.world.state
        Example.ExchangeErrors.lastSecond form Example.clientC := by
  intro form
  have hraised : outcome ((Example.server.answer Example.ExchangeErrors.lastSecond form
      (tokenExchangeGrant Example.server.exchange) (some Example.clientC)).run
        Example.ExchangeErrors.world.state) =
      .error (.token "the requested lifetime has already elapsed") := by
    decide +kernel
  refine ⟨Example.after_reachable _, ⟨Example.ExchangeErrors.mem_world.1,
    Example.ExchangeErrors.mem_world.2, by decide, by decide⟩, hraised, fun hends => ?_⟩
  obtain ⟨t, hrun⟩ := outcome_eq_error.mp hraised
  obtain ⟨_, hhandled, _⟩ := hends _ t hrun
  simp [oauthErrorHandler, Exc.asOAuth?] at hhandled

end Server

end AgentOAuth
