import AgentOAuth.Proofs.Authority
import AgentOAuth.Proofs.MintVerify
import AgentOAuth.Proofs.ScopeStrings
import AgentOAuth.Proofs.VerifierParity

/-!
# Who reads a report

The authorization server and a resource server, each with its own state: token
requests, changes of the registry and requests for `/reports` in any order.
A report is given out exactly for a token that the authorization server has
issued, for this audience, with the scope, and within its lifetime
(`reports_iff`); and then the authority behind it can be traced to logins and
registrations of the same run (`report_on_authority`).

Three things are asked of the rest of the world.  PyJWT decodes what it encoded,
a bearer token that verifies is no forgery, and a report that needs the published
keys can fetch them.  The last two are asked for the report in question only: at
any other turn a fetch may fail.
-/

namespace AgentOAuth

open Effect Provenance Transition

/-- The second a token was issued. -/
def Signed.iat (a : Signed) : ℤ :=
  match Dict.get a.claims "iat" with
  | .int iat => iat
  | _ => 0

theorem Signed.iat_eq {a : Signed} {iat : ℤ} (h : Dict.get a.claims "iat" = .int iat) :
    a.iat = iat := by
  rw [Signed.iat, h]

/-- The token is for the audience, and has begun but not ended. -/
structure Signed.Accepted (a : Signed) (audience : String) (now : ℚ) : Prop where
  addressed : Dict.get a.claims "aud" = .str audience
  named : audience ≠ ""
  begun : (a.iat : ℚ) ≤ now
  alive : now < a.exp

/-! ## The verifier on issued tokens -/

theorem IssuancePipeline.Prepared.lookup_nbf {pipeline : IssuancePipeline} {moment : Moment}
    {result : GrantResult} {y : IssuancePipeline.Issuance}
    (h : IssuancePipeline.Prepared pipeline moment result y) (hextra : result.extraClaims = []) :
    List.lookup "nbf" (signedPayload y.minted.claims) = none := by
  have hminted : List.lookup "nbf" y.minted.claims =
      List.lookup "nbf" (pipeline.claims result result.subject y.scope) :=
    TokenMinter.lookup_of_mint h.minted (IssuancePipeline.nodup_keys_claims _ _ _ _) (by decide)
  rw [lookup_signedPayload, hminted, IssuancePipeline.claims, hextra]
  simp [Dict.update, Dict.lookup_setSome, Dict.lookup_cons, TENANT_CLAIM, TASK_CLAIM, ACT_CLAIM,
    DEPTH_CLAIM]

namespace Server

variable {server : Server} {moment : Moment} {request : Request} {s : ServerState} {x : Success}
  {audience : String} {now : ℚ} {claims : Dict}

theorem Succeeds.registered (h : server.Succeeds moment request s x) :
    RegisteredClaims x.payload where
  iss := ⟨_, h.signedFrom.iss⟩
  aud := ⟨_, h.signedFrom.aud⟩
  sub := ⟨_, h.signedFrom.sub⟩
  jti := ⟨_, h.signedFrom.jti⟩
  iat := ⟨_, h.signedFrom.iat⟩
  exp := ⟨_, h.signedFrom.exp⟩
  nbf := by
    rw [← Dict.lookup_isSome_iff_mem_keys, Option.not_isSome_iff_eq_none]
    exact h.prepared.lookup_nbf h.extraClaims_eq

/-- The claims of a token are in order when it has begun, is alive, and is for
the audience that is expected, if any is. -/
theorem Succeeds.inOrder_iff (h : server.Succeeds moment request s x) {expected : Option String} :
    (server.minter.decodeOptions expected).InOrder now x.payload ↔
      (x.token.iat : ℚ) ≤ now ∧ now < x.token.exp ∧ ∀ audience, expected = some audience →
        Dict.get x.payload "aud" = .str audience ∧ audience ≠ "" := by
  have hsigned := h.signedFrom
  have hiat : x.token.iat = ⌊moment.minted⌋ := Signed.iat_eq hsigned.iat
  have hexp := Signed.exp_eq (a := x.token) hsigned.exp
  constructor
  · intro hin
    refine ⟨?_, ?_, fun audience hexpected => ?_⟩
    · rw [hiat]
      exact hin.begun _ hsigned.iat
    · rw [hexp]
      exact hin.alive _ hsigned.exp
    · subst hexpected
      obtain ⟨wanted, hwanted, hne, haud⟩ := hin.audience rfl
      obtain rfl : audience = wanted := Option.some.inj hwanted
      exact ⟨haud, hne⟩
  · rintro ⟨hbegun, halive, hexpected⟩
    refine ⟨by simp [TokenMinter.decodeOptions], ?_, ?_, ?_, ?_, ?_⟩
    · simp [TokenMinter.decodeOptions, REQUIRED_CLAIMS, hsigned.iss, hsigned.sub, hsigned.aud,
        hsigned.iat, hsigned.exp, hsigned.jti]
    · intro iat heq
      obtain rfl : x.token.iat = iat := Signed.iat_eq heq
      exact hbegun
    · intro exp heq
      obtain rfl : x.token.exp = exp := Signed.exp_eq heq
      exact halive
    · intro issuer hissuer
      obtain rfl : server.minter.issuer = issuer := Option.some.inj hissuer
      exact hsigned.iss
    · intro hverify
      obtain ⟨audience, rfl⟩ := Option.isSome_iff_exists.mp hverify
      obtain ⟨haud, hne⟩ := hexpected audience rfl
      exact ⟨audience, rfl, hne, haud⟩

/-- **What the verifier makes of a token of the server.** -/
theorem Succeeds.verifyToken_iff (hjwt : server.jwt.RoundTrips)
    (h : server.Succeeds moment request s x) {expected : Option String} :
    server.verifier.verifyToken now x.token.token expected = .ok claims ↔
      (server.minter.decodeOptions expected).InOrder now x.payload ∧ claims = x.payload := by
  have hencode := TokenMinter.encode_of_mint h.prepared.minted
  have hverify : server.verifier.verifyToken now x.token.token expected =
      exceptInvalidToken (server.jwt.decode (server.minter.decodeOptions expected)
        server.signingKey.publicKey now x.token.token)
          (.error (.token "token validation failed")) :=
    TokenMinter.verifyToken_of_mint hjwt h.prepared.minted now expected
  rw [hverify, exceptInvalidToken_error_eq_ok]
  by_cases hin : (server.minter.decodeOptions expected).InOrder now x.payload
  · have hdecode : server.jwt.decode (server.minter.decodeOptions expected)
        server.signingKey.publicKey now x.token.token = .ok x.payload :=
      hjwt.accept hencode h.registered hin
    rw [hdecode, Except.ok.injEq]
    exact ⟨fun heq => ⟨hin, heq.symm⟩, fun hboth => hboth.2.symm⟩
  · have hdecode : server.jwt.decode (server.minter.decodeOptions expected)
        server.signingKey.publicKey now x.token.token = .error .invalidToken :=
      hjwt.refuse hencode h.registered hin
    rw [hdecode]
    constructor
    · intro heq
      cases heq
    · intro hboth
      exact absurd hboth.1 hin

theorem Succeeds.verify_iff (hjwt : server.jwt.RoundTrips)
    (h : server.Succeeds moment request s x) :
    server.verifier.verify now x.token.token audience = .ok claims ↔
      x.token.Accepted audience now ∧ claims = x.payload := by
  rw [TokenVerifier.verify, h.verifyToken_iff hjwt, h.inOrder_iff]
  refine and_congr_left fun _ => ⟨?_, fun haccepted => ?_⟩
  · rintro ⟨hbegun, halive, hexpected⟩
    obtain ⟨haddressed, hnamed⟩ := hexpected audience rfl
    exact ⟨haddressed, hnamed, hbegun, halive⟩
  · refine ⟨haccepted.begun, haccepted.alive, fun wanted hwanted => ?_⟩
    obtain rfl : audience = wanted := Option.some.inj hwanted
    exact ⟨haccepted.addressed, haccepted.named⟩

/-- The scopes a resource server reads are those the next exchange reads. -/
theorem Succeeds.scopesOf_eq (h : server.Succeeds moment request s x)
    (interpreter : Interpreter) : scopesOf interpreter x.payload = x.token.scopes := by
  obtain ⟨hround, hholds⟩ := h.roundTrips
  rw [(hround.resourceServer interpreter _ hholds).1, Signed.scopes_eq h.parse_scope]

/-- The subject a resource server reads. -/
theorem Succeeds.lookup_sub (h : server.Succeeds moment request s x) :
    List.lookup "sub" x.payload = some (.str x.token.subject) := by
  have hget : Dict.get x.payload "sub" = .str x.token.subject := by
    rw [Signed.subject_eq h.signedFrom.sub]
    exact h.signedFrom.sub
  unfold Dict.get at hget
  cases hlookup : List.lookup "sub" x.payload with
  | none =>
      rw [hlookup] at hget
      cases hget
  | some v =>
      rw [hlookup] at hget
      exact congrArg some hget

end Server

/-! ## The two servers -/

/-- What a request for a report meets: the header, the wall clock, and the
requests of the verifier. -/
structure ReportRequest where
  authorization : Option String
  now : ℚ
  arrival : ℚ
  regular : Delivery
  forced : Delivery

/-- The token that is validated, if the header has one. -/
def ReportRequest.presentation (r : ReportRequest) : Presentation where
  token := (bearerToken r.authorization).toOption.getD ""
  now := r.now
  arrival := r.arrival
  regular := r.regular
  forced := r.forced

/-- Both servers. -/
structure Network where
  world : World
  consumer : Consumer

/-- Which of them is at work. -/
inductive Turn
  /-- The authorization server takes a step. -/
  | serve (event : Event)
  /-- Somebody asks the resource server for a report. -/
  | report (request : ReportRequest)

namespace Deployment

variable (site : Deployment) (remote : AuthorizationServerVerifier)

/-- `/reports` of a resource server that discovers the deployment. -/
def report (request : ReportRequest) : EStateM RouteExc KeyCache Dict :=
  readReports site.server.interpreter remote (site.visit request.presentation) request.now
    request.authorization

/-- Both servers taking turns, from an empty key cache.  A report leaves the cache as
it finds it, or with the keys it fetched. -/
def network : System Network Turn where
  init n := site.server.system.init n.world ∧ n.consumer.cache = {} ∧ 0 ≤ n.consumer.clock
  step n
    | .serve event => (site.server.step n.world event).map fun world => { n with world }
    | .report request =>
        if n.consumer.Timely request.presentation then
          some { n with consumer := {
            cache := finalState ((site.report remote request).run n.consumer.cache)
            clock := request.forced.fetchedAt } }
        else none

/-- A bearer token that verifies was issued. -/
def BearsIssued (audience : String) (n : Network) (request : ReportRequest) : Prop :=
  ∀ token, bearerToken request.authorization = .ok token → ∀ claims,
    site.server.verifier.verify request.now token audience = .ok claims →
      ∃ d ∈ n.world.issued, d.value.token = token

variable {site remote} {n : Network} {r : ReportRequest} {jwk body : Dict} {sha256 : Sha256}
  {audience : String} {ttl interval : ℚ}

section

variable (hjwk : site.server.signingKey.publicJwk = .ok jwk)
  (hissuer : remote.issuer = site.server.settings.issuer) (hclock : 0 ≤ n.consumer.clock)
  (htimely : n.consumer.Timely r.presentation) (hsound : site.Sound jwk n.consumer.cache)
include hjwk hissuer hclock htimely hsound

/-- Whatever comes of a request for a report, the cache stays sound. -/
theorem Sound.report :
    site.Sound jwk (finalState ((site.report remote r).run n.consumer.cache)) := by
  rw [Deployment.report, readReports, validatedClaims]
  cases htoken : bearerToken r.authorization with
  | error e => exact hsound
  | ok token =>
      have hvalidate := hsound.validate hjwk hissuer htimely hclock r.now token
      -- after the validation nothing touches the cache
      rw [finalState_bind_of_keeps fun claims => (keeps_lift _).bind fun _ =>
        (keeps_lift _).bind fun _ => keeps_pure _, run_lift_bind_of_ok rfl, finalState_adaptExcept]
      exact hvalidate

end

/-- In every state of a run the cache is sound, and the world is one of a run of
the server. -/
theorem network_sound (hjwk : site.server.signingKey.publicJwk = .ok jwk)
    (hissuer : remote.issuer = site.server.settings.issuer)
    (hn : (site.network remote).Reachable n) :
    site.server.system.Reachable n.world ∧ site.Sound jwk n.consumer.cache ∧
      0 ≤ n.consumer.clock := by
  refine hn.invariant (P := fun n => site.server.system.Reachable n.world ∧
    site.Sound jwk n.consumer.cache ∧ 0 ≤ n.consumer.clock) ?_ ?_
  · rintro n ⟨hworld, hcache, hclock⟩
    refine ⟨.init hworld, .inr ?_, hclock⟩
    rw [hcache]
    exact ⟨rfl, rfl⟩
  · rintro n turn n' _ ⟨hworld, hsound, hclock⟩ hstep
    cases turn with
    | serve event =>
        obtain ⟨w, hw, rfl⟩ := Option.map_eq_some_iff.mp hstep
        exact ⟨hworld.step event hw, hsound, hclock⟩
    | report r =>
        simp only [network, Option.ite_none_right_eq_some, Option.some.injEq] at hstep
        obtain ⟨htimely, rfl⟩ := hstep
        refine ⟨hworld, hsound.report hjwk hissuer hclock htimely, ?_⟩
        obtain ⟨harrival, hlock, hfetched, hforced, hlast⟩ := htimely
        exact hclock.trans (harrival.trans (hlock.trans (hfetched.trans (hforced.trans hlast))))

/-- The remote verifier accepts what the server's own does. -/
theorem Sound.validate_iff_verify (hjwk : site.server.signingKey.publicJwk = .ok jwk)
    (hkey : site.server.jwt.keyOfJwk jwk = .ok site.server.signingKey.publicKey)
    (hkid : site.server.signingKey.kid ≠ "") (hclock : 0 ≤ n.consumer.clock)
    (htimely : n.consumer.Timely r.presentation) (hserved : n.consumer.Served r.presentation)
    (hsound : site.Sound jwk n.consumer.cache) {token : String} {claims : Dict} :
    value? (((site.remote audience ttl interval).validate (site.visit r.presentation) r.now
        token).run n.consumer.cache) = some claims ↔
      site.server.verifier.verify r.now token audience = .ok claims := by
  have hissuer : (site.remote audience ttl interval).issuer = site.server.settings.issuer :=
    issuer_remote audience ttl interval
  rw [hsound.validate_eq_ok hjwk hissuer hclock htimely hserved,
    AuthorizationServerVerifier.namedKey_eq_ok, TokenVerifier.verify,
    TokenVerifier.verifyToken_eq_ok, AuthorizationServerVerifier.decodeWith,
    refuseInvalidToken_eq_ok, hissuer]
  change _ ∧ (site.server.jwt.keyOfJwk jwk >>= _) = _ ↔ _
  rw [hkey]
  constructor
  · intro h
    obtain ⟨⟨hheader, _⟩, hdecode⟩ := h
    exact ⟨hheader, hdecode⟩
  · intro h
    obtain ⟨hheader, hdecode⟩ := h
    exact ⟨⟨hheader, hkid⟩, hdecode⟩

/-- A report is given out for the claims that the server's own verifier
returns. -/
theorem report_eq_some (hstore : site.server.signingKey.FromStore sha256)
    (hread : ∀ jwk, site.server.signingKey.publicKey.DescribedBy jwk →
      site.server.jwt.keyOfJwk jwk = .ok site.server.signingKey.publicKey)
    (hn : (site.network (site.remote audience ttl interval)).Reachable n)
    (htimely : n.consumer.Timely r.presentation) (hserved : n.consumer.Served r.presentation) :
    value? ((site.report (site.remote audience ttl interval) r).run n.consumer.cache) =
        some body ↔
      ∃ token claims subject, bearerToken r.authorization = .ok token ∧
        site.server.verifier.verify r.now token audience = .ok claims ∧
          "reports:read" ∈ scopesOf site.server.interpreter claims ∧
            claims.lookup "sub" = some subject ∧
              body = [("subject", subject), ("report", .str "access granted")] := by
  obtain ⟨jwk, hjwk⟩ := hstore.publicJwk
  have hissuer : (site.remote audience ttl interval).issuer = site.server.settings.issuer :=
    issuer_remote audience ttl interval
  obtain ⟨_, hsound, hclock⟩ := network_sound hjwk hissuer hn
  have hkey := hread jwk (SigningKey.describedBy_publicJwk hjwk).1
  have hverify : ∀ token claims, value? (((site.remote audience ttl interval).validate
      (site.visit r.presentation) r.now token).run n.consumer.cache) = some claims ↔
        site.server.verifier.verify r.now token audience = .ok claims := fun token claims =>
    hsound.validate_iff_verify hjwk hkey hstore.kid_ne_empty hclock htimely hserved
  simp only [value?_eq_some] at hverify
  simp only [value?_eq_some, report, readReports_eq_ok]
  constructor
  · intro h
    obtain ⟨after, token, claims, subject, htoken, hvalidate, hrest⟩ := h
    exact ⟨token, claims, subject, htoken, (hverify token claims).mp ⟨after, hvalidate⟩, hrest⟩
  · intro h
    obtain ⟨token, claims, subject, htoken, hclaims, hrest⟩ := h
    obtain ⟨after, hvalidate⟩ := (hverify token claims).mpr hclaims
    exact ⟨after, token, claims, subject, htoken, hvalidate, hrest⟩

/-- The token behind a report is one that was issued. -/
theorem exists_issued_of_report (hstore : site.server.signingKey.FromStore sha256)
    (hread : ∀ jwk, site.server.signingKey.publicKey.DescribedBy jwk →
      site.server.jwt.keyOfJwk jwk = .ok site.server.signingKey.publicKey)
    (hn : (site.network (site.remote audience ttl interval)).Reachable n)
    (htimely : n.consumer.Timely r.presentation) (hserved : n.consumer.Served r.presentation)
    (hissued : site.BearsIssued audience n r)
    (hreport : value? ((site.report (site.remote audience ttl interval) r).run n.consumer.cache) =
      some body) :
    ∃ d ∈ n.world.issued, bearerToken r.authorization = .ok d.value.token ∧
      site.server.verifier.verify r.now d.value.token audience = .ok d.value.claims ∧
        "reports:read" ∈ d.value.scopes ∧
          body = [("subject", .str d.value.subject), ("report", .str "access granted")] := by
  obtain ⟨token, claims, subject, htoken, hclaims, hscope, hsubject, rfl⟩ :=
    (report_eq_some hstore hread hn htimely hserved).mp hreport
  obtain ⟨d, hd, rfl⟩ := hissued token htoken claims hclaims
  have hw : site.server.system.Reachable n.world := by
    obtain ⟨jwk, hjwk⟩ := hstore.publicJwk
    exact (network_sound hjwk (issuer_remote audience ttl interval) hn).1
  -- the claims under the signature are those it was issued with
  have hgenuine : site.server.Genuine d.value := Server.issued_genuine hw d hd
  obtain rfl := Except.ok.inj
    ((TokenVerifier.decodeUnverified_of_verifyToken hclaims).symm.trans hgenuine)
  obtain ⟨_, _, moment, request, x, _, _, hx, hvalue⟩ :=
    Server.issuedFor_of_holds (Server.issued_holds_of_reachable hw d hd)
  have hscopes : scopesOf site.server.interpreter d.value.claims = d.value.scopes := by
    rw [hvalue, Server.Success.claims_token, hx.scopesOf_eq]
  have hsub : List.lookup "sub" d.value.claims = some (.str d.value.subject) := by
    rw [hvalue, Server.Success.claims_token, hx.lookup_sub]
  rw [hscopes] at hscope
  rw [hsub, Option.some.injEq] at hsubject
  exact ⟨d, hd, htoken, hclaims, hscope, by rw [hsubject]⟩

/-- **Who reads a report.**  In every state of a run of the two servers, a
request is answered with a report exactly when it bears a token that was issued,
for this audience, that has begun, has not ended and holds the scope; the report
names the holder of the token. -/
theorem reports_iff (hstore : site.server.signingKey.FromStore sha256)
    (hread : ∀ jwk, site.server.signingKey.publicKey.DescribedBy jwk →
      site.server.jwt.keyOfJwk jwk = .ok site.server.signingKey.publicKey)
    (hjwt : site.server.jwt.RoundTrips)
    (hn : (site.network (site.remote audience ttl interval)).Reachable n)
    (htimely : n.consumer.Timely r.presentation) (hserved : n.consumer.Served r.presentation)
    (hissued : site.BearsIssued audience n r) (body : Dict) :
    value? ((site.report (site.remote audience ttl interval) r).run n.consumer.cache) =
        some body ↔
      ∃ d ∈ n.world.issued, bearerToken r.authorization = .ok d.value.token ∧
        d.value.Accepted audience r.now ∧ "reports:read" ∈ d.value.scopes ∧
          body = [("subject", .str d.value.subject), ("report", .str "access granted")] := by
  have hw : site.server.system.Reachable n.world := by
    obtain ⟨jwk, hjwk⟩ := hstore.publicJwk
    exact (network_sound hjwk (issuer_remote audience ttl interval) hn).1
  constructor
  · intro hreport
    obtain ⟨d, hd, htoken, hclaims, hscope, hbody⟩ :=
      exists_issued_of_report hstore hread hn htimely hserved hissued hreport
    obtain ⟨_, _, moment, request, x, _, _, hx, hvalue⟩ :=
      Server.issuedFor_of_holds (Server.issued_holds_of_reachable hw d hd)
    -- it was issued, so to verify is to be accepted now
    rw [hvalue, hx.verify_iff hjwt] at hclaims
    exact ⟨d, hd, htoken, hvalue ▸ hclaims.1, hscope, hbody⟩
  · intro h
    obtain ⟨d, hd, htoken, haccepted, hscope, hbody⟩ := h
    obtain ⟨_, _, moment, request, x, _, _, hx, hvalue⟩ :=
      Server.issuedFor_of_holds (Server.issued_holds_of_reachable hw d hd)
    rw [hvalue] at htoken haccepted hscope hbody
    refine (report_eq_some hstore hread hn htimely hserved).mpr ⟨x.token.token, x.payload,
      .str x.token.subject, htoken, (hx.verify_iff hjwt).mpr ⟨haccepted, rfl⟩, ?_, hx.lookup_sub,
      hbody⟩
    rw [hx.scopesOf_eq]
    exact hscope

end Deployment

/-! ### R logs in and reads a report -/

namespace Example.Reports

def token : BookEntry where
  token := "report"
  header := TokenBook.encodedHeader (mintedHeaders basePointKey.kid)
  payload := [("iss", .str "https://as"), ("iat", .int 1000), ("exp", .int 1600),
    ("jti", .str "report"), ("sub", .str "root"), ("aud", .str "agent-resource"),
    ("client_id", .str "r"), ("delegation_depth", .int 0), ("scope", .str "reports:read"),
    ("task_id", .str "task"), ("tenant", .str "blue")]
  signer := basePointKey.publicKey

def book : TokenBook := ⟨[token], by decide⟩

def site : Deployment where
  server := { Example.Discovery.site.server with
    jwt := { (book.pyJwt []).emptyAudienceAbsent with
      keyOfJwk := Example.Discovery.site.server.jwt.keyOfJwk } }
  configuration := Example.Discovery.site.configuration
  settings_eq := rfl

theorem roundTrips : site.server.jwt.RoundTrips where
  header := (TokenBook.roundTrips book []).header
  accept := (TokenBook.roundTrips book []).accept
  refuse := (TokenBook.roundTrips book []).refuse

theorem read_describedBy (jwk : Dict) (h : site.server.signingKey.publicKey.DescribedBy jwk) :
    site.server.jwt.keyOfJwk jwk = .ok site.server.signingKey.publicKey :=
  Example.Discovery.read_describedBy jwk h

def remote : AuthorizationServerVerifier := site.remote "agent-resource" 60 5

def reader : RegisteredClient := { clientR with allowedScopes := {"reports:read"} }

def start : Network where
  world := { state := { clients := ⟨[reader], by decide⟩ } }
  consumer := {}

def login : Event := .request (momentAt 1000 "report") (ask "r" "reports:read")

def request : ReportRequest where
  authorization := some "Bearer report"
  now := 1100
  arrival := 10
  regular := ⟨10, .ok Table.empty, .ok (), 11⟩
  forced := ⟨16, .error .http, .ok (), 16⟩

/-- R has logged in. -/
theorem exists_reachable : ∃ w, (site.network remote).Reachable { world := w, consumer := {} } ∧
    w.issued = [.root (signed token)] := by
  have hissued : (site.server.step start.world login).map World.issued =
      some [.root (signed token)] := by
    decide +kernel
  obtain ⟨w, hw, hissued⟩ := Option.map_eq_some_iff.mp hissued
  have hstart : (site.network remote).Reachable start := .init ⟨⟨rfl, rfl, rfl⟩, rfl, le_rfl⟩
  refine ⟨w, hstart.step (.serve login) ?_, hissued⟩
  exact Option.map_eq_some_iff.mpr ⟨w, hw, rfl⟩

theorem timely : ({} : Consumer).Timely request.presentation := by
  decide +kernel

theorem served : ({} : Consumer).Served request.presentation := by
  decide +kernel

theorem bearer : bearerToken request.authorization = .ok "report" := by
  decide +kernel

theorem bearsIssued {w : World} (h : w.issued = [.root (signed token)]) :
    site.BearsIssued "agent-resource" { world := w, consumer := {} } request := by
  intro text htext claims _
  obtain rfl := Except.ok.inj (bearer.symm.trans htext)
  exact ⟨_, by rw [h]; exact List.mem_cons_self, rfl⟩

end Example.Reports

namespace Deployment

theorem reports_iff_reader :
    value? ((Example.Reports.site.report Example.Reports.remote Example.Reports.request).run {}) =
      some [("subject", .str "root"), ("report", .str "access granted")] := by
  obtain ⟨w, hn, hissued⟩ := Example.Reports.exists_reachable
  have haccepted : (Example.signed Example.Reports.token).Accepted "agent-resource" 1100 :=
    ⟨by decide +kernel, by decide, by decide +kernel, by decide +kernel⟩
  refine (reports_iff Example.basePointKey_fromStore Example.Reports.read_describedBy
    Example.Reports.roundTrips hn Example.Reports.timely Example.Reports.served
      (Example.Reports.bearsIssued hissued) _).mpr ?_
  exact ⟨.root (Example.signed Example.Reports.token), by simp [hissued], Example.Reports.bearer,
    haccepted, by decide +kernel, by decide +kernel⟩

variable {site : Deployment} {n : Network} {r : ReportRequest} {body : Dict} {sha256 : Sha256}
  {audience : String} {ttl interval : ℚ}

/-- **No report without authority.**  Behind every report there is an issued
token whose holder it names; everybody in the chain of the token has logged in
during the run, and the scope was allowed to the client at its root and to the
registration behind every actor token. -/
theorem report_on_authority (hstore : site.server.signingKey.FromStore sha256)
    (hread : ∀ jwk, site.server.signingKey.publicKey.DescribedBy jwk →
      site.server.jwt.keyOfJwk jwk = .ok site.server.signingKey.publicKey)
    (hn : (site.network (site.remote audience ttl interval)).Reachable n)
    (htimely : n.consumer.Timely r.presentation) (hserved : n.consumer.Served r.presentation)
    (hissued : site.BearsIssued audience n r)
    (hreport : value? ((site.report (site.remote audience ttl interval) r).run n.consumer.cache) =
      some body) {past : List (World × Event)} (hrun : site.server.system.Run past n.world) :
    ∃ d ∈ n.world.issued, ∃ actors, chain d.value.claims = .ok (d.value.subject :: actors) ∧
      body = [("subject", .str d.value.subject), ("report", .str "access granted")] ∧
      (∀ name ∈ d.value.subject :: actors, site.server.LoggedIn past n.world name) ∧
      site.server.RootMay past "reports:read" d.source ∧
      ∀ b subject actor, Derivation.Ancestor (.derived b subject actor) d →
        site.server.HopMay past "reports:read" subject actor b := by
  obtain ⟨d, hd, _, _, hscope, hbody⟩ :=
    exists_issued_of_report hstore hread hn htimely hserved hissued hreport
  have hhistory := Server.history_of_holds (Server.issued_holds_of_reachable hrun.reachable d hd)
  obtain ⟨subject, actors, hsub, _, _, _, hidentities⟩ := chain_eq_ok.mp hhistory.chain
  obtain rfl : subject = d.value.subject := (Signed.subject_eq hsub).symm
  have hchain : chain d.value.claims = .ok (d.value.subject :: actors) := by
    rw [hhistory.chain, hidentities]
  exact ⟨d, hd, actors, hchain, hbody, Server.loggedIn_of_chain hrun hd hchain,
    Server.may_of_scope hrun hd hscope⟩

theorem report_on_authority_reader :
    ∃ w past d, Example.Reports.site.server.system.Run past w ∧ d ∈ w.issued ∧
      (∃ actors, chain d.value.claims = .ok ("root" :: actors)) ∧
      Example.Reports.site.server.LoggedIn past w "root" ∧
      Example.Reports.site.server.RootMay past "reports:read" d.source := by
  obtain ⟨w, hn, hissued⟩ := Example.Reports.exists_reachable
  obtain ⟨jwk, hjwk⟩ := Example.basePointKey_fromStore.publicJwk
  obtain ⟨past, hrun⟩ := (network_sound hjwk (issuer_remote _ _ _) hn).1.exists_run
  have hreport : value? ((Example.Reports.site.report Example.Reports.remote
      Example.Reports.request).run {}) =
        some [("subject", .str "root"), ("report", .str "access granted")] := by
    decide +kernel
  obtain ⟨d, hd, actors, hchain, hbody, hloggedIn, hroot, _⟩ :=
    report_on_authority Example.basePointKey_fromStore Example.Reports.read_describedBy hn
      Example.Reports.timely Example.Reports.served (Example.Reports.bearsIssued hissued) hreport
        hrun
  have hsubject : d.value.subject = "root" := by simpa using hbody.symm
  rw [hsubject] at hchain hloggedIn
  exact ⟨w, past, d, hrun, hd, ⟨actors, hchain⟩, hloggedIn _ List.mem_cons_self, hroot⟩

end Deployment

end AgentOAuth
