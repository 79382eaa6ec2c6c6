import AgentOAuth.Lib.Transition
import AgentOAuth.Model.ResourceVerifier
import AgentOAuth.Model.TokenBook

/-!
# The two verifiers agree

The authorization server verifies with the key it holds, a resource server with
what discovery publishes.  `consuming` runs the resource server's verifier
against a deployment: each request fails or reaches the deployment's own routes.
In every state of such a run both verifiers return the same claims for every
token, or both refuse it, unless the cache has expired and the requests made for
it fail (`verifiers_agree`).

The invariant is on the cache: once it has been filled it holds the one
published key, and before that it is expired (`Sound`).
-/

namespace AgentOAuth

open Effect Transition

/-- A server and the configuration it was built from. -/
structure Deployment where
  server : Server
  configuration : Configuration
  settings_eq : configuration.toSettings = server.settings

/-- How the network treats the requests of one refresh.  The metadata are
assembled from the clients that are registered at that moment. -/
structure Delivery where
  now : ℚ
  metadata : Except HttpExc ClientTable
  jwks : Except HttpExc Unit
  fetchedAt : ℚ

/-- A token that is handed to the resource server. -/
structure Presentation where
  token : String
  now : ℚ
  arrival : ℚ
  regular : Delivery
  forced : Delivery

/-- The verifier's cache, and the last reading of the monotonic clock. -/
structure Consumer where
  cache : KeyCache := {}
  clock : ℚ := 0
  deriving DecidableEq

namespace Deployment

variable (site : Deployment)

/-- The body of a GET request: an error response raises, and there is nothing
under other paths. -/
def body (delivery : Delivery) (url : String) : Except HttpExc Value :=
  if url = site.server.settings.urlFor "/.well-known/oauth-authorization-server" then
    delivery.metadata.map fun clients =>
      .dict (site.server.getOauthAuthorizationServer site.configuration clients)
  else if url = site.server.settings.urlFor "/.well-known/jwks.json" then do
    let _ ← delivery.jwks
    match site.server.getJwks with
    | .ok jwks => .ok (.dict jwks)
    | .error _ => .error .http
  else .error .http

/-- What `_refresh` meets on a site. -/
def refresh (delivery : Delivery) : Refresh where
  now := delivery.now
  get := site.body delivery
  fetchedAt := delivery.fetchedAt

/-- What `validate` meets on a site. -/
def visit (presented : Presentation) : Visit where
  arrival := presented.arrival
  regular := site.refresh presented.regular
  forced := site.refresh presented.forced

/-- The resource server's verifier, configured for this server. -/
def remote (audience : String) (cacheTtlSeconds forcedRefreshIntervalSeconds : ℚ) :
    AuthorizationServerVerifier :=
  .configure site.server.jwt site.server.settings.issuer audience cacheTtlSeconds
    forcedRefreshIntervalSeconds

end Deployment

/-- The clock does not go back. -/
def Consumer.Timely (consumer : Consumer) (presented : Presentation) : Prop :=
  consumer.clock ≤ presented.arrival ∧ presented.arrival ≤ presented.regular.now ∧
    presented.regular.now ≤ presented.regular.fetchedAt ∧
      presented.regular.fetchedAt ≤ presented.forced.now ∧
        presented.forced.now ≤ presented.forced.fetchedAt

/-- Requests made while the cache is expired succeed. -/
def Consumer.Served (consumer : Consumer) (presented : Presentation) : Prop :=
  consumer.cache.cacheExpiresAt ≤ presented.arrival →
    presented.regular.metadata.isOk ∧ presented.regular.jwks.isOk

instance (consumer : Consumer) (presented : Presentation) : Decidable (consumer.Timely presented) :=
  inferInstanceAs (Decidable (_ ∧ _ ∧ _ ∧ _ ∧ _))

instance (consumer : Consumer) (presented : Presentation) : Decidable (consumer.Served presented) :=
  inferInstanceAs (Decidable (_ → _ ∧ _))

/-- A resource server that validates tokens one after the other. -/
def consuming (site : Deployment) (verifier : AuthorizationServerVerifier) :
    System Consumer Presentation where
  init consumer := consumer.cache = {} ∧ 0 ≤ consumer.clock
  step consumer presented :=
    if consumer.Timely presented then
      some {
        cache := finalState
          ((verifier.validate (site.visit presented) presented.now presented.token).run
            consumer.cache)
        clock := presented.forced.fetchedAt }
    else none

/-! ## What a refresh fetches -/

namespace Deployment

variable {site : Deployment} {verifier : AuthorizationServerVerifier} {delivery : Delivery}
  {presented : Presentation} {consumer : Consumer} {cache : KeyCache} {jwk : Dict}

/-- Settings have no trailing slash to lose. -/
theorem issuer_remote (audience : String) (ttl interval : ℚ) :
    (site.remote audience ttl interval).issuer = site.server.settings.issuer := by
  have hslash := site.server.settings.issuer_no_trailing_slash
  have hkept : site.server.settings.issuer.toList.rdropWhile (· = '/') =
      site.server.settings.issuer.toList := by
    rw [List.rdropWhile_eq_self_iff]
    intro hne hlast
    apply hslash
    rw [List.getLast?_eq_some_getLast hne, of_decide_eq_true hlast]
  rw [remote, AuthorizationServerVerifier.configure, hkept, String.ofList_toList]

theorem body_metadata :
    site.body delivery (site.server.settings.issuer ++ "/.well-known/oauth-authorization-server") =
      delivery.metadata.map fun clients =>
        .dict (site.server.getOauthAuthorizationServer site.configuration clients) :=
  if_pos rfl

/-- Discovery names the server's issuer and its JWKS. -/
theorem get_metadata (clients : ClientTable) :
    Dict.get (site.server.getOauthAuthorizationServer site.configuration clients) "issuer" =
        .str site.server.settings.issuer ∧
      Dict.get (site.server.getOauthAuthorizationServer site.configuration clients) "jwks_uri" =
        .str (site.server.settings.urlFor "/.well-known/jwks.json") := by
  rw [← site.settings_eq]
  exact site.server.get_getOauthAuthorizationServer site.configuration clients

section

variable (hjwk : site.server.signingKey.publicJwk = .ok jwk)
include hjwk

theorem body_jwks :
    site.body delivery (site.server.settings.urlFor "/.well-known/jwks.json") =
      delivery.jwks.map fun _ => .dict [("keys", .list [.dict jwk])] := by
  have hne : site.server.settings.urlFor "/.well-known/jwks.json" ≠
      site.server.settings.urlFor "/.well-known/oauth-authorization-server" := by
    intro heq
    have hpaths := (String.append_right_inj _).mp heq
    exact absurd hpaths (by decide)
  have hjwks : site.server.getJwks = .ok [("keys", .list [.dict jwk])] := by
    rw [Server.getJwks, hjwk]
    rfl
  rw [body, if_neg hne, if_pos rfl]
  cases delivery.jwks with
  | error e => rfl
  | ok u =>
      rw [hjwks]
      rfl

/-- The published key is usable, and the only one. -/
theorem foldl_addKey :
    [Value.dict jwk].foldl AuthorizationServerVerifier.addKey [] =
      [(site.server.signingKey.kid, jwk)] := by
  obtain ⟨hkey, hkid⟩ := SigningKey.describedBy_publicJwk hjwk
  have halg : Dict.get jwk "alg" = .str "ES256" := hkey.alg
  simp [AuthorizationServerVerifier.addKey, hkid, hkey.kty, hkey.crv, halg]

variable (hissuer : verifier.issuer = site.server.settings.issuer)
include hissuer

/-- A refresh fetches keys exactly when both requests reach the server, and what
it fetches then is the server's key. -/
theorem fetchKeys_eq_ok {keys : KeysByKid} :
    verifier.fetchKeys (site.body delivery) = .ok keys ↔
      (delivery.metadata.isOk ∧ delivery.jwks.isOk) ∧
        keys = [(site.server.signingKey.kid, jwk)] := by
  have hbody : site.body delivery (site.server.settings.urlFor "/.well-known/jwks.json") =
      delivery.jwks.map fun _ => .dict [("keys", .list [.dict jwk])] :=
    body_jwks hjwk
  simp only [AuthorizationServerVerifier.fetchKeys, hissuer, body_metadata, bind_eq_ok,
    refuseFailedRequest_eq_ok, Value.members_eq_ok, Value.requireStr_eq_ok,
    Value.requireList_eq_ok, raiseIf_eq_ok, not_not, pure_eq_ok, map_eq_ok, isOk_iff]
  constructor
  · rintro ⟨_, ⟨clients, hclients, rfl⟩, document, hdocument, _, _, uri, huri, _, hget, _, rfl,
      items, hitems, _, _, rfl⟩
    obtain rfl := Value.dict.inj hdocument
    obtain rfl := Value.str.inj ((get_metadata clients).2.symm.trans huri)
    obtain ⟨u, hjwks, hdict⟩ := map_eq_ok.mp (hbody.symm.trans hget)
    obtain rfl := Value.dict.inj hdict
    obtain rfl := Value.list.inj hitems
    exact ⟨⟨⟨clients, hclients⟩, ⟨u, hjwks⟩⟩, foldl_addKey hjwk⟩
  · intro h
    obtain ⟨⟨⟨clients, hclients⟩, ⟨u, hjwks⟩⟩, rfl⟩ := h
    obtain ⟨hnamed, huri⟩ := @get_metadata site clients
    have husable := foldl_addKey hjwk
    refine ⟨_, ⟨clients, hclients, rfl⟩, _, rfl, (), hnamed, _, huri, _,
      hbody.trans (map_eq_ok.mpr ⟨u, hjwks, rfl⟩), _, rfl, [.dict jwk], rfl, (), ?_, husable⟩
    rw [husable]
    exact List.cons_ne_nil _ _

end

/-! ## The cache -/

/-- The cache holds the published key and no other. -/
def Holds (site : Deployment) (jwk : Dict) (cache : KeyCache) : Prop :=
  cache.keysByKid = [(site.server.signingKey.kid, jwk)]

/-- A cache that has not been filled yet is expired since the clock started. -/
def Sound (site : Deployment) (jwk : Dict) (cache : KeyCache) : Prop :=
  site.Holds jwk cache ∨ cache.keysByKid = [] ∧ cache.cacheExpiresAt = 0

/-- A filled cache answers for the server's own `kid` only. -/
theorem Holds.lookup (hholds : site.Holds jwk cache) (kid : String) :
    cache.keysByKid.lookup kid = if kid = site.server.signingKey.kid then some jwk else none := by
  rw [hholds]
  by_cases hkid : kid = site.server.signingKey.kid
  · rw [if_pos hkid, hkid, List.lookup_cons_self]
  · rw [if_neg hkid, List.lookup_cons, beq_false_of_ne hkid, List.lookup_nil]

section

variable (hjwk : site.server.signingKey.publicJwk = .ok jwk)
  (hissuer : verifier.issuer = site.server.settings.issuer)
include hjwk hissuer

/-- A refresh does not lose the key: it is skipped, fails or brings the key again. -/
theorem Holds.refresh (hholds : site.Holds jwk cache) (force : Bool) (delivery : Delivery) :
    site.Holds jwk (finalState ((verifier.refresh force (site.refresh delivery)).run cache)) := by
  rw [AuthorizationServerVerifier.run_refresh]
  split
  · exact hholds
  · cases hfetch : verifier.fetchKeys (site.refresh delivery).get with
    | error e => exact hholds
    | ok keys => exact ((fetchKeys_eq_ok hjwk hissuer).mp hfetch).2

variable (hclock : 0 ≤ consumer.clock) (htimely : consumer.Timely presented)
  (hserved : consumer.Served presented)
include hclock htimely hserved

/-- After `_refresh_if_needed` the cache holds the key. -/
theorem Sound.refreshIfNeeded (hsound : site.Sound jwk consumer.cache) :
    ∃ cache, (verifier.refreshIfNeeded (site.visit presented)).run consumer.cache = .ok () cache ∧
      site.Holds jwk cache := by
  obtain ⟨harrival, hlock, _⟩ := htimely
  have hvisit : (site.visit presented).arrival = presented.arrival := rfl
  rw [AuthorizationServerVerifier.run_refreshIfNeeded, hvisit]
  by_cases hexpired : consumer.cache.cacheExpiresAt ≤ presented.arrival
  · have hfetches : ¬ AuthorizationServerVerifier.Skips consumer.cache false
        (site.visit presented).regular.now := not_lt.mpr (hexpired.trans hlock)
    have hfetch : verifier.fetchKeys (site.visit presented).regular.get =
        .ok [(site.server.signingKey.kid, jwk)] :=
      (fetchKeys_eq_ok hjwk hissuer).mpr ⟨hserved hexpired, rfl⟩
    rw [if_pos hexpired, AuthorizationServerVerifier.run_refresh, if_neg hfetches, hfetch]
    exact ⟨_, rfl, rfl⟩
  · have hfilled : site.Holds jwk consumer.cache := by
      rcases hsound with hholds | ⟨_, hstart⟩
      · exact hholds
      · exact absurd (hstart ▸ hclock.trans harrival) hexpired
    rw [if_neg hexpired]
    exact ⟨consumer.cache, rfl, hfilled⟩

/-- `_key_for` returns the published key under its own `kid`. -/
theorem Sound.keyFor_own (hsound : site.Sound jwk consumer.cache) :
    ∃ cache, (verifier.keyFor (site.visit presented) site.server.signingKey.kid).run
      consumer.cache = .ok jwk cache ∧ site.Holds jwk cache := by
  obtain ⟨cache, hrun, hholds⟩ :=
    hsound.refreshIfNeeded hjwk hissuer hclock htimely hserved
  refine ⟨cache, ?_, hholds⟩
  rw [AuthorizationServerVerifier.keyFor, run_bind_of_ok hrun, run_get_bind,
    hholds.lookup, if_pos rfl]
  rfl

/-- `_key_for` raises for any other `kid`: a forced refresh brings no other key,
whether it is skipped, fails or succeeds. -/
theorem Sound.keyFor_other (hsound : site.Sound jwk consumer.cache) {kid : String}
    (hkid : kid ≠ site.server.signingKey.kid) :
    ∃ e cache, (verifier.keyFor (site.visit presented) kid).run consumer.cache = .error e cache ∧
      site.Holds jwk cache := by
  obtain ⟨cache, hrun, hholds⟩ :=
    hsound.refreshIfNeeded hjwk hissuer hclock htimely hserved
  have hafter : site.Holds jwk (finalState
      ((verifier.refresh true (site.visit presented).forced).run cache)) :=
    hholds.refresh hjwk hissuer true presented.forced
  rw [AuthorizationServerVerifier.keyFor, run_bind_of_ok hrun, run_get_bind, hholds.lookup,
    if_neg hkid]
  cases hforced : (verifier.refresh true (site.visit presented).forced).run cache with
  | error e after =>
      rw [hforced] at hafter
      exact ⟨e, after, run_bind_eq_error.mpr (.inl hforced), hafter⟩
  | ok u after =>
      rw [hforced, finalState_ok] at hafter
      refine ⟨.tokenValidation "token key ID is not published by the authorization server",
        after, ?_, hafter⟩
      change (verifier.refresh true (site.visit presented).forced >>= _).run cache = _
      rw [run_bind_of_ok hforced, run_get_bind, hafter.lookup, if_neg hkid]
      rfl

/-- `validate` accepts what names the server's key and decodes under it. -/
theorem Sound.validate_eq_ok (hsound : site.Sound jwk consumer.cache) {now : ℚ} {token : String}
    {claims : Dict} :
    value? ((verifier.validate (site.visit presented) now token).run consumer.cache) = some claims ↔
      verifier.namedKey token = .ok site.server.signingKey.kid ∧
        verifier.decodeWith now token jwk = .ok claims := by
  simp only [value?_eq_some, AuthorizationServerVerifier.validate, run_bind_eq_ok, run_lift_eq_ok]
  constructor
  · intro h
    obtain ⟨after, kid, _, ⟨hnamed, rfl⟩, key, _, hkey, hdecode, rfl⟩ := h
    by_cases hkid : kid = site.server.signingKey.kid
    · subst hkid
      obtain ⟨cache, hrun, _⟩ := hsound.keyFor_own hjwk hissuer hclock htimely hserved
      obtain ⟨rfl, _⟩ := EStateM.Result.ok.inj (hrun.symm.trans hkey)
      exact ⟨hnamed, hdecode⟩
    · obtain ⟨e, cache, hrun, _⟩ := hsound.keyFor_other hjwk hissuer hclock htimely hserved hkid
      exact absurd (hrun.symm.trans hkey) (by simp)
  · intro h
    obtain ⟨hnamed, hdecode⟩ := h
    obtain ⟨cache, hrun, _⟩ := hsound.keyFor_own hjwk hissuer hclock htimely hserved
    exact ⟨cache, _, _, ⟨hnamed, rfl⟩, jwk, cache, hrun, hdecode, rfl⟩

/-- A cache that is served stays sound, however `validate` ends. -/
theorem Sound.validate_of_served (hsound : site.Sound jwk consumer.cache) (now : ℚ) (token : String) :
    site.Sound jwk (finalState
      ((verifier.validate (site.visit presented) now token).run consumer.cache)) := by
  rw [AuthorizationServerVerifier.validate]
  cases hnamed : verifier.namedKey token with
  | error e => exact hsound
  | ok kid =>
      rw [run_lift_bind_of_ok rfl]
      by_cases hkid : kid = site.server.signingKey.kid
      · subst hkid
        obtain ⟨cache, hrun, hholds⟩ := hsound.keyFor_own hjwk hissuer hclock htimely hserved
        rw [run_bind_of_ok hrun, finalState_lift]
        exact .inl hholds
      · obtain ⟨e, cache, hrun, hholds⟩ :=
          hsound.keyFor_other hjwk hissuer hclock htimely hserved hkid
        rw [run_bind_eq_error.mpr (.inl hrun)]
        exact .inl hholds

end

section

variable (hjwk : site.server.signingKey.publicJwk = .ok jwk)
  (hissuer : verifier.issuer = site.server.settings.issuer) (htimely : consumer.Timely presented)
include hjwk hissuer htimely

/-- When the requests for an expired cache fail, it is left as it is. -/
theorem finalState_validate_of_not_served (hnot : ¬ consumer.Served presented) (now : ℚ)
    (token : String) :
    finalState ((verifier.validate (site.visit presented) now token).run consumer.cache) =
      consumer.cache := by
  obtain ⟨hexpired, hfails⟩ := Classical.not_imp.mp hnot
  obtain ⟨_, hlock, _⟩ := htimely
  have hfetches : ¬ AuthorizationServerVerifier.Skips consumer.cache false
      (site.visit presented).regular.now := not_lt.mpr (hexpired.trans hlock)
  -- nothing is fetched, so `_refresh_if_needed` raises
  obtain ⟨e, hfetch⟩ : ∃ e, verifier.fetchKeys (site.visit presented).regular.get = .error e := by
    cases hfetch : verifier.fetchKeys (site.visit presented).regular.get with
    | ok keys => exact absurd ((fetchKeys_eq_ok hjwk hissuer).mp hfetch).1 hfails
    | error e => exact ⟨e, rfl⟩
  have hrefresh : (verifier.refreshIfNeeded (site.visit presented)).run consumer.cache =
      .error e consumer.cache := by
    have hvisit : (site.visit presented).arrival = presented.arrival := rfl
    rw [AuthorizationServerVerifier.run_refreshIfNeeded, hvisit, if_pos hexpired,
      AuthorizationServerVerifier.run_refresh, if_neg hfetches, hfetch]
  rw [AuthorizationServerVerifier.validate]
  cases verifier.namedKey token with
  | error e => rfl
  | ok kid =>
      rw [run_lift_bind_of_ok rfl, finalState_bind_of_keeps fun _ => keeps_lift _,
        AuthorizationServerVerifier.keyFor, run_bind_eq_error.mpr (.inl hrefresh)]
      rfl

/-- However `validate` ends, the cache stays sound. -/
theorem Sound.validate (hclock : 0 ≤ consumer.clock) (hsound : site.Sound jwk consumer.cache)
    (now : ℚ) (token : String) :
    site.Sound jwk (finalState
      ((verifier.validate (site.visit presented) now token).run consumer.cache)) := by
  by_cases hserved : consumer.Served presented
  · exact hsound.validate_of_served hjwk hissuer hclock htimely hserved now token
  · rw [finalState_validate_of_not_served hjwk hissuer htimely hserved]
    exact hsound

end

/-! ## Every run -/

/-- In every state of a run the cache is sound. -/
theorem consuming_sound (hjwk : site.server.signingKey.publicJwk = .ok jwk)
    (hissuer : verifier.issuer = site.server.settings.issuer)
    (hrun : (consuming site verifier).Reachable consumer) :
    site.Sound jwk consumer.cache ∧ 0 ≤ consumer.clock := by
  refine hrun.invariant (P := fun consumer => site.Sound jwk consumer.cache ∧ 0 ≤ consumer.clock)
    ?_ ?_
  · rintro consumer ⟨hcache, hclock⟩
    refine ⟨.inr ?_, hclock⟩
    rw [hcache]
    exact ⟨rfl, rfl⟩
  · rintro consumer presented after _ ⟨hsound, hclock⟩ hstep
    simp only [consuming, Option.ite_none_right_eq_some, Option.some.injEq] at hstep
    obtain ⟨htimely, rfl⟩ := hstep
    refine ⟨hsound.validate hjwk hissuer htimely hclock _ _, ?_⟩
    obtain ⟨harrival, hlock, hfetched, hforced, hlast⟩ := htimely
    exact hclock.trans (harrival.trans (hlock.trans (hfetched.trans (hforced.trans hlast))))

end Deployment

namespace Example.Discovery

def jwk : Dict := [
  ("kty", .str "EC"),
  ("crv", .str "P-256"),
  ("x", .str "axfR8uEsQkf4vOblY6RA8ncDfYEt6zOg9KE5RdiYwpY"),
  ("y", .str "T-NC4v4af5uO5-tKfA-eFivOM1drMV7Oy7ZAaDe_UfU"),
  ("kid", .str basePointKey.kid),
  ("use", .str "sig"),
  ("alg", .str "ES256")]

def entry (token kid : String) : BookEntry where
  token
  header := TokenBook.encodedHeader [("kid", .str kid), ("typ", .str AT_JWT)]
  payload := [("iss", .str "https://as"), ("iat", .int 1000), ("exp", .int 1600), ("jti", .str token),
    ("sub", .str "root"), ("aud", .str "agent-resource")]
  signer := basePointKey.publicKey

def good : BookEntry := entry "good" basePointKey.kid

/-- The same claims under a `kid` that nobody publishes. -/
def stranger : BookEntry := entry "stranger" "other"

def book : TokenBook := ⟨[good, stranger], by decide⟩

def site : Deployment where
  server := {
    settings
    signingKey := basePointKey
    jwt := { book.pyJwt [] with
      keyOfJwk := fun jwk =>
        if Dict.get jwk "kty" = .str "EC" ∧
            Dict.get jwk "x" = .str "axfR8uEsQkf4vOblY6RA8ncDfYEt6zOg9KE5RdiYwpY" ∧
            Dict.get jwk "y" = .str "T-NC4v4af5uO5-tKfA-eFivOM1drMV7Oy7ZAaDe_UfU" then
          .ok basePointKey.publicKey
        else .error .pyJwk }
    hasher
    interpreter }
  configuration := { settings with
    keyDirectory := "keys"
    databaseUrl := "postgresql://localhost"
    metadataOverlay := [("service_documentation", .str "https://docs")]
    databaseUrl_ne := by decide
    metadataOverlay_descriptive := by decide }
  settings_eq := rfl

def remote : AuthorizationServerVerifier := site.remote "agent-resource" 60 5

/-- The first request fetches the documents; the forced refresh fails. -/
def first : Presentation where
  token := "stranger"
  now := 1100
  arrival := 10
  regular := ⟨10, .ok Table.empty, .ok (), 11⟩
  forced := ⟨16, .error .http, .ok (), 16⟩

def afterFirst : Consumer where
  cache := remote.filled [(basePointKey.kid, jwk)] 11
  clock := 16

def second : Presentation where
  token := "good"
  now := 1101
  arrival := 17
  regular := ⟨17, .error .http, .error .http, 17⟩
  forced := ⟨17, .error .http, .error .http, 17⟩

/-- The stand-in reads every JWK that describes the base point. -/
theorem read_describedBy (jwk : Dict) (h : site.server.signingKey.publicKey.DescribedBy jwk) :
    site.server.jwt.keyOfJwk jwk = .ok site.server.signingKey.publicKey := by
  have hcoordinates :
      (toBytes coordinateSize basePointKey.publicKey.x).map base64url =
          .ok "axfR8uEsQkf4vOblY6RA8ncDfYEt6zOg9KE5RdiYwpY" ∧
        (toBytes coordinateSize basePointKey.publicKey.y).map base64url =
          .ok "T-NC4v4af5uO5-tKfA-eFivOM1drMV7Oy7ZAaDe_UfU" := by
    decide +kernel
  obtain ⟨x, hx, hgetx⟩ := h.x
  obtain ⟨y, hy, hgety⟩ := h.y
  obtain ⟨x', hx', htextx⟩ := map_eq_ok.mp hcoordinates.1
  obtain ⟨y', hy', htexty⟩ := map_eq_ok.mp hcoordinates.2
  obtain rfl := Except.ok.inj (hx.symm.trans hx')
  obtain rfl := Except.ok.inj (hy.symm.trans hy')
  rw [htextx] at hgetx
  rw [htexty] at hgety
  exact if_pos ⟨h.kty, hgetx, hgety⟩

end Example.Discovery

namespace Deployment

/-- **The two verifiers agree.**  The hypotheses are what the key store and
PyJWT promise: the key has its thumbprint as `kid`, and a JWK that describes the
key is read as that key. -/
theorem verifiers_agree {sha256 : Sha256} (hstore : site.server.signingKey.FromStore sha256)
    (hread : ∀ jwk, site.server.signingKey.publicKey.DescribedBy jwk →
      site.server.jwt.keyOfJwk jwk = .ok site.server.signingKey.publicKey)
    {audience : String} {ttl interval : ℚ}
    (hrun : (consuming site (site.remote audience ttl interval)).Reachable consumer)
    (htimely : consumer.Timely presented) (hserved : consumer.Served presented) (claims : Dict) :
    site.server.verifier.verify presented.now presented.token audience = .ok claims ↔
      value? (((site.remote audience ttl interval).validate (site.visit presented) presented.now
        presented.token).run consumer.cache) = some claims := by
  obtain ⟨jwk, hjwk⟩ := hstore.publicJwk
  have hissuer : (site.remote audience ttl interval).issuer = site.server.settings.issuer :=
    issuer_remote audience ttl interval
  obtain ⟨hsound, hclock⟩ := consuming_sound hjwk hissuer hrun
  have hkey := hread jwk (SigningKey.describedBy_publicJwk hjwk).1
  rw [hsound.validate_eq_ok hjwk hissuer hclock htimely hserved,
    AuthorizationServerVerifier.namedKey_eq_ok, TokenVerifier.verify,
    TokenVerifier.verifyToken_eq_ok, AuthorizationServerVerifier.decodeWith,
    refuseInvalidToken_eq_ok, hissuer]
  -- the published JWK reads back as the key that signs
  change _ ↔ _ ∧ (site.server.jwt.keyOfJwk jwk >>= _) = _
  rw [hkey]
  constructor
  · intro h
    obtain ⟨hheader, hdecode⟩ := h
    exact ⟨⟨hheader, hstore.kid_ne_empty⟩, hdecode⟩
  · intro h
    obtain ⟨⟨hheader, _⟩, hdecode⟩ := h
    exact ⟨hheader, hdecode⟩

/-- The cache was filled on behalf of a token under an unknown `kid`. -/
theorem verifiers_agree_cached :
    value? ((Example.Discovery.remote.validate
      (Example.Discovery.site.visit Example.Discovery.second) 1101 "good").run
        Example.Discovery.afterFirst.cache) = some Example.Discovery.good.payload := by
  have hstart : (consuming Example.Discovery.site Example.Discovery.remote).Reachable {} :=
    .init ⟨rfl, le_rfl⟩
  have hrun : (consuming Example.Discovery.site Example.Discovery.remote).Reachable
      Example.Discovery.afterFirst :=
    hstart.step Example.Discovery.first (by decide +kernel)
  have htimely : Example.Discovery.afterFirst.Timely Example.Discovery.second := by
    decide +kernel
  have hserved : Example.Discovery.afterFirst.Served Example.Discovery.second := by
    decide +kernel
  have hverified : Example.Discovery.site.server.verifier.verify 1101 "good" "agent-resource" =
      .ok Example.Discovery.good.payload := by
    decide +kernel
  exact (verifiers_agree Example.basePointKey_fromStore Example.Discovery.read_describedBy hrun
    htimely hserved _).mp hverified

end Deployment

end AgentOAuth
