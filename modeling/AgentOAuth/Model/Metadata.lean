import AgentOAuth.Model.Config
import AgentOAuth.Model.Keys
import Mathlib.Data.Finset.Union

/-!
# The discovery documents

`src/api/metadata.py` and the two `/.well-known` routes of `src/api/routes.py`.
The metadata document is assembled from what is installed; a deployment adds
descriptive entries last, and `Settings` has refused any that declare a
capability.
-/

namespace AgentOAuth

open Effect

/-- What discovery reads of an installed grant. -/
structure GrantAdvertisement where
  grantType : String
  /-- `response_types`. -/
  responseTypes : List String
  /-- `metadata(settings)`. -/
  metadata : Settings → Dict

/-- A list of strings. -/
def strings (values : List String) : Value :=
  .list (values.map .str)

/-- `sorted` of a set: every member once. -/
def sortedSet (values : List String) : List String :=
  sorted values.dedup

/-- `GrantRegistry.response_types()`, sorted. -/
def responseTypes (grants : List GrantAdvertisement) : List String :=
  sortedSet (grants.flatMap GrantAdvertisement.responseTypes)

/-- The scopes of all clients, sorted. -/
def supportedScopes (clients : ClientTable) : List String :=
  sortedMembers (clients.rows.toFinset.biUnion RegisteredClient.allowedScopes)

/-- `authorization_server_metadata(settings, grants, auth_methods, clients)`. -/
def authorizationServerMetadata (settings : Configuration) (grants : List GrantAdvertisement)
    (authMethods : List String) (clients : ClientTable) : Dict :=
  let document : Dict := [
    ("issuer", .str settings.issuer),
    ("token_endpoint", .str (settings.urlFor "/oauth/token")),
    ("jwks_uri", .str (settings.urlFor "/.well-known/jwks.json")),
    ("grant_types_supported", strings (sortedSet (grants.map GrantAdvertisement.grantType))),
    ("response_types_supported", strings (responseTypes grants)),
    ("token_endpoint_auth_methods_supported", strings (sortedSet authMethods)),
    ("scopes_supported", strings (supportedScopes clients))]
  let document := grants.foldl (fun document grant =>
    Dict.update document (grant.metadata settings.toSettings)) document
  Dict.update document settings.metadataOverlay

/-- Neither of the two grants has response types or metadata of its own. -/
def advertisement (grant : Grant) : GrantAdvertisement where
  grantType := grant.grantType
  responseTypes := []
  metadata _ := []

/-- `GET /.well-known/oauth-authorization-server`. -/
def Server.getOauthAuthorizationServer (server : Server) (settings : Configuration)
    (clients : ClientTable) : Dict :=
  authorizationServerMetadata settings (server.grants.rows.map advertisement)
    (server.authMethods.rows.map ClientAuthMethod.name) clients

/-- `GET /.well-known/jwks.json`. -/
def Server.getJwks (server : Server) : Except Exc Dict := do
  let jwk ← server.signingKey.publicJwk
  pure [("keys", .list [.dict jwk])]

/-! ## What the documents say -/

theorem get_update_of_notMem {d other : Dict} {name : String} (h : name ∉ Dict.keys other) :
    Dict.get (Dict.update d other) name = Dict.get d name := by
  rw [Dict.get, Dict.get, Dict.lookup_update_of_notMem h]

/-- The overlay cannot touch an entry that only the code may assert. -/
theorem notMem_overlay (settings : Configuration) {name : String}
    (h : name ∈ DERIVED_METADATA_KEYS) : name ∉ Dict.keys settings.metadataOverlay := by
  have hnone := settings.metadataOverlay_descriptive
  rw [declaredCapabilities, List.filter_eq_nil_iff] at hnone
  simpa using hnone name h

/-- Grants that declare nothing leave the document as it is. -/
theorem foldl_update_of_silent {settings : Settings} {grants : List GrantAdvertisement}
    (h : ∀ grant ∈ grants, grant.metadata settings = []) (document : Dict) :
    grants.foldl (fun document grant => Dict.update document (grant.metadata settings)) document =
      document := by
  induction grants generalizing document with
  | nil => rfl
  | cons grant rest ih =>
      rw [List.foldl_cons, h grant List.mem_cons_self]
      exact ih (fun g hg => h g (List.mem_cons_of_mem _ hg)) document

/-- Discovery names the configured issuer, and the JWKS under it. -/
theorem Server.get_getOauthAuthorizationServer (server : Server) (settings : Configuration)
    (clients : ClientTable) :
    Dict.get (server.getOauthAuthorizationServer settings clients) "issuer" = .str settings.issuer ∧
      Dict.get (server.getOauthAuthorizationServer settings clients) "jwks_uri" =
        .str (settings.urlFor "/.well-known/jwks.json") := by
  have hsilent : ∀ grant ∈ server.grants.rows.map advertisement,
      grant.metadata settings.toSettings = [] := by
    intro grant hgrant
    obtain ⟨_, _, rfl⟩ := List.mem_map.mp hgrant
    rfl
  have hissuer : "issuer" ∉ Dict.keys settings.metadataOverlay :=
    notMem_overlay settings (by decide)
  have hjwks : "jwks_uri" ∉ Dict.keys settings.metadataOverlay :=
    notMem_overlay settings (by decide)
  rw [getOauthAuthorizationServer, authorizationServerMetadata, foldl_update_of_silent hsilent,
    get_update_of_notMem hissuer, get_update_of_notMem hjwks]
  exact ⟨rfl, rfl⟩

end AgentOAuth
