import AgentOAuth.Model.Metadata
import AgentOAuth.Model.TokenBook

/-!
# What discovery advertises

The overlay of a deployment is merged last, and `Settings` refuses one that has
any of eleven names.  The names that RFC 8414 gives a meaning are more: every
`…_endpoint` and `…_supported` declares a capability.  Such a member is computed
from what is installed exactly when the overlay has none of these names
(`advertises_installed_iff`).
-/

namespace AgentOAuth

open Effect

/-- The member is a claim about what the server can do. -/
def DeclaresCapability (name : String) : Prop :=
  name = "jwks_uri" ∨ "_endpoint".toList <:+ name.toList ∨ "_supported".toList <:+ name.toList

instance (name : String) : Decidable (DeclaresCapability name) := by
  unfold DeclaresCapability
  infer_instance

/-- What discovery reads of grants whose `metadata()` is empty. -/
def silentAdvertisement (responseTypes : Grant → List String) (grant : Grant) :
    GrantAdvertisement where
  grantType := grant.grantType
  responseTypes := responseTypes grant
  metadata _ := []

/-- The settings of a deployment that adds nothing to the document. -/
def Configuration.withoutOverlay (settings : Configuration) : Configuration :=
  { settings with metadataOverlay := [], metadataOverlay_descriptive := rfl }

section

variable (settings : Configuration) (grants : GrantRegistry) (responseTypes : Grant → List String)
  (methods : ClientAuthRegistry) (clients : ClientTable)

/-- The document of a server with these grants and authentication methods. -/
def discoveryDocument : Dict :=
  authorizationServerMetadata settings (grants.rows.map (silentAdvertisement responseTypes))
    (methods.rows.map ClientAuthMethod.name) clients

/-- Discovery advertises only what is installed. -/
structure AdvertisesInstalled : Prop where
  /-- What declares a capability is what a server without an overlay says. -/
  computed : ∀ name, DeclaresCapability name →
    List.lookup name (discoveryDocument settings grants responseTypes methods clients) =
      List.lookup name
        (discoveryDocument settings.withoutOverlay grants responseTypes methods clients)
  /-- The advertised grant types are those the registry knows. -/
  grantTypes : ∃ types,
    Dict.get (discoveryDocument settings grants responseTypes methods clients)
        "grant_types_supported" = strings types ∧
      ∀ grantType, grantType ∈ types ↔ grants.get grantType ≠ .error unsupportedGrantType

end

variable {settings : Configuration} {grants : GrantRegistry} {responseTypes : Grant → List String}
  {methods : ClientAuthRegistry} {clients : ClientTable}

/-! ## The document, overlay apart -/

/-- The overlay is merged into the document that a server without one has. -/
theorem discoveryDocument_eq_update :
    discoveryDocument settings grants responseTypes methods clients =
      Dict.update (discoveryDocument settings.withoutOverlay grants responseTypes methods clients)
        settings.metadataOverlay := rfl

/-- Grants that say nothing add nothing. -/
theorem silent_of_mem {settings : Settings} {grant : GrantAdvertisement}
    (h : grant ∈ grants.rows.map (silentAdvertisement responseTypes)) :
    grant.metadata settings = [] := by
  obtain ⟨_, _, rfl⟩ := List.mem_map.mp h
  rfl

/-- Without an overlay the document has seven members. -/
theorem keys_discoveryDocument_withoutOverlay :
    Dict.keys (discoveryDocument settings.withoutOverlay grants responseTypes methods clients) =
      ["issuer", "token_endpoint", "jwks_uri", "grant_types_supported", "response_types_supported",
        "token_endpoint_auth_methods_supported", "scopes_supported"] := by
  rw [discoveryDocument, authorizationServerMetadata,
    foldl_update_of_silent fun _ => silent_of_mem]
  rfl

/-- A deployment may set none of them. -/
theorem notMem_withoutOverlay {name : String} (h : name ∈ Dict.keys settings.metadataOverlay) :
    name ∉ Dict.keys
      (discoveryDocument settings.withoutOverlay grants responseTypes methods clients) := by
  rw [keys_discoveryDocument_withoutOverlay]
  intro hmem
  have hderived : name ∈ DERIVED_METADATA_KEYS := by
    revert hmem
    simp only [DERIVED_METADATA_KEYS, List.mem_cons, List.not_mem_nil, or_false]
    tauto
  exact notMem_overlay settings hderived h

/-- The grant types of the document are those of the registry, whatever the
overlay says. -/
theorem grantTypes_discoveryDocument : ∃ types,
    Dict.get (discoveryDocument settings grants responseTypes methods clients)
        "grant_types_supported" = strings types ∧
      ∀ grantType, grantType ∈ types ↔ grants.get grantType ≠ .error unsupportedGrantType := by
  refine ⟨sortedSet ((grants.rows.map (silentAdvertisement responseTypes)).map
    GrantAdvertisement.grantType), ?_, fun grantType => ?_⟩
  · rw [discoveryDocument, authorizationServerMetadata,
      foldl_update_of_silent fun _ => silent_of_mem,
      get_update_of_notMem (notMem_overlay settings (by decide))]
    rfl
  · have hmem : grantType ∈ sortedSet ((grants.rows.map (silentAdvertisement responseTypes)).map
        GrantAdvertisement.grantType) ↔ ∃ grant, grants.get grantType = .ok grant := by
      simp [sortedSet, silentAdvertisement, GrantRegistry.get_eq_ok, Table.mem_iff]
    rw [hmem, GrantRegistry.get]
    cases grants.find grantType <;> simp

/-! ## What the overlay adds -/

/-- **When discovery advertises only what is installed**: exactly when no name
in the overlay declares a capability. -/
theorem advertises_installed_iff (settings : Configuration) (grants : GrantRegistry)
    (responseTypes : Grant → List String) (methods : ClientAuthRegistry) (clients : ClientTable) :
    AdvertisesInstalled settings grants responseTypes methods clients ↔
      ∀ name ∈ Dict.keys settings.metadataOverlay, ¬ DeclaresCapability name := by
  constructor
  · intro h name hname hcapability
    have hset : name ∈ Dict.keys
        (discoveryDocument settings grants responseTypes methods clients) := by
      rw [discoveryDocument_eq_update]
      exact Dict.mem_keys_update.mpr (.inr hname)
    have hsame := h.computed name hcapability
    rw [← Dict.lookup_isSome_iff_mem_keys, hsame, Dict.lookup_isSome_iff_mem_keys] at hset
    exact notMem_withoutOverlay hname hset
  · intro h
    refine ⟨fun name hcapability => ?_, grantTypes_discoveryDocument⟩
    rw [discoveryDocument_eq_update]
    apply Dict.lookup_update_of_notMem
    exact fun hname => h name hname hcapability

namespace Example

/-- Settings that pass, with the endpoint of a grant that is not installed. -/
def overlaid : Configuration :=
  { server.settings with
    keyDirectory := "keys"
    databaseUrl := "postgresql://oauth"
    metadataOverlay := [("authorization_endpoint", .str "https://as/authorize")]
    databaseUrl_ne := by decide
    metadataOverlay_descriptive := by decide }

end Example

/-- `Settings` accepts the overlay, and the document of the server advertises an
endpoint that none of its grants has. -/
theorem advertised_by_overlay :
    Example.overlaid.arguments.validate = .ok Example.overlaid ∧
      List.lookup "authorization_endpoint"
        (discoveryDocument Example.overlaid Example.server.grants (fun _ => [])
          Example.server.authMethods Table.empty) = some (.str "https://as/authorize") ∧
      ¬ AdvertisesInstalled Example.overlaid Example.server.grants (fun _ => [])
        Example.server.authMethods Table.empty := by
  refine ⟨SettingsArguments.validate_eq_ok.mpr rfl, rfl, fun h => ?_⟩
  have hset : "authorization_endpoint" ∈ Dict.keys Example.overlaid.metadataOverlay := by decide
  apply notMem_withoutOverlay hset
  rw [← Dict.lookup_isSome_iff_mem_keys, ← h.computed "authorization_endpoint" (by decide)]
  rfl

end AgentOAuth
